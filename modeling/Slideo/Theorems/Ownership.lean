import Slideo.Server

/-! What a handler may read and write. It looks up only what its request names and lists only what is its
    user's. Before it touches a presentation that exists, it has looked the presentation up and found its
    user as the owner; what it creates belongs to its user. -/

namespace Slideo
open Js Interleave

/-- What a request has learned: the presentations it saw as its user's own, and whether its transaction
    is open. -/
structure Rights where
  owned : Set String
  inTx : Bool

namespace Rights

def none : Rights := ⟨∅, false⟩

def add (m : Rights) (id : String) (P : Prop) : Rights := { m with owned := { x | x ∈ m.owned ∨ (x = id ∧ P) } }

end Rights

/-- What a request is about: its user, the presentation and the share token that it looks up. -/
structure Scope where
  user : Option String
  target : Option String
  token : Option String

def Endpoint.target? : Endpoint → Option String
  | .getPresentationById id | .updatePresentation id _ | .deletePresentation id | .exportToPptx id
  | .getSharedPresentation id _ => some id
  | _ => none

/-- The share token that a request carries. -/
def Endpoint.token? : Endpoint → Option String
  | .resolveShareToken token => some token
  | .getSharedPresentation _ token => toStr token
  | _ => none

def Request.scope (env : Env) (req : Request) : Scope :=
  ⟨(req.user? env).map (·.id), req.endpoint.target?, req.endpoint.token?⟩

/-- The discipline of a request. -/
def ownership (a : Scope) : Monitor Query Query.Answer Err Rights where
  Allowed m
    | .presentationFindUnique id => a.target = some id
    | .presentationFindFirst _ userId | .presentationFindMany userId _ _ => a.user = some userId
    | .shareTokenFindUnique token => a.token = some token
    | .presentationCreate userId _ _ => a.user = some userId ∧ m.inTx = false
    | .presentationUpdate id _ | .presentationDelete id | .slideDeleteMany id | .slideCreateMany id _
    | .shareTokenCreate id _ _ _ _ => id ∈ m.owned
    | _ => True
  next m
    | .begin, .ok _ => { m with inTx := true }
    | .commit, _ | .rollback, _ => { m with inTx := false }
    | .presentationFindUnique id, .ok (some deck) => m.add id (a.user = some deck.row.userId)
    | .presentationFindFirst id userId, .ok (some _) => m.add id (a.user = some userId)
    | _, _ => m

section Rules
variable {State : Type} {M : Monitor Query Query.Answer Err State} {m : State}

/-- A handler's `try` with its `catch`. -/
theorem ensures_guarded {onError : Err → Response} {body : Handler Response}
    {Post : State → Except Err Response → Prop} (h : M.Ensures m body Post)
    (herror : ∀ m' e, Post m' (.error e) → Post m' (.ok (onError e))) :
    M.Ensures m (guarded onError body) Post :=
  h.caught (fun _ _ h => h) herror

/-- A value that may be missing throws a `TypeError`. -/
theorem ensures_ofOption_bind {α β : Type} {o : Option α} {f : α → Handler β} {Post : State → Except Err β → Prop}
    (hnone : Post m (.error .typeError)) (h : ∀ a, o = some a → M.Ensures m (f a) Post) :
    M.Ensures m (ofOption o >>= f) Post := by
  cases o with
  | none => exact hnone
  | some a => exact h a rfl

theorem obeys_guarded {onError : Err → Response} {body : Handler Response} (h : M.Obeys m body) :
    M.Obeys m (guarded onError body) :=
  ensures_guarded h fun _ _ _ => trivial

theorem obeys_ofOption_bind {α β : Type} {o : Option α} {f : α → Handler β}
    (h : ∀ a, o = some a → M.Obeys m (f a)) :
    M.Obeys m (ofOption o >>= f) :=
  ensures_ofOption_bind trivial h

/-- What throws in a transaction is rolled back; what ends in it is committed, unless the `COMMIT` fails. -/
theorem ensures_transaction {α : Type} {body : Handler α} {Ended Post : State → Except Err α → Prop}
    (hbegin : M.Allowed m .begin) (hclosed : ∀ e, Post (M.next m .begin (.error e)) (.error e))
    (hbody : M.Ensures (M.next m .begin (.ok ())) body Ended)
    (hrollback : ∀ m' e, Ended m' (.error e) →
      M.Allowed m' .rollback ∧ ∀ r e', Post (M.next m' .rollback r) (.error e'))
    (hcommit : ∀ m' a, Ended m' (.ok a) → M.Allowed m' .commit ∧
      Post (M.next m' .commit (.ok ())) (.ok a) ∧ ∀ e, Post (M.next m' .commit (.error e)) (.error e)) :
    M.Ensures m (transaction body) Post := by
  refine Monitor.Ensures.ask_bind hbegin (fun _ => ?_) hclosed
  refine Monitor.Ensures.bind (Monitor.Ensures.tryCatch (hbody.mono fun m' r hr => ?_))
  cases r with
  | error e =>
    obtain ⟨hallowed, hended⟩ := hrollback m' e hr
    exact Monitor.Ensures.ask_bind hallowed (fun _ => hended _ e) fun e' => hended _ e'
  | ok a =>
    obtain ⟨hallowed, hok, herror⟩ := hcommit m' a hr
    exact Monitor.Ensures.ask_bind hallowed (fun _ => hok) herror

theorem obeys_transaction_bind {α β : Type} {body : Handler α} {f : α → Handler β}
    (hbegin : M.Allowed m .begin)
    (hbody : M.Ensures (M.next m .begin (.ok ())) body fun m' r =>
      M.Allowed m' .rollback ∧ (∀ a, r = .ok a → M.Allowed m' .commit ∧
        M.Obeys (M.next m' .commit (.ok ())) (f a))) :
    M.Obeys m (transaction body >>= f) := by
  refine Monitor.Obeys.bind (P := fun m' a => M.Obeys m' (f a)) ?_ fun _ _ hf => hf
  refine ensures_transaction hbegin (fun _ _ h => by cases h) hbody
    (fun m' _ hended => ⟨hended.1, fun _ _ _ h => by cases h⟩) fun m' a hended => ?_
  obtain ⟨hcommit, hf⟩ := hended.2 a rfl
  refine ⟨hcommit, fun a' h => ?_, fun _ _ h => by cases h⟩
  cases h
  exact hf

/-- Generation only asks the model. -/
theorem ensures_generate {topic : Val} {n : Int} {o : AdvancedOptions}
    (hask : ∀ p, M.Allowed m (.generateContent p)) (hnext : ∀ p r, M.next m (.generateContent p) r = m) :
    M.Ensures m (generatePresentationSlides topic n o) fun m' _ => m' = m := by
  have fallback : M.Ensures m (ofOption (fallbackDeck topic n o)) fun m' _ => m' = m := by
    cases fallbackDeck topic n o <;> rfl
  refine Monitor.Ensures.tryCatch ?_
  cases prompt topic n o with
  | none => exact fallback
  | some p =>
    refine ⟨hask p, fun r => ?_⟩
    rw [hnext p r]
    cases r with
    | error e => exact fallback
    | ok text =>
      show M.Ensures m (ofOption (mapResponse o text)) _
      cases mapResponse o text with
      | none => exact fallback
      | some slides => rfl

/-- The layouts of a template take one lookup. -/
theorem ensures_findRequiredLayouts {templateId : Val} (hask : ∀ id, M.Allowed m (.templateFindUnique id))
    (hnext : ∀ id r, M.next m (.templateFindUnique id) r = m) :
    M.Ensures m (findRequiredLayouts templateId) fun m' _ => m' = m := by
  unfold findRequiredLayouts
  split
  · exact ⟨hask _, fun r => by cases r <;> exact hnext _ _⟩
  · rfl

theorem ensures_finalSlides {body topic : Val} {layouts : Option (List String)}
    (hask : ∀ p, M.Allowed m (.generateContent p)) (hnext : ∀ p r, M.next m (.generateContent p) r = m) :
    M.Ensures m (finalSlides body topic layouts) fun m' _ => m' = m := by
  unfold finalSlides
  split
  · rfl
  · cases slideCountFor layouts (getOpt body "slideCount") with
    | none => rfl
    | some count =>
      exact (ensures_generate hask hnext).bind_of (fun _ _ hm => hm) fun _ _ hm => hm

/-- The limiter keeps what its calls keep, and refuses with an error. -/
theorem ensures_limits {env : Env} {user : AuthUser} {I : State → Prop}
    (hlook : M.Keeps I (.userFindUnique user.id)) (hclock : M.Keeps I .clock)
    (hreset : ∀ id now, M.Keeps I (.userUpdate id (.resetUsage now))) (hm : I m) :
    M.Ensures m (checkLimits env user) fun m' r =>
      I m' ∧ ∀ response, r = .ok (.inl response) → 400 ≤ response.status := by
  have refused : ∀ {m' : State} {given : Response}, I m' → 400 ≤ given.status →
      I m' ∧ ∀ response, (Except.ok (Sum.inl given) : Except Err (Response ⊕ User)) = .ok (.inl response) →
        400 ≤ response.status := by
    intro m' given hm' hgiven
    refine ⟨hm', fun response h => ?_⟩
    cases h
    exact hgiven
  -- what throws is answered in the end
  refine Monitor.Ensures.caught (?_ : M.Ensures m _ fun m' r => I m' ∧ ∀ response, r = .ok (.inl response) →
    400 ≤ response.status) (fun _ _ h => h) fun _ _ h => refused h.1 (show 400 ≤ 500 by decide)
  have threw : ∀ m' e, I m' → I m' ∧ ∀ response,
      (Except.error e : Except Err (Response ⊕ User)) = .ok (.inl response) → 400 ≤ response.status :=
    fun _ _ hm' => ⟨hm', fun _ h => by cases h⟩
  refine hlook.ask_bind hm (fun m found hm => ?_) threw
  cases found with
  | none => exact refused hm (show 400 ≤ 401 by decide)
  | some row =>
    refine hclock.ask_bind hm (fun m now hm => ?_) threw
    have kept : M.Ensures m (resetUsage env now row) fun m' _ => I m' := by
      unfold resetUsage
      split
      · exact (hreset _ _).ask_bind hm (fun _ _ hm => hm) fun _ _ hm => hm
      · exact hm
    refine kept.bind_of (fun m row' hm => ?_) threw
    show M.Ensures m (if _ then _ else _) _
    split
    · exact refused hm (show 400 ≤ 403 by decide)
    · exact ⟨hm, fun _ h => by cases h⟩

theorem obeys_limits {env : Env} {user : AuthUser} (hlook : ∀ m, M.Allowed m (.userFindUnique user.id))
    (hclock : ∀ m, M.Allowed m .clock) (hreset : ∀ m id now, M.Allowed m (.userUpdate id (.resetUsage now))) :
    M.Obeys m (checkLimits env user) :=
  (ensures_limits (I := fun _ => True) (fun m _ => ⟨hlook m, fun _ => trivial⟩)
    (fun m _ => ⟨hclock m, fun _ => trivial⟩) (fun id now m _ => ⟨hreset m id now, fun _ => trivial⟩)
    trivial).mono fun _ _ _ => trivial

end Rules

/-! ### Every handler keeps to the discipline -/

section Handlers
variable {user : AuthUser} {t k : Option String}

/-- Behind the owner check, the presentation that was looked up is known to be the user's own. -/
theorem obeys_owner_check {m : Rights} {id : String} {deck : Deck} {forbidden : Response} {f : Handler Response}
    (hf : ∀ m', id ∈ m'.owned → (ownership ⟨some user.id, t, k⟩).Obeys m' f) :
    (ownership ⟨some user.id, t, k⟩).Obeys (m.add id (some user.id = some deck.row.userId))
      (if deck.row.userId ≠ user.id then pure forbidden else f) := by
  split
  · trivial
  · rename_i howner
    refine hf _ (Or.inr ⟨rfl, ?_⟩)
    rw [not_not.mp howner]

theorem obeys_createPresentation {body : Val} :
    (ownership ⟨some user.id, t, k⟩).Obeys .none (createPresentation user body) := by
  apply obeys_guarded
  split
  · trivial
  refine obeys_ofOption_bind fun topic _ => ?_
  split
  · trivial
  refine Monitor.Obeys.bind (P := fun m _ => m = .none) ((ensures_findRequiredLayouts (fun _ => trivial)
    fun _ _ => rfl).mono fun _ _ h _ _ => h) ?_
  rintro _ layouts rfl
  refine Monitor.Obeys.bind (P := fun m _ => m = .none) ((ensures_finalSlides (fun _ => trivial)
    fun _ _ => rfl).mono fun _ _ h _ _ => h) ?_
  rintro _ slides rfl
  refine obeys_ofOption_bind fun data _ => ?_
  refine Monitor.Obeys.ask_bind ⟨rfl, rfl⟩ fun deck => ?_
  exact Monitor.Obeys.ask_bind trivial fun _ => trivial

/-- The limiter reads and resets the usage of its user, and touches no presentation. -/
theorem ensures_checkLimits {env : Env} :
    (ownership ⟨some user.id, t, k⟩).Ensures .none (checkLimits env user) fun m _ => m = .none := by
  refine (ensures_limits (I := fun m => m = .none) (fun _ hm => ?_) (fun _ hm => ?_) (fun _ _ _ hm => ?_) rfl).mono
    fun _ _ h => h.1
  all_goals exact ⟨trivial, fun r => by cases r <;> exact hm⟩

theorem obeys_postPresentations {env : Env} {body : Val} :
    (ownership ⟨some user.id, t, k⟩).Obeys .none (postPresentations env body user) := by
  refine Monitor.Obeys.bind (P := fun m _ => m = .none) (ensures_checkLimits.mono fun _ _ h _ _ => h) ?_
  rintro _ (response | row) rfl
  · trivial
  · dsimp only
    split
    · exact obeys_createPresentation
    · trivial

theorem obeys_generateSingleSlide {body : Val} :
    (ownership ⟨some user.id, t, k⟩).Obeys .none (generateSingleSlide user body) := by
  apply obeys_guarded
  split
  · trivial
  refine obeys_ofOption_bind fun topic _ => ?_
  split
  · trivial
  refine Monitor.Obeys.bind (P := fun m _ => m = .none)
    ((ensures_generate (fun _ => trivial) fun _ _ => rfl).mono fun _ _ h _ _ => h) ?_
  rintro _ slides rfl
  cases slides <;> trivial

theorem obeys_postGenerateSlide {env : Env} {body : Val} :
    (ownership ⟨some user.id, t, k⟩).Obeys .none (postGenerateSlide env body user) := by
  refine Monitor.Obeys.bind (P := fun m _ => m = .none) (ensures_checkLimits.mono fun _ _ h _ _ => h) ?_
  rintro _ (response | row) rfl
  · trivial
  · exact obeys_generateSingleSlide

theorem obeys_getPresentationById {id : String} :
    (ownership ⟨some user.id, some id, k⟩).Obeys .none (getPresentationById user id) := by
  apply obeys_guarded
  split
  · trivial
  refine Monitor.Obeys.ask_bind rfl fun found => ?_
  cases found with
  | none => trivial
  | some deck => exact obeys_owner_check fun _ _ => trivial

/-- The transaction that saves slides stays within the presentation that was checked. -/
theorem ensures_saveSlides {m : Rights} {id : String} {title slides : Val} (hid : id ∈ m.owned) :
    (ownership ⟨some user.id, t, k⟩).Ensures m (saveSlides id title slides) fun m' _ => m' = m := by
  refine ⟨hid, fun r => ?_⟩
  cases r with
  | error e => rfl
  | ok pres =>
    refine ⟨hid, fun r => ?_⟩
    cases r with
    | error e => rfl
    | ok _ =>
      unfold insertSlides
      cases slidesToInsert slides with
      | none => rfl
      | some toInsert =>
        cases toInsert with
        | none => rfl
        | some data => exact ⟨hid, fun r => by cases r <;> rfl⟩

theorem obeys_updatePresentation {id : String} {body : Val} :
    (ownership ⟨some user.id, some id, k⟩).Obeys .none (updatePresentation user id body) := by
  apply obeys_guarded
  refine obeys_ofOption_bind fun title _ => obeys_ofOption_bind fun slides _ => ?_
  split
  · trivial
  refine Monitor.Obeys.ask_bind rfl fun found => ?_
  cases found with
  | none => trivial
  | some deck =>
    refine obeys_owner_check fun m hid => ?_
    refine obeys_transaction_bind trivial ((ensures_saveSlides ?_).mono fun m' r hm => ?_)
    · exact hid
    · exact ⟨trivial, fun _ _ => ⟨trivial, trivial⟩⟩

theorem obeys_deletePresentation {id : String} :
    (ownership ⟨some user.id, some id, k⟩).Obeys .none (deletePresentation user id) := by
  apply obeys_guarded
  split
  · trivial
  refine Monitor.Obeys.ask_bind rfl fun found => ?_
  cases found with
  | none => trivial
  | some deck =>
    refine obeys_owner_check fun m hid => ?_
    refine obeys_transaction_bind trivial ⟨hid, fun r => ?_⟩
    cases r with
    | error e => exact ⟨trivial, fun _ _ => ⟨trivial, trivial⟩⟩
    | ok _ => exact ⟨hid, fun r => by cases r <;> exact ⟨trivial, fun _ _ => ⟨trivial, trivial⟩⟩⟩

theorem obeys_createShareLink {env : Env} {id : String} {body : Val} :
    (ownership ⟨some user.id, t, k⟩).Obeys .none (createShareLink env user id body) := by
  apply obeys_guarded
  refine obeys_ofOption_bind fun recipientEmail _ => ?_
  show Monitor.Obeys _ _ (if _ then _ else _)
  split
  · trivial
  refine Monitor.Obeys.ask_bind rfl fun found => ?_
  cases found with
  | none => trivial
  | some p =>
    refine Monitor.Obeys.ask_bind trivial fun token => Monitor.Obeys.ask_bind trivial fun now => ?_
    refine obeys_ofOption_bind fun hours _ => obeys_ofOption_bind fun permission _ => ?_
    exact Monitor.Obeys.ask_bind (Or.inr ⟨rfl, rfl⟩) fun _ => trivial

theorem obeys_useTemplate {body : Val} : (ownership ⟨some user.id, t, k⟩).Obeys .none (useTemplate user body) := by
  apply obeys_guarded
  refine obeys_ofOption_bind fun templateId _ => ?_
  show Monitor.Obeys _ _ (if _ then _ else _)
  split
  · trivial
  refine Monitor.Obeys.ask_bind trivial fun found => ?_
  rcases found with _ | ⟨template, slides⟩
  · trivial
  · exact Monitor.Obeys.ask_bind ⟨rfl, rfl⟩ fun _ => trivial

theorem obeys_convertPptToPresentation {id : String} :
    (ownership ⟨some user.id, t, k⟩).Obeys .none (convertPptToPresentation user id) := by
  apply obeys_guarded
  split
  · trivial
  refine Monitor.Obeys.ask_bind trivial fun found => ?_
  cases found with
  | none => trivial
  | some importedPpt =>
    refine Monitor.Obeys.ask_bind trivial fun entries => ?_
    exact Monitor.Obeys.ask_bind ⟨rfl, rfl⟩ fun _ => trivial

end Handlers

/-! ### Handlers that write no presentation -/

section Readers
variable {u t k : Option String} {m : Rights} {user : AuthUser}

theorem obeys_getUserPresentations {limit offset : Val} :
    (ownership ⟨some user.id, t, k⟩).Obeys m (getUserPresentations user limit offset) := by
  apply obeys_guarded
  split
  · trivial
  · exact obeys_ofOption_bind fun _ _ => obeys_ofOption_bind fun _ _ => Monitor.Obeys.ask_bind rfl fun _ => trivial

theorem obeys_exportToPptx {id : String} : (ownership ⟨u, some id, k⟩).Obeys m (exportToPptx id) := by
  refine obeys_guarded (Monitor.Obeys.ask_bind rfl fun found => ?_)
  cases found with
  | none => trivial
  | some deck => exact obeys_ofOption_bind fun _ _ => trivial

theorem obeys_resolveShareToken {token : String} :
    (ownership ⟨u, t, some token⟩).Obeys m (resolveShareToken token) := by
  refine obeys_guarded (Monitor.Obeys.ask_bind rfl fun found => ?_)
  rcases found with _ | ⟨shareToken, presentation⟩
  · trivial
  · refine Monitor.Obeys.ask_bind trivial fun now => ?_
    show Monitor.Obeys _ _ (if _ then _ else _)
    split <;> trivial

theorem obeys_getSharedPresentation {id : String} {token : Val} :
    (ownership ⟨u, some id, toStr token⟩).Obeys m (getSharedPresentation id token) := by
  apply obeys_guarded
  split
  · trivial
  refine obeys_ofOption_bind fun token htoken => Monitor.Obeys.ask_bind htoken fun found => ?_
  rcases found with _ | ⟨shareToken, presentation⟩
  · trivial
  show Monitor.Obeys _ _ (if _ then _ else _)
  split
  · trivial
  refine Monitor.Obeys.ask_bind trivial fun now => ?_
  split
  · trivial
  refine Monitor.Obeys.ask_bind rfl fun found => ?_
  cases found <;> trivial

theorem obeys_getTemplateById {id : String} : (ownership ⟨u, t, k⟩).Obeys m (getTemplateById id) := by
  refine obeys_guarded (Monitor.Obeys.ask_bind trivial fun found => ?_)
  cases found <;> trivial

theorem obeys_uploadPptx {fileName : Option String} : (ownership ⟨u, t, k⟩).Obeys m (uploadPptx user fileName) := by
  apply obeys_guarded
  split
  · trivial
  cases fileName with
  | none => trivial
  | some name => exact Monitor.Obeys.ask_bind trivial fun _ => Monitor.Obeys.ask_bind trivial fun _ => trivial

theorem obeys_getImportedPpts : (ownership ⟨u, t, k⟩).Obeys m (getImportedPpts user) := by
  apply obeys_guarded
  split
  · trivial
  · exact Monitor.Obeys.ask_bind trivial fun _ => trivial

theorem obeys_getUserPlan : (ownership ⟨u, t, k⟩).Obeys m (getUserPlan user) := by
  apply obeys_guarded
  split
  · trivial
  refine Monitor.Obeys.ask_bind trivial fun found => ?_
  cases found <;> trivial

end Readers

/-! ### Every request -/

theorem obeys_authenticated {env : Env} {req : Request}
    {handler : AuthUser → Handler Response} {t k : Option String}
    (h : ∀ user, (ownership ⟨some user.id, t, k⟩).Obeys .none (handler user)) :
    (ownership ⟨(req.user? env).map (·.id), t, k⟩).Obeys .none (authenticated env req handler) := by
  unfold authenticated Request.user?
  cases authenticate env req.authorization with
  | error response => trivial
  | ok user => exact h user

/-- Every request keeps to the discipline of its scope. -/
theorem obeys_handle {env : Env} (req : Request) : (ownership (req.scope env)).Obeys .none (handle env req) := by
  unfold handle Request.scope
  cases req.endpoint with
  | createPresentation body => exact obeys_authenticated fun _ => obeys_postPresentations
  | generateSingleSlide body => exact obeys_authenticated fun _ => obeys_postGenerateSlide
  | getUserPresentations limit offset => exact obeys_authenticated fun _ => obeys_getUserPresentations
  | getPresentationById id => exact obeys_authenticated fun _ => obeys_getPresentationById
  | updatePresentation id body => exact obeys_authenticated fun _ => obeys_updatePresentation
  | deletePresentation id => exact obeys_authenticated fun _ => obeys_deletePresentation
  | exportToPptx id => exact obeys_authenticated fun _ => obeys_exportToPptx
  | createShareLink presentationId body => exact obeys_authenticated fun _ => obeys_createShareLink
  | resolveShareToken token => exact obeys_resolveShareToken
  | getSharedPresentation id token => exact obeys_getSharedPresentation
  | getTemplates => exact obeys_guarded (Monitor.Obeys.ask_bind trivial fun _ => trivial)
  | getTemplateById id => exact obeys_getTemplateById
  | useTemplate body => exact obeys_authenticated fun _ => obeys_useTemplate
  | updateTemplate id body =>
    exact obeys_authenticated fun _ =>
      obeys_guarded (obeys_ofOption_bind fun _ _ => Monitor.Obeys.ask_bind trivial fun _ => trivial)
  | getImportedPpts => exact obeys_authenticated fun _ => obeys_getImportedPpts
  | uploadPptx fileName => exact obeys_authenticated fun _ => obeys_uploadPptx
  | convertPptToPresentation id => exact obeys_authenticated fun _ => obeys_convertPptToPresentation
  | getUserPlan => exact obeys_authenticated fun _ => obeys_getUserPlan

/-! ### What calls teach -/

section Next
variable {a : Scope} {m : Rights} {q : Query}

theorem next_owned_subset (r : Except Err q.Answer) : m.owned ⊆ ((ownership a).next m q r).owned := by
  intro x hx
  cases q with
  | begin => cases r <;> exact hx
  | presentationFindUnique id =>
    rcases r with e | _ | deck
    · exact hx
    · exact hx
    · exact Or.inl hx
  | presentationFindFirst id userId =>
    rcases r with e | _ | p
    · exact hx
    · exact hx
    · exact Or.inl hx
  | _ => exact hx

theorem next_inTx (hb : q ≠ .begin) (hc : q ≠ .commit) (hr : q ≠ .rollback) (r : Except Err q.Answer) :
    ((ownership a).next m q r).inTx = m.inTx := by
  cases q with
  | begin => contradiction
  | commit => contradiction
  | rollback => contradiction
  | presentationFindUnique id => rcases r with e | _ | deck <;> rfl
  | presentationFindFirst id userId => rcases r with e | _ | p <;> rfl
  | _ => rfl

/-- What a call teaches: the presentation was read from the state at hand. -/
theorem next_owned {w : World} {db : Db} {c : Conn} {x : String}
    (hx : x ∈ ((ownership a).next m q (perform w db c q).1).owned) :
    x ∈ m.owned ∨ ∃ p ∈ (c.view db).presentations.rows, p.id = x ∧ a.user = some p.userId := by
  cases q with
  | presentationFindUnique id =>
    cases hfind : (c.view db).presentations.find? id with
    | none =>
      have hr : (perform w db c (.presentationFindUnique id)).1 = .ok none := by
        cases htx : c.tx <;> simp [perform, exec, Conn.start, Query.locksRows, Db.deck?, hfind, htx]
      rw [hr] at hx
      exact Or.inl hx
    | some p =>
      have hr : (perform w db c (.presentationFindUnique id)).1 = .ok (some ⟨p, (c.view db).slidesOf id⟩) := by
        cases htx : c.tx <;> simp [perform, exec, Conn.start, Query.locksRows, Db.deck?, hfind, htx]
      rw [hr] at hx
      rcases hx with hx | ⟨rfl, hu⟩
      · exact Or.inl hx
      · exact Or.inr ⟨p, Table.mem_of_find? hfind, Table.key_of_find? hfind, hu⟩
  | presentationFindFirst id userId =>
    have hr : (perform w db c (.presentationFindFirst id userId)).1 =
        .ok (((c.view db).presentations.find? id).filter (·.userId == userId)) := by
      cases htx : c.tx <;> simp [perform, exec, Conn.start, Query.locksRows, htx]
    rw [hr] at hx
    cases hfind : ((c.view db).presentations.find? id).filter (·.userId == userId) with
    | none => rw [hfind] at hx; exact Or.inl hx
    | some p =>
      rw [hfind] at hx
      obtain ⟨hfind, howner⟩ := Option.filter_eq_some_iff.mp hfind
      rcases hx with hx | ⟨rfl, hu⟩
      · exact Or.inl hx
      · refine Or.inr ⟨p, Table.mem_of_find? hfind, Table.key_of_find? hfind, ?_⟩
        rw [beq_iff_eq.mp howner]
        exact hu
  | begin | commit | rollback => exact Or.inl hx
  | _ => exact Or.inl hx

end Next

end Slideo
