import Slideo.Lib.Hoare
import Slideo.Theorems.Ownership
import Slideo.Theorems.Quota

/-! What a whole request can change: the usage of its user only behind the limiter, presentations and share
    tokens only at the routes that create them. A property of the database that the permitted statements keep
    holds after every request. -/

namespace Slideo
open Js Interleave
open Prog (Wp Post)

/-! ### Routes -/

/-- The endpoints that create presentations. -/
def Endpoint.storesDecks : Endpoint → Bool
  | .createPresentation _ | .useTemplate _ | .convertPptToPresentation _ => true
  | _ => false

/-- The endpoint that creates share tokens. -/
def Endpoint.shares : Endpoint → Bool
  | .createShareLink _ _ => true
  | _ => false

/-- The id of the user that a request is authenticated as. -/
def Request.userId? (env : Env) (req : Request) : Option String := (req.user? env).map (·.id)

/-- What a request of user `u` may ask of the database at endpoint `e`. It has looked up the user rows `m`. -/
def routing (u : Option String) (e : Endpoint) : Monitor Query Query.Answer Err (Set String) where
  Allowed m
    | .userUpdate id _ => e.limited = true ∧ (u = some id ∨ id ∈ m)
    | .presentationCreate userId _ _ => e.storesDecks = true ∧ u = some userId
    | .shareTokenCreate _ _ _ _ _ => e.shares = true
    | _ => True
  next m
    | .userFindUnique id, .ok (some row) => { x | x ∈ m ∨ (x = row.id ∧ u = some id) }
    | _, _ => m

/-- A call that every route may make: it stores no slides and no share token, and counts nothing. -/
def Query.plain : Query → Bool
  | .userUpdate _ _ | .presentationCreate _ _ _ | .slideCreateMany _ _ | .shareTokenCreate _ _ _ _ _ => false
  | _ => true

/-- A plain call that changes no template and stores no uploaded file. -/
def Query.silent : Query → Bool
  | .templateUpdate _ _ _ _ _ | .importedPptCreate _ _ _ => false
  | q => q.plain

theorem Query.plain_of_silent {q : Query} (h : q.silent = true) : q.plain = true := by
  cases q with
  | templateUpdate _ _ _ _ _ | importedPptCreate _ _ _ => cases h
  | _ => exact h

/-- The slides of a template as the data of a presentation's. -/
def copiedSlides (slides : List TemplateSlide) (themeChoice : Val) : List SlideData :=
  slides.map fun s => ⟨some (.num s.index), some (.str s.layout), s.contentJSON, themeChoice⟩

section Handlers
variable {State : Type} {M : Monitor Query Query.Answer Err State} {m : State} {user : AuthUser}
  (hsilent : ∀ m q, q.silent = true → M.Allowed m q)

theorem obeys_bind {α β : Type} {p : Handler α} {f : α → Handler β} (hp : M.Obeys m p)
    (hf : ∀ m' a, M.Obeys m' (f a)) :
    M.Obeys m (p >>= f) :=
  Monitor.Obeys.bind (P := fun _ _ => True) (hp.mono fun _ _ _ _ _ => trivial) fun m' a _ => hf m' a

include hsilent

theorem lenient_transaction_bind {α β : Type} {body : Handler α} {f : α → Handler β} (hbody : ∀ m, M.Obeys m body)
    (hf : ∀ m a, M.Obeys m (f a)) : M.Obeys m (transaction body >>= f) :=
  obeys_transaction_bind (hsilent _ _ rfl) ((hbody _).mono fun _ _ _ =>
    ⟨hsilent _ _ rfl, fun a _ => ⟨hsilent _ _ rfl, hf _ a⟩⟩)

theorem lenient_generate {topic : Val} {n : Int} {o : AdvancedOptions} :
    M.Obeys m (generatePresentationSlides topic n o) := by
  refine Monitor.Obeys.tryCatch ?_ fun m' e => ?_
  · cases prompt topic n o with
    | none => trivial
    | some p =>
      refine Monitor.Obeys.ask_bind (hsilent _ _ rfl) fun text => ?_
      cases mapResponse o text <;> trivial
  · cases fallbackDeck topic n o <;> trivial

theorem lenient_findRequiredLayouts {templateId : Val} : M.Obeys m (findRequiredLayouts templateId) := by
  unfold findRequiredLayouts
  split
  · exact Monitor.Obeys.ask_bind (hsilent _ _ rfl) fun _ => trivial
  · trivial

theorem lenient_finalSlides {body topic : Val} {layouts : Option (List String)} :
    M.Obeys m (finalSlides body topic layouts) := by
  unfold finalSlides
  split
  · trivial
  · exact obeys_ofOption_bind fun _ _ => obeys_bind (lenient_generate hsilent) fun _ _ => trivial

theorem lenient_createPresentation {body : Val}
    (hsave : user.id ≠ "" → ∀ m topic slides, M.Obeys m (saveDeck user topic slides)) :
    M.Obeys m (createPresentation user body) := by
  apply obeys_guarded
  split
  · trivial
  rename_i hid
  refine obeys_ofOption_bind fun topic _ => ?_
  split
  · trivial
  exact obeys_bind (lenient_findRequiredLayouts hsilent) fun m' layouts =>
    obeys_bind (lenient_finalSlides hsilent) fun m'' slides =>
    hsave hid _ _ _

theorem lenient_postPresentations {env : Env} {body : Val} (hlimits : M.Obeys m (checkLimits env user))
    (hsave : user.id ≠ "" → ∀ m topic slides, M.Obeys m (saveDeck user topic slides)) :
    M.Obeys m (postPresentations env body user) := by
  refine obeys_bind hlimits ?_
  rintro m' (response | row)
  · trivial
  · dsimp only
    split
    · exact lenient_createPresentation hsilent hsave
    · trivial

theorem lenient_postGenerateSlide {env : Env} {body : Val} (hlimits : M.Obeys m (checkLimits env user)) :
    M.Obeys m (postGenerateSlide env body user) := by
  refine obeys_bind hlimits ?_
  rintro m' (response | row)
  · trivial
  apply obeys_guarded
  split
  · trivial
  refine obeys_ofOption_bind fun topic _ => ?_
  split
  · trivial
  refine obeys_bind (lenient_generate hsilent) fun m₁ slides => ?_
  cases slides <;> trivial

theorem lenient_getUserPresentations {limit offset : Val} : M.Obeys m (getUserPresentations user limit offset) := by
  apply obeys_guarded
  split
  · trivial
  · exact obeys_ofOption_bind fun _ _ => obeys_ofOption_bind fun _ _ =>
      Monitor.Obeys.ask_bind (hsilent _ _ rfl) fun _ => trivial

theorem lenient_getPresentationById {id : String} : M.Obeys m (getPresentationById user id) := by
  apply obeys_guarded
  split
  · trivial
  refine Monitor.Obeys.ask_bind (hsilent _ _ rfl) fun found => ?_
  cases found with
  | none => trivial
  | some deck =>
    show Monitor.Obeys _ _ (if _ then _ else _)
    split <;> trivial

theorem lenient_updatePresentation {id : String} {body : Val}
    (hinsert : ∀ m slides data, slidesToInsert slides = some (some data) → M.Allowed m (.slideCreateMany id data)) :
    M.Obeys m (updatePresentation user id body) := by
  apply obeys_guarded
  refine obeys_ofOption_bind fun title _ => obeys_ofOption_bind fun slides _ => ?_
  split
  · trivial
  refine Monitor.Obeys.ask_bind (hsilent _ _ rfl) fun found => ?_
  cases found with
  | none => trivial
  | some deck =>
    show Monitor.Obeys _ _ (if _ then _ else _)
    split
    · trivial
    refine lenient_transaction_bind hsilent (fun m' => ?_) fun _ _ => trivial
    refine Monitor.Obeys.ask_bind (hsilent _ _ rfl) fun pres => Monitor.Obeys.ask_bind (hsilent _ _ rfl) fun _ => ?_
    refine obeys_bind ?_ fun _ _ => trivial
    unfold insertSlides
    cases hdata : slidesToInsert slides with
    | none => trivial
    | some toInsert =>
      cases toInsert with
      | none => trivial
      | some data => exact Monitor.Obeys.ask (hinsert _ _ _ hdata)

theorem lenient_deletePresentation {id : String} : M.Obeys m (deletePresentation user id) := by
  apply obeys_guarded
  split
  · trivial
  refine Monitor.Obeys.ask_bind (hsilent _ _ rfl) fun found => ?_
  cases found with
  | none => trivial
  | some deck =>
    show Monitor.Obeys _ _ (if _ then _ else _)
    split
    · trivial
    refine lenient_transaction_bind hsilent (fun m' => ?_) fun _ _ => trivial
    exact Monitor.Obeys.ask_bind (hsilent _ _ rfl) fun _ => Monitor.Obeys.ask (hsilent _ _ rfl)

theorem lenient_exportToPptx {id : String} : M.Obeys m (exportToPptx id) := by
  refine obeys_guarded (Monitor.Obeys.ask_bind (hsilent _ _ rfl) fun found => ?_)
  cases found with
  | none => trivial
  | some deck => exact obeys_ofOption_bind fun _ _ => trivial

theorem lenient_createShareLink {env : Env} {id : String} {body : Val}
    (hshare : ∀ m token email permission expiresAt,
      M.Allowed m (.shareTokenCreate id token email permission expiresAt)) :
    M.Obeys m (createShareLink env user id body) := by
  apply obeys_guarded
  refine obeys_ofOption_bind fun recipientEmail _ => ?_
  show Monitor.Obeys _ _ (if _ then _ else _)
  split
  · trivial
  refine Monitor.Obeys.ask_bind (hsilent _ _ rfl) fun found => ?_
  cases found with
  | none => trivial
  | some p =>
    refine Monitor.Obeys.ask_bind (hsilent _ _ rfl) fun token =>
      Monitor.Obeys.ask_bind (hsilent _ _ rfl) fun now => ?_
    refine obeys_ofOption_bind fun hours _ => obeys_ofOption_bind fun permission _ => ?_
    exact Monitor.Obeys.ask_bind (hshare _ _ _ _ _) fun _ => trivial

theorem lenient_resolveShareToken {token : String} : M.Obeys m (resolveShareToken token) := by
  refine obeys_guarded (Monitor.Obeys.ask_bind (hsilent _ _ rfl) fun found => ?_)
  rcases found with _ | ⟨shareToken, presentation⟩
  · trivial
  · refine Monitor.Obeys.ask_bind (hsilent _ _ rfl) fun now => ?_
    show Monitor.Obeys _ _ (if _ then _ else _)
    split <;> trivial

theorem lenient_getSharedPresentation {id : String} {token : Val} : M.Obeys m (getSharedPresentation id token) := by
  apply obeys_guarded
  split
  · trivial
  refine obeys_ofOption_bind fun token _ => Monitor.Obeys.ask_bind (hsilent _ _ rfl) fun found => ?_
  rcases found with _ | ⟨shareToken, presentation⟩
  · trivial
  show Monitor.Obeys _ _ (if _ then _ else _)
  split
  · trivial
  refine Monitor.Obeys.ask_bind (hsilent _ _ rfl) fun now => ?_
  split
  · trivial
  refine Monitor.Obeys.ask_bind (hsilent _ _ rfl) fun found => ?_
  cases found <;> trivial

theorem lenient_getTemplateById {id : String} : M.Obeys m (getTemplateById id) := by
  refine obeys_guarded (Monitor.Obeys.ask_bind (hsilent _ _ rfl) fun found => ?_)
  cases found <;> trivial

theorem lenient_useTemplate {body : Val} (hcopy : user.id ≠ "" → ∀ m templateId template slides themeChoice,
      M.Allowed (M.next m (.templateFindUnique templateId) (.ok (some (template, slides))))
        (.presentationCreate user.id (some (.str template.name)) (copiedSlides slides themeChoice))) :
    M.Obeys m (useTemplate user body) := by
  apply obeys_guarded
  refine obeys_ofOption_bind fun templateId _ => ?_
  show Monitor.Obeys _ _ (if _ then _ else _)
  split
  · trivial
  rename_i hid
  refine Monitor.Obeys.ask_bind (hsilent _ _ rfl) fun found => ?_
  rcases found with _ | ⟨template, slides⟩
  · trivial
  · exact Monitor.Obeys.ask_bind (hcopy hid _ _ _ _ _) fun _ => trivial

theorem lenient_uploadPptx {fileName : Option String}
    (hupload : ∀ m name url, M.Allowed m (.importedPptCreate user.id name url)) :
    M.Obeys m (uploadPptx user fileName) := by
  apply obeys_guarded
  split
  · trivial
  cases fileName with
  | none => trivial
  | some name => exact Monitor.Obeys.ask_bind (hsilent _ _ rfl) fun _ =>
    Monitor.Obeys.ask_bind (hupload _ _ _) fun _ => trivial

theorem lenient_getImportedPpts : M.Obeys m (getImportedPpts user) := by
  apply obeys_guarded
  split
  · trivial
  · exact Monitor.Obeys.ask_bind (hsilent _ _ rfl) fun _ => trivial

theorem lenient_convertPptToPresentation {id : String} (hconvert : user.id ≠ "" → ∀ m title fileName entries,
      M.Allowed m (.presentationCreate user.id title (importedSlides fileName entries))) :
    M.Obeys m (convertPptToPresentation user id) := by
  apply obeys_guarded
  split
  · trivial
  rename_i hid
  refine Monitor.Obeys.ask_bind (hsilent _ _ rfl) fun found => ?_
  cases found with
  | none => trivial
  | some importedPpt =>
    refine Monitor.Obeys.ask_bind (hsilent _ _ rfl) fun entries => ?_
    exact Monitor.Obeys.ask_bind (hconvert hid _ _ _ _) fun _ => trivial

theorem lenient_getUserPlan : M.Obeys m (getUserPlan user) := by
  apply obeys_guarded
  split
  · trivial
  refine Monitor.Obeys.ask_bind (hsilent _ _ rfl) fun found => ?_
  cases found <;> trivial

end Handlers

/-- A monitor that lets a request read, count, and store what the handler of its route makes. -/
structure Lenient (env : Env) (req : Request) {State : Type} (M : Monitor Query Query.Answer Err State) : Prop where
  plain : ∀ m q, q.plain = true → M.Allowed m q
  limits : req.endpoint.limited = true → ∀ user m, req.user? env = some user → M.Obeys m (checkLimits env user)
  saves : req.endpoint.storesDecks = true → req.endpoint.limited = true →
    ∀ user m topic slides, req.user? env = some user →
    user.id ≠ "" → M.Obeys m (saveDeck user topic slides)
  copies : req.endpoint.storesDecks = true → ∀ user m templateId template slides themeChoice,
    req.user? env = some user →
    user.id ≠ "" → M.Allowed (M.next m (.templateFindUnique templateId) (.ok (some (template, slides))))
      (.presentationCreate user.id (some (.str template.name)) (copiedSlides slides themeChoice))
  converts : req.endpoint.storesDecks = true → ∀ user m title fileName entries,
    req.user? env = some user → user.id ≠ "" →
    M.Allowed m (.presentationCreate user.id title (importedSlides fileName entries))
  inserts : ∀ m id slides data, slidesToInsert slides = some (some data) → M.Allowed m (.slideCreateMany id data)
  shares : req.endpoint.shares = true → ∀ m id token email permission expiresAt,
    M.Allowed m (.shareTokenCreate id token email permission expiresAt)

theorem obeys_authenticated_of {env : Env} {req : Request} {State : Type}
    {M : Monitor Query Query.Answer Err State} {m : State} {handler : AuthUser → Handler Response}
    (h : ∀ user, req.user? env = some user → M.Obeys m (handler user)) :
    M.Obeys m (authenticated env req handler) := by
  cases huser : req.user? env with
  | none =>
    unfold Request.user? at huser
    unfold authenticated
    split at huser
    · cases huser
    · trivial
  | some user =>
    rw [authenticated_of_user huser]
    exact h user huser

/-- Every request obeys a monitor that is lenient with it. -/
theorem Lenient.handle {env : Env} {req : Request} {State : Type} {M : Monitor Query Query.Answer Err State}
    (h : Lenient env req M) (m : State) : M.Obeys m (handle env req) := by
  obtain ⟨hplain, hlimits, hsaves, hcopies, hconverts, hinserts, hshares⟩ := h
  have hsilent : ∀ m q, q.silent = true → M.Allowed m q := fun m q hq => hplain m q (Query.plain_of_silent hq)
  unfold Slideo.handle
  split <;> rename_i hreq <;> rw [hreq] at hlimits hsaves hcopies hconverts hshares
  · exact obeys_authenticated_of fun user huser =>
      lenient_postPresentations hsilent (hlimits rfl user _ huser) fun hid m topic slides =>
        hsaves rfl rfl user m topic slides huser hid
  · exact obeys_authenticated_of fun user huser => lenient_postGenerateSlide hsilent (hlimits rfl user _ huser)
  · exact obeys_authenticated_of fun _ _ => lenient_getUserPresentations hsilent
  · exact obeys_authenticated_of fun _ _ => lenient_getPresentationById hsilent
  · exact obeys_authenticated_of fun _ _ => lenient_updatePresentation hsilent fun m => hinserts m _
  · exact obeys_authenticated_of fun _ _ => lenient_deletePresentation hsilent
  · exact obeys_authenticated_of fun _ _ => lenient_exportToPptx hsilent
  · exact obeys_authenticated_of fun _ _ => lenient_createShareLink hsilent fun m => hshares rfl m _
  · exact lenient_resolveShareToken hsilent
  · exact lenient_getSharedPresentation hsilent
  · exact obeys_guarded (Monitor.Obeys.ask_bind (hsilent _ _ rfl) fun _ => trivial)
  · exact lenient_getTemplateById hsilent
  · exact obeys_authenticated_of fun user huser =>
      lenient_useTemplate hsilent fun hid m templateId template slides themeChoice =>
      hcopies rfl user m templateId template slides themeChoice huser hid
  · exact obeys_authenticated_of fun _ _ =>
      obeys_guarded (obeys_ofOption_bind fun _ _ => Monitor.Obeys.ask_bind (hplain _ _ rfl) fun _ => trivial)
  · exact obeys_authenticated_of fun _ _ => lenient_getImportedPpts hsilent
  · exact obeys_authenticated_of fun _ _ => lenient_uploadPptx hsilent fun _ _ _ => hplain _ _ rfl
  · exact obeys_authenticated_of fun user huser =>
      lenient_convertPptToPresentation hsilent fun hid m title fileName entries =>
      hconverts rfl user m title fileName entries huser hid
  · exact obeys_authenticated_of fun _ _ => lenient_getUserPlan hsilent

theorem routing_checkLimits {env : Env} {e : Endpoint} {m : Set String}
    {user : AuthUser} (hlimited : e.limited = true) :
    (routing (some user.id) e).Obeys m (checkLimits env user) := by
  refine Monitor.Obeys.tryCatch (Monitor.Obeys.ask_bind trivial fun found => ?_) fun _ _ => trivial
  cases found with
  | none => trivial
  | some row =>
    refine Monitor.Obeys.ask_bind trivial fun now => obeys_bind ?_ fun m' row' => ?_
    · unfold resetUsage
      split
      · exact ⟨⟨hlimited, Or.inr (Or.inr ⟨rfl, rfl⟩)⟩, fun r => by cases r <;> trivial⟩
      · trivial
    · show Monitor.Obeys _ _ (if _ then _ else _)
      split <;> trivial

/-- Every request asks only what its route permits. -/
theorem routing_handle {env : Env} (req : Request) (m : Set String) :
    (routing (req.userId? env) req.endpoint).Obeys m (handle env req) := by
  refine Lenient.handle ⟨fun m q hq => ?_, fun hlimited user m huser => ?_,
    fun hstores hlimited user m topic slides huser _ => ?_,
    fun hstores user m _ _ _ _ huser _ => ?_, fun hstores user m _ _ _ huser _ => ?_, fun _ _ _ _ _ => trivial,
    fun hshares _ _ _ _ _ _ => hshares⟩ m
  · cases q <;> trivial
  · rw [Request.userId?, huser]
    exact routing_checkLimits hlimited
  · rw [Request.userId?, huser]
    refine obeys_ofOption_bind fun data _ => Monitor.Obeys.ask_bind ⟨hstores, rfl⟩ fun deck => ?_
    exact Monitor.Obeys.ask_bind ⟨hlimited, Or.inl rfl⟩ fun _ => trivial
  · rw [Request.userId?, huser]
    exact ⟨hstores, rfl⟩
  · rw [Request.userId?, huser]
    exact ⟨hstores, rfl⟩

/-! ### What a request keeps -/

/-- What a request of user `u` may ask at endpoint `e`, once its lookups have been answered. -/
def Permitted (u : Option String) (e : Endpoint) : Query → Prop
  | .userUpdate id _ => e.limited = true ∧ u = some id
  | .presentationCreate userId _ _ => e.storesDecks = true ∧ u = some userId
  | .shareTokenCreate _ _ _ _ _ => e.shares = true
  | _ => True

/-- How a call is answered when no other request is around. -/
def Answers (q : Query) (s : Db × Conn) (r : Except Err q.Answer) (s' : Db × Conn) :
    Prop := ∃ w, answer w q s = (r, s')

/-- What holds however the calls are answered holds of a run. -/
theorem wp_run {α : Type} {p : Handler α} {P : Post Query Query.Answer Err (Db × Conn) α}
    {s : Db × Conn} (ws : Nat → World) (n : Nat) (h : Wp Answers p P s) :
    P (p.run answer ws n s).result (p.run answer ws n s).state (p.run answer ws n s).log :=
  Wp.run (fun w _ _ => ⟨w, rfl⟩) h

/-- A request whose handler obeys a monitor: what the allowed calls keep holds at its end, and of its calls. -/
theorem serve_monitored {env : Env} {req : Request} {State : Type}
    {M : Monitor Query Query.Answer Err State} {m : State} {R : State → Db × Conn → Prop}
    {G : Answered Query Query.Answer Err → Prop} {db : Db} (ws : Nat → World)
    (hobeys : M.Obeys m (handle env req)) (hdb : R m (db, {}))
    (hcall : ∀ (m : State) (q : Query) (s : Db × Conn) (r : Except Err q.Answer) (s' : Db × Conn),
      M.Allowed m q → R m s → Answers q s r s' → R (M.next m q r) s' ∧ G ⟨q, r⟩) :
    (∃ m', R m' (serve env ws req db).state) ∧ ∀ c ∈ (serve env ws req db).log, G c := by
  have hwp : Wp Answers (handle env req) (fun _ s log => (∃ m', R m' s ∧ True) ∧ ∀ c ∈ log, G c) (db, {}) := by
    refine Wp.of_ensures (M := M) (R := R) (G := G) ?_ hobeys hdb
    intro m q s r s' hq h hanswers
    exact hcall m q s r s' hq h hanswers
  obtain ⟨⟨m', hm', -⟩, hlog⟩ := wp_run ws 0 hwp
  exact ⟨⟨m', hm'⟩, hlog⟩

/-- The database of a request alone, with and without what its transaction has pending. -/
structure Holds (Rel : Db → Prop) (s : Db × Conn) : Prop where
  started : s.2.snapshot = none
  committed : Rel s.1
  pending : Rel (s.2.view s.1)

section Keeps
variable {u : Option String} {e : Endpoint} {Rel : Db → Prop} {q : Query}
  {s s' : Db × Conn} {r : Except Err q.Answer}

/-- A call keeps what its statement keeps. -/
theorem Holds.answered (h : Holds Rel s) (hanswers : Answers q s r s')
    (hexec : ∀ w db a ws, Rel db → exec w db db q = .ok (a, ws) → Rel (db.applyAll ws)) : Holds Rel s' := by
  obtain ⟨w, hw⟩ := hanswers
  obtain ⟨db, tx, snapshot⟩ := s
  obtain rfl : snapshot = none := h.started
  have hstatement : q.IsStatement → Holds Rel s' := by
    intro hq
    rw [answer, perform_eq hq] at hw
    rw [show Conn.start ⟨tx, none⟩ db q = Conn.view ⟨tx, none⟩ db from start_alone tx] at hw
    cases hres : exec w (Conn.view ⟨tx, none⟩ db) (Conn.view ⟨tx, none⟩ db) q with
    | error err =>
      rw [hres] at hw
      cases hw
      exact ⟨rfl, h.committed, h.pending⟩
    | ok out =>
      obtain ⟨a, ws⟩ := out
      have hkept := hexec w _ a ws h.pending hres
      rw [hres] at hw
      cases tx with
      | none =>
        cases hw
        exact ⟨rfl, hkept, hkept⟩
      | some ws' =>
        cases hw
        refine ⟨rfl, h.committed, ?_⟩
        rw [Conn.view, Option.getD_some, Db.applyAll_append]
        exact hkept
  cases q with
  | begin =>
    cases hw
    exact ⟨rfl, h.committed, h.committed⟩
  | commit =>
    cases hw
    exact ⟨rfl, h.pending, h.pending⟩
  | rollback =>
    cases hw
    exact ⟨rfl, h.committed, h.committed⟩
  | _ => exact hstatement trivial

/-- The answer of a statement comes from a state that `Rel` holds of. -/
theorem Holds.exec_ok {a : q.Answer} (h : Holds Rel s) (hanswers : Answers q s (.ok a) s') (hq : q.IsStatement) :
    ∃ w db ws, Rel db ∧ exec w db db q = .ok (a, ws) := by
  obtain ⟨w, hw⟩ := hanswers
  obtain ⟨db, tx, snapshot⟩ := s
  obtain rfl : snapshot = none := h.started
  rw [answer, perform_eq hq] at hw
  rw [show Conn.start ⟨tx, none⟩ db q = Conn.view ⟨tx, none⟩ db from start_alone tx] at hw
  cases hres : exec w (Conn.view ⟨tx, none⟩ db) (Conn.view ⟨tx, none⟩ db) q with
  | error err =>
    rw [hres] at hw
    cases hw
  | ok out =>
    obtain ⟨a', ws⟩ := out
    rw [hres] at hw
    cases tx <;> cases hw <;> exact ⟨w, _, ws, h.pending, hres⟩

theorem routing_permitted {m : Set String} (hq : (routing u e).Allowed m q)
    (hm : ∀ x ∈ m, u = some x) : Permitted u e q := by
  cases q with
  | userUpdate id patch =>
    obtain ⟨hlimited, hid | hid⟩ := hq
    · exact ⟨hlimited, hid⟩
    · exact ⟨hlimited, hm id hid⟩
  | _ => exact hq

/-- The user rows that a request has looked up are its own. -/
theorem routing_next {m : Set String} (hs : Holds Rel s) (hanswers : Answers q s r s') (hm : ∀ x ∈ m, u = some x) :
    ∀ x ∈ (routing u e).next m q r, u = some x := by
  intro x hx
  cases q with
  | userFindUnique id =>
    cases r with
    | error err => exact hm x hx
    | ok found =>
      cases found with
      | none => exact hm x hx
      | some row =>
        rcases hx with hx | ⟨rfl, hid⟩
        · exact hm x hx
        · obtain ⟨w, db, ws, -, hexec⟩ := hs.exec_ok hanswers trivial
          rw [hid, Table.key_of_find? (congrArg Prod.fst (Except.ok.inj hexec))]
  | _ => exact hm x hx

end Keeps

/-- What the permitted statements keep, a request keeps; and it asks nothing else. -/
theorem serve_keeps {env : Env} {R : Db → Prop} {db : Db} (ws : Nat → World) (req : Request) (hdb : R db)
    (hexec : ∀ q w db a ws, Permitted (req.userId? env) req.endpoint q → R db → exec w db db q = .ok (a, ws) →
      R (db.applyAll ws)) :
    R (serve env ws req db).state.1 ∧
      ∀ c ∈ (serve env ws req db).log, Permitted (req.userId? env) req.endpoint c.1 := by
  obtain ⟨⟨m, -, hholds⟩, hlog⟩ := serve_monitored (R := fun m s => (∀ x ∈ m, req.userId? env = some x) ∧ Holds R s)
    (G := fun c => Permitted (req.userId? env) req.endpoint c.1) ws (routing_handle req ∅)
    ⟨fun x hx => (by cases hx), ⟨rfl, hdb, hdb⟩⟩ fun m q s r s' hq h hanswers => by
      have hpermitted := routing_permitted hq h.1
      exact ⟨⟨routing_next h.2 hanswers h.1, h.2.answered hanswers fun w db a ws =>
        hexec q w db a ws hpermitted⟩, hpermitted⟩
  exact ⟨hholds.committed, hlog⟩

/-! ### Usage -/

section Usage
variable {env : Env} {db : Db} {id : String} {row : User} {req : Request}

/-- Only updates of a user row change the users. -/
theorem issues_onUsers {w : World} {q : Query} {y : Write} (h : Issues w q y) (hy : y.onUsers = true) :
    ∃ id patch, q = .userUpdate id patch := by
  have hsource := h.source
  cases y with
  | insertUser u => exact hsource.elim
  | patchUser id at_ patch => exact ⟨id, patch, hsource⟩
  | _ => cases hy

theorem exec_users {w : World} {snap : Db} {q : Query} {a : q.Answer} {ws : List Write}
    (h : exec w snap db q = .ok (a, ws)) :
    (∃ id patch, q = .userUpdate id patch ∧ ws = [.patchUser id w.now patch]) ∨
    (db.applyAll ws).users = db.users := by
  by_cases hupdate : ∃ id patch, q = .userUpdate id patch
  · obtain ⟨id, patch, rfl⟩ := hupdate
    exact Or.inl ⟨id, patch, rfl, (updateUserRow_ok h).2.2⟩
  · refine Or.inr (applyAll_users fun y hy => Bool.eq_false_iff.mpr fun hon => hupdate ?_)
    exact issues_onUsers (exec_issues h y hy) hon

/-- The request may change the usage of the user. -/
def Request.uses (env : Env) (req : Request) (id : String) : Prop :=
  req.endpoint.limited = true ∧ req.userId? env = some id

/-- Only a limited request of the user changes the user row. -/
theorem serve_user_kept (ws : Nat → World) (hrow : db.users.find? id = some row) (huses : ¬ req.uses env id) :
    (serve env ws req db).state.1.users.find? id = some row := by
  refine (serve_keeps ws req (R := fun db => db.users.find? id = some row) hrow ?_).1
  intro q w db' a ws' hpermitted hrow' hexec
  rcases exec_users hexec with ⟨id', patch, rfl, rfl⟩ | husers
  · have hne : row.id ≠ id' := by
      rintro rfl
      rw [Table.key_of_find? hrow'] at hpermitted
      exact huses hpermitted
    rw [Db.applyAll_cons, Db.applyAll_nil, find?_patchUser, hrow', Option.map_some, if_neg hne]
  · rw [husers, hrow']

/-- No request changes a plan. -/
theorem serve_plan_kept (ws : Nat → World) (req : Request) (hrow : db.users.find? id = some row) :
    ∃ row', (serve env ws req db).state.1.users.find? id = some row' ∧ row'.plan = row.plan := by
  refine (serve_keeps ws req (R := fun db => ∃ row', db.users.find? id = some row' ∧ row'.plan = row.plan)
    ⟨row, hrow, rfl⟩ ?_).1
  rintro q w db' a ws' - ⟨row', hrow', hplan⟩ hexec
  rcases exec_users hexec with ⟨id', patch, rfl, rfl⟩ | husers
  · rw [Db.applyAll_cons, Db.applyAll_nil, find?_patchUser, hrow', Option.map_some]
    refine ⟨_, rfl, ?_⟩
    split
    · cases patch <;> exact hplan
    · exact hplan
  · exact ⟨row', by rw [husers, hrow'], hplan⟩

end Usage

/-! ### Requests one after another -/

/-- A request, and the worlds that answer its calls. -/
structure Turn where
  ws : Nat → World
  req : Request

def Turn.serve (env : Env) (x : Turn) (db : Db) : Prog.Ran Query Query.Answer Err (Db × Conn) Response :=
  Slideo.serve env x.ws x.req db

/-- The database after requests that are answered one after another. -/
def dbAfter (env : Env) : Db → List Turn → Db
  | db, [] => db
  | db, x :: turns => dbAfter env (x.serve env db).state.1 turns

end Slideo
