import Slideo.Theorems.DeckChanges
import Slideo.Theorems.Effects
import Slideo.Theorems.Saves

/-! The course of a request that changes a deck: it creates or shares one with a single statement, or opens
    a transaction and saves or removes the one it names. A request that answers below 400 has come to the
    end of its course. -/

namespace Slideo
open Js Interleave

/-- How far a request has come. -/
inductive Course where
  | idle
  | opened
  | titled
  | cleared
  | filled
  | swept
  | dropped
  | broken
  | done
  | lost
  deriving DecidableEq

/-- A transaction is open. -/
def Course.inTx : Course → Bool
  | .idle | .done | .lost => false
  | _ => true

/-- A call that touches no deck. -/
def Query.quiet : Query → Bool
  | .begin | .commit | .rollback | .presentationCreate _ _ _ | .presentationUpdate _ _ | .presentationDelete _
  | .slideDeleteMany _ | .slideCreateMany _ _ | .shareTokenCreate _ _ _ _ _ => false
  | _ => true

/-- The endpoints that change decks in a transaction. -/
def Endpoint.transacts : Endpoint → Bool
  | .updatePresentation _ _ | .deletePresentation _ => true
  | _ => false

/-- The endpoints that change decks. -/
def Endpoint.changesDecks (e : Endpoint) : Bool := e.storesDecks || e.shares || e.transacts

/-- The endpoint that counts a deck after it has stored it. -/
def Endpoint.countsDecks : Endpoint → Bool
  | .createPresentation _ => true
  | _ => false

/-- The call that may come next. -/
inductive Allows (env : Env) (req : Request) : Course → Query → Prop
  | quiet {m : Course} {q : Query} (hq : q.quiet = true) (hm : m.inTx = false) : Allows env req m q
  | create {userId : String} {title : Val} {data : List SlideData} (hstores : req.endpoint.storesDecks = true)
      (huser : req.userId? env = some userId) : Allows env req .idle (.presentationCreate userId title data)
  | share {id token permission : String} {email body : Val} {expiresAt : Option Time} {userId : String}
      (hreq : req.endpoint = .createShareLink id body) (huser : req.userId? env = some userId) :
      Allows env req .idle (.shareTokenCreate id token email permission expiresAt)
  | begin (hreq : req.endpoint.transacts = true) : Allows env req .idle .begin
  | title {id : String} {body title : Val} {user : AuthUser} (hreq : req.endpoint = .updatePresentation id body)
      (huser : req.user? env = some user) (hid : user.id ≠ "") (htitle : get body "title" = some title) :
      Allows env req .opened (.presentationUpdate id title)
  | clear {id : String} {body : Val} (hreq : req.endpoint = .updatePresentation id body) :
      Allows env req .titled (.slideDeleteMany id)
  | fill {id : String} {body slides : Val} {data : List SlideData}
      (hreq : req.endpoint = .updatePresentation id body)
      (hslides : get body "slides" = some slides) (hdata : slidesToInsert slides = some (some data)) :
      Allows env req .cleared (.slideCreateMany id data)
  | commitCleared {id : String} {body slides : Val} (hreq : req.endpoint = .updatePresentation id body)
      (hslides : get body "slides" = some slides) (hdata : slidesToInsert slides = some none) :
      Allows env req .cleared .commit
  | commitFilled : Allows env req .filled .commit
  | sweep {id : String} (hreq : req.endpoint = .deletePresentation id) :
      Allows env req .opened (.slideDeleteMany id)
  | drop {id : String} (hreq : req.endpoint = .deletePresentation id) :
      Allows env req .swept (.presentationDelete id)
  | commitDropped {user : AuthUser} (huser : req.user? env = some user) : Allows env req .dropped .commit
  | rollback {m : Course} (hm : m.inTx = true) : Allows env req m .rollback

def Course.next (m : Course) (q : Query) (r : Except Err q.Answer) : Course :=
  match m, q, r with
  | .idle, .presentationCreate _ _ _, .ok _ | .idle, .shareTokenCreate _ _ _ _ _, .ok _ => .done
  | .idle, .begin, .ok _ => .opened
  | .opened, .presentationUpdate _ _, .ok _ => .titled
  | .titled, .slideDeleteMany _, .ok _ => .cleared
  | .cleared, .slideCreateMany _ _, .ok _ => .filled
  | .opened, .slideDeleteMany _, .ok _ => .swept
  | .swept, .presentationDelete _, .ok _ => .dropped
  | _, .commit, .ok _ => .done
  | _, .commit, .error _ | _, .rollback, _ => .lost
  | m, _, .error _ => if m.inTx then .broken else m
  | m, _, _ => m

/-- The course of a request. -/
def course (env : Env) (req : Request) : Monitor Query Query.Answer Err Course := ⟨Allows env req, Course.next⟩

theorem Course.next_quiet {m : Course} {q : Query} (hq : q.quiet = true)
    (hm : m.inTx = false) (r : Except Err q.Answer) :
    m.next q r = m := by
  cases q with
  | begin | commit | rollback | presentationCreate _ _ _ | presentationUpdate _ _ | presentationDelete _
  | slideDeleteMany _ | slideCreateMany _ _ | shareTokenCreate _ _ _ _ _ => cases hq
  | _ => cases m with
    | idle | done | lost => cases r <;> rfl
    | _ => cases hm

/-! ### Every request keeps to its course -/

/-- At the end no transaction is open, and a change has been made unless the request failed. A request that
    fails has changed nothing, but for one that could not count its deck. -/
structure Ends (e : Endpoint) (m : Course) (r : Except Err Response) : Prop where
  closed : m.inTx = false
  changed : ∀ response, r = .ok response → response.status < 400 → e.changesDecks = true → m = .done
  answered : m = .done → e.countsDecks = true ∨ ∃ response, r = .ok response ∧ response.status < 400

section Rules
variable {env : Env} {req : Request} {e : Endpoint} {m : Course} {α : Type}

theorem ends_guarded {onError : Err → Response} {body : Handler Response}
    (h : (course env req).Ensures m body (Ends e)) (hstatus : ∀ err, 400 ≤ (onError err).status) :
    (course env req).Ensures m (guarded onError body) (Ends e) := by
  refine ensures_guarded h fun m' err hends => ⟨hends.closed, fun response heq hlow => ?_, fun hdone => ?_⟩
  · cases heq
    exact absurd hlow (not_lt.mpr (hstatus err))
  · rcases hends.answered hdone with hcounts | ⟨_, h, -⟩
    · exact Or.inl hcounts
    · cases h

theorem ends_failed {response : Response} (hstatus : 400 ≤ response.status) :
    (course env req).Ensures .idle (pure response) (Ends e) := by
  refine ⟨rfl, fun response' heq hlow => ?_, fun h => by cases h⟩
  cases heq
  exact absurd hlow (not_lt.mpr hstatus)

theorem ends_done {response : Response} (hstatus : response.status < 400) :
    (course env req).Ensures .done (pure response) (Ends e) :=
  ⟨rfl, fun _ _ _ _ => rfl, fun _ => Or.inr ⟨response, rfl, hstatus⟩⟩

theorem ends_unchanged {response : Response} (he : e.changesDecks = false) :
    (course env req).Ensures .idle (pure response) (Ends e) := by
  refine ⟨rfl, fun _ _ _ hchanges => ?_, fun h => by cases h⟩
  rw [he] at hchanges
  cases hchanges

theorem ends_threw {err : Err} : Ends e .idle (.error err) := ⟨rfl, fun _ h => (by cases h), fun h => by cases h⟩

theorem ends_lost {err : Err} : Ends e .lost (.error err) := ⟨rfl, fun _ h => (by cases h), fun h => by cases h⟩

theorem ends_ofOption_bind {o : Option α} {f : α → Handler Response}
    (h : ∀ a, o = some a → (course env req).Ensures .idle (f a) (Ends e)) :
    (course env req).Ensures .idle (ofOption o >>= f) (Ends e) :=
  ensures_ofOption_bind ends_threw h

theorem ends_quiet_bind {q : Query} {f : q.Answer → Handler Response} (hq : q.quiet = true)
    (h : ∀ a, (course env req).Ensures .idle (f a) (Ends e)) :
    (course env req).Ensures .idle (ask q >>= f) (Ends e) := by
  have hnext : ∀ r, (course env req).next .idle q r = .idle := Course.next_quiet hq rfl
  refine Monitor.Ensures.ask_bind (.quiet hq rfl) (fun a => ?_) fun err => ?_
  · rw [hnext]
    exact h a
  · rw [hnext]
    exact ends_threw

/-- A part of a handler that stays where it is. -/
theorem ends_still_bind {p : Handler α} {f : α → Handler Response}
    (hp : (course env req).Ensures .idle p fun m' _ => m' = .idle)
    (h : ∀ a, (course env req).Ensures .idle (f a) (Ends e)) :
    (course env req).Ensures .idle (p >>= f) (Ends e) := by
  refine hp.bind_of (fun m' a hm' => ?_) fun m' err hm' => ?_
  · exact hm' ▸ h a
  · exact hm' ▸ ends_threw

/-- The limiter only counts, and refuses with an error. -/
theorem still_limits {user : AuthUser} (hm : m.inTx = false) :
    (course env req).Ensures m (checkLimits env user) fun m' r =>
    m' = m ∧ ∀ response, r = .ok (.inl response) → 400 ≤ response.status := by
  have hquiet : ∀ q : Query, q.quiet = true → (course env req).Keeps (· = m) q := by
    rintro q hq _ rfl
    exact ⟨.quiet hq hm, Course.next_quiet hq hm⟩
  exact ensures_limits (hquiet _ rfl) (hquiet _ rfl) (fun _ _ => hquiet _ rfl) rfl

theorem ends_limits_bind {user : AuthUser} {f : User → Handler Response}
    (h : ∀ row, (course env req).Ensures .idle (f row) (Ends e)) :
    (course env req).Ensures .idle (do
      match ← checkLimits env user with
      | .inl response => return response
      | .inr row => f row) (Ends e) := by
  refine (still_limits rfl).bind_of (fun m' passed hpassed => ?_) fun m' err hpassed => ?_
  · obtain ⟨rfl, hrefused⟩ := hpassed
    cases passed with
    | inl response => exact ends_failed (hrefused response rfl)
    | inr row => exact h row
  · exact hpassed.1 ▸ ends_threw

end Rules

section Handlers
variable {env : Env} {req : Request} {user : AuthUser} {id : String} {body : Val}

theorem storesDecks_of_counts {e : Endpoint} (h : e.countsDecks = true) : e.storesDecks = true := by
  cases e <;> first | rfl | cases h

theorem ends_saveDeck {topic : Val} {slides : List Json} (hcounts : req.endpoint.countsDecks = true)
    (huser : req.userId? env = some user.id) :
    (course env req).Ensures .idle (saveDeck user topic slides) (Ends req.endpoint) := by
  refine ends_ofOption_bind fun data _ => ⟨.create (storesDecks_of_counts hcounts) huser, fun r => ?_⟩
  cases r with
  | error err => exact ends_threw
  | ok deck =>
    -- the deck is there, whether it is counted or not
    refine ⟨.quiet rfl rfl, fun r => ?_⟩
    cases r with
    | error err => exact ⟨rfl, fun _ h => (by cases h), fun _ => Or.inl hcounts⟩
    | ok _ => exact ends_done (show 201 < 400 by decide)

theorem ends_createPresentation (hcounts : req.endpoint.countsDecks = true)
    (huser : req.userId? env = some user.id) :
    (course env req).Ensures .idle (createPresentation user body) (Ends req.endpoint) := by
  refine ends_guarded ?_ fun _ => by decide
  split
  · exact ends_failed (by decide)
  refine ends_ofOption_bind fun topic _ => ?_
  split
  · exact ends_failed (by decide)
  refine ends_still_bind (ensures_findRequiredLayouts (fun _ => .quiet rfl rfl) fun id r =>
    Course.next_quiet (q := .templateFindUnique id) rfl rfl r) fun layouts => ?_
  exact ends_still_bind (ensures_finalSlides (fun _ => .quiet rfl rfl) fun p r =>
    Course.next_quiet (q := .generateContent p) rfl rfl r) fun slides => ends_saveDeck hcounts huser

theorem ends_postPresentations (hcounts : req.endpoint.countsDecks = true)
    (huser : req.userId? env = some user.id) :
    (course env req).Ensures .idle (postPresentations env body user) (Ends req.endpoint) := by
  refine ends_limits_bind fun row => ?_
  split
  · exact ends_createPresentation hcounts huser
  · exact ends_failed (by decide)

theorem ends_postGenerateSlide (he : req.endpoint.changesDecks = false) :
    (course env req).Ensures .idle (postGenerateSlide env body user) (Ends req.endpoint) := by
  refine ends_limits_bind fun row => ends_guarded ?_ fun _ => by decide
  split
  · exact ends_failed (by decide)
  refine ends_ofOption_bind fun topic _ => ?_
  split
  · exact ends_failed (by decide)
  refine ends_still_bind (ensures_generate (fun _ => .quiet rfl rfl) fun p r =>
    Course.next_quiet (q := .generateContent p) rfl rfl r) fun slides => ?_
  cases slides with
  | nil => exact ends_failed (by decide)
  | cons slide slides => exact ends_unchanged he

theorem ends_getUserPresentations {limit offset : Val} (he : req.endpoint.changesDecks = false) :
    (course env req).Ensures .idle (getUserPresentations user limit offset) (Ends req.endpoint) := by
  refine ends_guarded ?_ fun _ => by decide
  split
  · exact ends_failed (by decide)
  exact ends_ofOption_bind fun _ _ => ends_ofOption_bind fun _ _ => ends_quiet_bind rfl fun _ => ends_unchanged he

theorem ends_getPresentationById (he : req.endpoint.changesDecks = false) :
    (course env req).Ensures .idle (getPresentationById user id) (Ends req.endpoint) := by
  refine ends_guarded ?_ fun _ => by decide
  split
  · exact ends_failed (by decide)
  refine ends_quiet_bind rfl fun found => ?_
  cases found with
  | none => exact ends_failed (by decide)
  | some deck =>
    show (course env req).Ensures _ (if _ then _ else _) _
    split
    · exact ends_failed (by decide)
    · exact ends_unchanged he

/-- A transaction that ends ready for its `COMMIT`, or has thrown. -/
theorem ends_transaction_bind {α : Type} {p : Handler α} {f : α → Handler Response}
    (htransacts : req.endpoint.transacts = true)
    (hp : (course env req).Ensures .opened p fun m r => m.inTx = true ∧ ∀ a, r = .ok a →
      Allows env req m .commit) (hf : ∀ a, ∃ response, f a = pure response ∧ response.status < 400) :
    (course env req).Ensures .idle (transaction p >>= f) (Ends req.endpoint) := by
  have hrollback : ∀ (m : Course) r, m.next .rollback r = .lost := fun m r => by cases m <;> cases r <;> rfl
  have hlost : ∀ (m : Course) err, m.next .commit (.error err) = .lost := fun m err => by cases m <;> rfl
  have hdone : ∀ m : Course, m.next .commit (.ok ()) = .done := fun m => by cases m <;> rfl
  have closed : (course env req).Ensures .idle (transaction p) fun m r =>
      (∀ a, r = .ok a → m = .done) ∧ ∀ err, r = .error err → m = .idle ∨ m = .lost := by
    refine ensures_transaction (.begin htransacts) (fun err => ⟨fun _ h => (by cases h), fun _ _ => Or.inl rfl⟩) hp
      (fun m err hended => ⟨.rollback hended.1, fun r _ => ⟨fun _ h => (by cases h), fun _ _ => ?_⟩⟩)
      fun m a hended => ⟨hended.2 a rfl, ⟨fun _ _ => hdone m, fun _ h => by cases h⟩,
        fun err => ⟨fun _ h => (by cases h), fun _ _ => ?_⟩⟩
    · exact Or.inr (hrollback m r)
    · exact Or.inr (hlost m err)
  refine closed.bind_of (fun m a hm => ?_) fun m err hm => ?_
  · obtain ⟨response, hresponse, hstatus⟩ := hf a
    rw [hm.1 a rfl, hresponse]
    exact ends_done hstatus
  · rcases hm.2 err rfl with rfl | rfl
    · exact ends_threw
    · exact ends_lost

theorem broken_ended {α : Type} {err : Err} : Course.broken.inTx = true ∧
    ∀ a : α, (Except.error err : Except Err α) = .ok a → Allows env req .broken .commit :=
  ⟨rfl, fun _ h => by cases h⟩

theorem ensures_saveSlides_course {title slides : Val} (hreq : req.endpoint = .updatePresentation id body)
    (huser : req.user? env = some user) (hid : user.id ≠ "") (htitle : get body "title" = some title)
    (hslides : get body "slides" = some slides) :
    (course env req).Ensures .opened (saveSlides id title slides) fun m r =>
      m.inTx = true ∧ ∀ a, r = .ok a → Allows env req m .commit := by
  refine Monitor.Ensures.ask_bind (.title hreq huser hid htitle) (fun pres => ?_) fun _ => broken_ended
  refine Monitor.Ensures.ask_bind (.clear hreq) (fun _ => ?_) fun _ => broken_ended
  show (course env req).Ensures .cleared (insertSlides id slides >>= _) _
  unfold insertSlides
  cases hdata : slidesToInsert slides with
  | none => exact ⟨rfl, fun _ h => by cases h⟩
  | some toInsert =>
    cases toInsert with
    | none => exact ⟨rfl, fun _ _ => .commitCleared hreq hslides hdata⟩
    | some data =>
      refine ⟨.fill hreq hslides hdata, fun r => ?_⟩
      cases r with
      | error err => exact broken_ended
      | ok _ => exact ⟨rfl, fun _ _ => .commitFilled⟩

theorem ends_updatePresentation (hreq : req.endpoint = .updatePresentation id body)
    (huser : req.user? env = some user) :
    (course env req).Ensures .idle (updatePresentation user id body) (Ends req.endpoint) := by
  refine ends_guarded ?_ fun _ => by decide
  refine ends_ofOption_bind fun title htitle => ends_ofOption_bind fun slides hslides => ?_
  split
  · exact ends_failed (by decide)
  rename_i hid
  refine ends_quiet_bind rfl fun found => ?_
  cases found with
  | none => exact ends_failed (by decide)
  | some deck =>
    show (course env req).Ensures _ (if _ then _ else _) _
    split
    · exact ends_failed (by decide)
    exact ends_transaction_bind (by rw [hreq]; rfl) (ensures_saveSlides_course hreq huser hid htitle hslides)
      fun _ => ⟨_, rfl, show 200 < 400 by decide⟩

theorem ends_deletePresentation (hreq : req.endpoint = .deletePresentation id) (huser : req.user? env = some user) :
    (course env req).Ensures .idle (deletePresentation user id) (Ends req.endpoint) := by
  refine ends_guarded ?_ fun _ => by decide
  split
  · exact ends_failed (by decide)
  refine ends_quiet_bind rfl fun found => ?_
  cases found with
  | none => exact ends_failed (by decide)
  | some deck =>
    show (course env req).Ensures _ (if _ then _ else _) _
    split
    · exact ends_failed (by decide)
    refine ends_transaction_bind (by rw [hreq]; rfl) ⟨.sweep hreq, fun r => ?_⟩ fun _ =>
      ⟨_, rfl, show 200 < 400 by decide⟩
    cases r with
    | error err => exact broken_ended
    | ok _ =>
      refine ⟨.drop hreq, fun r => ?_⟩
      cases r with
      | error err => exact broken_ended
      | ok _ => exact ⟨rfl, fun _ _ => .commitDropped huser⟩

theorem ends_createShareLink (hreq : req.endpoint = .createShareLink id body)
    (huser : req.userId? env = some user.id) :
    (course env req).Ensures .idle (createShareLink env user id body) (Ends req.endpoint) := by
  refine ends_guarded ?_ fun _ => (show 400 ≤ 500 by decide)
  refine ends_ofOption_bind fun recipientEmail _ => ?_
  show (course env req).Ensures _ (if _ then _ else _) _
  split
  · exact ends_failed (by decide)
  refine ends_quiet_bind rfl fun found => ?_
  cases found with
  | none => exact ends_failed (by decide)
  | some p =>
    refine ends_quiet_bind rfl fun token => ends_quiet_bind rfl fun now => ?_
    refine ends_ofOption_bind fun hours _ => ends_ofOption_bind fun permission _ => ⟨.share hreq huser, fun r => ?_⟩
    cases r with
    | error err => exact ends_threw
    | ok _ => exact ends_done (show 201 < 400 by decide)

theorem ends_useTemplate (hstores : req.endpoint.storesDecks = true) (huser : req.userId? env = some user.id) :
    (course env req).Ensures .idle (useTemplate user body) (Ends req.endpoint) := by
  refine ends_guarded ?_ fun _ => by decide
  refine ends_ofOption_bind fun templateId _ => ?_
  show (course env req).Ensures _ (if _ then _ else _) _
  split
  · exact ends_failed (by decide)
  refine ends_quiet_bind rfl fun found => ?_
  rcases found with _ | ⟨template, slides⟩
  · exact ends_failed (by decide)
  · refine ⟨.create hstores huser, fun r => ?_⟩
    cases r with
    | error err => exact ends_threw
    | ok deck => exact ends_done (show 201 < 400 by decide)

theorem ends_convertPptToPresentation (hstores : req.endpoint.storesDecks = true)
    (huser : req.userId? env = some user.id) :
    (course env req).Ensures .idle (convertPptToPresentation user id) (Ends req.endpoint) := by
  refine ends_guarded ?_ fun _ => (show 400 ≤ 500 by decide)
  split
  · exact ends_failed (by decide)
  refine ends_quiet_bind rfl fun found => ?_
  cases found with
  | none => exact ends_failed (by decide)
  | some importedPpt =>
    refine ends_quiet_bind rfl fun entries => ⟨.create hstores huser, fun r => ?_⟩
    cases r with
    | error err => exact ends_threw
    | ok deck => exact ends_done (show 201 < 400 by decide)

end Handlers

/-! ### Requests that change no deck -/

section Readers
variable {env : Env} {req : Request} {e : Endpoint} {user : AuthUser} {id : String} (he : e.changesDecks = false)
include he

theorem ends_exportToPptx : (course env req).Ensures .idle (exportToPptx id) (Ends e) := by
  refine ends_guarded (ends_quiet_bind rfl fun found => ?_) fun _ => by decide
  cases found with
  | none => exact ends_failed (by decide)
  | some deck => exact ends_ofOption_bind fun _ _ => ends_unchanged he

theorem ends_resolveShareToken {token : String} :
    (course env req).Ensures .idle (resolveShareToken token) (Ends e) := by
  refine ends_guarded (ends_quiet_bind rfl fun found => ?_) fun _ => (show 400 ≤ 500 by decide)
  rcases found with _ | ⟨shareToken, presentation⟩
  · exact ends_failed (by decide)
  · refine ends_quiet_bind rfl fun now => ?_
    show (course env req).Ensures _ (if _ then _ else _) _
    split
    · exact ends_failed (by decide)
    · exact ends_unchanged he

theorem ends_getSharedPresentation {token : Val} :
    (course env req).Ensures .idle (getSharedPresentation id token) (Ends e) := by
  refine ends_guarded ?_ fun _ => (show 400 ≤ 500 by decide)
  split
  · exact ends_failed (by decide)
  refine ends_ofOption_bind fun token _ => ends_quiet_bind rfl fun found => ?_
  rcases found with _ | ⟨shareToken, presentation⟩
  · exact ends_failed (by decide)
  show (course env req).Ensures _ (if _ then _ else _) _
  split
  · exact ends_failed (by decide)
  refine ends_quiet_bind rfl fun now => ?_
  split
  · exact ends_failed (by decide)
  refine ends_quiet_bind rfl fun found => ?_
  cases found with
  | none => exact ends_failed (by decide)
  | some deck => exact ends_unchanged he

theorem ends_getTemplateById : (course env req).Ensures .idle (getTemplateById id) (Ends e) := by
  refine ends_guarded (ends_quiet_bind rfl fun found => ?_) fun _ => by decide
  cases found with
  | none => exact ends_failed (by decide)
  | some template => exact ends_unchanged he

theorem ends_uploadPptx {fileName : Option String} :
    (course env req).Ensures .idle (uploadPptx user fileName) (Ends e) := by
  refine ends_guarded ?_ fun _ => (show 400 ≤ 500 by decide)
  split
  · exact ends_failed (by decide)
  cases fileName with
  | none => exact ends_failed (by decide)
  | some name => exact ends_quiet_bind rfl fun _ => ends_quiet_bind rfl fun _ => ends_unchanged he

theorem ends_getImportedPpts : (course env req).Ensures .idle (getImportedPpts user) (Ends e) := by
  refine ends_guarded ?_ fun _ => by decide
  split
  · exact ends_failed (by decide)
  · exact ends_quiet_bind rfl fun _ => ends_unchanged he

theorem ends_getUserPlan : (course env req).Ensures .idle (getUserPlan user) (Ends e) := by
  refine ends_guarded ?_ fun _ => by decide
  split
  · exact ends_failed (by decide)
  refine ends_quiet_bind rfl fun found => ?_
  cases found with
  | none => exact ends_failed (by decide)
  | some row => exact ends_unchanged he

end Readers

/-! ### Every route -/

theorem authenticate_error {env : Env} {authorization : Option String} {response : Response}
    (h : authenticate env authorization = .error response) : response.status = 401 := by
  unfold authenticate at h
  split at h
  · cases h
    rfl
  · split at h
    · cases h
      rfl
    · split at h
      · cases h
      · cases h
        rfl

theorem ends_authenticated {env : Env} {req : Request} {handler : AuthUser → Handler Response}
    (h : ∀ user, req.user? env = some user → (course env req).Ensures .idle (handler user) (Ends req.endpoint)) :
    (course env req).Ensures .idle (authenticated env req handler) (Ends req.endpoint) := by
  cases huser : req.user? env with
  | none =>
    unfold Request.user? at huser
    unfold authenticated
    split at huser
    · cases huser
    · rename_i response hrefused
      exact ends_failed (le_of_le_of_eq (show 400 ≤ 401 by decide) (authenticate_error hrefused).symm)
  | some user =>
    rw [authenticated_of_user huser]
    exact h user huser

/-- Every request keeps to its course. -/
theorem ends_handle (env : Env) (req : Request) :
    (course env req).Ensures .idle (handle env req) (Ends req.endpoint) := by
  have huserId : ∀ {user}, req.user? env = some user → req.userId? env = some user.id := fun h => by
    rw [Request.userId?, h]
    rfl
  unfold handle
  split <;> rename_i hreq
  · exact ends_authenticated fun user huser => ends_postPresentations (by rw [hreq]; rfl) (huserId huser)
  · exact ends_authenticated fun _ _ => ends_postGenerateSlide (by rw [hreq]; rfl)
  · exact ends_authenticated fun _ _ => ends_getUserPresentations (by rw [hreq]; rfl)
  · exact ends_authenticated fun _ _ => ends_getPresentationById (by rw [hreq]; rfl)
  · exact ends_authenticated fun _ huser => ends_updatePresentation hreq huser
  · exact ends_authenticated fun _ huser => ends_deletePresentation hreq huser
  · exact ends_authenticated fun _ _ => ends_exportToPptx (by rw [hreq]; rfl)
  · exact ends_authenticated fun _ huser => ends_createShareLink hreq (huserId huser)
  · exact ends_resolveShareToken (by rw [hreq]; rfl)
  · exact ends_getSharedPresentation (by rw [hreq]; rfl)
  · exact ends_guarded (ends_quiet_bind rfl fun _ => ends_unchanged (by rw [hreq]; rfl)) fun _ => by decide
  · exact ends_getTemplateById (by rw [hreq]; rfl)
  · exact ends_authenticated fun _ huser => ends_useTemplate (by rw [hreq]; rfl) (huserId huser)
  · exact ends_authenticated fun _ _ => ends_guarded (ends_ofOption_bind fun _ _ => ends_quiet_bind rfl fun _ =>
      ends_unchanged (by rw [hreq]; rfl)) fun _ => by decide
  · exact ends_authenticated fun _ _ => ends_getImportedPpts (by rw [hreq]; rfl)
  · exact ends_authenticated fun _ _ => ends_uploadPptx (by rw [hreq]; rfl)
  · exact ends_authenticated fun _ huser => ends_convertPptToPresentation (by rw [hreq]; rfl) (huserId huser)
  · exact ends_authenticated fun _ _ => ends_getUserPlan (by rw [hreq]; rfl)

end Slideo
