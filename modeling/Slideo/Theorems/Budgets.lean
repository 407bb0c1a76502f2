import Slideo.Server
import Slideo.Lib.Progress

/-! Every request makes at most seven calls, whatever they answer, and ends with a response. -/

namespace Slideo
open Js Interleave

/-! ### Budgets -/

section Rules
variable {n m : Nat} {α : Type}

theorem within_guarded {onError : Err → Response} {body : Handler Response} (h : Within n body) :
    Within n (guarded onError body) :=
  Within.tryCatch (m := 0) h fun _ => trivial

theorem within_ofOption_bind {o : Option α} {f : α → Handler Response} (h : ∀ a, Within n (f a)) :
    Within n (ofOption o >>= f) := by
  cases o with
  | none => trivial
  | some a => exact h a

theorem within_ofOption {o : Option α} : Within n (ofOption o : Handler α) := by
  cases o <;> trivial

theorem within_transaction {p : Handler α} (h : Within n p) : Within (1 + ((n + 1) + 1)) (transaction p) := by
  refine Within.ask_bind fun _ => Within.bind (h.tryCatch fun e => ?_) fun a =>
    Within.ask_bind (n := 0) fun _ => trivial
  exact Within.ask_bind (n := 0) fun _ => trivial

end Rules

section Handlers
variable {env : Env} {user : AuthUser} {id : String} {body topic : Val} {n : Int}

theorem within_checkLimits : Within 3 (checkLimits env user) := by
  refine Within.tryCatch (m := 0) (Within.ask_bind (n := 2) fun found => ?_) fun _ => trivial
  cases found with
  | none => trivial
  | some row =>
    refine Within.ask_bind (n := 1) fun now => Within.bind (m := 0) ?_ fun row' => ?_
    · unfold resetUsage
      split
      · exact Within.ask_bind (n := 0) fun _ => trivial
      · trivial
    · show Within 0 (if _ then _ else _)
      split <;> trivial

theorem within_generate {o : AdvancedOptions} : Within 1 (generatePresentationSlides topic n o) := by
  refine Within.tryCatch (n := 1) (m := 0) ?_ fun _ => within_ofOption
  cases prompt topic n o with
  | none => trivial
  | some p => exact Within.ask_bind (n := 0) fun _ => within_ofOption

theorem within_findRequiredLayouts {templateId : Val} : Within 1 (findRequiredLayouts templateId) := by
  unfold findRequiredLayouts
  split
  · exact Within.ask_bind (n := 0) fun _ => trivial
  · trivial

theorem within_finalSlides {layouts : Option (List String)} : Within 1 (finalSlides body topic layouts) := by
  unfold finalSlides
  split
  · trivial
  · cases slideCountFor layouts (getOpt body "slideCount") with
    | none => trivial
    | some count => exact within_generate.bind (m := 0) fun _ => trivial

theorem within_createPresentation : Within 4 (createPresentation user body) := by
  refine within_guarded ?_
  split
  · trivial
  refine within_ofOption_bind fun topic => ?_
  split
  · trivial
  refine within_findRequiredLayouts.bind (m := 3) fun layouts => within_finalSlides.bind (m := 2) fun slides => ?_
  exact within_ofOption_bind fun data => Within.ask_bind (n := 1) fun deck =>
    Within.ask_bind (n := 0) fun _ => trivial

theorem within_postPresentations : Within 7 (postPresentations env body user) := by
  refine within_checkLimits.bind (m := 4) fun passed => ?_
  rcases passed with response | row
  · trivial
  · dsimp only
    split
    · exact within_createPresentation
    · trivial

theorem within_postGenerateSlide : Within 7 (postGenerateSlide env body user) := by
  refine Within.mono (n := 4) (within_checkLimits.bind (m := 1) fun passed => ?_) (by decide)
  rcases passed with response | row
  · trivial
  refine within_guarded ?_
  split
  · trivial
  refine within_ofOption_bind fun topic => ?_
  split
  · trivial
  refine within_generate.bind (m := 0) fun slides => ?_
  cases slides <;> trivial

theorem within_getPresentationById : Within 7 (getPresentationById user id) := by
  refine within_guarded ?_
  split
  · trivial
  refine Within.ask_bind (n := 6) fun found => ?_
  cases found with
  | none => trivial
  | some deck =>
    show Within 6 (if _ then _ else _)
    split <;> trivial

theorem within_saveSlides {title slides : Val} : Within 3 (saveSlides id title slides) := by
  refine Within.ask_bind (n := 2) fun pres => Within.ask_bind (n := 1) fun _ =>
    Within.bind (m := 0) ?_ fun _ => trivial
  unfold insertSlides
  cases slidesToInsert slides with
  | none => trivial
  | some toInsert =>
    cases toInsert with
    | none => trivial
    | some data => exact Within.ask

theorem within_updatePresentation : Within 7 (updatePresentation user id body) := by
  refine within_guarded (within_ofOption_bind fun title => within_ofOption_bind fun slides => ?_)
  split
  · trivial
  refine Within.ask_bind (n := 6) fun found => ?_
  cases found with
  | none => trivial
  | some deck =>
    show Within 6 (if _ then _ else _)
    split
    · trivial
    · exact (within_transaction within_saveSlides).bind (m := 0) fun _ => trivial

theorem within_deletePresentation : Within 7 (deletePresentation user id) := by
  refine within_guarded ?_
  split
  · trivial
  refine Within.ask_bind (n := 6) fun found => ?_
  cases found with
  | none => trivial
  | some deck =>
    show Within 6 (if _ then _ else _)
    split
    · trivial
    refine Within.mono (n := 5) ?_ (by decide)
    exact (within_transaction (n := 2) (Within.ask_bind (n := 1) fun _ => Within.ask)).bind (m := 0) fun _ => trivial

theorem within_exportToPptx : Within 7 (exportToPptx id) := by
  refine within_guarded (Within.ask_bind (n := 6) fun found => ?_)
  cases found with
  | none => trivial
  | some deck => exact within_ofOption_bind fun _ => trivial

theorem within_createShareLink : Within 7 (createShareLink env user id body) := by
  refine within_guarded (within_ofOption_bind fun recipientEmail => ?_)
  show Within 7 (if _ then _ else _)
  split
  · trivial
  refine Within.ask_bind (n := 6) fun found => ?_
  cases found with
  | none => trivial
  | some p =>
    refine Within.ask_bind (n := 5) fun token => Within.ask_bind (n := 4) fun now => ?_
    exact within_ofOption_bind fun hours => within_ofOption_bind fun permission =>
      Within.ask_bind (n := 3) fun _ => trivial

theorem within_resolveShareToken {token : String} : Within 7 (resolveShareToken token) := by
  refine within_guarded (Within.ask_bind (n := 6) fun found => ?_)
  rcases found with _ | ⟨shareToken, presentation⟩
  · trivial
  · refine Within.ask_bind (n := 5) fun now => ?_
    show Within 5 (if _ then _ else _)
    split <;> trivial

theorem within_getSharedPresentation {token : Val} : Within 7 (getSharedPresentation id token) := by
  refine within_guarded ?_
  split
  · trivial
  refine within_ofOption_bind fun token => Within.ask_bind (n := 6) fun found => ?_
  rcases found with _ | ⟨shareToken, presentation⟩
  · trivial
  show Within 6 (if _ then _ else _)
  split
  · trivial
  refine Within.ask_bind (n := 5) fun now => ?_
  split
  · trivial
  refine Within.ask_bind (n := 4) fun found => ?_
  cases found <;> trivial

theorem within_useTemplate : Within 7 (useTemplate user body) := by
  refine within_guarded (within_ofOption_bind fun templateId => ?_)
  show Within 7 (if _ then _ else _)
  split
  · trivial
  refine Within.ask_bind (n := 6) fun found => ?_
  rcases found with _ | ⟨template, slides⟩
  · trivial
  · exact Within.ask_bind (n := 5) fun _ => trivial

theorem within_convertPptToPresentation : Within 7 (convertPptToPresentation user id) := by
  refine within_guarded ?_
  split
  · trivial
  refine Within.ask_bind (n := 6) fun found => ?_
  cases found with
  | none => trivial
  | some importedPpt => exact Within.ask_bind (n := 5) fun entries => Within.ask_bind (n := 4) fun _ => trivial

theorem within_uploadPptx {fileName : Option String} : Within 7 (uploadPptx user fileName) := by
  refine within_guarded ?_
  split
  · trivial
  cases fileName with
  | none => trivial
  | some name => exact Within.ask_bind (n := 6) fun _ => Within.ask_bind (n := 5) fun _ => trivial

theorem within_getUserPlan : Within 7 (getUserPlan user) := by
  refine within_guarded ?_
  split
  · trivial
  refine Within.ask_bind (n := 6) fun found => ?_
  cases found <;> trivial

end Handlers

theorem within_authenticated {env : Env} {req : Request} {handler : AuthUser → Handler Response}
    (h : ∀ user, Within 7 (handler user)) : Within 7 (authenticated env req handler) := by
  unfold authenticated
  split
  · exact h _
  · trivial

/-- No request makes more than seven calls. -/
theorem within_handle (env : Env) (req : Request) : Within 7 (handle env req) := by
  unfold handle
  split
  · exact within_authenticated fun _ => within_postPresentations
  · exact within_authenticated fun _ => within_postGenerateSlide
  · refine within_authenticated fun user => within_guarded ?_
    split
    · trivial
    · exact within_ofOption_bind fun _ => within_ofOption_bind fun _ => Within.ask_bind (n := 6) fun _ => trivial
  · exact within_authenticated fun _ => within_getPresentationById
  · exact within_authenticated fun _ => within_updatePresentation
  · exact within_authenticated fun _ => within_deletePresentation
  · exact within_authenticated fun _ => within_exportToPptx
  · exact within_authenticated fun _ => within_createShareLink
  · exact within_resolveShareToken
  · exact within_getSharedPresentation
  · exact within_guarded (Within.ask_bind (n := 6) fun _ => trivial)
  · refine within_guarded (Within.ask_bind (n := 6) fun found => ?_)
    cases found <;> trivial
  · exact within_authenticated fun _ => within_useTemplate
  · exact within_authenticated fun _ => within_guarded
      (within_ofOption_bind fun _ => Within.ask_bind (n := 6) fun _ => trivial)
  · refine within_authenticated fun user => within_guarded ?_
    split
    · trivial
    · exact Within.ask_bind (n := 6) fun _ => trivial
  · exact within_authenticated fun _ => within_uploadPptx
  · exact within_authenticated fun _ => within_convertPptToPresentation
  · exact within_authenticated fun _ => within_getUserPlan

/-! ### Responses -/

/-- No discipline at all. -/
def anything : Monitor Query Query.Answer Err Unit where
  Allowed _ _ := True
  next _ _ _ := ()

theorem anything_ensures {α : Type} {Post : Unit → Except Err α → Prop} (h : ∀ r, Post () r) (p : Handler α) :
    anything.Ensures () p Post := by
  induction p with
  | pure a => exact h _
  | throw e => exact h _
  | call q k ih => exact ⟨trivial, fun r => ih r⟩

/-- The program ends with a result. -/
def Responds {α : Type} (p : Handler α) : Prop := anything.Ensures () p fun _ r => ∃ a, r = .ok a

theorem responds_tryCatch {α : Type} {p : Handler α} {f : Err → Handler α}
    (h : ∀ e, Responds (f e)) : Responds (p.tryCatch f) := by
  refine Monitor.Ensures.tryCatch (anything_ensures (fun r => ?_) p)
  cases r with
  | ok a => exact ⟨a, rfl⟩
  | error e => exact h e

theorem responds_guarded {onError : Err → Response} {body : Handler Response} : Responds (guarded onError body) :=
  responds_tryCatch fun e => ⟨onError e, rfl⟩

theorem responds_limits_bind {env : Env} {user : AuthUser} {f : Response ⊕ User → Handler Response}
    (hf : ∀ passed, Responds (f passed)) : Responds (checkLimits env user >>= f) := by
  have hlimits : Responds (checkLimits env user) := responds_tryCatch fun _ => ⟨_, rfl⟩
  refine Monitor.Ensures.bind (hlimits.mono fun _ r hr => ?_)
  obtain ⟨passed, rfl⟩ := hr
  exact hf passed

theorem responds_authenticated {env : Env} {req : Request} {handler : AuthUser → Handler Response}
    (h : ∀ user, Responds (handler user)) : Responds (authenticated env req handler) := by
  unfold authenticated
  split
  · exact h _
  · exact ⟨_, rfl⟩

/-- No exception leaves a route. -/
theorem responds_handle (env : Env) (req : Request) : Responds (handle env req) := by
  unfold handle
  split
  · refine responds_authenticated fun user => responds_limits_bind fun passed => ?_
    rcases passed with response | row
    · exact ⟨_, rfl⟩
    · dsimp only
      split
      · exact responds_guarded
      · exact ⟨_, rfl⟩
  · refine responds_authenticated fun user => responds_limits_bind fun passed => ?_
    rcases passed with response | row
    · exact ⟨_, rfl⟩
    · exact responds_guarded
  all_goals first | exact responds_guarded | exact responds_authenticated fun _ => responds_guarded

end Slideo
