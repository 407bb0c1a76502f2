import Slideo.Schedule
import Slideo.Theorems.Creation

/-! How many slides `POST /api/presentations` stores. `checkSlideCountLimit` caps a manual array and the
    slide count of the body, but a template and the model's answer bring counts of their own. -/

namespace Slideo
open Js

/-! ### The middleware -/

section Middleware
variable {row : User} {body body' : Val} {name : String} {v : Json}

theorem getOpt_setProp_self {fields : List (String × Json)} :
    getOpt (setProp (some (.obj fields)) name v) name = some v :=
  find?_setField_self

theorem getOpt_setProp_ne {k : String} (hk : k ≠ name) : getOpt (setProp body name v) k = getOpt body k := by
  unfold setProp
  split
  · simp only [getOpt, Js.get, find?_setField_ne hk]
  · rfl

/-- Only an object has other properties than `length`. -/
theorem eq_obj_of_getOpt (h : getOpt body name ≠ none) (hname : name ≠ "length") :
    ∃ fields, body = some (.obj fields) := by
  unfold getOpt Js.get at h
  split at h
  · exact absurd rfl h
  · exact absurd rfl h
  · exact ⟨_, rfl⟩
  · exact absurd (by simp [hname]) h
  · exact absurd (by simp [hname]) h
  · exact absurd rfl h
  · exact absurd rfl h

/-- What the middleware leaves: a short array, or a small count. -/
theorem checkSlideCountLimit_spec (h : checkSlideCountLimit row body = some body') :
    (∀ slides, asArray (getOpt body' "slides") = some slides → slides.length ≤ slideLimit row.plan) ∧
      (asArray (getOpt body' "slides") = none →
        ∃ count, parseIntOr (getOpt body' "slideCount") 5 = some count ∧ count ≤ slideLimit row.plan) := by
  obtain ⟨given, hgiven, h⟩ := Option.bind_eq_some_iff.mp h
  have hslides : getOpt body "slides" = given := by rw [getOpt, hgiven]; rfl
  cases harr : asArray given with
  | some slides =>
    simp only [harr] at h
    split at h
    · cases h
      have hsome : getOpt body "slides" ≠ none := by
        intro hnone
        rw [← hslides, hnone] at harr
        cases harr
      obtain ⟨fields, rfl⟩ := eq_obj_of_getOpt hsome (by decide)
      rw [getOpt_setProp_self]
      refine ⟨fun cut hcut => ?_, fun hnone => by cases hnone⟩
      cases hcut
      simp
    · rename_i hshort
      cases h
      rw [hslides, harr]
      exact ⟨fun _ hsame => by cases hsame; exact not_lt.mp hshort, fun hnone => by cases hnone⟩
  | none =>
    simp only [harr] at h
    obtain ⟨count, hcount, h⟩ := Option.bind_eq_some_iff.mp h
    obtain ⟨requested, hrequested, h⟩ := Option.bind_eq_some_iff.mp h
    have hbody : getOpt body "slideCount" = count := by rw [getOpt, hcount]; rfl
    split at h
    · rename_i hlarge
      cases h
      -- Without a count the request asks for 5 slides, which every plan has.
      have hsome : getOpt body "slideCount" ≠ none := by
        intro hnone
        rw [← hbody, hnone, show parseIntOr none 5 = some 5 by decide] at hrequested
        cases hrequested
        cases hplan : row.plan <;> rw [hplan] at hlarge <;> exact absurd hlarge (by decide)
      obtain ⟨fields, rfl⟩ := eq_obj_of_getOpt hsome (by decide)
      rw [getOpt_setProp_ne (by decide), hslides, harr, getOpt_setProp_self]
      refine ⟨fun _ hnone => (by cases hnone), fun _ => ⟨slideLimit row.plan, ?_, le_rfl⟩⟩
      cases row.plan <;> decide
    · rename_i hsmall
      cases h
      rw [hslides, harr, hbody]
      exact ⟨fun _ hnone => (by cases hnone), fun _ => ⟨requested, hrequested, not_lt.mp hsmall⟩⟩

end Middleware

/-! ### The cap -/

section Cap
variable {ws : Nat → World} {n : Nat} {db : Db} {user : AuthUser} {body : Val}

/-- The slides that the model proposes for a body. -/
def proposedFor (ws : Nat → World) (n : Nat) (db : Db) (body : Val) : Option (List Json) :=
  let layouts := templateLayouts db (getOpt body "templateId")
  proposedSlides (getOpt body "topic") ((slideCountFor layouts (getOpt body "slideCount")).getD 0)
    (advancedOptions body layouts) (ws (n + if truthy (getOpt body "templateId") then 1 else 0)).gemini

/-- The body has slides of its own, the model proposes few enough, or the fallback deck follows a template
    with few enough or none. -/
def WithinCap (ws : Nat → World) (n : Nat) (db : Db) (plan : Plan) (body : Val) : Prop :=
  (asArray (getOpt body "slides")).isSome = true ∨
    match proposedFor ws n db body, templateLayouts db (getOpt body "templateId") with
    | some items, _ => items.length ≤ slideLimit plan
    | none, some layouts => layouts.length ≤ slideLimit plan
    | none, none => True

/-- A created presentation keeps to the cap of the plan exactly when its slides come from the body, or the
    model or the template that decides their number brings few enough. -/
theorem slide_cap_iff {row : User} {given : Val} {userId : String} {title : Val}
    {data : List SlideData} {deck : Deck} (hcap : checkSlideCountLimit row given = some body)
    (hcreated : ⟨.presentationCreate userId title data, .ok deck⟩ ∈
      ((createPresentation user body).run answer ws n (db, {})).log) :
    deck.slides.length ≤ slideLimit row.plan ↔ WithinCap ws n db row.plan body := by
  obtain ⟨harray, hcount⟩ := checkSlideCountLimit_spec hcap
  rw [createPresentation_stores hcreated, storedCount, WithinCap]
  cases hslides : asArray (getOpt body "slides") with
  | some slides => exact ⟨fun _ => Or.inl rfl, fun _ => harray slides hslides⟩
  | none =>
    obtain ⟨count, hparse, hle⟩ := hcount hslides
    show generatedCount _ _ _ _ ≤ _ ↔ _
    rw [generatedCount, ← proposedFor]
    simp only [Option.isSome_none, Bool.false_eq_true, false_or]
    cases proposedFor ws n db body with
    | some items => exact Iff.rfl
    | none =>
      cases templateLayouts db (getOpt body "templateId") with
      | some layouts => exact Iff.rfl
      | none =>
        refine iff_of_true ?_ trivial
        simp only [requestedCount, advancedOptions, slideCountFor, hparse, Option.getD_some]
        omega

end Cap

section Example

/-- The first presentation that a log stores. -/
def storedDeck? : List (Answered Query Query.Answer Err) → Option Deck
  | [] => none
  | ⟨.presentationCreate _ _ _, .ok deck⟩ :: _ => some deck
  | _ :: log => storedDeck? log

theorem mem_of_storedDeck? {log : List (Answered Query Query.Answer Err)} {deck : Deck}
    (h : storedDeck? log = some deck) : ∃ userId title data,
      ⟨.presentationCreate userId title data, .ok deck⟩ ∈ log := by
  fun_induction storedDeck? log with
  | case1 => cases h
  | case2 userId title data stored log =>
    cases h
    exact ⟨userId, title, data, List.mem_cons_self⟩
  | case3 c log _ ih =>
    obtain ⟨userId, title, data, hmem⟩ := ih h
    exact ⟨userId, title, data, List.mem_cons_of_mem _ hmem⟩

/-- Three slides of the user's own. -/
def manualBody : Val := some (.obj [("slides", .arr [.obj [], .obj [], .obj []])])

theorem manual_deck_within_cap :
    ∃ deck, storedDeck? ((createPresentation alice manualBody).run answer (world 0) 0 (officeDb, {})).log = some deck ∧
      deck.slides.length ≤ slideLimit (account "alice" 0).plan := by
  have hstored : (storedDeck? ((createPresentation alice manualBody).run answer
    (world 0) 0 (officeDb, {})).log).isSome =
      true := by decide +kernel
  obtain ⟨deck, hdeck⟩ := Option.isSome_iff_exists.mp hstored
  obtain ⟨userId, title, data, hmem⟩ := mem_of_storedDeck? hdeck
  have hcap : checkSlideCountLimit (account "alice" 0) manualBody = some manualBody := by decide +kernel
  exact ⟨deck, hdeck, (slide_cap_iff hcap hmem).mpr (Or.inl (by decide +kernel))⟩

/-- A template with fifteen slides, as the seed makes them. -/
def seededDb : Db :=
  { officeDb with
    templates := pitchTemplates
    templateSlides := ⟨(List.range 15).map fun i => ⟨issue 0 i, "t", "hero", .obj [], i⟩, by decide +kernel⟩ }

def templateBody : Val := some (.obj [("topic", .str "Q1"), ("templateId", .str "t")])

/-- The model is not available, and the fallback deck follows the template: a FREE user gets 15 slides. -/
theorem template_deck_beyond_cap :
    ∃ body deck, checkSlideCountLimit (account "alice" 0) templateBody = some body ∧
      (∃ userId title data, ⟨.presentationCreate userId title data, .ok deck⟩ ∈
        ((createPresentation alice body).run answer (world 0) 0 (seededDb, {})).log) ∧
      ¬ deck.slides.length ≤ slideLimit (account "alice" 0).plan := by
  have hcount : (storedDeck? ((createPresentation alice templateBody).run answer
    (world 0) 0 (seededDb, {})).log).map
      (·.slides.length) = some 15 := by decide +kernel
  obtain ⟨deck, hdeck, hlen⟩ := Option.map_eq_some_iff.mp hcount
  refine ⟨templateBody, deck, by decide +kernel, mem_of_storedDeck? hdeck, ?_⟩
  rw [hlen]
  decide

end Example

end Slideo
