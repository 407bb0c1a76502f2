import Slideo.Schedule
import Slideo.Theorems.Blocks
import Slideo.Theorems.Creation

/-! What `generatePresentationSlides` returns: the mapping of the model's slides as a whole, or the fallback deck
    as a whole, and never an exception. -/

namespace Slideo
open Js

/-! ### Answers of the model -/

/-- The slide array of a parsed answer. -/
def slideArray (parsed : Json) : List Json :=
  (asArray (getOpt (some parsed) "slides")).getD ((asArray (some parsed)).getD [])

/-- The call rejects, or its text is missing, empty or no JSON, or it is `null` or has a `null` slide. -/
inductive Unusable : Except Err (Option String) → Prop where
  | rejected (e : Err) : Unusable (.error e)
  | missing : Unusable (.ok none)
  | empty : Unusable (.ok (some ""))
  | notJson {text : String} (h : parseChars (cleanText text) = none) : Unusable (.ok (some text))
  | null {text : String} (h : parseChars (cleanText text) = some .null) : Unusable (.ok (some text))
  | nullSlide {text : String} {parsed : Json} (h : parseChars (cleanText text) = some parsed)
      (hnull : .null ∈ slideArray parsed) : Unusable (.ok (some text))

/-- The answer is JSON with these slides, none of them `null`. -/
def Proposes (gemini : Except Err (Option String)) (entries : List Json) : Prop :=
  ∃ text parsed, gemini = .ok (some text) ∧ text ≠ "" ∧ parseChars (cleanText text) = some parsed ∧ parsed ≠ .null ∧
    slideArray parsed = entries ∧ .null ∉ entries

section Proposes
variable {gemini : Except Err (Option String)} {entries : List Json} {text : Option String} {o : AdvancedOptions}

theorem rawSlides_eq {parsed : Json} (h : parsed ≠ .null) : rawSlides parsed = some (slideArray parsed) := by
  have hget : ∃ slides, Js.get (some parsed) "slides" = some slides := by
    cases parsed with
    | null => exact absurd rfl h
    | bool | num | str | arr | obj => exact ⟨_, rfl⟩
  obtain ⟨slides, hget⟩ := hget
  have hopt : getOpt (some parsed) "slides" = slides := by rw [getOpt, hget]; rfl
  unfold rawSlides slideArray
  rw [hget, hopt]
  cases h : asArray slides <;> simp [h]

theorem proposes_of_not_unusable (h : ¬ Unusable gemini) : ∃ entries, Proposes gemini entries := by
  cases gemini with
  | error e => exact absurd (.rejected e) h
  | ok text =>
    cases text with
    | none => exact absurd .missing h
    | some text =>
      cases hparse : parseChars (cleanText text) with
      | none => exact absurd (.notJson hparse) h
      | some parsed =>
        refine ⟨slideArray parsed, text, parsed, rfl, ?_, hparse, ?_, rfl, fun hnull => h (.nullSlide hparse hnull)⟩
        · rintro rfl
          exact h .empty
        · rintro rfl
          exact h (.null hparse)

theorem Proposes.not_unusable (h : Proposes gemini entries) : ¬ Unusable gemini := by
  obtain ⟨text, parsed, rfl, htext, hparse, hnull, rfl, hentry⟩ := h
  intro hunusable
  cases hunusable with
  | empty => exact htext rfl
  | notJson h =>
    rw [hparse] at h
    cases h
  | null h =>
    rw [hparse] at h
    exact hnull (Option.some.inj h)
  | nullSlide h hnull' =>
    rw [hparse] at h
    cases h
    exact hentry hnull'

theorem mapResponse_text (text : String) : mapResponse o (some text) =
    if text = "" then none
    else (parseChars (cleanText text)).bind fun parsed => (rawSlides parsed).bind (mapIdxOption (mapSlide o)) := by
  by_cases htext : text = ""
  · rw [if_pos htext, htext]
    rfl
  · rw [if_neg htext]
    show (Option.bind (if text = "" then none else (parseChars (cleanText text)).bind rawSlides) _) = _
    rw [if_neg htext, Option.bind_assoc]

theorem Proposes.eq {entries' : List Json} (h : Proposes gemini entries)
    (h' : Proposes gemini entries') : entries = entries' := by
  obtain ⟨text, parsed, rfl, -, hparse, -, rfl, -⟩ := h
  obtain ⟨text', parsed', htext, -, hparse', -, rfl, -⟩ := h'
  cases htext
  rw [hparse] at hparse'
  rw [Option.some.inj hparse']

/-- A usable answer is mapped slide by slide. -/
theorem mapResponse_of_proposes (h : Proposes (.ok text) entries) :
    ∃ slides, mapResponse o text = some slides ∧ entries.mapIdx (mapSlide o) = slides.map some := by
  obtain ⟨text, parsed, htext, hne, hparse, hnull, rfl, hentry⟩ := h
  cases htext
  have hslides : ∃ slides : List GeneratedSlide, (slideArray parsed).mapIdx (mapSlide o) = slides.map some := by
    refine ⟨(slideArray parsed).mapIdx fun i entry => (mapSlide o i entry).getD ⟨"", .null, []⟩, ?_⟩
    refine List.ext_getElem (by simp) fun i hi hi' => ?_
    have hlt : i < (slideArray parsed).length := by simpa using hi
    have hne' : (slideArray parsed)[i] ≠ .null := fun hnull => hentry (hnull ▸ List.getElem_mem hlt)
    simp only [List.getElem_mapIdx, List.getElem_map, mapSlide_eq o i hne', Option.getD_some]
  obtain ⟨slides, hslides⟩ := hslides
  refine ⟨slides, ?_, hslides⟩
  rw [mapResponse_text, if_neg hne, hparse]
  show (rawSlides parsed).bind _ = _
  rw [rawSlides_eq hnull]
  exact mapIdxOption_eq_some_iff.mpr hslides

/-- One `null` among the slides, and nothing is mapped. -/
theorem mapIdxOption_of_null {parsed : Json} (hnull : .null ∈ slideArray parsed) :
    mapIdxOption (mapSlide o) (slideArray parsed) = none := by
  cases hmap : mapIdxOption (mapSlide o) (slideArray parsed) with
  | none => rfl
  | some slides =>
    obtain ⟨i, hi, hentry⟩ := List.getElem_of_mem hnull
    have hslide : ((slideArray parsed).mapIdx (mapSlide o))[i]? = some (mapSlide o i .null) := by
      rw [List.getElem?_mapIdx, List.getElem?_eq_getElem hi, hentry]
      rfl
    rw [mapIdxOption_eq_some_iff.mp hmap, List.getElem?_map] at hslide
    obtain ⟨g, -, hg⟩ := Option.map_eq_some_iff.mp hslide
    cases hg

theorem mapResponse_of_unusable (h : Unusable (.ok text)) : mapResponse o text = none := by
  cases h with
  | missing => rfl
  | empty => rfl
  | notJson h =>
    rw [mapResponse_text, h]
    exact ite_self none
  | null h =>
    rw [mapResponse_text, h]
    exact ite_self none
  | @nullSlide text parsed h hnull =>
    have hne : parsed ≠ .null := by
      rintro rfl
      cases hnull
    rw [mapResponse_text, h]
    show (if text = "" then none else (rawSlides parsed).bind _) = none
    rw [rawSlides_eq hne]
    show (if text = "" then none else mapIdxOption (mapSlide o) (slideArray parsed)) = none
    rw [mapIdxOption_of_null hnull]
    exact ite_self none

end Proposes

/-! ### The fallback deck -/

/-- A string or nothing. -/
def isOptionalString : Val → Bool
  | none | some (.str _) => true
  | _ => false

/-- The options are what their type says; no array has 2³² elements. -/
structure AdvancedOptions.Typed (o : AdvancedOptions) : Prop where
  tone : isOptionalString o.tone = true
  language : isOptionalString o.language = true
  textContentAmount : isOptionalString o.textContentAmount = true
  themeId : isOptionalString o.themeId = true
  imageStyle : isOptionalString o.imageStyle = true
  layouts : ∀ layouts, o.requiredLayouts = some layouts → layouts.length < 4294967296

/-- The fields that a slide of a layout shows. -/
def neededFields : List (String × String) :=
  [("bullet-slide", "bullets"), ("list", "bullets"), ("card-grid", "cards"), ("three-cards", "cards"),
    ("numbered-cards", "cards"), ("diagram", "cards"), ("stats", "stats"),
      ("steps", "steps"), ("process-flow", "steps"),
    ("timeline", "timelineEvents"), ("comparison", "comparisonItems"), ("quote", "quote")]

/-- The two themes are of one family, or the same where no family has the first. -/
def SameFamily (theme choice : Json) : Prop :=
  (∃ family ∈ paletteFamilies, theme ∈ family.map Json.str ∧ choice ∈ family.map Json.str) ∨
    (∀ family ∈ paletteFamilies, theme ∉ family.map Json.str) ∧ choice = theme

/-- Slide `i` of the fallback deck for a topic that is a string. -/
def plainSlide (topic : String) (o : AdvancedOptions) (count : Int) (i : Nat) : GeneratedSlide where
  layout := fallbackLayout o count i
  themeChoice := if i = 0 then selectedTheme o.themeId else rotatedTheme (selectedTheme o.themeId) i
  contentJSON :=
    ("title", if i = 0 then some (.str topic) else some
      (.str ("Key Insight " ++ toString i ++ ": Detailed Analysis"))) ::
      ("subtitle", some (.str ("In-depth exploration of " ++ topic ++
        " and its strategic implications for modern development."))) ::
      fallbackPayload (fallbackLayout o count i)

/-- A deck of `count` slides, from the topic to a quote, in the themes of one family, and each with what its layout
    shows. -/
structure CompleteDeck (topic : String) (count : Int) (theme : Json) (slides : List GeneratedSlide) : Prop where
  length : slides.length = count.toNat
  first : ∀ g, slides[0]? = some g → g.layout = "hero" ∧ field? g.contentJSON "title" = some (some (.str topic))
  last : 2 ≤ slides.length → ∀ g, slides.getLast? = some g → g.layout = "quote"
  themes : ∀ g ∈ slides, SameFamily theme g.themeChoice
  payloads : ∀ g ∈ slides, g.layout ≠ "hero" →
    ∃ name, (g.layout, name) ∈ neededFields ∧ (contentField g.contentJSON name).isSome = true

section Fallback
variable {topic : String} {count : Int} {o : AdvancedOptions} {theme : Json} {i : Nat}

theorem fallbackSlide_eq : fallbackSlide (some (.str topic)) o count i = some (plainSlide topic o count i) := rfl

theorem fallbackDeck_eq (topic : String) (h : requestedCount count o < 4294967296) :
    fallbackDeck (some (.str topic)) count o =
    some ((List.range (requestedCount count o).toNat).map (plainSlide topic o (requestedCount count o))) := by
  rw [fallbackDeck, if_neg (not_le.mpr h), mapM_eq_some_iff, List.map_map]
  rfl

theorem sameFamily_self : SameFamily theme theme := by
  by_cases h : ∃ family ∈ paletteFamilies, theme ∈ family.map Json.str
  · obtain ⟨family, hfamily, hmem⟩ := h
    exact Or.inl ⟨family, hfamily, hmem, hmem⟩
  · push Not at h
    exact Or.inr ⟨h, rfl⟩

theorem familyThemes_cases (theme : Json) : (∃ family ∈ paletteFamilies, theme ∈ family.map Json.str ∧
    familyThemes theme = family.map Json.str) ∨
    (∀ family ∈ paletteFamilies, theme ∉ family.map Json.str) ∧ familyThemes theme = [theme] := by
  unfold familyThemes
  cases hfind : paletteFamilies.find? fun themes => (themes.map Json.str).contains theme with
  | some family =>
    have hmem := List.find?_some (p := fun themes : List String => (themes.map Json.str).contains theme) hfind
    exact Or.inl ⟨family, List.mem_of_find?_eq_some hfind, List.contains_iff_mem.mp hmem, rfl⟩
  | none =>
    refine Or.inr ⟨fun family hfamily hmem => ?_, rfl⟩
    exact List.find?_eq_none.mp hfind family hfamily (List.contains_iff_mem.mpr hmem)

theorem sameFamily_rotated : SameFamily theme (rotatedTheme theme i) := by
  have hmem : familyThemes theme ≠ [] → rotatedTheme theme i ∈ familyThemes theme := by
    intro hne
    have hlt := Nat.mod_lt i (List.length_pos_iff.mpr hne)
    rw [rotatedTheme, List.getElem?_eq_getElem hlt]
    exact List.getElem_mem hlt
  rcases familyThemes_cases theme with ⟨family, hfamily, htheme, heq⟩ | ⟨hnone, heq⟩
  · rw [heq] at hmem
    refine Or.inl ⟨family, hfamily, htheme, hmem fun hnil => ?_⟩
    rw [hnil] at htheme
    cases htheme
  · rw [heq] at hmem
    exact Or.inr ⟨hnone, List.mem_singleton.mp (hmem (List.cons_ne_nil _ _))⟩

/-- The fields of payloads are neither the title nor the subtitle. -/
theorem ne_title_of_needed : ∀ p ∈ neededFields, p.2 ≠ "title" ∧ p.2 ≠ "subtitle" := by decide

/-- Every layout with a payload but `three-cards` finds it in the fallback. -/
theorem fallbackPayload_needed : ∀ p ∈ neededFields,
    ((contentField (fallbackPayload p.1) p.2).isSome = true ↔ p.1 ≠ "three-cards") := by
  decide +kernel

theorem plainSlide_needed {name : String} (h : ((plainSlide topic o count i).layout, name) ∈ neededFields) :
    (contentField (plainSlide topic o count i).contentJSON name).isSome = true ↔
      (plainSlide topic o count i).layout ≠ "three-cards" := by
  obtain ⟨htitle, hsubtitle⟩ := ne_title_of_needed _ h
  have hpayload := fallbackPayload_needed _ h
  have hskip : contentField (plainSlide topic o count i).contentJSON name =
      contentField (fallbackPayload (plainSlide topic o count i).layout) name := by
    simp [plainSlide, contentField, Ne.symm htitle, Ne.symm hsubtitle]
  rw [hskip]
  exact hpayload

theorem fallbackLayout_mem (h : o.requiredLayouts = none) : fallbackLayout o count i ∈ fallbackLayouts := by
  unfold fallbackLayout
  rw [h]
  show (if i = 0 then "hero" else if (i : Int) = count - 1 then "quote" else _) ∈ _
  split
  · decide
  · split
    · decide
    · have hlt : i % fallbackLayouts.length < fallbackLayouts.length := Nat.mod_lt i (by decide)
      rw [List.getElem?_eq_getElem hlt]
      exact List.getElem_mem hlt

/-- Without a template, the fallback deck is complete. -/
theorem completeDeck (h : o.requiredLayouts = none) : CompleteDeck topic count (selectedTheme o.themeId)
    ((List.range count.toNat).map (plainSlide topic o count)) where
  length := by rw [List.length_map, List.length_range]
  first g hg := by
    rw [List.getElem?_map] at hg
    obtain ⟨i, hi, rfl⟩ := Option.map_eq_some_iff.mp hg
    obtain ⟨-, rfl⟩ := List.getElem?_eq_some_iff.mp hi
    rw [List.getElem_range]
    unfold plainSlide fallbackLayout
    rw [h]
    exact ⟨rfl, rfl⟩
  last hlen g hg := by
    rw [List.length_map, List.length_range] at hlen
    rw [List.getLast?_map, List.getLast?_range, if_neg (by omega)] at hg
    cases hg
    unfold plainSlide fallbackLayout
    rw [h]
    show (if count.toNat - 1 = 0 then "hero" else if ((count.toNat - 1 : Nat) : Int) =
      count - 1 then "quote" else _) = "quote"
    rw [if_neg (by omega), if_pos (by omega)]
  themes g hg := by
    obtain ⟨i, -, rfl⟩ := List.mem_map.mp hg
    show SameFamily _ (if i = 0 then _ else _)
    split
    · exact sameFamily_self
    · exact sameFamily_rotated
  payloads g hg hhero := by
    obtain ⟨i, -, rfl⟩ := List.mem_map.mp hg
    have hall : ∀ layout ∈ fallbackLayouts, layout ≠ "hero" →
        layout ≠ "three-cards" ∧ ∃ p ∈ neededFields, p.1 = layout := by decide
    obtain ⟨hcards, ⟨layout, name⟩, hneeded, rfl⟩ := hall _ (fallbackLayout_mem h) hhero
    exact ⟨name, hneeded, (plainSlide_needed hneeded).mpr hcards⟩

end Fallback

/-! ### The two paths -/

/-- The slides that a generation returns, in some world and from some state. -/
def Generates (topic : Val) (count : Int) (o : AdvancedOptions) (gemini : Except Err (Option String))
    (slides : List GeneratedSlide) : Prop :=
  ∃ (ws : Nat → World) (n : Nat) (db : Db), (ws n).gemini = gemini ∧
    ((generatePresentationSlides topic count o).run answer ws n (db, {})).result = .ok slides

section Paths
variable {topic : String} {count : Int} {o : AdvancedOptions}
  {gemini : Except Err (Option String)} {entries : List Json}
  {slides : List GeneratedSlide}

theorem result_generate (ws : Nat → World) (n : Nat) (db : Db) (topic : Val) (count : Int) (o : AdvancedOptions) :
    ((generatePresentationSlides topic count o).run answer ws n (db, {})).result =
      (generatedSlides topic count o (ws n).gemini).elim (.error .typeError) .ok := by
  obtain ⟨log, hrun, -⟩ := run_generatePresentationSlides ws n db topic count o
  rw [hrun]

theorem result_eq_ok {α : Type} {a : Option α} {x : α} :
    a.elim (.error Err.typeError) Except.ok = .ok x ↔ a = some x := by
  cases a <;> simp

theorem generated_of_generates {topic : Val} (h : Generates topic count o gemini slides) :
    generatedSlides topic count o gemini = some slides := by
  obtain ⟨ws, n, db, rfl, hrun⟩ := h
  rw [result_generate] at hrun
  exact result_eq_ok.mp hrun

theorem interpolate_optional {before after : String} {v : Val}
    (h : isOptionalString v = true) (htruthy : truthy v = true) :
    ∃ s, interpolate before v after = some s := by
  match v, h with
  | some (.str s), _ => exact ⟨_, rfl⟩
  | none, _ => cases htruthy

/-- Options of the right types make a prompt. -/
theorem prompt_typed (topic : String) (count : Int) (h : o.Typed) :
    ∃ p, prompt (some (.str topic)) count o = some p := by
  have htone : ∃ s, toneInstruction o = some s := by
    unfold toneInstruction
    split
    · exact interpolate_optional h.tone ‹_›
    · exact ⟨_, rfl⟩
  have hlanguage : ∃ s, languageInstruction o = some s := by
    unfold languageInstruction
    split
    · exact interpolate_optional h.language ‹_›
    · exact ⟨_, rfl⟩
  have himage : ∃ s, imageStyleInstruction o = some s := by
    unfold imageStyleInstruction
    split
    · exact interpolate_optional h.imageStyle ‹_›
    · exact ⟨_, rfl⟩
  obtain ⟨tone, htone⟩ := htone
  obtain ⟨language, hlanguage⟩ := hlanguage
  obtain ⟨image, himage⟩ := himage
  unfold prompt
  rw [htone, hlanguage, himage]
  exact ⟨_, rfl⟩

/-- An unusable answer leads to the fallback deck. -/
theorem generated_of_unusable {topic : Val} (h : Unusable gemini) :
    generatedSlides topic count o gemini = fallbackDeck topic count o := by
  have hnone : mappedSlides topic count o gemini = none := by
    unfold mappedSlides
    cases prompt topic count o with
    | none => rfl
    | some p =>
      cases gemini with
      | error e => rfl
      | ok text => exact mapResponse_of_unusable h
  rw [generatedSlides, hnone]
  rfl

/-- A usable answer leads to its own slides. -/
theorem generated_of_proposes (topic : String) (count : Int) (htyped : o.Typed) (h : Proposes gemini entries) :
    ∃ slides, generatedSlides (some (.str topic)) count o gemini = some slides ∧
      entries.mapIdx (mapSlide o) = slides.map some := by
  obtain ⟨text, rfl⟩ : ∃ text, gemini = .ok text := by
    obtain ⟨text, -, rfl, -⟩ := h
    exact ⟨_, rfl⟩
  obtain ⟨slides, hmap, hslides⟩ := mapResponse_of_proposes (o := o) h
  obtain ⟨p, hprompt⟩ := prompt_typed topic count htyped
  refine ⟨slides, ?_, hslides⟩
  rw [generatedSlides, mappedSlides, hprompt]
  show Option.or (mapResponse o text) _ = _
  rw [hmap]
  rfl

/-- Each slide of the model comes from the entry at its position. -/
theorem entry_of_mapIdx {i : Nat} {g : GeneratedSlide} (h : entries.mapIdx (mapSlide o) = slides.map some)
    (hg : slides[i]? = some g) : ∃ entry, entries[i]? = some entry ∧ mapSlide o i entry = some g := by
  have hslide : (entries.mapIdx (mapSlide o))[i]? = some (some g) := by
    rw [h, List.getElem?_map, hg, Option.map_some]
  rw [List.getElem?_mapIdx] at hslide
  exact Option.map_eq_some_iff.mp hslide

theorem slide_of_mapIdx {i : Nat} {entry : Json} (h : entries.mapIdx (mapSlide o) = slides.map some)
    (hentry : entries[i]? = some entry) : ∃ g, slides[i]? = some g ∧ mapSlide o i entry = some g := by
  have hslide : (slides.map some)[i]? = some (mapSlide o i entry) := by
    rw [← h, List.getElem?_mapIdx, hentry, Option.map_some]
  rw [List.getElem?_map] at hslide
  obtain ⟨g, hg, hmapped⟩ := Option.map_eq_some_iff.mp hslide
  exact ⟨g, hg, hmapped.symm⟩

theorem fallbackSlide_of_deck {topic : Val} {i : Nat} {g : GeneratedSlide}
    (h : fallbackDeck topic count o = some slides) (hg : slides[i]? = some g) :
    fallbackSlide topic o (requestedCount count o) i = some g := by
  unfold fallbackDeck at h
  split at h
  · cases h
  · have hslide : ((List.range (requestedCount count o).toNat).map
      (fallbackSlide topic o (requestedCount count o)))[i]? =
        some (some g) := by rw [mapM_eq_some_iff.mp h, List.getElem?_map, hg, Option.map_some]
    rw [List.getElem?_map] at hslide
    obtain ⟨i', hi', hentry⟩ := Option.map_eq_some_iff.mp hslide
    obtain ⟨hlt, rfl⟩ := List.getElem?_eq_some_iff.mp hi'
    rwa [List.getElem_range] at hentry

theorem requestedCount_lt (hcount : count < 4294967296) (htyped : o.Typed) :
    requestedCount count o < 4294967296 := by
  unfold requestedCount
  cases hlayouts : o.requiredLayouts with
  | none => exact hcount
  | some layouts =>
    have hlen := htyped.layouts layouts hlayouts
    show (layouts.length : Int) < _
    omega

/-- Generation never throws, and never mixes: it returns the mapping of every slide of the answer, or, if the answer
    is unusable, the fallback deck, which is complete if no template asks for other layouts. -/
theorem generation_total (topic : String) {count : Int} {o : AdvancedOptions}
    (hcount : count < 4294967296) (htyped : o.Typed) (ws : Nat → World) (n : Nat) (db : Db) :
    ∃ slides,
      ((generatePresentationSlides (some (.str topic)) count o).run answer ws n (db, {})).result = .ok slides ∧
      (Unusable (ws n).gemini → fallbackDeck (some (.str topic)) count o = some slides ∧
        (o.requiredLayouts = none → CompleteDeck topic count (selectedTheme o.themeId) slides)) ∧
      (¬ Unusable (ws n).gemini → ∃ entries, Proposes (ws n).gemini entries ∧ slides.length = entries.length ∧
        entries.mapIdx (mapSlide o) = slides.map some) := by
  rw [result_generate]
  by_cases hunusable : Unusable (ws n).gemini
  · have hdeck := fallbackDeck_eq topic (requestedCount_lt hcount htyped)
    rw [generated_of_unusable hunusable, hdeck]
    refine ⟨_, rfl, fun _ => ⟨rfl, fun hlayouts => ?_⟩, fun h => absurd hunusable h⟩
    have hrequested : requestedCount count o = count := by rw [requestedCount, hlayouts]
    rw [hrequested]
    exact completeDeck hlayouts
  · obtain ⟨entries, hentries⟩ := proposes_of_not_unusable hunusable
    obtain ⟨slides, hgenerated, hslides⟩ := generated_of_proposes topic count htyped hentries
    rw [hgenerated]
    refine ⟨slides, rfl, fun h => absurd h hunusable, fun _ => ⟨entries, hentries, ?_, hslides⟩⟩
    have hlen := congrArg List.length hslides
    rw [List.length_mapIdx, List.length_map] at hlen
    exact hlen.symm

end Paths

theorem AdvancedOptions.typed_default (themeId : Val) (h : isOptionalString themeId = true) :
    AdvancedOptions.Typed { themeId := themeId } :=
  ⟨rfl, rfl, rfl, h, rfl, fun _ hlayouts => by cases hlayouts⟩

/-- A model that answers with a heading and a stray number, in a fence. -/
def fencedAnswer : Except Err (Option String) :=
  .ok (some "```json\n[\x7b\"blocks\":[\x7b\"type\":\"header\",\"text\":\"Q1\"\x7d]\x7d,5]\n```")

def fencedSlides : List Json :=
  [.obj [("blocks", .arr [.obj [("type", .str "header"), ("text", .str "Q1")]])], .num 5]

theorem proposes_fencedSlides : Proposes fencedAnswer fencedSlides :=
  ⟨_, .arr fencedSlides, rfl, by decide, by decide +kernel, by decide, by decide +kernel, by decide⟩

/-- One model is not available, and the other answers with two slides where three are asked for. -/
theorem fallback_deck_complete :
    (∃ slides, ((generatePresentationSlides (some (.str "Q1")) 3 {}).run answer (world 0) 0
      (officeDb, {})).result = .ok slides ∧
      CompleteDeck "Q1" 3 (.str "minimal-light") slides) ∧
    ∃ slides, ((generatePresentationSlides (some (.str "Q1")) 3 {}).run answer
        (fun n => { world 0 n with gemini := fencedAnswer }) 0 (officeDb, {})).result = .ok slides ∧
      slides.length = 2 ∧ fencedSlides.mapIdx (mapSlide {}) = slides.map some := by
  have total := generation_total "Q1" (show (3 : Int) < 4294967296 by decide)
    (AdvancedOptions.typed_default none rfl)
  obtain ⟨slides, hrun, hfallback, -⟩ := total (world 0) 0 officeDb
  obtain ⟨slides', hrun', -, hmapped⟩ := total (fun n => { world 0 n with gemini := fencedAnswer }) 0 officeDb
  obtain ⟨entries, hentries, hlength, hmap⟩ := hmapped proposes_fencedSlides.not_unusable
  rw [← proposes_fencedSlides.eq hentries] at hlength hmap
  exact ⟨⟨slides, hrun, (hfallback (.rejected .unavailable)).2 rfl⟩, slides', hrun', hlength, hmap⟩

end Slideo
