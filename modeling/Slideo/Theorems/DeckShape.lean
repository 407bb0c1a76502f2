import Slideo.Theorems.Generation

/-! What a generated deck looks like: the themes of its slides, their number and layouts, and the payload that a
    layout needs. The model's path and the fallback's path settle each of these in a way of their own. -/

namespace Slideo
open Js

/-! ### Themes -/

/-- The theme stands first in every family that has it. -/
def StandsFirst (theme : Json) : Prop :=
  ∀ family ∈ paletteFamilies, theme ∈ family.map Json.str → (family.map Json.str).head? = some theme

/-- Slide 0 has the chosen theme, the other slides themes of its family, and each position the same theme in every
    deck that is generated with these options. -/
def HonoursTheme (o : AdvancedOptions) : Prop :=
  ∀ (topic : Val) (count : Int) (gemini : Except Err (Option String)) (slides : List GeneratedSlide),
    Generates topic count o gemini slides →
    (∀ g, slides[0]? = some g → g.themeChoice = selectedTheme o.themeId) ∧
    (∀ g ∈ slides, SameFamily (selectedTheme o.themeId) g.themeChoice) ∧
    ∀ (topic' : Val) (count' : Int) (gemini' : Except Err (Option String)) (slides' : List GeneratedSlide),
      Generates topic' count' o gemini' slides' → ∀ (i : Nat) (g g' : GeneratedSlide), slides[i]? = some g →
        slides'[i]? = some g' → g.themeChoice = g'.themeChoice

section Themes
variable {topic : Val} {count : Int} {o : AdvancedOptions}
  {gemini : Except Err (Option String)} {slides : List GeneratedSlide}
  {i : Nat} {g : GeneratedSlide} {theme : Json}

theorem rotatedTheme_zero_iff : rotatedTheme theme 0 = theme ↔ StandsFirst theme := by
  have hfirst : ∀ family ∈ paletteFamilies, ∀ name ∈ family, rotatedTheme (.str name) 0 = .str name →
      (family.map Json.str).head? = some (.str name) := by decide +kernel
  constructor
  · intro h family hfamily hmem
    obtain ⟨name, hname, rfl⟩ := List.mem_map.mp hmem
    exact hfirst family hfamily name hname h
  · intro h
    rcases familyThemes_cases theme with ⟨family, hfamily, hmem, heq⟩ | ⟨-, heq⟩
    · rw [rotatedTheme, heq, Nat.zero_mod, ← List.head?_eq_getElem?, h family hfamily hmem]
      rfl
    · rw [rotatedTheme, heq]
      rfl

/-- The theme of a slide of the model is that of its position. -/
theorem theme_of_mapSlide {entry : Json} (h : mapSlide o i entry = some g) :
    g.themeChoice = rotatedTheme (selectedTheme o.themeId) i := by
  rw [mapSlide_eq o i (ne_null_of_mapSlide h)] at h
  cases h
  rfl

/-- The first slide of a fallback deck has the chosen theme. -/
theorem theme_of_fallbackSlide (h : fallbackSlide topic o count i = some g) :
    g.themeChoice = if i = 0 then selectedTheme o.themeId else rotatedTheme (selectedTheme o.themeId) i := by
  obtain ⟨subtitle, -, h⟩ := Option.bind_eq_some_iff.mp h
  cases h
  rfl

/-- Where the first theme of the rotation is the chosen one, a position decides the theme. -/
theorem theme_of_generates (hzero : rotatedTheme (selectedTheme o.themeId) 0 = selectedTheme o.themeId)
    (h : Generates topic count o gemini slides) (hg : slides[i]? = some g) :
    g.themeChoice = rotatedTheme (selectedTheme o.themeId) i := by
  have hslides := generated_of_generates h
  rw [generatedSlides] at hslides
  rcases Option.or_eq_some_iff.mp hslides with hmapped | ⟨-, hdeck⟩
  · obtain ⟨p, -, hmapped⟩ := Option.bind_eq_some_iff.mp hmapped
    obtain ⟨text, -, hmap⟩ := Option.bind_eq_some_iff.mp hmapped
    obtain ⟨entries, -, hentries⟩ := Option.bind_eq_some_iff.mp hmap
    obtain ⟨entry, -, hentry⟩ := entry_of_mapIdx (mapIdxOption_eq_some_iff.mp hentries) hg
    exact theme_of_mapSlide hentry
  · rw [theme_of_fallbackSlide (fallbackSlide_of_deck hdeck hg)]
    split
    · rename_i hi
      rw [hi, hzero]
    · rfl

/-- A model that answers with one empty slide. -/
def emptySlideAnswer : Except Err (Option String) := .ok (some "[{}]")

theorem proposes_emptySlide : Proposes emptySlideAnswer [.obj []] :=
  ⟨"[{}]", .arr [.obj []], rfl, by decide, by decide +kernel, by decide, by decide +kernel, by decide⟩

theorem generates_of_generated (h : generatedSlides topic count o gemini = some slides) :
    Generates topic count o gemini slides := by
  refine ⟨fun _ => { world 0 0 with gemini := gemini }, 0, officeDb, rfl, ?_⟩
  rw [result_generate]
  exact result_eq_ok.mpr h

/-- Both paths honour the choice of a theme exactly if it stands first in its family, or has none. -/
theorem theme_honoured_iff (themeId : Val) (h : isOptionalString themeId = true) :
    (∀ o : AdvancedOptions, o.themeId = themeId → HonoursTheme o) ↔ StandsFirst (selectedTheme themeId) := by
  rw [← rotatedTheme_zero_iff]
  constructor
  · intro hall
    obtain ⟨slides, hslides, hmap⟩ := generated_of_proposes "" 1
      (AdvancedOptions.typed_default themeId h) proposes_emptySlide
    obtain ⟨hfirst, -⟩ := hall { themeId := themeId } rfl _ _ _ _ (generates_of_generated hslides)
    obtain ⟨g, hg⟩ : ∃ g, slides[0]? = some g := by
      cases slides with
      | nil => cases hmap
      | cons g slides => exact ⟨g, rfl⟩
    obtain ⟨entry, -, hentry⟩ := entry_of_mapIdx hmap hg
    exact (theme_of_mapSlide hentry).symm.trans (hfirst g hg)
  · rintro hzero o rfl topic count gemini slides h
    refine ⟨fun g hg => (theme_of_generates hzero h hg).trans hzero, fun g hg => ?_, ?_⟩
    · obtain ⟨i, hi, rfl⟩ := List.getElem_of_mem hg
      rw [theme_of_generates hzero h (List.getElem?_eq_getElem hi)]
      exact sameFamily_rotated
    · intro topic' count' gemini' slides' h' i g g' hg hg'
      rw [theme_of_generates hzero h hg, theme_of_generates hzero h' hg']

end Themes

theorem purple_gradient_honoured : HonoursTheme { themeId := some (.str "purple-gradient") } :=
  (theme_honoured_iff (some (.str "purple-gradient")) rfl).mpr (by unfold StandsFirst; decide +kernel) _ rfl

/-- A deck of the model for `obsidian` begins with `midnight-dark`. -/
theorem obsidian_not_honoured : ∃ slides g,
    Generates (some (.str "Q1")) 1 { themeId := some (.str "obsidian") } emptySlideAnswer slides ∧
      slides[0]? = some g ∧ g.themeChoice ≠ .str "obsidian" := by
  obtain ⟨slides, hslides, hmap⟩ := generated_of_proposes "Q1" 1
    (AdvancedOptions.typed_default (some (.str "obsidian")) rfl) proposes_emptySlide
  cases slides with
  | nil => cases hmap
  | cons g slides =>
    obtain ⟨entry, -, hentry⟩ := entry_of_mapIdx hmap (i := 0) rfl
    refine ⟨_, g, generates_of_generated hslides, rfl, ?_⟩
    rw [theme_of_mapSlide hentry]
    decide +kernel

/-! ### The requested structure -/

/-- As many slides as were asked for, with the layouts of the template. -/
def Delivered (count : Int) (o : AdvancedOptions) (slides : List GeneratedSlide) : Prop :=
  (slides.length : Int) = requestedCount count o ∧
    ∀ layouts, o.requiredLayouts = some layouts → slides.map (·.layout) = layouts

section Structure
variable {topic : String} {count : Int} {o : AdvancedOptions}
  {gemini : Except Err (Option String)} {entries : List Json}
  {slides : List GeneratedSlide}

/-- The slides of the model have the layouts of the template if they are as many. -/
theorem delivered_of_mapIdx (hlayouts : ∀ layouts, o.requiredLayouts = some layouts → "" ∉ layouts)
    (h : entries.mapIdx (mapSlide o) = slides.map some) :
    Delivered count o slides ↔ (entries.length : Int) = requestedCount count o := by
  have hlen : entries.length = slides.length := by simpa using congrArg List.length h
  unfold Delivered
  rw [hlen]
  refine and_iff_left_of_imp fun hcount layouts hsome => ?_
  have hcount' : slides.length = layouts.length := by
    rw [requestedCount, hsome] at hcount
    exact Int.ofNat.inj hcount
  refine List.ext_getElem (by rw [List.length_map, hcount']) fun i hi hi' => ?_
  rw [List.length_map] at hi
  rw [List.getElem_map]
  obtain ⟨entry, -, hentry⟩ := entry_of_mapIdx h (List.getElem?_eq_getElem hi)
  rw [mapSlide_eq o i (ne_null_of_mapSlide hentry)] at hentry
  have hne : layouts[i] ≠ "" := fun heq => hlayouts layouts hsome (heq ▸ List.getElem_mem hi')
  rw [← Option.some.inj hentry]
  simp [finalLayout, hsome, List.getElem?_eq_getElem hi', hne]

theorem delivered_of_fallback (hcount : o.requiredLayouts = none → 1 ≤ count) :
    Delivered count o ((List.range (requestedCount count o).toNat).map
      (plainSlide topic o (requestedCount count o))) := by
  refine ⟨?_, fun layouts hsome => ?_⟩
  · rw [List.length_map, List.length_range]
    have hpos : 0 ≤ requestedCount count o := by
      unfold requestedCount
      cases hlayouts : o.requiredLayouts with
      | none => exact Int.le_trans (by decide) (hcount hlayouts)
      | some layouts => exact Int.natCast_nonneg _
    omega
  · have hrequested : requestedCount count o = layouts.length := by rw [requestedCount, hsome]
    rw [hrequested]
    refine List.ext_getElem (by simp) fun i hi hi' => ?_
    simp [plainSlide, fallbackLayout, hsome, List.getElem?_eq_getElem hi']

/-- The requested structure is delivered exactly by the fallback deck, if there is an array of its length, and by
    answers with the requested number of slides. -/
theorem structure_delivered_iff (htyped : o.Typed)
    (hlayouts : ∀ layouts, o.requiredLayouts = some layouts → "" ∉ layouts)
    (hcount : o.requiredLayouts = none → 1 ≤ count) (ws : Nat → World) (n : Nat) (db : Db) :
    (∃ slides, ((generatePresentationSlides (some (.str topic)) count o).run answer ws n (db, {})).result = .ok slides ∧
        Delivered count o slides) ↔
      Unusable (ws n).gemini ∧ requestedCount count o < 4294967296 ∨
        ∃ entries, Proposes (ws n).gemini entries ∧ (entries.length : Int) = requestedCount count o := by
  simp only [result_generate, result_eq_ok]
  by_cases hunusable : Unusable (ws n).gemini
  · rw [generated_of_unusable hunusable]
    constructor
    · rintro ⟨slides, hslides, -⟩
      refine Or.inl ⟨hunusable, ?_⟩
      unfold fallbackDeck at hslides
      split at hslides
      · cases hslides
      · rename_i hlt
        exact not_le.mp hlt
    · rintro (⟨-, hlt⟩ | ⟨entries, hentries, -⟩)
      · exact ⟨_, fallbackDeck_eq topic hlt, delivered_of_fallback hcount⟩
      · exact absurd hunusable hentries.not_unusable
  · obtain ⟨entries, hentries⟩ := proposes_of_not_unusable hunusable
    obtain ⟨slides, hslides, hmap⟩ := generated_of_proposes topic count htyped hentries
    simp only [hslides, Option.some.injEq, exists_eq_left', delivered_of_mapIdx hlayouts hmap]
    constructor
    · exact fun hlen => Or.inr ⟨entries, hentries, hlen⟩
    · rintro (⟨h, -⟩ | ⟨entries', hentries', hlen⟩)
      · exact absurd h hunusable
      · rwa [hentries.eq hentries']

end Structure

/-- The model proposes one slide, as asked. -/
theorem one_slide_delivered : ∃ slides,
    ((generatePresentationSlides (some (.str "Q1")) 1 {}).run answer
      (fun _ => { world 0 0 with gemini := emptySlideAnswer }) 0 (officeDb, {})).result = .ok slides ∧
      Delivered 1 {} slides :=
  (structure_delivered_iff (AdvancedOptions.typed_default none rfl) (fun _ h => by cases h)
    (fun _ => le_rfl) _ 0 officeDb).mpr
    (Or.inr ⟨[.obj []], proposes_emptySlide, rfl⟩)

/-- Five slides are asked for, and the model sends one. -/
theorem short_answer_not_delivered : ∃ slides, Generates (some (.str "Q1")) 5 {} emptySlideAnswer slides ∧
    ¬ Delivered 5 {} slides := by
  obtain ⟨slides, hslides, hmap⟩ := generated_of_proposes "Q1" 5
    (AdvancedOptions.typed_default none rfl) proposes_emptySlide
  refine ⟨slides, generates_of_generated hslides, ?_⟩
  rw [delivered_of_mapIdx (fun _ h => by cases h) hmap]
  decide

/-! ### Layouts and payloads -/

/-- The slide has what its layout shows. -/
def Coherent (g : GeneratedSlide) : Prop :=
  ∀ name, (g.layout, name) ∈ neededFields → (contentField g.contentJSON name).isSome = true

section Coherence
variable {topic : String} {count : Int} {o : AdvancedOptions}
  {slides : List GeneratedSlide} {i : Nat} {g : GeneratedSlide}
  {block entry : Json} {layout name : String}

theorem isSome_of_writes {v : Val} (htitle : name ≠ "title") (hsubtitle : name ≠ "subtitle")
    (h : writes name block = some v) :
    v.isSome = true := by
  unfold writes at h
  cases hkind : blockKind block with
  | none =>
    rw [hkind] at h
    cases h
  | some kind =>
    rw [hkind] at h
    cases kind <;> simp only [htitle, hsubtitle, if_false, false_and, reduceCtorEq] at h
    all_goals
      split at h
      · cases h
        rfl
      · cases h

/-- A payload is on a slide of the model exactly if one of its blocks writes it. -/
theorem contentField_isSome_iff (hmap : mapSlide o i entry = some g) (hneeded : (layout, name) ∈ neededFields) :
    (contentField g.contentJSON name).isSome = true ↔ ∃ b ∈ blocksOf entry, (writes name b).isSome = true := by
  obtain ⟨htitle, hsubtitle⟩ := ne_title_of_needed _ hneeded
  show ((field? g.contentJSON name).getD none).isSome = true ↔ _
  rw [field?_of_writes hmap]
  cases hfind : (blocksOf entry).reverse.findSome? (writes name) with
  | none =>
    have hnone := List.findSome?_eq_none_iff.mp hfind
    simp only [List.mem_reverse] at hnone
    simp only [Option.getD_none, Option.isSome_none, Bool.false_eq_true, false_iff, not_exists, not_and]
    intro b hb
    simp [hnone b hb]
  | some v =>
    obtain ⟨b, hb, hv⟩ := List.exists_of_findSome?_eq_some hfind
    rw [List.mem_reverse] at hb
    exact iff_of_true (isSome_of_writes htitle hsubtitle hv) ⟨b, hb, by rw [hv]; rfl⟩

/-- A block that names a layout writes what the layout shows. -/
theorem writes_of_layoutOf (h : layoutOf block = some layout) (hneeded : (layout, name) ∈ neededFields) :
    (writes name block).isSome = true := by
  unfold layoutOf at h
  unfold writes
  cases hkind : blockKind block with
  | none =>
    rw [hkind] at h
    cases h
  | some kind =>
    rw [hkind] at h
    cases kind with
    | header | paragraph => cases h
    | cards =>
      have hname : name = "cards" := by
        cases h
        unfold cardsLayout at hneeded
        split at hneeded
        · simpa [neededFields] using hneeded
        · split at hneeded <;> simpa [neededFields] using hneeded
      simp [hname]
    | image =>
      cases h
      simp [neededFields] at hneeded
    | bulletList | stats | steps | timeline | quote | diagram =>
      cases h
      simp [neededFields] at hneeded
      simp [hneeded]

/-- The layout that a slide has without a template comes with its payload. -/
theorem writes_of_ownLayout
    (hneeded :
      ((if i = 0 then "hero" else ((blocksOf entry).foldl mapBlock ⟨"hero", []⟩).layout), name) ∈ neededFields) :
    ∃ b ∈ blocksOf entry, (writes name b).isSome = true := by
  have hhero : ("hero", name) ∉ neededFields := by simp [neededFields]
  by_cases hi : i = 0
  · rw [if_pos hi] at hneeded
    exact absurd hneeded hhero
  · rw [if_neg hi, layout_foldl] at hneeded
    cases hfind : (blocksOf entry).reverse.findSome? layoutOf with
    | none =>
      rw [hfind] at hneeded
      exact absurd hneeded hhero
    | some layout =>
      rw [hfind] at hneeded
      obtain ⟨b, hb, hblock⟩ := List.exists_of_findSome?_eq_some hfind
      exact ⟨b, List.mem_reverse.mp hb, writes_of_layoutOf hblock hneeded⟩

/-- The blocks bring what a layout of their own shows; what a layout of the template shows, one of them must
    write. -/
theorem coherent_mapSlide_iff (hmap : mapSlide o i entry = some g) : Coherent g ↔
    ∀ layout name, o.requiredLayouts.bind (·[i]?) = some layout → (layout, name) ∈ neededFields →
      ∃ b ∈ blocksOf entry, (writes name b).isSome = true := by
  have hlayout : g.layout = finalLayout o i ((blocksOf entry).foldl mapBlock ⟨"hero", []⟩).layout := by
    have hg := hmap
    rw [mapSlide_eq o i (ne_null_of_mapSlide hmap)] at hg
    rw [← Option.some.inj hg]
  have hempty : ∀ name, ("", name) ∉ neededFields := by simp [neededFields]
  constructor
  · intro h layout name hrequired hneeded
    have hne : layout ≠ "" := by
      rintro rfl
      exact hempty name hneeded
    have hfinal : g.layout = layout := by simp [hlayout, finalLayout, hrequired, hne]
    exact (contentField_isSome_iff hmap hneeded).mp (h name (hfinal ▸ hneeded))
  · intro h name hneeded
    refine (contentField_isSome_iff hmap hneeded).mpr ?_
    rw [hlayout] at hneeded
    cases hrequired : o.requiredLayouts.bind (·[i]?) with
    | none =>
      simp only [finalLayout, hrequired] at hneeded
      exact writes_of_ownLayout hneeded
    | some layout =>
      simp only [finalLayout, hrequired] at hneeded
      split at hneeded
      · exact writes_of_ownLayout hneeded
      · exact h layout name hrequired hneeded

theorem coherent_plainSlide_iff : Coherent (plainSlide topic o count i) ↔
    fallbackLayout o count i ≠ "three-cards" := by
  constructor
  · intro h heq
    have hneeded : ((plainSlide topic o count i).layout, "cards") ∈ neededFields := by
      rw [show (plainSlide topic o count i).layout = "three-cards" from heq]
      decide
    exact (plainSlide_needed hneeded).mp (h "cards" hneeded) heq
  · exact fun h name hneeded => (plainSlide_needed hneeded).mpr h

/-- The layouts of the fallback deck are those of the template, or its own, none of which is `three-cards`. -/
theorem coherent_fallback_iff (h : fallbackDeck (some (.str topic)) count o = some slides) :
    (∀ g ∈ slides, Coherent g) ↔ ∀ layouts, o.requiredLayouts = some layouts → "three-cards" ∉ layouts := by
  have hslide : ∀ i g, slides[i]? = some g → g = plainSlide topic o (requestedCount count o) i :=
    fun i g hg => (Option.some.inj ((fallbackSlide_of_deck h hg).symm.trans fallbackSlide_eq))
  have hlen := length_fallbackDeck h
  constructor
  · intro hall layouts hsome hmem
    obtain ⟨i, hi, hlayout⟩ := List.getElem_of_mem hmem
    have hlt : i < slides.length := by
      rw [hlen, requestedCount, hsome]
      exact hi
    have hcoherent := hall _ (List.getElem_mem hlt)
    rw [hslide i _ (List.getElem?_eq_getElem hlt), coherent_plainSlide_iff] at hcoherent
    simp [fallbackLayout, hsome, List.getElem?_eq_getElem hi, hlayout] at hcoherent
  · intro hall g hg
    obtain ⟨i, hi, rfl⟩ := List.getElem_of_mem hg
    rw [hslide i _ (List.getElem?_eq_getElem hi), coherent_plainSlide_iff]
    cases hlayouts : o.requiredLayouts with
    | none =>
      have hmem : ∀ layout ∈ fallbackLayouts, layout ≠ "three-cards" := by decide
      exact hmem _ (fallbackLayout_mem hlayouts)
    | some layouts =>
      intro heq
      have hlt : i < layouts.length := by
        rw [hlen, requestedCount, hlayouts] at hi
        exact hi
      simp only [fallbackLayout, hlayouts, List.getElem?_eq_getElem hlt, Option.getD_some] at heq
      exact hall layouts hlayouts (heq ▸ List.getElem_mem hlt)

/-- Slides that a generation returns have what their layouts show exactly if a template asks a fallback deck for no
    `three-cards`, and each slide of the model for no layout whose payload none of its blocks writes. -/
theorem coherent_iff (htyped : o.Typed) {ws : Nat → World} {n : Nat} {db : Db}
    (hrun : ((generatePresentationSlides (some (.str topic)) count o).run answer ws n (db, {})).result = .ok slides) :
    (∀ g ∈ slides, Coherent g) ↔
      (Unusable (ws n).gemini → ∀ layouts, o.requiredLayouts = some layouts → "three-cards" ∉ layouts) ∧
        ∀ entries, Proposes (ws n).gemini entries →
        ∀ (i : Nat) (entry : Json) (layout name : String), entries[i]? = some entry →
          o.requiredLayouts.bind (·[i]?) = some layout → (layout, name) ∈ neededFields →
            ∃ b ∈ blocksOf entry, (writes name b).isSome = true := by
  rw [result_generate, result_eq_ok] at hrun
  by_cases hunusable : Unusable (ws n).gemini
  · rw [generated_of_unusable hunusable] at hrun
    rw [coherent_fallback_iff hrun]
    constructor
    · exact fun h => ⟨fun _ => h, fun entries hentries => absurd hunusable hentries.not_unusable⟩
    · exact fun h => h.1 hunusable
  · obtain ⟨entries, hentries⟩ := proposes_of_not_unusable hunusable
    obtain ⟨slides', hslides, hmap⟩ := generated_of_proposes topic count htyped hentries
    cases hslides.symm.trans hrun
    constructor
    · refine fun h => ⟨fun hu => absurd hu hunusable, fun entries' hentries' i entry layout name hentry => ?_⟩
      rw [← hentries.eq hentries'] at hentry
      obtain ⟨g, hg, hslide⟩ := slide_of_mapIdx hmap hentry
      exact (coherent_mapSlide_iff hslide).mp (h g (List.mem_of_getElem? hg)) layout name
    · rintro ⟨-, hall⟩ g hg
      obtain ⟨i, hi, rfl⟩ := List.getElem_of_mem hg
      obtain ⟨entry, hentry, hslide⟩ := entry_of_mapIdx hmap (List.getElem?_eq_getElem hi)
      exact (coherent_mapSlide_iff hslide).mpr fun layout name => hall entries hentries i entry layout name hentry

end Coherence

theorem default_deck_coherent : ∃ slides,
    ((generatePresentationSlides (some (.str "Q1")) 3 {}).run answer (world 0) 0 (officeDb, {})).result = .ok slides ∧
      ∀ g ∈ slides, Coherent g := by
  have hcount : requestedCount 3 {} < 4294967296 := by decide
  have hgemini : Unusable (world 0 0).gemini := .rejected .unavailable
  obtain ⟨slides, hrun⟩ : ∃ slides,
      ((generatePresentationSlides (some (.str "Q1")) 3 {}).run answer (world 0) 0 (officeDb, {})).result =
        .ok slides := by
    rw [result_generate, generated_of_unusable hgemini, fallbackDeck_eq "Q1" hcount]
    exact ⟨_, rfl⟩
  refine ⟨slides, hrun, (coherent_iff (AdvancedOptions.typed_default none rfl) hrun).mpr
    ⟨fun _ _ h => (by cases h), ?_⟩⟩
  exact fun _ _ _ _ _ _ _ h => (by cases h)

/-- The template asks for a comparison, and no block of a model brings one. -/
theorem comparison_without_items : ∃ slides g,
    Generates (some (.str "Q1")) 1 { requiredLayouts := some ["comparison"] } emptySlideAnswer slides ∧
      g ∈ slides ∧ ¬ Coherent g := by
  have htyped : AdvancedOptions.Typed { requiredLayouts := some ["comparison"] } :=
    ⟨rfl, rfl, rfl, rfl, rfl, fun layouts h => by cases h; decide⟩
  obtain ⟨slides, hslides, hmap⟩ := generated_of_proposes "Q1" 1 htyped proposes_emptySlide
  obtain ⟨g, hg, hslide⟩ := slide_of_mapIdx hmap (i := 0) rfl
  refine ⟨slides, g, generates_of_generated hslides, List.mem_of_getElem? hg, ?_⟩
  rw [coherent_mapSlide_iff hslide]
  intro h
  obtain ⟨b, hb, -⟩ := h "comparison" "comparisonItems" rfl (by decide)
  cases hb

end Slideo
