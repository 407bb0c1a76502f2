import Slideo.Theorems.Blocks
import Slideo.Theorems.ImportedText

/-! Generation, then export. The blocks of a generated slide write into one object, and the last one that
    names a layout decides what the exporter draws. The exporter draws cards before stats and a description
    before a value, so a block can hide what another one wrote, and a stat can hide its own value. -/

namespace Slideo
open Js

/-! ### What a slide should show -/

/-- The field holds something to show. -/
def hasText : Val → Bool
  | none | some .null => false
  | some (.str s) => s != ""
  | some _ => true

/-- The field is drawn if it holds anything: it is neither 0 nor `false`. -/
def Plain (v : Val) : Prop := hasText v = true → truthy v = true

/-- The given fields of an item, as far as they hold something to show. -/
def fieldTexts (names : List String) (item : Json) : List Val := (names.map (getOpt (some item))).filter hasText

/-- The texts of a list of boxes that show something. -/
def shownTexts (boxes : List TextBox) : List Val := ((boxes.flatMap TextBox.texts).map some).filter hasText

/-- The boxes show the items in order, two boxes for each item, and of each item exactly the given fields. -/
def ShowsItems (names : List String) : List Json → List TextBox → Prop
  | [], [] => True
  | item :: items, a :: b :: boxes => shownTexts [a, b] = fieldTexts names item ∧ ShowsItems names items boxes
  | _, _ => False

instance decidableShowsItems (names : List String) :
    (items : List Json) → (boxes : List TextBox) → Decidable (ShowsItems names items boxes)
  | [], [] => isTrue trivial
  | [], _ :: _ => isFalse id
  | _ :: _, [] | _ :: _, [_] => isFalse id
  | _ :: items, _ :: _ :: boxes =>
    have := decidableShowsItems names items boxes
    inferInstanceAs (Decidable (_ ∧ _))

/-- A text as it stands in a quote. -/
def quoted (v : Val) : Option String := if hasText v then toStr v else some ""

/-- The boxes show the text of the quote, and its author if it has one. -/
def ShowsQuote (block : Json) (boxes : List TextBox) : Prop :=
  ∃ text author, quoted (getOpt (some block) "text") = some text ∧
    quoted (getOpt (some block) "author") = some author ∧
    boxes.flatMap TextBox.texts = .str ("\"" ++ text ++ "\"") ::
      if hasText (getOpt (some block) "author") then [.str ("— " ++ author)] else []

/-- The boxes show the payload of a block, and nothing else. -/
def ShowsPayload (block : Json) (boxes : List TextBox) : Prop :=
  match blockKind block with
  | some .bulletList => boxes.flatMap TextBox.texts = blockItems block
  | some .cards => ShowsItems ["title", "description"] (blockItems block) boxes
  | some .stats => ShowsItems ["label", "value", "description"] (blockItems block) boxes
  | some .quote => ShowsQuote block boxes
  | _ => True

/-! ### What the exporter draws of an item -/

/-- The texts of the two boxes of an item. -/
def drawnTexts (item : Json) : List Val :=
  [some (firstOf (some item) "title" "label" (.str "")),
    some (firstOf (some item) "description" "value" (.str ""))].filter hasText

/-- A card holds no label in place of its title, and no value in place of its description. -/
def CardFits (item : Json) : Prop :=
  let field := getOpt (some item)
  Plain (field "title") ∧ (hasText (field "title") = true ∨ truthy (field "label") = false) ∧
    Plain (field "description") ∧ (hasText (field "description") = true ∨ truthy (field "value") = false)

/-- A stat holds not both a value and a description, and no title but its label. Or it repeats its value as
    a title and has no label. -/
def StatFits (item : Json) : Prop :=
  let field := getOpt (some item)
  ((truthy (field "title") = true → field "title" = field "label") ∧ Plain (field "label") ∧ Plain (field "value") ∧
      Plain (field "description") ∧ (hasText (field "value") = false ∨ hasText (field "description") = false)) ∨
    (truthy (field "title") = true ∧ hasText (field "label") = false ∧ field "title" = field "value" ∧
      truthy (field "description") = true)

section Items
variable {item : Json} {v a b : Val}

theorem hasText_of_truthy (h : truthy v = true) : hasText v = true := by
  unfold truthy at h
  unfold hasText
  split at h <;> simp_all

/-- `a || b || ''` in a box. -/
theorem shown_or : ([some ((Js.or a (Js.or b (some (.str "")))).getD (.str ""))] : List Val).filter hasText =
    if truthy a then [a] else if truthy b then [b] else [] := by
  have some_of_truthy : ∀ {v : Val}, truthy v = true → some (v.getD (.str "")) = v := by
    intro v hv
    cases v with
    | none => cases hv
    | some j => rfl
  unfold Js.or
  by_cases ha : truthy a = true
  · rw [if_pos ha, if_pos ha, some_of_truthy ha]
    simp [hasText_of_truthy ha]
  · rw [if_neg ha, if_neg ha]
    by_cases hb : truthy b = true
    · rw [if_pos hb, if_pos hb, some_of_truthy hb]
      simp [hasText_of_truthy hb]
    · rw [if_neg hb, if_neg hb]
      rfl

theorem drawnTexts_eq : drawnTexts item =
    (if truthy (getOpt (some item) "title") then [getOpt (some item) "title"]
      else if truthy (getOpt (some item) "label") then [getOpt (some item) "label"] else []) ++
    (if truthy (getOpt (some item) "description") then [getOpt (some item) "description"]
      else if truthy (getOpt (some item) "value") then [getOpt (some item) "value"] else []) := by
  rw [← shown_or, ← shown_or, ← List.filter_append]
  rfl

theorem cardFits_iff : drawnTexts item = fieldTexts ["title", "description"] item ↔ CardFits item := by
  rw [drawnTexts_eq, fieldTexts, CardFits]
  simp only [List.map_cons, List.map_nil, Plain, List.filter_cons, List.filter_nil]
  generalize getOpt (some item) "title" = t
  generalize getOpt (some item) "label" = l
  generalize getOpt (some item) "description" = d
  generalize getOpt (some item) "value" = v
  grind [hasText_of_truthy]

theorem statFits_iff : drawnTexts item = fieldTexts ["label", "value", "description"] item ↔ StatFits item := by
  rw [drawnTexts_eq, fieldTexts, StatFits]
  simp only [List.map_cons, List.map_nil, Plain, List.filter_cons, List.filter_nil]
  generalize getOpt (some item) "title" = t
  generalize getOpt (some item) "label" = l
  generalize getOpt (some item) "description" = d
  generalize getOpt (some item) "value" = v
  grind [hasText_of_truthy]

/-- An item that is not `null` is drawn in two boxes. -/
theorem itemBoxes_eq (idx : Nat) (item : Json) :
    (item = .null ∧ itemBoxes idx item = none) ∨
      (item ≠ .null ∧ ∃ a b, itemBoxes idx item = some [a, b] ∧ shownTexts [a, b] = drawnTexts item) := by
  cases item with
  | null => exact Or.inl ⟨rfl, rfl⟩
  | _ => exact Or.inr ⟨fun h => (by cases h), _, _, rfl, rfl⟩

/-- The grid shows the items exactly if what it draws are their fields. -/
theorem showsItems_iff {names : List String} {drawn : List Json} :
    ∀ {f : Nat → Json → Option (List TextBox)} {items : List Json},
    (∀ idx c, (c = .null ∧ f idx c = none) ∨ (c ≠ .null ∧ ∃ a b, f idx c = some [a, b] ∧
      shownTexts [a, b] = drawnTexts c)) →
    ((∃ groups, mapIdxOption f drawn = some groups ∧ ShowsItems names items groups.flatten) ↔
      List.Forall₂ (fun c item => c ≠ .null ∧ drawnTexts c = fieldTexts names item) drawn items) := by
  induction drawn with
  | nil =>
    intro f items _
    constructor
    · rintro ⟨groups, hgroups, hshows⟩
      cases hgroups
      cases items with
      | nil => exact .nil
      | cons item items => exact hshows.elim
    · intro h
      cases h
      exact ⟨[], rfl, trivial⟩
  | cons c drawn ih =>
    intro f items hf
    have hmap : mapIdxOption f (c :: drawn) = (f 0 c).bind fun g =>
      (mapIdxOption (fun i => f (i + 1)) drawn).map (g :: ·) := by
      rw [mapIdxOption, List.mapIdx_cons, List.mapM_cons]
      cases f 0 c with
      | none => rfl
      | some g => cases h : List.mapM id (drawn.mapIdx fun i => f (i + 1)) <;> simp [mapIdxOption, h]
    rw [hmap]
    have hrest := fun items => @ih (fun i => f (i + 1)) items fun idx => hf (idx + 1)
    rcases hf 0 c with ⟨rfl, hnone⟩ | ⟨hc, a, b, hsome, hab⟩
    · rw [hnone]
      refine iff_of_false ?_ fun h => ?_
      · rintro ⟨_, h, -⟩
        cases h
      · cases h with
        | cons hitem _ => exact hitem.1 rfl
    · rw [hsome, Option.bind_some]
      constructor
      · rintro ⟨groups, hgroups, hshows⟩
        obtain ⟨rest, hmapped, rfl⟩ := Option.map_eq_some_iff.mp hgroups
        cases items with
        | nil => exact hshows.elim
        | cons item items =>
          obtain ⟨hitem, hshows⟩ := hshows
          exact .cons ⟨hc, hab.symm.trans hitem⟩ ((hrest items).mp ⟨rest, hmapped, hshows⟩)
      · intro h
        cases h with
        | cons hitem hforall =>
          obtain ⟨rest, hmapped, hshows⟩ := (hrest _).mpr hforall
          rw [hmapped]
          exact ⟨[a, b] :: rest, rfl, hab.trans hitem.2, hshows⟩

theorem gridBoxes_shows_iff {content : Val} {names : List String} {drawn items : List Json}
    (h : firstOf content "cards" "stats" (.arr []) = .arr drawn) :
    (∃ boxes, gridBoxes content = some boxes ∧ ShowsItems names items boxes) ↔
      List.Forall₂ (fun c item => c ≠ .null ∧ drawnTexts c = fieldTexts names item) drawn items := by
  have hgrid : gridBoxes content = (mapIdxOption itemBoxes drawn).bind fun groups => some groups.flatten := by
    rw [gridBoxes, h]
    rfl
  rw [← showsItems_iff itemBoxes_eq, hgrid]
  constructor
  · rintro ⟨boxes, hboxes, hshows⟩
    obtain ⟨groups, hgroups, hflat⟩ := Option.bind_eq_some_iff.mp hboxes
    cases hflat
    exact ⟨groups, hgroups, hshows⟩
  · rintro ⟨groups, hgroups, hshows⟩
    exact ⟨_, Option.bind_eq_some_iff.mpr ⟨groups, hgroups, rfl⟩, hshows⟩

end Items

/-! ### What the exporter draws of a quote -/

/-- The field can stand in a quote: it is neither 0 nor `false`, and converts to a string. -/
def Legible (v : Val) : Prop := hasText v = true → truthy v = true ∧ (toStr v).isSome = true

section Quotes
variable {v : Val} {block : Json}

/-- What stands in a quote for a field of its block. -/
def quoteField (v : Val) : Val := some ((Js.or v (some (.str ""))).getD .null)

theorem truthy_quoteField : truthy (quoteField v) = truthy v := by
  unfold quoteField Js.or
  cases hv : truthy v with
  | true =>
    cases v with
    | none => cases hv
    | some j => simpa using hv
  | false => rfl

theorem toStr_quoteField : toStr (quoteField v) = if truthy v then toStr v else some "" := by
  unfold quoteField Js.or
  cases hv : truthy v with
  | true =>
    cases v with
    | none => cases hv
    | some j => rfl
  | false => rfl

/-- 0 and `false` read as texts. -/
theorem toStr_of_falsy (htext : hasText v = true) (hfalsy : truthy v = false) : ∃ s, toStr v = some s ∧ s ≠ "" := by
  rcases v with _ | (_ | b | q | s | items | fields)
  · cases htext
  · cases htext
  · cases b with
    | false => exact ⟨"false", rfl, by decide⟩
    | true => cases hfalsy
  · have hq : q = 0 := by simpa [truthy] using hfalsy
    subst hq
    exact ⟨"0", rfl, by decide⟩
  · rw [hasText] at htext
    rw [truthy, htext] at hfalsy
    cases hfalsy
  · cases hfalsy
  · cases hfalsy

theorem quoteBoxes_eq {content : Val} (h : getOpt content "quote" = some (quoteOf block)) :
    (quoteBoxes content).map (·.flatMap TextBox.texts) =
      (toStr (quoteField (getOpt (some block) "text"))).bind fun text =>
        if truthy (getOpt (some block) "author") then
          (toStr (quoteField (getOpt (some block) "author"))).map fun author =>
            [.str ("\"" ++ text ++ "\""), .str ("— " ++ author ++ "")]
        else some [.str ("\"" ++ text ++ "\"")] := by
  have htext : getOpt (some (quoteOf block)) "text" = quoteField (getOpt (some block) "text") := rfl
  have hauthor : getOpt (some (quoteOf block)) "author" = quoteField (getOpt (some block) "author") := rfl
  have htruthy : truthy (some (quoteOf block)) = true := rfl
  simp only [quoteBoxes, h, htruthy, if_true, htext, hauthor, interpolate, truthy_quoteField]
  cases toStr (quoteField (getOpt (some block) "text")) with
  | none => rfl
  | some text =>
    by_cases ha : truthy (getOpt (some block) "author") = true
    · simp only [ha, if_true]
      cases toStr (quoteField (getOpt (some block) "author")) <;> rfl
    · simp only [ha]
      rfl

theorem quoted_of_legible (h : Legible v) : quoted v = toStr (quoteField v) ∧ (toStr (quoteField v)).isSome = true ∧
    hasText v = truthy v := by
  rw [toStr_quoteField, quoted]
  cases htext : hasText v with
  | true =>
    obtain ⟨htruthy, hsome⟩ := h htext
    simp [htruthy, hsome]
  | false =>
    have hfalsy : truthy v = false := by
      by_contra htruthy
      rw [hasText_of_truthy (Bool.not_eq_false _ ▸ htruthy)] at htext
      cases htext
    simp [hfalsy]

theorem legible_of_shows {content : Val} {boxes : List TextBox} (h : getOpt content "quote" = some (quoteOf block))
    (hdrawn : quoteBoxes content = some boxes) (hshows : ShowsQuote block boxes) :
    Legible (getOpt (some block) "text") ∧ Legible (getOpt (some block) "author") := by
  have hboxes := quoteBoxes_eq h
  unfold ShowsQuote at hshows
  generalize getOpt (some block) "text" = t at hboxes hshows ⊢
  generalize getOpt (some block) "author" = a at hboxes hshows ⊢
  obtain ⟨text, author, htext, hauthor, hshown⟩ := hshows
  rw [hdrawn, Option.map_some, hshown] at hboxes
  obtain ⟨text', htext', hboxes⟩ := Option.bind_eq_some_iff.mp hboxes.symm
  have hfirst : text' = text := by
    have hhead : Json.str ("\"" ++ text' ++ "\"") = .str ("\"" ++ text ++ "\"") := by
      split at hboxes
      · obtain ⟨author', -, hboxes⟩ := Option.map_eq_some_iff.mp hboxes
        exact (List.cons.inj hboxes).1
      · exact (List.cons.inj (Option.some.inj hboxes)).1
    have hchars := congrArg String.toList (Json.str.inj hhead)
    exact String.toList_inj.mp (by simpa using hchars)
  subst hfirst
  refine ⟨fun hastext => ?_, fun hasauthor => ?_⟩
  · rw [quoted, if_pos hastext] at htext
    refine ⟨?_, by rw [htext]; rfl⟩
    by_contra hfalsy
    rw [toStr_quoteField, if_neg hfalsy] at htext'
    obtain ⟨s, hs, hne⟩ := toStr_of_falsy hastext (Bool.not_eq_true _ ▸ hfalsy)
    rw [htext, ← htext'] at hs
    exact hne (Option.some.inj hs).symm
  · rw [quoted, if_pos hasauthor] at hauthor
    refine ⟨?_, by rw [hauthor]; rfl⟩
    by_contra hfalsy
    rw [if_neg hfalsy, if_pos hasauthor] at hboxes
    cases hboxes

theorem shows_of_legible {content : Val} (h : getOpt content "quote" = some (quoteOf block))
    (ht : Legible (getOpt (some block) "text")) (ha : Legible (getOpt (some block) "author")) :
    ∃ boxes, quoteBoxes content = some boxes ∧ ShowsQuote block boxes := by
  have hboxes := quoteBoxes_eq h
  obtain ⟨htext, hsome, -⟩ := quoted_of_legible ht
  obtain ⟨hauthor, hsome', hiff⟩ := quoted_of_legible ha
  obtain ⟨text, htext'⟩ := Option.isSome_iff_exists.mp hsome
  obtain ⟨author, hauthor'⟩ := Option.isSome_iff_exists.mp hsome'
  rw [htext', Option.bind_some, hauthor'] at hboxes
  cases hdrawn : quoteBoxes content with
  | none =>
    rw [hdrawn] at hboxes
    split at hboxes <;> cases hboxes
  | some boxes =>
    refine ⟨boxes, rfl, text, author, htext.trans htext', hauthor.trans hauthor', ?_⟩
    rw [hdrawn, Option.map_some] at hboxes
    rw [hiff]
    split at hboxes
    · rename_i htruthy
      rw [if_pos htruthy, Option.some.inj hboxes]
      simp
    · rename_i hfalsy
      rw [if_neg hfalsy, Option.some.inj hboxes]

theorem quoteBoxes_shows_iff {content : Val} (h : getOpt content "quote" = some (quoteOf block)) :
    (∃ boxes, quoteBoxes content = some boxes ∧ ShowsQuote block boxes) ↔
      Legible (getOpt (some block) "text") ∧ Legible (getOpt (some block) "author") := by
  constructor
  · rintro ⟨boxes, hdrawn, hshows⟩
    exact legible_of_shows h hdrawn hshows
  · rintro ⟨ht, ha⟩
    exact shows_of_legible h ht ha

end Quotes

/-! ### Generation, then export -/

/-- The exporter draws what the block holds: nothing else stands in the place of its fields. Behind cards, stats
    are not drawn at all; what is drawn may only happen to read the same. -/
def PayloadFits (before : List Json) (block : Json) : Prop :=
  match blockKind block with
  | some .cards => ∀ item ∈ blockItems block, item ≠ .null ∧ CardFits item
  | some .stats => match cardsOf before with
    | none => ∀ item ∈ blockItems block, item ≠ .null ∧ StatFits item
    | some cards => List.Forall₂ (fun card item => card ≠ .null ∧
        drawnTexts card = fieldTexts ["label", "value", "description"] item) cards (blockItems block)
  | some .quote => Legible (getOpt (some block) "text") ∧ Legible (getOpt (some block) "author")
  | _ => True

section Generated
variable {o : AdvancedOptions} {idx : Nat} {slideObj block : Json} {g : GeneratedSlide} {d : SlideData} {s : Slide}
  {before after : List Json} {layout : String}

/-- The stored slide has the layout and the fields of the generated one. -/
theorem stored_generated (hlayout : g.layout ≠ "") (hdata : createSlideData idx g.toJson = some d)
    (hstored : d.check = .ok s.body) :
    s.layout = g.layout ∧ s.contentJSON = .obj (g.contentJSON.filterMap fun f => f.2.map (f.1, ·)) := by
  obtain ⟨-, hl, hc⟩ := check_ok hstored
  replace hl : d.layout = some (.str s.layout) := hl
  replace hc : s.contentJSON = d.contentJSON := hc
  cases hdata
  have hor : Js.or (getOpt (some g.toJson) "layout") (some (.str "hero")) = some (.str g.layout) := by
    show (if truthy (some (.str g.layout)) then _ else _) = _
    rw [if_pos (by simpa [truthy] using hlayout)]
    rfl
  replace hl : Js.or (getOpt (some g.toJson) "layout") (some (.str "hero")) = some (.str s.layout) := hl
  rw [hor] at hl
  exact ⟨(Json.str.inj (Option.some.inj hl)).symm, hc⟩

/-- What the blocks leave on the slide: the layout and the payload of the last one that names a layout. -/
theorem generated_fields (hmap : mapSlide o idx slideObj = some g) (hidx : 0 < idx)
    (hrequired : o.requiredLayouts = none) (hblocks : asArray (getOpt (some slideObj) "blocks") =
      some (before ++ block :: after))
    (hblock : layoutOf block = some layout) (hafter : ∀ b ∈ after, layoutOf b = none) :
    g.layout = layout ∧ (g.contentJSON.map (·.1)).Nodup ∧ ∀ name, name ≠ "title" → name ≠ "subtitle" →
      contentField g.contentJSON name = match payloadOf block with
        | some (x, v) => if name = x then v else contentField (before.foldl mapBlock ⟨"hero", []⟩).content name
        | none => contentField (before.foldl mapBlock ⟨"hero", []⟩).content name := by
  obtain ⟨blocks, hget, hg⟩ := Option.bind_eq_some_iff.mp hmap
  rw [getOpt, hget, Option.getD_some] at hblocks
  rw [hblocks, Option.getD_some, List.foldl_append, List.foldl_cons, hrequired] at hg
  obtain ⟨hlayout, hfields⟩ := @foldl_of_layoutOf _ hafter (mapBlock (before.foldl mapBlock ⟨"hero", []⟩) block)
  cases hg
  refine ⟨?_, names_foldl (names_mapBlock (names_foldl List.nodup_nil)), fun name htitle hsubtitle => ?_⟩
  · show (if idx = 0 then "hero" else (after.foldl mapBlock _).layout) = layout
    rw [if_neg hidx.ne', hlayout, layout_mapBlock, hblock]
    rfl
  · show contentField (after.foldl mapBlock _).content name = _
    exact (hfields name htitle hsubtitle).trans (field_mapBlock htitle hsubtitle)

/-- The renderer puts the boxes of the layout behind the box of the title. -/
theorem renderSlide_iff {fields : List (String × Json)} {boxes : List TextBox}
    (hcontent : s.contentJSON = .obj fields) :
    renderSlide s = some (titleBox (some s.contentJSON) :: boxes) ↔
    layoutBoxes s.layout (some s.contentJSON) = some boxes := by
  have hget : ∃ v, Js.get (some s.contentJSON) "title" = some v := ⟨_, by rw [hcontent]; rfl⟩
  obtain ⟨v, hv⟩ := hget
  simp only [renderSlide, hv]
  cases layoutBoxes s.layout (some s.contentJSON) with
  | none => exact iff_of_false (fun h => (by cases h)) fun h => (by cases h)
  | some drawn => simp

/-- Of the two layouts of cards the exporter draws one. -/
theorem cardsLayout_exported (h : cardsLayout block ∈ ["bullet-slide", "card-grid", "stats", "quote"]) :
    cardsLayout block = "card-grid" := by
  have hcases : cardsLayout block = "card-grid" ∨ cardsLayout block = "three-cards" := by
    unfold cardsLayout
    split_ifs <;> simp
  rcases hcases with hgrid | hthree
  · exact hgrid
  · rw [hthree] at h
    exact absurd h (by decide)

/-- A content that the blocks have left is drawn as its block, if and only if nothing else stands in the place of
    the block's fields. -/
theorem layoutBoxes_shows_iff {content : Val} (hblock : layoutOf block = some layout)
    (hlayout : layout ∈ ["bullet-slide", "card-grid", "stats", "quote"])
    (hfields : ∀ name, name ≠ "title" → name ≠ "subtitle" → getOpt content name = match payloadOf block with
      | some (x, v) => if name = x then v else contentField (before.foldl mapBlock ⟨"hero", []⟩).content name
      | none => contentField (before.foldl mapBlock ⟨"hero", []⟩).content name) :
    (∃ boxes, layoutBoxes layout content = some boxes ∧ ShowsPayload block boxes) ↔ PayloadFits before block := by
  have hcards := hfields "cards" (by decide) (by decide)
  have hstats := hfields "stats" (by decide) (by decide)
  have hbullets := hfields "bullets" (by decide) (by decide)
  have hquote := hfields "quote" (by decide) (by decide)
  rw [field_cards] at hcards
  unfold layoutOf at hblock
  unfold payloadOf at hcards hstats hbullets hquote
  unfold ShowsPayload PayloadFits
  cases hkind : blockKind block with
  | none =>
    rw [hkind] at hblock
    cases hblock
  | some kind =>
    rw [hkind] at hblock hcards hstats hbullets hquote
    cases kind with
    | bulletList =>
      cases hblock
      have hdrawn : firstOf content "bullets" "list" (.arr []) = .arr (blockItems block) := by
        rw [firstOf, hbullets]
        rfl
      exact iff_of_true (bulletBoxes_texts hdrawn) trivial
    | cards =>
      obtain rfl := Option.some.inj hblock
      have hdrawn : firstOf content "cards" "stats" (.arr []) = .arr (blockItems block) := by
        rw [firstOf, hcards]
        rfl
      rw [cardsLayout_exported hlayout]
      refine (gridBoxes_shows_iff hdrawn).trans ?_
      rw [List.forall₂_same]
      simp only [cardFits_iff]
    | stats =>
      cases hblock
      cases hcardsOf : cardsOf before with
      | none =>
        have hdrawn : firstOf content "cards" "stats" (.arr []) = .arr (blockItems block) := by
          rw [firstOf, hcards, hstats, hcardsOf]
          rfl
        refine (gridBoxes_shows_iff hdrawn).trans ?_
        rw [List.forall₂_same]
        simp only [statFits_iff]
      | some cards =>
        have hdrawn : firstOf content "cards" "stats" (.arr []) = .arr cards := by
          rw [firstOf, hcards, hcardsOf]
          rfl
        exact gridBoxes_shows_iff hdrawn
    | quote =>
      cases hblock
      exact quoteBoxes_shows_iff hquote
    | header => cases hblock
    | paragraph => cases hblock
    | steps | timeline | image | diagram =>
      cases hblock
      exact absurd hlayout (by decide)

/-- The exported slide shows exactly the payload of the last block that names its layout, if and only if the
    exporter draws nothing else in the place of the block's fields. -/
theorem payload_shown_iff (hmap : mapSlide o idx slideObj = some g) (hidx : 0 < idx)
    (hrequired : o.requiredLayouts = none) (hblocks : asArray (getOpt (some slideObj) "blocks") =
      some (before ++ block :: after))
    (hblock : layoutOf block = some layout) (hafter : ∀ b ∈ after, layoutOf b = none)
    (hlayout : layout ∈ ["bullet-slide", "card-grid", "stats", "quote"])
    (hdata : createSlideData idx g.toJson = some d) (hstored : d.check = .ok s.body) :
    (∃ boxes, renderSlide s = some (titleBox (some s.contentJSON) :: boxes) ∧ ShowsPayload block boxes) ↔
      PayloadFits before block := by
  obtain ⟨hg, hnames, hfields⟩ := generated_fields hmap hidx hrequired hblocks hblock hafter
  have hne : g.layout ≠ "" := by
    rw [hg]
    rintro rfl
    exact absurd hlayout (by decide)
  obtain ⟨hs, hcontent⟩ := stored_generated hne hdata hstored
  simp only [renderSlide_iff hcontent, hs, hg]
  refine layoutBoxes_shows_iff hblock hlayout fun name htitle hsubtitle => ?_
  rw [hcontent, getOpt_content hnames]
  exact hfields name htitle hsubtitle

end Generated

/-! ### Two slides -/

/-- The row of a generated slide, once it is stored as the second of its deck. -/
def generatedRow (slideObj : Json) : Option Slide := do
  let g ← mapSlide {} 1 slideObj
  let d ← createSlideData 1 g.toJson
  let body ← d.check.toOption
  return ⟨"s", "p", body.layout, body.contentJSON, body.index, 0, 0, body.themeChoice⟩

theorem generatedRow_eq {slideObj : Json} {s : Slide} (h : generatedRow slideObj = some s) :
    ∃ g d, mapSlide {} 1 slideObj = some g ∧ createSlideData 1 g.toJson = some d ∧ d.check = .ok s.body := by
  obtain ⟨g, hg, h⟩ := Option.bind_eq_some_iff.mp h
  obtain ⟨d, hd, h⟩ := Option.bind_eq_some_iff.mp h
  obtain ⟨body, hbody, h⟩ := Option.bind_eq_some_iff.mp h
  cases h
  exact ⟨g, d, hg, hd, toOption_eq_some.mp hbody⟩

def slideOf (blocks : List Json) : Json := .obj [("blocks", .arr blocks)]

def headerBlock : Json := .obj [("type", .str "header"), ("text", .str "Company Culture")]

/-- A block of stats; a stat may have a description. -/
def statsBlock (description : List (String × Json)) : Json :=
  .obj [("type", .str "stats"), ("layout", .str "grid"), ("columns", .num 2),
    ("items", .arr [.obj ([("value", .str "87%"), ("label", .str "Employee Retention")] ++ description)])]

/-- The stat of the prompt's own example. -/
def describedStats : Json := statsBlock [("description", .str "Strong culture improves retention.")]

/-- A stat without a description is shown with its label and its value. -/
theorem short_stat_shown :
    ∃ s, generatedRow (slideOf [headerBlock, statsBlock []]) = some s ∧
      ∃ boxes, renderSlide s = some (titleBox (some s.contentJSON) :: boxes) ∧
      ShowsPayload (statsBlock []) boxes := by
  have hrow : (generatedRow (slideOf [headerBlock, statsBlock []])).isSome = true := by decide +kernel
  obtain ⟨s, hs⟩ := Option.isSome_iff_exists.mp hrow
  obtain ⟨g, d, hg, hd, hbody⟩ := generatedRow_eq hs
  have hblocks : asArray (getOpt (some (slideOf [headerBlock, statsBlock []])) "blocks") =
      some ([headerBlock] ++ statsBlock [] :: []) := rfl
  have hlayout : layoutOf (statsBlock []) = some "stats" := by decide +kernel
  refine ⟨s, hs, (payload_shown_iff hg (by decide) rfl hblocks hlayout
    (fun _ hb => (by cases hb)) (by decide) hd hbody).mpr ?_⟩
  have hkind : blockKind (statsBlock []) = some .stats := by decide +kernel
  have hcards : cardsOf [headerBlock] = none := by decide +kernel
  rw [PayloadFits, hkind, hcards]
  intro item hitem
  cases List.mem_singleton.mp hitem
  refine ⟨fun h => (by cases h), Or.inl ⟨fun h => (by cases h), fun _ => rfl, fun _ => rfl,
    fun h => (by cases h), Or.inr rfl⟩⟩

/-- With a description, as in the prompt's own example, the value of the stat is lost. -/
theorem described_stat_hides_value :
    ∃ s, generatedRow (slideOf [headerBlock, describedStats]) = some s ∧ s.layout = "stats" ∧
      ¬ ∃ boxes, renderSlide s = some (titleBox (some s.contentJSON) :: boxes) ∧
        ShowsPayload describedStats boxes := by
  have hrow : (generatedRow (slideOf [headerBlock, describedStats])).any (fun s => s.layout == "stats" &&
      (renderSlide s).all fun boxes =>
        !decide (ShowsItems ["label", "value", "description"] (blockItems describedStats) boxes.tail)) = true := by
    decide +kernel
  obtain ⟨s, hs, hlost⟩ := (Option.any_eq_true _ _).mp hrow
  obtain ⟨hlayout, hlost⟩ := Bool.and_eq_true_iff.mp hlost
  refine ⟨s, hs, beq_iff_eq.mp hlayout, ?_⟩
  rintro ⟨boxes, hboxes, hshows⟩
  have hkind : blockKind describedStats = some .stats := by decide +kernel
  rw [ShowsPayload, hkind] at hshows
  rw [hboxes, Option.all_some, List.tail_cons, decide_eq_true hshows] at hlost
  cases hlost

end Slideo
