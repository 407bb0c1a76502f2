import Slideo.Ai
import Mathlib.Data.List.Induction

/-! The blocks of a generated slide. They write into one object and one layout, and the last one that writes a
    field or names a layout decides it. Blocks of different types share the title and the cards. -/

namespace Slideo
open Js

/-! ### Fields of a generated slide -/

/-- `content.name`. -/
def contentField (content : List (String × Val)) (name : String) : Val :=
  ((content.find? (·.1 == name)).map (·.2)).getD none

/-- The field of that name, if the object has it; its value may be `undefined`. -/
def field? (content : List (String × Val)) (name : String) : Option Val := (content.find? (·.1 == name)).map (·.2)

section Fields
variable {content : List (String × Val)} {name x : String} {v : Val}

theorem names_setContent (h : (content.map (·.1)).Nodup) : ((setContent content name v).map (·.1)).Nodup := by
  unfold setContent
  split
  · have hnames : (content.map fun f => if f.1 == name then (name, v) else f).map (·.1) = content.map (·.1) := by
      rw [List.map_map]
      refine List.map_congr_left fun f _ => ?_
      by_cases hf : f.1 = name <;> simp [hf]
    rw [hnames]
    exact h
  · rename_i hnew
    rw [List.map_append]
    refine List.nodup_append.mpr ⟨h, List.nodup_singleton _, ?_⟩
    intro a ha b hb
    obtain ⟨f, hf, rfl⟩ := List.mem_map.mp ha
    rw [List.mem_singleton.mp hb]
    intro heq
    exact hnew (List.any_eq_true.mpr ⟨f, hf, beq_iff_eq.mpr heq⟩)

theorem field?_setContent : field? (setContent content name v) x = if x =
    name then some v else field? content x := by
  unfold setContent field?
  split
  · rename_i hany
    rw [List.find?_map]
    have hsame : ((fun f : String × Val => f.1 == x) ∘ fun f => if f.1 == name then (name, v) else f) =
        fun f => f.1 == x := by
      funext f
      by_cases hf : f.1 = name <;> simp [hf]
    rw [hsame]
    by_cases hx : x = name
    · subst hx
      obtain ⟨f, hf, hfx⟩ := List.any_eq_true.mp hany
      cases hfind : content.find? (·.1 == x) with
      | none => exact absurd hfx (List.find?_eq_none.mp hfind f hf)
      | some g =>
        have hg := List.find?_some hfind
        simp [beq_iff_eq.mp hg]
    · rw [if_neg hx]
      cases hfind : content.find? (·.1 == x) with
      | none => rfl
      | some g =>
        have hg : g.1 = x := beq_iff_eq.mp (List.find?_some (p := fun f : String × Val => f.1 == x) hfind)
        simp [hg, hx]
  · rename_i hnew
    rw [List.find?_append]
    by_cases hx : x = name
    · subst hx
      have hnone : content.find? (·.1 == x) = none := List.find?_eq_none.mpr fun f hf hfx =>
        hnew (List.any_eq_true.mpr ⟨f, hf, hfx⟩)
      simp [hnone]
    · have hne : (name == x) = false := beq_eq_false_iff_ne.mpr (Ne.symm hx)
      simp [hne, hx]

theorem contentField_setContent :
    contentField (setContent content name v) x = if x = name then v else contentField content x := by
  show (field? (setContent content name v) x).getD none = _
  rw [field?_setContent]
  split <;> rfl

/-- The object that is stored has the fields that are not `undefined`. -/
theorem getOpt_content (h : (content.map (·.1)).Nodup) :
    getOpt (some (.obj (content.filterMap fun f => f.2.map (f.1, ·)))) x = contentField content x := by
  have hget : ∀ fields, getOpt (some (.obj fields)) x = (fields.find? (·.1 == x)).map (·.2) := fun _ => rfl
  unfold contentField
  rw [hget]
  induction content with
  | nil => rfl
  | cons f content ih =>
    obtain ⟨hf, hrest⟩ := List.nodup_cons.mp h
    obtain ⟨n, v⟩ := f
    by_cases hn : n = x
    · subst hn
      have hnone : content.find? (·.1 == n) = none :=
        List.find?_eq_none.mpr fun g hg hgn => hf (List.mem_map.mpr ⟨g, hg, beq_iff_eq.mp hgn⟩)
      cases v with
      | some j => simp
      | none =>
        have hih := ih hrest
        rw [hnone] at hih
        simpa using hih
    · have hne : (n == x) = false := beq_eq_false_iff_ne.mpr hn
      cases v with
      | some j => simpa [hne] using ih hrest
      | none => simpa [hne] using ih hrest

end Fields

/-! ### Blocks -/

/-- The kinds of blocks that the mapping knows. -/
inductive BlockKind where
  | header
  | paragraph
  | cards
  | bulletList
  | stats
  | steps
  | timeline
  | quote
  | image
  | diagram
  deriving DecidableEq

def blockKind (block : Json) : Option BlockKind :=
  let type := getOpt (some block) "type"
  if !isObject block then none
  else if type = some (.str "header") then some .header
  else if type = some (.str "paragraph") then some .paragraph
  else if type = some (.str "cards") then some .cards
  else if type = some (.str "bullet-list") then some .bulletList
  else if type = some (.str "stats") then some .stats
  else if type = some (.str "steps") then some .steps
  else if type = some (.str "timeline") then some .timeline
  else if type = some (.str "quote") then some .quote
  else if type = some (.str "image") then some .image
  else if type = some (.str "chart") ∨ type = some (.str "diagram") then some .diagram
  else none

/-- The items of a block. -/
def blockItems (block : Json) : List Json := (asArray (getOpt (some block) "items")).getD []

/-- The layout that a block names. -/
def layoutOf (block : Json) : Option String :=
  match blockKind block with
  | none | some .header | some .paragraph => none
  | some .cards => some (cardsLayout block)
  | some .bulletList => some "bullet-slide"
  | some .stats => some "stats"
  | some .steps => some "steps"
  | some .timeline => some "timeline"
  | some .quote => some "quote"
  | some .image => some "image-left"
  | some .diagram => some "diagram"

/-- The payload of a quote. -/
def quoteOf (block : Json) : Json :=
  .obj [("text", (Js.or (getOpt (some block) "text") (some (.str ""))).getD .null),
    ("author", (Js.or (getOpt (some block) "author") (some (.str ""))).getD .null)]

/-- The field that a block writes besides the title and the subtitle. -/
def payloadOf (block : Json) : Option (String × Val) :=
  match blockKind block with
  | some .cards | some .diagram => some ("cards", some (.arr (blockItems block)))
  | some .bulletList => some ("bullets", some (.arr (blockItems block)))
  | some .stats => some ("stats", some (.arr (blockItems block)))
  | some .steps => some ("steps", some (.arr (blockItems block)))
  | some .timeline => some ("timelineEvents", some (.arr (blockItems block)))
  | some .quote => some ("quote", some (quoteOf block))
  | none | some .header | some .paragraph | some .image => none

section Blocks
variable {st : BlockState} {block : Json} {blocks : List Json} {name : String}

/-- One turn of the loop, kind by kind. -/
def stepKind (st : BlockState) (block : Json) : Option BlockKind → BlockState
  | none => st
  | some .header => { st with content := setContent st.content "title" (getOpt (some block) "text") }
  | some .paragraph => { st with content := setContent st.content "subtitle" (getOpt (some block) "text") }
  | some .cards => ⟨cardsLayout block, setContent st.content "cards" (some (.arr (blockItems block)))⟩
  | some .bulletList =>
    let content := setContent st.content "bullets" (some (.arr (blockItems block)))
    ⟨"bullet-slide", if truthy (getOpt (some block) "title")
      then setContent content "title" (getOpt (some block) "title") else content⟩
  | some .stats => ⟨"stats", setContent st.content "stats" (some (.arr (blockItems block)))⟩
  | some .steps => ⟨"steps", setContent st.content "steps" (some (.arr (blockItems block)))⟩
  | some .timeline => ⟨"timeline", setContent st.content "timelineEvents" (some (.arr (blockItems block)))⟩
  | some .quote => ⟨"quote", setContent st.content "quote" (some (quoteOf block))⟩
  | some .image => { st with layout := "image-left" }
  | some .diagram => ⟨"diagram", setContent st.content "cards" (some (.arr (blockItems block)))⟩

theorem mapBlock_eq (st : BlockState) (block : Json) : mapBlock st block = stepKind st block (blockKind block) := by
  simp only [blockKind, apply_ite (stepKind st block)]
  rfl

theorem layout_mapBlock : (mapBlock st block).layout = (layoutOf block).getD st.layout := by
  rw [mapBlock_eq, layoutOf]
  cases blockKind block with
  | none => rfl
  | some kind => cases kind <;> rfl

theorem names_mapBlock (h : (st.content.map (·.1)).Nodup) : ((mapBlock st block).content.map (·.1)).Nodup := by
  rw [mapBlock_eq]
  cases blockKind block with
  | none => exact h
  | some kind =>
    cases kind with
    | image => exact h
    | bulletList =>
      show ((if _ then _ else _ : List (String × Val)).map (·.1)).Nodup
      split
      · exact names_setContent (names_setContent h)
      · exact names_setContent h
    | _ => exact names_setContent h

/-- A block writes its payload, and leaves the payloads of the others. -/
theorem field_mapBlock (htitle : name ≠ "title") (hsubtitle : name ≠ "subtitle") :
    contentField (mapBlock st block).content name = match payloadOf block with
      | some (x, v) => if name = x then v else contentField st.content name
      | none => contentField st.content name := by
  rw [mapBlock_eq, payloadOf]
  cases blockKind block with
  | none => rfl
  | some kind =>
    cases kind with
    | header => simp only [stepKind, contentField_setContent, if_neg htitle]
    | paragraph => simp only [stepKind, contentField_setContent, if_neg hsubtitle]
    | image => rfl
    | bulletList =>
      simp only [stepKind]
      split
      · rw [contentField_setContent, if_neg htitle, contentField_setContent]
      · rw [contentField_setContent]
    | _ => simp only [stepKind, contentField_setContent]

/-- Only blocks that name a layout have a payload. -/
theorem payloadOf_eq_none (h : layoutOf block = none) : payloadOf block = none := by
  unfold layoutOf at h
  unfold payloadOf
  cases hkind : blockKind block with
  | none => rfl
  | some kind =>
    rw [hkind] at h
    cases kind <;> first | rfl | cases h

theorem names_foldl : ∀ {st : BlockState}, (st.content.map (·.1)).Nodup →
    ((blocks.foldl mapBlock st).content.map (·.1)).Nodup := by
  induction blocks with
  | nil => exact fun h => h
  | cons block blocks ih => exact fun h => ih (names_mapBlock h)

/-- Blocks that name no layout leave the layout and the payloads. -/
theorem foldl_of_layoutOf (h : ∀ b ∈ blocks, layoutOf b = none) : ∀ {st : BlockState},
    (blocks.foldl mapBlock st).layout = st.layout ∧ ∀ name, name ≠ "title" → name ≠ "subtitle" →
      contentField (blocks.foldl mapBlock st).content name = contentField st.content name := by
  induction blocks with
  | nil => exact ⟨rfl, fun _ _ _ => rfl⟩
  | cons block blocks ih =>
    intro st
    have hblock := h block List.mem_cons_self
    obtain ⟨hlayout, hfields⟩ := @ih (fun b hb => h b (List.mem_cons_of_mem block hb)) (mapBlock st block)
    refine ⟨by rw [List.foldl_cons, hlayout, layout_mapBlock, hblock]; rfl, fun name htitle hsubtitle => ?_⟩
    rw [List.foldl_cons, hfields name htitle hsubtitle, field_mapBlock htitle hsubtitle, payloadOf_eq_none hblock]

/-- The items that a block of cards, a chart or a diagram puts on the slide. -/
def cardItems (block : Json) : Option (List Json) :=
  match blockKind block with
  | some .cards | some .diagram => some (blockItems block)
  | _ => none

/-- The cards that the blocks leave on the slide: the last ones. -/
def cardsOf (blocks : List Json) : Option (List Json) := blocks.reverse.findSome? cardItems

theorem payloadOf_cards : (match payloadOf block with
    | some (x, v) => if "cards" = x then v else contentField st.content "cards"
    | none => contentField st.content "cards") = match cardItems block with
      | some items => some (.arr items)
      | none => contentField st.content "cards" := by
  unfold payloadOf cardItems
  cases blockKind block with
  | none => rfl
  | some kind => cases kind <;> rfl

theorem field_cards : contentField (blocks.foldl mapBlock ⟨"hero", []⟩).content "cards" =
    (cardsOf blocks).map .arr := by
  induction blocks using List.reverseRecOn with
  | nil => rfl
  | append_singleton blocks block ih =>
    rw [List.foldl_append, List.foldl_cons, List.foldl_nil,
      field_mapBlock (by decide) (by decide), payloadOf_cards, ih,
      cardsOf, cardsOf, List.reverse_append, List.reverse_singleton, List.singleton_append, List.findSome?_cons]
    cases cardItems block <;> rfl

end Blocks

/-! ### The last write wins -/

/-- The value that a block writes into the field `name`, if it writes into it. -/
def writes (name : String) (block : Json) : Option Val :=
  let only (x : String) (v : Val) := if name = x then some v else none
  match blockKind block with
  | some .header => only "title" (getOpt (some block) "text")
  | some .paragraph => only "subtitle" (getOpt (some block) "text")
  | some .cards | some .diagram => only "cards" (some (.arr (blockItems block)))
  | some .bulletList =>
    if name = "title" ∧ truthy (getOpt (some block) "title") then some (getOpt (some block) "title")
    else only "bullets" (some (.arr (blockItems block)))
  | some .stats => only "stats" (some (.arr (blockItems block)))
  | some .steps => only "steps" (some (.arr (blockItems block)))
  | some .timeline => only "timelineEvents" (some (.arr (blockItems block)))
  | some .quote => only "quote" (some (quoteOf block))
  | none | some .image => none

/-- The blocks of a slide; anything but an array counts as none. -/
def blocksOf (slideObj : Json) : List Json := (asArray (getOpt (some slideObj) "blocks")).getD []

section LastWrite
variable {st : BlockState} {block : Json} {blocks : List Json} {name : String}

theorem field?_mapBlock : field? (mapBlock st block).content name =
    (writes name block).or (field? st.content name) := by
  have only : ∀ {x : String} {v : Val}, field? (setContent st.content x v) name =
      (if name = x then some v else none).or (field? st.content name) := by
    intro x v
    rw [field?_setContent]
    split <;> rfl
  rw [mapBlock_eq, writes]
  cases blockKind block with
  | none => rfl
  | some kind =>
    cases kind with
    | image => rfl
    | bulletList =>
      simp only [stepKind]
      by_cases htitle : truthy (getOpt (some block) "title") = true
      · rw [if_pos htitle, field?_setContent, only]
        by_cases hname : name = "title"
        · simp [hname, htitle]
        · simp [hname]
      · have hnot : ¬ (name = "title" ∧ truthy (getOpt (some block) "title") = true) := fun h => htitle h.2
        rw [if_neg htitle, if_neg hnot]
        exact only
    | _ => exact only

theorem field?_foldl : field? (blocks.foldl mapBlock st).content name =
    (blocks.reverse.findSome? (writes name)).or (field? st.content name) := by
  induction blocks using List.reverseRecOn with
  | nil => rfl
  | append_singleton blocks block ih =>
    rw [List.foldl_append, List.foldl_cons, List.foldl_nil, field?_mapBlock, ih, List.reverse_append,
      List.reverse_singleton, List.singleton_append, List.findSome?_cons]
    cases writes name block <;> rfl

theorem layout_foldl : (blocks.foldl mapBlock st).layout = (blocks.reverse.findSome? layoutOf).getD st.layout := by
  induction blocks using List.reverseRecOn with
  | nil => rfl
  | append_singleton blocks block ih =>
    rw [List.foldl_append, List.foldl_cons, List.foldl_nil, layout_mapBlock, ih, List.reverse_append,
      List.reverse_singleton, List.singleton_append, List.findSome?_cons]
    cases layoutOf block <;> rfl

/-- Values that are no block of a known type leave the slide as it is. -/
theorem foldl_filter : ∀ {st : BlockState}, (blocks.filter fun b => (blockKind b).isSome).foldl mapBlock st =
    blocks.foldl mapBlock st := by
  induction blocks with
  | nil => exact rfl
  | cons block blocks ih =>
    intro st
    cases hkind : blockKind block with
    | none =>
      have hsame : mapBlock st block = st := by rw [mapBlock_eq, hkind]; rfl
      rw [List.filter_cons_of_neg (by rw [hkind]; exact Bool.false_ne_true), ih, List.foldl_cons, hsame]
    | some kind => rw [List.filter_cons_of_pos (by rw [hkind]; rfl), List.foldl_cons, ih, List.foldl_cons]

/-- The layout of slide `idx`, where the blocks have left `layout`: the template comes before all else. -/
def finalLayout (o : AdvancedOptions) (idx : Nat) (layout : String) : String :=
  let own := if idx = 0 then "hero" else layout
  match o.requiredLayouts.bind (·[idx]?) with
  | some required => if required = "" then own else required
  | none => own

/-- Every slide but `null` is mapped. -/
theorem mapSlide_eq (o : AdvancedOptions) (idx : Nat) {slideObj : Json} (h : slideObj ≠ .null) :
    mapSlide o idx slideObj = some ⟨finalLayout o idx ((blocksOf slideObj).foldl mapBlock ⟨"hero", []⟩).layout,
      rotatedTheme (selectedTheme o.themeId) idx, ((blocksOf slideObj).foldl mapBlock ⟨"hero", []⟩).content⟩ := by
  have hget : ∃ blocks, Js.get (some slideObj) "blocks" = some blocks := by
    cases slideObj with
    | null => exact absurd rfl h
    | bool | num | str | arr | obj => exact ⟨_, rfl⟩
  obtain ⟨blocks, hget⟩ := hget
  have hblocks : blocksOf slideObj = (asArray blocks).getD [] := by rw [blocksOf, getOpt, hget]; rfl
  unfold mapSlide
  rw [hget, hblocks]
  rfl

theorem ne_null_of_mapSlide {o : AdvancedOptions} {idx : Nat} {slideObj : Json} {g : GeneratedSlide}
    (h : mapSlide o idx slideObj = some g) : slideObj ≠ .null := by
  rintro rfl
  cases h

theorem field?_of_writes {o : AdvancedOptions} {idx : Nat} {slideObj : Json} {g : GeneratedSlide}
    (hmap : mapSlide o idx slideObj = some g) :
    field? g.contentJSON name = (blocksOf slideObj).reverse.findSome? (writes name) := by
  rw [mapSlide_eq o idx (ne_null_of_mapSlide hmap)] at hmap
  cases hmap
  rw [field?_foldl]
  exact Option.or_none

/-- Without a template, each field of a generated slide is what the last block that writes it has written, and the
    layout is the one that the last block with a layout names, or `hero`; anything else among the blocks makes no
    difference. -/
theorem last_write_wins {o : AdvancedOptions} {idx : Nat} {slideObj : Json} {g : GeneratedSlide}
    (hrequired : o.requiredLayouts = none) (hmap : mapSlide o idx slideObj = some g) :
    (∀ name, field? g.contentJSON name = (blocksOf slideObj).reverse.findSome? (writes name)) ∧
      g.layout = (if idx = 0 then "hero" else ((blocksOf slideObj).reverse.findSome? layoutOf).getD "hero") ∧
      ∀ slideObj', slideObj' ≠ .null →
        ((blocksOf slideObj').filter fun b => (blockKind b).isSome) = (blocksOf slideObj).filter
          (fun b => (blockKind b).isSome) →
        mapSlide o idx slideObj' = some g := by
  refine ⟨fun name => field?_of_writes hmap, ?_⟩
  rw [mapSlide_eq o idx (ne_null_of_mapSlide hmap)] at hmap
  cases hmap
  refine ⟨?_, fun slideObj' hne hfilter => ?_⟩
  · simp only [finalLayout, hrequired, layout_foldl]
    rfl
  · have hsame : (blocksOf slideObj').foldl mapBlock ⟨"hero", []⟩ =
      (blocksOf slideObj).foldl mapBlock ⟨"hero", []⟩ := by
      rw [← foldl_filter, hfilter, foldl_filter]
    rw [mapSlide_eq o idx hne, hsame]

end LastWrite

/-- A slide of the model: a header, a stray number, and a list with a title of its own. -/
def agendaSlide : Json :=
  .obj [("blocks", .arr [.obj [("type", .str "header"), ("text", .str "Q1")], .num 5,
    .obj [("type", .str "bullet-list"), ("title", .str "Agenda"), ("items", .arr [.str "Results"])]])]

theorem agenda_title_wins : ∃ g, mapSlide {} 1 agendaSlide = some g ∧
    field? g.contentJSON "title" = some (some (.str "Agenda")) ∧
    field? g.contentJSON "bullets" = some (some (.arr [.str "Results"])) ∧ field? g.contentJSON "cards" = none ∧
    g.layout = "bullet-slide" := by
  have hmap := mapSlide_eq {} 1 (show agendaSlide ≠ .null by decide)
  obtain ⟨hfields, hlayout, -⟩ := last_write_wins rfl hmap
  refine ⟨_, hmap, (hfields "title").trans ?_, (hfields "bullets").trans ?_, (hfields "cards").trans ?_,
    hlayout.trans ?_⟩ <;> decide +kernel

/-! ### Blocks of different types -/

/-- The types of blocks that the prompt asks for and that carry something to show. -/
def blockTypes : List String :=
  ["header", "paragraph", "cards", "bullet-list", "stats", "steps", "timeline", "quote", "chart"]

def blockType? (block : Json) : Option String :=
  match getOpt (some block) "type" with
  | some (.str type) => some type
  | _ => none

/-- A non-empty string. -/
def isText : Val → Bool
  | some (.str s) => s != ""
  | _ => false

def isString : Val → Bool
  | some (.str _) => true
  | _ => false

/-- The block has the fields that its type asks for. -/
def isWellFormed (block : Json) : Bool :=
  match blockKind block with
  | some .header | some .paragraph => isText (getOpt (some block) "text")
  | some .bulletList => isText (getOpt (some block) "title") && (asArray (getOpt (some block) "items")).isSome
  | some .quote => isText (getOpt (some block) "text") && isString (getOpt (some block) "author")
  | some .cards | some .stats | some .steps | some .timeline | some .diagram =>
    (asArray (getOpt (some block) "items")).isSome
  | none | some .image => false

/-- What a block of a kind is to leave on its slide, field by field. -/
def kindPayload (field : String → Val) : Option BlockKind → List (String × Val)
  | some .header => [("title", field "text")]
  | some .paragraph => [("subtitle", field "text")]
  | some .cards | some .diagram => [("cards", field "items")]
  | some .bulletList => [("title", field "title"), ("bullets", field "items")]
  | some .stats => [("stats", field "items")]
  | some .steps => [("steps", field "items")]
  | some .timeline => [("timelineEvents", field "items")]
  | some .quote => [("quote", some (.obj [("text", (field "text").getD .null),
    ("author", (field "author").getD .null)]))]
  | none | some .image => []

def payload (block : Json) : List (String × Val) := kindPayload (getOpt (some block)) (blockKind block)

/-- The content holds all that the block is to leave. -/
def Retains (content : List (String × Val)) (block : Json) : Prop :=
  ∀ f ∈ payload block, field? content f.1 = some f.2

/-- The slide has no header beside a list with another title, and no cards beside a chart with other items. -/
def Compatible (blocks : List Json) : Prop :=
  ∀ b ∈ blocks, ∀ b' ∈ blocks,
    (blockType? b = some "header" → blockType? b' = some "bullet-list" →
      getOpt (some b) "text" = getOpt (some b') "title") ∧
    (blockType? b = some "cards" → blockType? b' = some "chart" →
      getOpt (some b) "items" = getOpt (some b') "items")

section Distinct
variable {block b b' : Json} {blocks : List Json} {name type : String} {v : Val}

theorem blockItems_eq (h : (asArray (getOpt (some block) "items")).isSome = true) :
    some (.arr (blockItems block)) = getOpt (some block) "items" := by
  unfold blockItems
  cases hitems : getOpt (some block) "items" with
  | none =>
    rw [hitems] at h
    cases h
  | some items =>
    cases items with
    | arr items => rfl
    | null | bool | num | str | obj =>
      rw [hitems] at h
      cases h

theorem truthy_of_isText (h : isText v = true) : truthy v = true := by
  match v, h with
  | some (.str s), h => exact h

theorem or_of_isText {w : Val} (h : isText v = true) : Js.or v w = v := if_pos (truthy_of_isText h)

theorem or_of_isString (h : isString v = true) : Js.or v (some (.str "")) = v := by
  match v, h with
  | some (.str s), _ =>
    by_cases hs : s = ""
    · rw [hs]
      rfl
    · exact or_of_isText (bne_iff_ne.mpr hs)

/-- A well-formed block writes what it is to leave. -/
theorem writes_eq (h : isWellFormed block = true) : writes name block = field? (payload block) name := by
  have only : ∀ {x : String} {v : Val}, (if name = x then some v else none) = field? [(x, v)] name := by
    intro x v
    by_cases hx : name = x
    · simp [field?, hx]
    · simp [field?, hx, Ne.symm hx]
  unfold isWellFormed at h
  unfold writes payload kindPayload
  cases hkind : blockKind block with
  | none => rfl
  | some kind =>
    rw [hkind] at h
    cases kind with
    | image => cases h
    | header | paragraph => exact only
    | cards | stats | steps | timeline | diagram =>
      simp only [blockItems_eq h]
      exact only
    | quote =>
      obtain ⟨htext, hauthor⟩ := Bool.and_eq_true_iff.mp h
      simp only [quoteOf, or_of_isText htext, or_of_isString hauthor]
      exact only
    | bulletList =>
      obtain ⟨htitle, hitems⟩ := Bool.and_eq_true_iff.mp h
      simp only [blockItems_eq hitems, truthy_of_isText htitle, and_true]
      by_cases hname : name = "title"
      · simp [field?, hname]
      · rw [if_neg hname, only]
        simp [field?, Ne.symm hname]

/-- The type of a block tells its kind. -/
def kindOfType : String → Option BlockKind
  | "header" => some .header
  | "paragraph" => some .paragraph
  | "cards" => some .cards
  | "bullet-list" => some .bulletList
  | "stats" => some .stats
  | "steps" => some .steps
  | "timeline" => some .timeline
  | "quote" => some .quote
  | "chart" => some .diagram
  | _ => none

theorem type_of_blockType? (h : blockType? block = some type) : getOpt (some block) "type" = some (.str type) := by
  unfold blockType? at h
  split at h
  · rename_i t ht
    cases h
    exact ht
  · cases h

theorem blockKind_of_type (h : blockType? block = some type) (htype : type ∈ blockTypes) :
    blockKind block = kindOfType type := by
  have hget := type_of_blockType? h
  have hobject : isObject block = true := by
    cases block with
    | obj | arr => rfl
    | null | bool | num => cases hget
    | str s => simp [getOpt, Js.get] at hget
  unfold blockKind
  rw [hget, hobject]
  simp only [blockTypes, List.mem_cons, List.not_mem_nil, or_false] at htype
  rcases htype with rfl | rfl | rfl | rfl | rfl | rfl | rfl | rfl | rfl <;> decide +kernel

theorem payload_eq (h : blockType? block = some type) (htype : type ∈ blockTypes) :
    payload block = kindPayload (getOpt (some block)) (kindOfType type) := by
  rw [payload, blockKind_of_type h htype]

/-- The only type that writes a field, where there is only one. -/
def ownerOf : String → Option String
  | "subtitle" => some "paragraph"
  | "bullets" => some "bullet-list"
  | "stats" => some "stats"
  | "steps" => some "steps"
  | "timelineEvents" => some "timeline"
  | "quote" => some "quote"
  | _ => none

/-- Who writes a field: its owner, or one of two types for the title and for the cards. -/
theorem payload_cases (h : blockType? block = some type) (htype : type ∈ blockTypes)
    (hv : (name, v) ∈ payload block) :
    (name = "title" ∧ type = "header" ∧ v = getOpt (some block) "text") ∨
      (name = "title" ∧ type = "bullet-list" ∧ v = getOpt (some block) "title") ∨
      (name = "cards" ∧ (type = "cards" ∨ type = "chart") ∧ v = getOpt (some block) "items") ∨
      ownerOf name = some type := by
  rw [payload_eq h htype] at hv
  simp only [blockTypes, List.mem_cons, List.not_mem_nil, or_false] at htype
  rcases htype with rfl | rfl | rfl | rfl | rfl | rfl | rfl | rfl | rfl <;>
    simp only [kindOfType, kindPayload, List.mem_cons, List.not_mem_nil, or_false, Prod.mk.injEq] at hv
  case inr.inr.inr.inl =>
    rcases hv with ⟨rfl, rfl⟩ | ⟨rfl, rfl⟩ <;> simp [ownerOf]
  all_goals
    obtain ⟨rfl, rfl⟩ := hv
    simp [ownerOf]

theorem Retains.field? {content : List (String × Val)} (h : Retains content block)
    (htype : blockType? block = some type) (hmem : type ∈ blockTypes)
    (hv : (name, v) ∈ kindPayload (getOpt (some block)) (kindOfType type)) :
    Slideo.field? content name = some v := by
  rw [← payload_eq htype hmem] at hv
  exact h (name, v) hv

/-- Well-formed blocks of pairwise different types. -/
structure DistinctBlocks (blocks : List Json) : Prop where
  types : ∀ b ∈ blocks, ∃ type ∈ blockTypes, blockType? b = some type
  nodup : (blocks.map blockType?).Nodup
  wellFormed : ∀ b ∈ blocks, isWellFormed b = true

theorem DistinctBlocks.eq_of_type (h : DistinctBlocks blocks) (hb : b ∈ blocks) (hb' : b' ∈ blocks)
    (htype : blockType? b = blockType? b') : b = b' :=
  List.inj_on_of_nodup_map h.nodup hb hb' htype

theorem names_payload (block : Json) : ((payload block).map (·.1)).Nodup := by
  unfold payload
  cases blockKind block with
  | none => exact List.nodup_nil
  | some kind => cases kind <;> simp [kindPayload]

theorem field?_of_mem {content : List (String × Val)} (h : (content.map (·.1)).Nodup) (hv : (name, v) ∈ content) :
    field? content name = some v := by
  induction content with
  | nil => cases hv
  | cons f content ih =>
    obtain ⟨hf, hrest⟩ := List.nodup_cons.mp h
    rcases List.mem_cons.mp hv with rfl | hv
    · simp [field?]
    · have hne : f.1 ≠ name := fun heq => hf (List.mem_map.mpr ⟨_, hv, heq.symm⟩)
      have hskip : field? (f :: content) name = field? content name := by simp [field?, hne]
      rw [hskip]
      exact ih hrest hv

theorem mem_of_field? {content : List (String × Val)} (h : field? content name = some v) : (name, v) ∈ content := by
  obtain ⟨f, hf, rfl⟩ := Option.map_eq_some_iff.mp h
  have hname := List.find?_some hf
  rw [← beq_iff_eq.mp hname]
  exact List.mem_of_find?_eq_some hf

/-- Compatible blocks that write the same field write the same value. -/
theorem DistinctBlocks.agree {v' : Val} (h : DistinctBlocks blocks)
    (hcompatible : Compatible blocks) (hb : b ∈ blocks) (hb' : b' ∈ blocks) (hv : writes name b = some v)
    (hv' : writes name b' = some v') : v = v' := by
  by_cases hsame : blockType? b = blockType? b'
  · cases h.eq_of_type hb hb' hsame
    rw [hv] at hv'
    exact Option.some.inj hv'
  obtain ⟨type, htype, ht⟩ := h.types b hb
  obtain ⟨type', htype', ht'⟩ := h.types b' hb'
  rw [writes_eq (h.wellFormed b hb)] at hv
  rw [writes_eq (h.wellFormed b' hb')] at hv'
  have hne : type ≠ type' := fun heq => hsame (by rw [ht, ht', heq])
  have htitle : ownerOf "title" ≠ some type ∧ ownerOf "title" ≠ some type' := by simp [ownerOf]
  have hcards : ownerOf "cards" ≠ some type ∧ ownerOf "cards" ≠ some type' := by simp [ownerOf]
  rcases payload_cases ht htype (mem_of_field? hv) with ⟨rfl, rfl, rfl⟩ | ⟨rfl, rfl,
    rfl⟩ | ⟨rfl, hone, rfl⟩ | howner
  · rcases payload_cases ht' htype' (mem_of_field? hv') with ⟨-, rfl, -⟩ | ⟨-, rfl, rfl⟩ | ⟨hname, -⟩ | howner'
    · exact absurd rfl hne
    · exact (hcompatible b hb b' hb').1 ht ht'
    · exact absurd hname (by decide)
    · exact absurd howner' htitle.2
  · rcases payload_cases ht' htype' (mem_of_field? hv') with ⟨-, rfl, rfl⟩ | ⟨-, rfl, -⟩ | ⟨hname, -⟩ | howner'
    · exact ((hcompatible b' hb' b hb).1 ht' ht).symm
    · exact absurd rfl hne
    · exact absurd hname (by decide)
    · exact absurd howner' htitle.2
  · rcases payload_cases ht' htype' (mem_of_field? hv') with ⟨hname, -⟩ | ⟨hname, -⟩ | ⟨-, hone', rfl⟩ | howner'
    · exact absurd hname (by decide)
    · exact absurd hname (by decide)
    · rcases hone with rfl | rfl <;> rcases hone' with rfl | rfl
      · exact absurd rfl hne
      · exact (hcompatible b hb b' hb').2 ht ht'
      · exact ((hcompatible b' hb' b hb).2 ht' ht).symm
      · exact absurd rfl hne
    · exact absurd howner' hcards.2
  · rcases payload_cases ht' htype' (mem_of_field? hv') with ⟨rfl, -⟩ | ⟨rfl, -⟩ | ⟨rfl, -⟩ | howner'
    · exact absurd howner htitle.1
    · exact absurd howner htitle.1
    · exact absurd howner hcards.1
    · exact absurd (Option.some.inj (howner.symm.trans howner')) hne

/-- Where all answers agree, the first one is any of them. -/
theorem findSome?_of_agree {α β : Type} {f : α → Option β} {l : List α}
    (hagree : ∀ a ∈ l, ∀ a' ∈ l, ∀ x x', f a = some x → f a' = some x' → x = x') {a : α} {x : β}
    (ha : a ∈ l) (hx : f a = some x) :
    l.findSome? f = some x := by
  cases hfind : l.findSome? f with
  | none =>
    rw [List.findSome?_eq_none_iff.mp hfind a ha] at hx
    cases hx
  | some y =>
    obtain ⟨a', ha', hy⟩ := List.exists_of_findSome?_eq_some hfind
    rw [hagree a' ha' a ha y x hy hx]

/-- Compatible blocks leave all they write, in any order. -/
theorem DistinctBlocks.field? {o : AdvancedOptions} {idx : Nat} {slideObj : Json} {g : GeneratedSlide}
    (h : DistinctBlocks blocks) (hcompatible : Compatible blocks) (hmap : mapSlide o idx slideObj = some g)
    (hperm : (blocksOf slideObj).Perm blocks) (name : String) :
    (∀ b ∈ blocks, ∀ v, writes name b = some v → Slideo.field? g.contentJSON name = some v) ∧
      ((∀ b ∈ blocks, writes name b = none) → Slideo.field? g.contentJSON name = none) := by
  have hmem : ∀ b, b ∈ (blocksOf slideObj).reverse ↔ b ∈ blocks := fun b => by rw [List.mem_reverse, hperm.mem_iff]
  rw [field?_of_writes hmap]
  constructor
  · intro b hb v hv
    refine findSome?_of_agree (fun a ha a' ha' x x' hx hx' => ?_) ((hmem b).mpr hb) hv
    exact h.agree hcompatible ((hmem a).mp ha) ((hmem a').mp ha') hx hx'
  · intro hnone
    exact List.findSome?_eq_none_iff.mpr fun b hb => hnone b ((hmem b).mp hb)

/-- Well-formed blocks of pairwise different types all stay on the slide, whatever their order, exactly if there is
    no header beside a list with another title, and no cards beside a chart with other items. -/
theorem blocks_kept_iff {o : AdvancedOptions} {idx : Nat} {slideObj : Json} {g : GeneratedSlide}
    (hmap : mapSlide o idx slideObj = some g) (h : DistinctBlocks (blocksOf slideObj)) :
    ((∀ b ∈ blocksOf slideObj, Retains g.contentJSON b) ∧
      ∀ slideObj' g', (blocksOf slideObj').Perm (blocksOf slideObj) → mapSlide o idx slideObj' = some g' →
        ∀ name, field? g'.contentJSON name = field? g.contentJSON name) ↔ Compatible (blocksOf slideObj) := by
  constructor
  · rintro ⟨hretains, -⟩ b hb b' hb'
    refine ⟨fun ht ht' => ?_, fun ht ht' => ?_⟩
    · have htext := (hretains b hb).field? ht (by decide) List.mem_cons_self
      have htitle := (hretains b' hb').field? ht' (by decide) List.mem_cons_self
      exact Option.some.inj (htext.symm.trans htitle)
    · have hcards := (hretains b hb).field? ht (by decide) List.mem_cons_self
      have hchart := (hretains b' hb').field? ht' (by decide) List.mem_cons_self
      exact Option.some.inj (hcards.symm.trans hchart)
  · intro hcompatible
    refine ⟨fun b hb f hf => ?_, fun slideObj' g' hperm hmap' name => ?_⟩
    · refine (h.field? hcompatible hmap (List.Perm.refl _) f.1).1 b hb f.2 ?_
      rw [writes_eq (h.wellFormed b hb)]
      exact field?_of_mem (names_payload b) hf
    · obtain ⟨hsome, hnone⟩ := h.field? hcompatible hmap (List.Perm.refl _) name
      obtain ⟨hsome', hnone'⟩ := h.field? hcompatible hmap' hperm name
      by_cases hwritten : ∀ b ∈ blocksOf slideObj, writes name b = none
      · rw [hnone hwritten, hnone' hwritten]
      · push Not at hwritten
        obtain ⟨b, hb, hwrite⟩ := hwritten
        obtain ⟨v, hv⟩ := Option.ne_none_iff_exists'.mp hwrite
        rw [hsome b hb v hv, hsome' b hb v hv]

end Distinct

/-- A slide of the model: a header and a list under it. -/
def listSlide (heading title : String) : Json :=
  .obj [("blocks", .arr [.obj [("type", .str "header"), ("text", .str heading)],
    .obj [("type", .str "bullet-list"), ("title", .str title), ("items", .arr [.str "Results"])]])]

theorem matching_titles_kept : ∃ g, mapSlide {} 1 (listSlide "Agenda" "Agenda") = some g ∧
    ∀ b ∈ blocksOf (listSlide "Agenda" "Agenda"), Retains g.contentJSON b := by
  have hmap := mapSlide_eq {} 1 (show listSlide "Agenda" "Agenda" ≠ .null by decide)
  have hdistinct : DistinctBlocks (blocksOf (listSlide "Agenda" "Agenda")) :=
    ⟨by decide +kernel, by decide +kernel, by decide +kernel⟩
  have hcompatible : Compatible (blocksOf (listSlide "Agenda" "Agenda")) := by unfold Compatible; decide +kernel
  exact ⟨_, hmap, ((blocks_kept_iff hmap hdistinct).mpr hcompatible).1⟩

/-- The title of the list takes the place of the heading. -/
theorem heading_overwritten : DistinctBlocks (blocksOf (listSlide "Q1" "Agenda")) ∧
    ∃ g, mapSlide {} 1 (listSlide "Q1" "Agenda") = some g ∧
      ∃ b ∈ blocksOf (listSlide "Q1" "Agenda"), ¬ Retains g.contentJSON b := by
  have hmap := mapSlide_eq {} 1 (show listSlide "Q1" "Agenda" ≠ .null by decide)
  refine ⟨⟨by decide +kernel, by decide +kernel, by decide +kernel⟩, _, hmap, _, List.mem_cons_self, fun h => ?_⟩
  have htitle := h ("title", some (.str "Q1")) (by decide +kernel)
  revert htitle
  decide +kernel

end Slideo
