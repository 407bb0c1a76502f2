import Slideo.Schedule
import Slideo.Theorems.Creation
import Slideo.Theorems.ReadIsolation
import Mathlib.Tactic.Linarith

/-! The grid of an exported slide: two columns, and a new row of two inches for every second item. The columns
    always stand apart, but nothing bounds the rows, and the page has room for two. -/

namespace Slideo
open Js

/-! ### The page -/

/-- The default 16:9 page, in inches. -/
def pageWidth : Rat := 10

def pageHeight : Rat := 45 / 8

/-- A width in inches. -/
def Extent.span : Extent → Rat
  | .percent n => n / 100 * pageWidth
  | .inches q => q

/-- The box starts inside the page, and ends inside it on the right. -/
structure TextBox.Inside (b : TextBox) : Prop where
  left : 0 ≤ b.x
  right : b.x + b.w.span ≤ pageWidth
  top : 0 ≤ b.y
  bottom : b.y < pageHeight

/-- No two boxes stand at one place, those of different columns do not overlap, and all start inside the page. -/
structure GridFits (boxes : List TextBox) : Prop where
  places : boxes.Pairwise fun a b => (a.x, a.y) ≠ (b.x, b.y)
  columns : ∀ a ∈ boxes, ∀ b ∈ boxes, a.x = b.x ∨ a.x + a.w.span ≤ b.x ∨ b.x + b.w.span ≤ a.x
  inside : ∀ b ∈ boxes, b.Inside

/-- The items that a grid draws. -/
def gridItems (content : Val) : List Json := (asArray (some (firstOf content "cards" "stats" (.arr [])))).getD []

/-! ### The boxes of an item -/

/-- The box is line `line` of item `idx`. -/
structure TextBox.Placed (idx line : Nat) (b : TextBox) : Prop where
  x : b.x = 1 / 2 + (idx % 2 : Nat) * (9 / 2)
  y : b.y = 2 + (idx / 2 : Nat) * 2 + line / 2
  w : b.w = .inches 4
  line_le : line ≤ 1

section Boxes
variable {i j k l : Nat} {a b : TextBox} {item : Json} {boxes : List TextBox} {content : Val}

theorem itemBoxes_placed (h : itemBoxes i item = some boxes) : ∃ a b, boxes = [a, b] ∧
    a.Placed i 0 ∧ b.Placed i 1 := by
  obtain ⟨_, -, hboxes⟩ := Option.bind_eq_some_iff.mp h
  cases hboxes
  refine ⟨_, _, rfl, ⟨rfl, ?_, rfl, Nat.zero_le 1⟩, ⟨rfl, ?_, rfl, le_rfl⟩⟩
  · simp
  · simp

namespace TextBox.Placed

theorem place_inj (ha : a.Placed i k) (hb : b.Placed j l) (h : (a.x, a.y) = (b.x, b.y)) : i = j ∧ k = l := by
  obtain ⟨hx, hy⟩ := Prod.mk.inj h
  rw [ha.x, hb.x] at hx
  rw [ha.y, hb.y] at hy
  have hcolumn : ((i % 2 : Nat) : Rat) = (j % 2 : Nat) := by linarith
  have hrow : ((4 * (i / 2) + k : Nat) : Rat) = (4 * (j / 2) + l : Nat) := by
    push_cast
    linarith
  have hcolumn := Nat.cast_injective hcolumn
  have hrow := Nat.cast_injective hrow
  have hk := ha.line_le
  have hl := hb.line_le
  omega

theorem column (ha : a.Placed i k) : a.x = 1 / 2 ∨ a.x = 5 := by
  rw [ha.x]
  rcases Nat.mod_two_eq_zero_or_one i with h | h <;> rw [h] <;> norm_num

theorem columns_apart (ha : a.Placed i k) (hb : b.Placed j l) :
    a.x = b.x ∨ a.x + a.w.span ≤ b.x ∨ b.x + b.w.span ≤ a.x := by
  rw [ha.w, hb.w]
  rcases ha.column with hx | hx <;> rcases hb.column with hx' | hx' <;> rw [hx, hx'] <;> norm_num [Extent.span]

/-- Only the rows leave the page. -/
theorem inside_iff (ha : a.Placed i k) : a.Inside ↔ i < 4 := by
  have hk := ha.line_le
  constructor
  · intro h
    have hbottom := h.bottom
    rw [ha.y, pageHeight] at hbottom
    have hrow : ((16 * (i / 2) + 4 * k : Nat) : Rat) < (29 : Nat) := by
      push_cast
      linarith
    have hrow := Nat.cast_lt.mp hrow
    omega
  · intro hi
    have hrow : ((i / 2 : Nat) : Rat) ≤ (1 : Nat) := Nat.cast_le.mpr (by omega)
    have hline : (k : Rat) ≤ (1 : Nat) := Nat.cast_le.mpr hk
    have hrow₀ : (0 : Rat) ≤ (i / 2 : Nat) := Nat.cast_nonneg _
    have hline₀ : (0 : Rat) ≤ k := Nat.cast_nonneg _
    push_cast at hrow hline
    refine ⟨?_, ?_, ?_, ?_⟩
    · rcases ha.column with hx | hx <;> rw [hx] <;> norm_num
    · rw [ha.w, pageWidth, Extent.span]
      rcases ha.column with hx | hx <;> rw [hx] <;> norm_num
    · rw [ha.y]
      linarith
    · rw [ha.y, pageHeight]
      linarith

end TextBox.Placed

/-! ### The grid -/

/-- The boxes come in pairs, one pair for each item. -/
theorem gridBoxes_pairs (h : gridBoxes content = some boxes) :
    ∃ pairs : List (List TextBox), boxes = pairs.flatten ∧ pairs.length = (gridItems content).length ∧
      ∀ i pair, pairs[i]? = some pair → ∃ a b : TextBox, pair = [a, b] ∧ a.Placed i 0 ∧ b.Placed i 1 := by
  obtain ⟨items, hitems, h⟩ := Option.bind_eq_some_iff.mp h
  obtain ⟨pairs, hpairs, h⟩ := Option.bind_eq_some_iff.mp h
  cases h
  have hlength : (gridItems content).length = items.length := by rw [gridItems, hitems, Option.getD_some]
  refine ⟨pairs, rfl, (length_mapIdxOption hpairs).trans hlength.symm, fun i pair hpair => ?_⟩
  have hget := congrArg (·[i]?) (mapIdxOption_eq_some_iff.mp hpairs)
  simp only [List.getElem?_mapIdx, List.getElem?_map, hpair, Option.map_some] at hget
  obtain ⟨item, -, hboxes⟩ := Option.map_eq_some_iff.mp hget
  exact itemBoxes_placed hboxes

/-- Every box is a line of an item. -/
theorem placed_of_mem (h : gridBoxes content = some boxes) (hb : b ∈ boxes) :
    ∃ i k, i < (gridItems content).length ∧ b.Placed i k := by
  obtain ⟨pairs, rfl, hlength, hpairs⟩ := gridBoxes_pairs h
  obtain ⟨pair, hpair, hb⟩ := List.mem_flatten.mp hb
  obtain ⟨i, hi, rfl⟩ := List.getElem_of_mem hpair
  obtain ⟨first, second, heq, hfirst, hsecond⟩ := hpairs i _ (List.getElem?_eq_getElem hi)
  rw [heq] at hb
  rcases List.mem_pair.mp hb with rfl | rfl
  · exact ⟨i, 0, hlength ▸ hi, hfirst⟩
  · exact ⟨i, 1, hlength ▸ hi, hsecond⟩

/-- Every item has a box. -/
theorem exists_placed (h : gridBoxes content = some boxes) (hi : i < (gridItems content).length) :
    ∃ b ∈ boxes, b.Placed i 0 := by
  obtain ⟨pairs, rfl, hlength, hpairs⟩ := gridBoxes_pairs h
  have hi' : i < pairs.length := hlength ▸ hi
  obtain ⟨a, b, heq, ha, -⟩ := hpairs i _ (List.getElem?_eq_getElem hi')
  refine ⟨a, List.mem_flatten.mpr ⟨_, List.getElem_mem hi', ?_⟩, ha⟩
  rw [heq]
  exact List.mem_cons_self

theorem gridBoxes_places (h : gridBoxes content = some boxes) :
    boxes.Pairwise fun a b => (a.x, a.y) ≠ (b.x, b.y) := by
  obtain ⟨pairs, rfl, -, hpairs⟩ := gridBoxes_pairs h
  have hget : ∀ i (hi : i < pairs.length), ∃ a b, pairs[i] = [a, b] ∧ a.Placed i 0 ∧ b.Placed i 1 := fun i hi =>
    hpairs i _ (List.getElem?_eq_getElem hi)
  rw [List.pairwise_flatten]
  constructor
  · intro pair hpair
    obtain ⟨i, hi, rfl⟩ := List.getElem_of_mem hpair
    obtain ⟨a, b, heq, ha, hb⟩ := hget i hi
    rw [heq]
    exact List.pairwise_pair.mpr fun hsame => absurd (ha.place_inj hb hsame).2 (by decide)
  · rw [List.pairwise_iff_getElem]
    intro i j hi hj hij x hx y hy hsame
    obtain ⟨a, b, heq, ha, hb⟩ := hget i hi
    obtain ⟨a', b', heq', ha', hb'⟩ := hget j hj
    rw [heq] at hx
    rw [heq'] at hy
    rcases List.mem_pair.mp hx with rfl | rfl <;> rcases List.mem_pair.mp hy with rfl | rfl
    · exact hij.ne (ha.place_inj ha' hsame).1
    · exact hij.ne (ha.place_inj hb' hsame).1
    · exact hij.ne (hb.place_inj ha' hsame).1
    · exact hij.ne (hb.place_inj hb' hsame).1

theorem gridFits_iff (h : gridBoxes content = some boxes) : GridFits boxes ↔ (gridItems content).length ≤ 4 := by
  constructor
  · intro hfits
    by_contra hmany
    obtain ⟨b, hb, hplaced⟩ := exists_placed h (show 4 < (gridItems content).length by omega)
    exact absurd (hplaced.inside_iff.mp (hfits.inside b hb)) (by decide)
  · intro hfew
    refine ⟨gridBoxes_places h, fun a ha b hb => ?_, fun b hb => ?_⟩
    · obtain ⟨i, k, -, hplaced⟩ := placed_of_mem h ha
      obtain ⟨j, l, -, hplaced'⟩ := placed_of_mem h hb
      exact hplaced.columns_apart hplaced'
    · obtain ⟨i, k, hi, hplaced⟩ := placed_of_mem h hb
      exact hplaced.inside_iff.mpr (by omega)

end Boxes

/-! ### Exports -/

section Exports
variable {env : Env} {ws : Nat → World} {db : Db} {req : Request} {user : AuthUser} {id name : String} {deck : Deck}
  {doc : Pptx} {s : Slide} {boxes : List TextBox} {i : Nat}

theorem serve_export (huser : req.user? env = some user) (hreq : req.endpoint = .exportToPptx id)
    (hdeck : db.deck? id = some deck) : (serve env ws req db).result = .ok (match renderDeck deck with
      | some doc => ⟨200, .pptx (exportFileName deck.row.title) doc⟩
      | none => ⟨500, .message "Failed to export presentation"⟩) := by
  have hserve : serve env ws req db = (exportToPptx id).run answer ws 0 (db, {}) :=
    serve_of_user huser (by rw [handle, hreq])
  obtain ⟨p, hp, rfl⟩ := Option.map_eq_some_iff.mp hdeck
  rw [hserve]
  exact exportToPptx_result hp

/-- Slide `i` of a file is slide `i` of the presentation. -/
theorem rendered_slide (hdoc : renderDeck deck = some doc) (hs : (byIndex deck.slides)[i]? = some s)
    (hboxes : doc.slides[i]? = some boxes) : renderSlide s = some boxes := by
  obtain ⟨slides, hslides, hdoc⟩ := Option.bind_eq_some_iff.mp hdoc
  cases hdoc
  have hget := congrArg (·[i]?) (mapM_eq_some_iff.mp hslides)
  simp only [List.getElem?_map, hs, hboxes, Option.map_some] at hget
  exact Option.some.inj hget

/-- Under its title, a slide of cards or statistics is a grid. -/
theorem grid_of_rendered (hrender : renderSlide s = some boxes)
    (hlayout : s.layout = "card-grid" ∨ s.layout = "stats") :
    gridBoxes (some s.contentJSON) = some boxes.tail := by
  obtain ⟨_, -, hrender⟩ := Option.bind_eq_some_iff.mp hrender
  obtain ⟨grid, hgrid, hrender⟩ := Option.bind_eq_some_iff.mp hrender
  cases hrender
  have hlayoutBoxes : layoutBoxes s.layout (some s.contentJSON) = gridBoxes (some s.contentJSON) := by
    rcases hlayout with h | h <;> rw [h] <;> rfl
  exact hlayoutBoxes ▸ hgrid

/-- The grid of an exported slide fits the page exactly if it has at most four items. -/
theorem exported_grid_fits_iff (huser : req.user? env = some user) (hreq : req.endpoint = .exportToPptx id)
    (hdeck : db.deck? id = some deck) (hresult : (serve env ws req db).result = .ok ⟨200, .pptx name doc⟩)
    (hs : (byIndex deck.slides)[i]? = some s) (hboxes : doc.slides[i]? = some boxes)
    (hlayout : s.layout = "card-grid" ∨ s.layout = "stats") :
    GridFits boxes.tail ↔ (gridItems (some s.contentJSON)).length ≤ 4 := by
  rw [serve_export huser hreq hdeck] at hresult
  cases hdoc : renderDeck deck with
  | none =>
    rw [hdoc] at hresult
    cases hresult
  | some doc' =>
    rw [hdoc] at hresult
    cases hresult
    exact gridFits_iff (grid_of_rendered (rendered_slide hdoc hs hboxes) hlayout)

end Exports

/-! ### Two grids -/

def cardSlide (titles : List String) : Json :=
  .obj [("layout", .str "card-grid"),
    ("contentJSON", .obj [("title", .str "Plan"), ("cards", .arr (titles.map fun t => .obj [("title", .str t)]))])]

/-- `alice` creates a slide with the given cards. -/
def cardsDb (titles : List String) : Db :=
  (serve office (world 0) (aliceRequest (.createPresentation (some (.obj [("topic", .str "Plan"), ("slides",
    .arr [cardSlide titles])])))) officeDb).state.1

def cardsExport (titles : List String) : Prog.Ran Query Query.Answer Err (Db × Conn) Response :=
  serve office (world 0) (aliceRequest (.exportToPptx (issue 2 0))) (cardsDb titles)

/-- A slide with a card for each title is exported. -/
def CardsExported (titles : List String) (deck : Deck) (s : Slide) (boxes : List TextBox) : Prop :=
  (cardsDb titles).deck? (issue 2 0) = some deck ∧ (byIndex deck.slides)[0]? = some s ∧ s.layout = "card-grid" ∧
    (gridItems (some s.contentJSON)).length = titles.length ∧
    ∃ name doc, (cardsExport titles).result = .ok ⟨200, .pptx name doc⟩ ∧ doc.slides[0]? = some boxes

theorem cardsExport_user : (aliceRequest (.exportToPptx (issue 2 0))).user? office = some alice := by decide +kernel

/-- The stored slide is rendered. -/
def cardsRendered (titles : List String) : Bool :=
  ((cardsDb titles).deck? (issue 2 0)).any fun deck => (renderDeck deck).any (·.slides.length == 1) &&
    (byIndex deck.slides)[0]?.any fun s =>
      s.layout == "card-grid" && (gridItems (some s.contentJSON)).length == titles.length

theorem exists_cardsExported {titles : List String} (h : cardsRendered titles = true) :
    ∃ deck s boxes, CardsExported titles deck s boxes ∧ renderSlide s = some boxes := by
  obtain ⟨deck, hdeck, h⟩ := (Option.any_eq_true _ _).mp h
  obtain ⟨hdoc, hs⟩ := (Bool.and_eq_true _ _).mp h
  obtain ⟨doc, hdoc, hone⟩ := (Option.any_eq_true _ _).mp hdoc
  obtain ⟨s, hs, h⟩ := (Option.any_eq_true _ _).mp hs
  obtain ⟨hlayout, hlength⟩ := (Bool.and_eq_true _ _).mp h
  obtain ⟨boxes, hboxes⟩ := List.length_eq_one_iff.mp (eq_of_beq hone)
  have hboxes : doc.slides[0]? = some boxes := by
    rw [hboxes]
    rfl
  have hresult : (cardsExport titles).result = .ok ⟨200, .pptx (exportFileName deck.row.title) doc⟩ := by
    rw [cardsExport, serve_export cardsExport_user rfl hdeck, hdoc]
  exact ⟨deck, s, boxes, ⟨hdeck, hs, eq_of_beq hlayout, eq_of_beq hlength, _, doc, hresult, hboxes⟩,
    rendered_slide hdoc hs hboxes⟩

/-- Four cards fit. -/
theorem four_cards_fit : ∃ deck s boxes, CardsExported ["1", "2", "3", "4"] deck s boxes ∧ GridFits boxes.tail := by
  have hrendered : cardsRendered ["1", "2", "3", "4"] = true := by decide +kernel
  obtain ⟨deck, s, boxes, hexported, -⟩ := exists_cardsExported hrendered
  obtain ⟨hdeck, hs, hlayout, hlength, name, doc, hresult, hboxes⟩ := id hexported
  exact ⟨deck, s, boxes, hexported,
    (exported_grid_fits_iff cardsExport_user rfl hdeck hresult hs hboxes (.inl hlayout)).mpr hlength.le⟩

/-- The fifth card stands under the page. -/
theorem fifth_card_leaves_page :
    ∃ deck s boxes, CardsExported ["1", "2", "3", "4", "5"] deck s boxes ∧ ¬ GridFits boxes.tail := by
  have hrendered : cardsRendered ["1", "2", "3", "4", "5"] = true := by decide +kernel
  obtain ⟨deck, s, boxes, hexported, hrender⟩ := exists_cardsExported hrendered
  obtain ⟨-, -, hlayout, hlength, -⟩ := id hexported
  refine ⟨deck, s, boxes, hexported, fun hfits => ?_⟩
  have hfew := (gridFits_iff (grid_of_rendered hrender (.inl hlayout))).mp hfits
  rw [hlength] at hfew
  exact absurd hfew (by decide)

end Slideo
