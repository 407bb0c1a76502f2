import Slideo.Schedule
import Slideo.Theorems.SavedDecks

/-! The numbers of saved slides. A creation gives an entry without an index its position in the array, an
    update gives it the default of the column, and neither looks at the numbers that other entries bring. -/

namespace Slideo
open Js
open Prog (Wp)

/-! ### Entries with and without a number -/

/-- The index that an entry gives. -/
def givenIndex (entry : Json) : Option Int :=
  match getOpt (some entry) "index" with
  | some (.num q) => if q.den = 1 then some q.num else none
  | _ => none

/-- What a path fills in for an entry without an index, and for one without a layout. -/
structure Defaults where
  number : Nat → Int
  layout : String

def Endpoint.defaults : Endpoint → Defaults
  | .createPresentation _ => ⟨fun position => position, "hero"⟩
  | _ => ⟨fun _ => 0, "content_list"⟩

/-- The indices that entries give are distinct. -/
def GivenApart (entries : List Json) : Prop := entries.Pairwise fun a b => ∀ k,
    givenIndex a = some k → givenIndex b ≠ some k

/-- No entry is filled in with the number of another one. -/
def FilledApart : Endpoint → List Json → Prop
  | .createPresentation _, entries =>
    ∀ (i : Nat) entry, entries[i]? = some entry → givenIndex entry = none →
    ∀ other ∈ entries, givenIndex other ≠ some i
  | _, entries =>
    (entries.Pairwise fun a b => givenIndex a = none → givenIndex b ≠ none) ∧
      ∀ entry ∈ entries, givenIndex entry = none → ∀ other ∈ entries, givenIndex other ≠ some 0

section Numbers
variable {α β : Type} {given : β → Option α} {number : Nat → α} {xs : List β}

/-- Two numbers meet only if one of them is filled in. -/
theorem filled_eq_iff {a b : Option α} {m n : α} (hgiven : ∀ k, a = some k → b ≠ some k) : a.getD m = b.getD n ↔
    (a = none ∧ b = none ∧ m = n) ∨ (a = none ∧ b = some m) ∨ (b = none ∧ a = some n) := by
  cases a with
  | none => cases b <;> simp [eq_comm]
  | some k =>
    cases b with
    | none => simp
    | some l =>
      have hne : k ≠ l := fun h => hgiven k rfl (congrArg some h.symm)
      simp [hne]

/-- Numbers with gaps filled in are distinct, if no filling meets another one or a given number. -/
theorem nodup_filled_iff (hgiven : xs.Pairwise fun x y => ∀ k, given x = some k → given y ≠ some k) :
    (xs.mapIdx fun i x => (given x).getD (number i)).Nodup ↔
      (∀ i j x y, i < j → xs[i]? = some x → xs[j]? = some y → given x = none →
        given y = none → number i ≠ number j) ∧
        ∀ i x, xs[i]? = some x → given x = none → ∀ y ∈ xs, given y ≠ some (number i) := by
  rw [List.nodup_iff_pairwise_ne, List.pairwise_iff_getElem]
  rw [List.pairwise_iff_getElem] at hgiven
  simp only [List.length_mapIdx, List.getElem_mapIdx]
  constructor
  · intro hall
    refine ⟨fun i j x y hij hx hy hnx hny hsame => ?_, fun i x hx hnx y hy hsame => ?_⟩
    · obtain ⟨hi, rfl⟩ := List.getElem?_eq_some_iff.mp hx
      obtain ⟨hj, rfl⟩ := List.getElem?_eq_some_iff.mp hy
      exact hall i j hi hj hij ((filled_eq_iff (hgiven i j hi hj hij)).mpr (Or.inl ⟨hnx, hny, hsame⟩))
    · obtain ⟨hi, rfl⟩ := List.getElem?_eq_some_iff.mp hx
      obtain ⟨j, hj, rfl⟩ := List.getElem_of_mem hy
      rcases Nat.lt_trichotomy i j with hij | rfl | hij
      · exact hall i j hi hj hij ((filled_eq_iff (hgiven i j hi hj hij)).mpr (Or.inr (Or.inl ⟨hnx, hsame⟩)))
      · rw [hnx] at hsame
        cases hsame
      · exact hall j i hj hi hij ((filled_eq_iff (hgiven j i hj hi hij)).mpr (Or.inr (Or.inr ⟨hnx, hsame⟩)))
  · rintro ⟨hgaps, hfree⟩ i j hi hj hij hsame
    have hxi : xs[i]? = some xs[i] := List.getElem?_eq_getElem hi
    have hxj : xs[j]? = some xs[j] := List.getElem?_eq_getElem hj
    rcases (filled_eq_iff (hgiven i j hi hj hij)).mp hsame with ⟨hgi, hgj, hnumber⟩ | ⟨hgi, hgj⟩ | ⟨hgj, hgi⟩
    · exact hgaps i j _ _ hij hxi hxj hgi hgj hnumber
    · exact hfree i _ hxi hgi _ (List.getElem_mem hj) hgj
    · exact hfree j _ hxj hgj _ (List.getElem_mem hi) hgi

end Numbers

theorem nodup_numbers_iff {e : Endpoint} {entries : List Json} (hgiven : GivenApart entries) :
    (entries.mapIdx fun i entry => (givenIndex entry).getD (e.defaults.number i)).Nodup ↔
    FilledApart e entries := by
  rw [nodup_filled_iff hgiven]
  have hposition : ∀ {i j : Nat}, i < j → (i : Int) ≠ j := fun hij => by omega
  have hzero : ((∀ (i j : Nat) x y, i < j → entries[i]? = some x → entries[j]? = some y → givenIndex x = none →
        givenIndex y = none → (0 : Int) ≠ 0) ∧
      ∀ (i : Nat) x, entries[i]? = some x → givenIndex x = none → ∀ y ∈ entries, givenIndex y ≠ some 0) ↔
      (entries.Pairwise fun a b => givenIndex a = none → givenIndex b ≠ none) ∧
        ∀ entry ∈ entries, givenIndex entry = none → ∀ other ∈ entries, givenIndex other ≠ some 0 := by
    refine and_congr ?_ ?_
    · rw [List.pairwise_iff_getElem]
      constructor
      · intro h i j hi hj hij hx hy
        exact h i j _ _ hij (List.getElem?_eq_getElem hi) (List.getElem?_eq_getElem hj) hx hy rfl
      · intro h i j x y hij hx hy hnx hny
        obtain ⟨hi, rfl⟩ := List.getElem?_eq_some_iff.mp hx
        obtain ⟨hj, rfl⟩ := List.getElem?_eq_some_iff.mp hy
        exact absurd hny (h i j hi hj hij hnx)
    · constructor
      · intro h entry hmem
        obtain ⟨i, hi, rfl⟩ := List.getElem_of_mem hmem
        exact h i _ (List.getElem?_eq_getElem hi)
      · exact fun h i x hx => h x (List.mem_of_getElem? hx)
  cases e with
  | createPresentation body => exact and_iff_right fun i j x y hij _ _ _ _ => hposition hij
  | _ => exact hzero

/-! ### The slide of an entry -/

/-- The slide is that of the entry, under its number if it gives one. -/
structure StoredAs (layout : String) (entry : Json) (b : SlideBody) : Prop where
  index : ∀ k, givenIndex entry = some k → b.index = k
  layout : some (.str b.layout) = Js.or (getOpt (some entry) "layout") (some (.str layout))
  contentJSON : some b.contentJSON = Js.or (getOpt (some entry) "contentJSON") (some (.obj []))
  themeChoice : b.themeChoice.map .str = Js.or (getOpt (some entry) "themeChoice") none

section Entries
variable {entries : List Json} {entry : Json} {d : SlideData} {b : SlideBody} {bodies : List SlideBody}

theorem intArg_num {q : Rat} {k : Int} (h : intArg (some (.num q)) = .ok k) : q.den = 1 ∧ q.num = k := by
  simp only [intArg] at h
  split at h
  · rename_i hq
    cases h
    exact ⟨hq.1, rfl⟩
  · cases h

/-- An index that passes its check is a number, or is missing. -/
theorem givenIndex_of_check {k : Int} (h : intArg (getOpt (some entry) "index") = .ok k) :
    (getOpt (some entry) "index" = none ∧ givenIndex entry = none ∧ k = 0) ∨
      (getOpt (some entry) "index" ≠ none ∧ givenIndex entry = some k) := by
  unfold givenIndex
  cases hindex : getOpt (some entry) "index" with
  | none =>
    rw [hindex] at h
    cases h
    exact Or.inl ⟨rfl, rfl, rfl⟩
  | some v =>
    rw [hindex] at h
    cases v with
    | num q =>
      obtain ⟨hden, rfl⟩ := intArg_num h
      exact Or.inr ⟨by simp, if_pos hden⟩
    | _ => cases h

theorem textArg?_or {v fallback : Val} {t : Option String} (hfallback : fallback = none ∨ fallback = some .null)
    (h : textArg? (Js.or v fallback) = .ok t) : t.map .str = Js.or v none := by
  unfold Js.or at h ⊢
  split
  · rename_i hv
    rw [if_pos hv] at h
    unfold textArg? at h
    split at h
    · cases hv
    · cases hv
    · obtain ⟨s, hs, rfl⟩ := except_map_eq_ok.mp h
      exact (textArg_ok hs).1.symm
  · rename_i hv
    rw [if_neg hv] at h
    rcases hfallback with rfl | rfl
    · cases h
      rfl
    · cases h
      rfl

theorem some_getD_or (v : Val) : some ((Js.or v (some (.obj []))).getD (.obj [])) = Js.or v (some (.obj [])) := by
  unfold Js.or
  split
  · rename_i hv
    cases v with
    | none => cases hv
    | some _ => rfl
  · rfl

theorem storedAs_of_check {number : Int} {layout : String} {fallback : Val} (hb : d.check = .ok b)
    (hnumber : b.index = (givenIndex entry).getD number)
    (hlayout : d.layout = Js.or (getOpt (some entry) "layout") (some (.str layout)))
    (hcontent : d.contentJSON = (Js.or (getOpt (some entry) "contentJSON") (some (.obj []))).getD (.obj []))
    (htheme : d.themeChoice = Js.or (getOpt (some entry) "themeChoice") fallback)
    (hfallback : fallback = none ∨ fallback = some .null) : StoredAs layout entry b := by
  obtain ⟨-, hlayout', -, hcontent', htheme'⟩ := check_eq_ok.mp hb
  refine ⟨fun k hk => ?_, ?_, ?_, textArg?_or hfallback (htheme ▸ htheme')⟩
  · rw [hnumber, hk]
    rfl
  · rw [← hlayout, (textArg_ok hlayout').1]
  · rw [hcontent', hcontent, some_getD_or]

theorem stored_createSlideData {i : Nat} (hd : createSlideData i entry = some d) (hb : d.check = .ok b) :
    StoredAs "hero" entry b ∧ b.index = (givenIndex entry).getD i := by
  obtain ⟨index, hindex, hd⟩ := Option.bind_eq_some_iff.mp hd
  cases hd
  have hopt : getOpt (some entry) "index" = index := by rw [getOpt, hindex]; rfl
  have hint := (check_eq_ok.mp hb).1
  have hnumber : b.index = (givenIndex entry).getD i := by
    rw [← hopt] at hint
    by_cases hnone : getOpt (some entry) "index" = none
    · rw [if_pos hnone] at hint
      have hgiven : givenIndex entry = none := by rw [givenIndex, hnone]
      rw [hgiven, ← (intArg_num hint).2]
      exact Rat.num_natCast i
    · rw [if_neg hnone] at hint
      rcases givenIndex_of_check hint with ⟨h, -⟩ | ⟨-, hgiven⟩
      · exact absurd h hnone
      · rw [hgiven]
        rfl
  exact ⟨storedAs_of_check hb hnumber rfl rfl rfl (Or.inl rfl), hnumber⟩

theorem stored_updateSlideData (hd : updateSlideData entry = some d) (hb : d.check = .ok b) :
    StoredAs "content_list" entry b ∧ b.index = (givenIndex entry).getD 0 := by
  obtain ⟨index, hindex, hd⟩ := Option.bind_eq_some_iff.mp hd
  cases hd
  have hopt : getOpt (some entry) "index" = index := by rw [getOpt, hindex]; rfl
  have hint := (check_eq_ok.mp hb).1
  have hnumber : b.index = (givenIndex entry).getD 0 := by
    rw [← hopt] at hint
    rcases givenIndex_of_check hint with ⟨-, hgiven, hzero⟩ | ⟨-, hgiven⟩
    · rw [hgiven, hzero]
      rfl
    · rw [hgiven]
      rfl
  exact ⟨storedAs_of_check hb hnumber rfl rfl rfl (Or.inr rfl), hnumber⟩

/-- What a path makes of the entry at a position. -/
def Endpoint.slideData? : Endpoint → Nat → Json → Option SlideData
  | .createPresentation _ => createSlideData
  | _ => fun _ => updateSlideData

theorem stored_slideData? {e : Endpoint} {i : Nat} (hd : e.slideData? i entry = some d) (hb : d.check = .ok b) :
    StoredAs e.defaults.layout entry b ∧ b.index = (givenIndex entry).getD (e.defaults.number i) := by
  cases e with
  | createPresentation body => exact stored_createSlideData hd hb
  | _ => exact stored_updateSlideData hd hb

/-- Each entry is stored once, under the number that it gives or that is filled in. -/
theorem stored_entries {e : Endpoint} {data : List SlideData}
    (hdata : mapIdxOption e.slideData? entries = some data) (hbodies : data.mapM SlideData.check = .ok bodies) :
    List.Forall₂ (StoredAs e.defaults.layout) entries bodies ∧
      bodies.map (·.index) = entries.mapIdx fun i entry => (givenIndex entry).getD (e.defaults.number i) := by
  have hmap := mapIdxOption_eq_some_iff.mp hdata
  have hlen : entries.length = data.length := (length_mapIdxOption hdata).symm
  obtain ⟨hlen', hcheck⟩ := List.forall₂_iff_get.mp (forall₂_of_mapM_check hbodies)
  have hentry : ∀ i (hi : i < entries.length) (hi' : i < bodies.length),
    StoredAs e.defaults.layout entries[i] bodies[i] ∧
      bodies[i].index = (givenIndex entries[i]).getD (e.defaults.number i) := by
    intro i hi hi'
    have hget := congrArg (·[i]?) hmap
    simp only [List.getElem?_mapIdx, List.getElem?_map, List.getElem?_eq_getElem hi,
      List.getElem?_eq_getElem (hlen ▸ hi), Option.map_some, Option.some.injEq] at hget
    exact stored_slideData? hget (hcheck i (hlen ▸ hi) hi')
  refine ⟨List.forall₂_iff_get.mpr ⟨hlen.trans hlen', fun i hi hi' => (hentry i hi hi').1⟩, ?_⟩
  refine List.ext_getElem (by simp [hlen, hlen']) fun i hi hi' => ?_
  rw [List.length_map] at hi
  rw [List.length_mapIdx] at hi'
  rw [List.getElem_map, List.getElem_mapIdx]
  exact (hentry i hi' hi).2

theorem slidesToInsert_arr {data : Option (List SlideData)} (h : slidesToInsert (some (.arr entries)) = some data) :
    mapIdxOption (fun _ => updateSlideData) entries = some (data.getD []) := by
  have hmap : entries.mapIdx (fun _ => updateSlideData) = entries.map updateSlideData :=
    List.ext_getElem (by simp) fun i hi hi' => by simp
  rw [mapIdxOption_eq_some_iff, hmap, ← mapM_eq_some_iff]
  cases entries with
  | nil =>
    cases h
    rfl
  | cons entry entries =>
    rw [slidesToInsert_cons] at h
    obtain ⟨data', hdata', rfl⟩ := Option.map_eq_some_iff.mp h
    exact hdata'

end Entries

/-! ### Saves -/

/-- The endpoint saves the array: by the manual path of a creation, or by an update. -/
def Endpoint.saves : Endpoint → List Json → Prop
  | .createPresentation body, entries | .updatePresentation _ body, entries =>
    asArray (getOpt body "slides") = some entries
  | _, _ => False

/-- The presentation that an answer reports as saved. -/
def Endpoint.savedId? : Endpoint → Except Err Response → Option String
  | .createPresentation _, .ok ⟨201, .deck deck⟩ => some deck.row.id
  | .updatePresentation _ _, .ok ⟨200, .presentation p⟩ => some p.id
  | _, _ => none

section Saves
variable {env : Env} {ws : Nat → World} {req : Request} {db : Db} {user : AuthUser}
  {id : String} {entries : List Json}

theorem savedId?_create {body : Val} {r : Except Err Response}
    (h : (Endpoint.createPresentation body).savedId? r = some id) :
    ∃ deck, r = .ok ⟨201, .deck deck⟩ ∧ deck.row.id = id := by
  unfold Endpoint.savedId? at h
  split at h
  · exact ⟨_, rfl, Option.some.inj h⟩
  · contradiction
  · cases h

theorem savedId?_update {x : String} {body : Val} {r : Except Err Response}
    (h : (Endpoint.updatePresentation x body).savedId? r = some id) :
    ∃ p, r = .ok ⟨200, .presentation p⟩ ∧ p.id = id := by
  unfold Endpoint.savedId? at h
  split at h
  · contradiction
  · exact ⟨_, rfl, Option.some.inj h⟩
  · cases h

/-- What a request that saves an array has left: one slide for each entry, in their order. -/
theorem serve_saves (hlinked : db.Linked) (huser : req.user? env = some user) (hsaves : req.endpoint.saves entries)
    (hlimit : ∀ row, db.users.find? user.id = some row → entries.length ≤ slideLimit row.plan)
    (h : req.endpoint.savedId? (serve env ws req db).result = some id) :
    ∃ p bodies, p.id = id ∧ p.userId = user.id ∧ user.id ≠ "" ∧ Saved db p bodies (serve env ws req db).state.1 ∧
      List.Forall₂ (StoredAs req.endpoint.defaults.layout) entries bodies ∧
      bodies.map (·.index) = entries.mapIdx fun i entry =>
        (givenIndex entry).getD (req.endpoint.defaults.number i) := by
  cases hreq : req.endpoint with
  | createPresentation body =>
    rw [hreq] at hsaves h
    rw [serve_postPresentations huser hreq] at h ⊢
    obtain ⟨deck, hresult, hid⟩ := savedId?_create h
    obtain ⟨howner, hne, data, bodies, hdata, hbodies, hsaved⟩ :=
      wp_run ws 0 (wp_postPresentations hlinked hsaves hlimit) deck hresult
    exact ⟨deck.row, bodies, hid, howner, hne, hsaved, stored_entries (e := .createPresentation body) hdata hbodies⟩
  | updatePresentation x body =>
    rw [hreq] at hsaves h
    rw [serve_updatePresentation huser hreq] at h ⊢
    obtain ⟨p, hresult, hid⟩ := savedId?_update h
    obtain ⟨p₀, at_, t, slides, data, bodies, -, howner, hne, hpatch, hslides, hdata, hbodies, hsaved⟩ :=
      wp_run ws 0 wp_updatePresentation p hresult
    rw [get_of_asArray hsaves] at hslides
    cases hslides
    have howner' : p.userId = user.id := by rw [hpatch]; exact howner
    have hdata' := slidesToInsert_arr hdata
    exact ⟨p, bodies, hid, howner', hne, hsaved, stored_entries (e := .updatePresentation x body) hdata' hbodies⟩
  | _ =>
    rw [hreq] at hsaves
    exact hsaves.elim

/-- What is shown are the slides of the entries, each once and under a number of its own, by these numbers; where
    no entry gives one, in the order of the entries. -/
structure InOrder (layout : String) (entries : List Json) (shown : List Slide) : Prop where
  numbers : (shown.map (·.index)).Nodup
  sorted : shown.Pairwise (·.index ≤ ·.index)
  complete : ∃ stored : List Slide, stored.Perm shown ∧
    List.Forall₂ (StoredAs layout) entries (stored.map Slide.body)
  unnumbered : (∀ entry ∈ entries, givenIndex entry = none) →
    List.Forall₂ (StoredAs layout) entries (shown.map Slide.body)

/-- A GET of the presentation by the same user returns the slides in order. -/
def ShownInOrder (env : Env) (req : Request) (entries : List Json) (id : String) (db : Db) : Prop :=
  ∀ ws, ∃ deck, (serve env ws ⟨req.authorization, .getPresentationById id⟩ db).result = .ok ⟨200, .deck deck⟩ ∧
    deck.slides.Perm (db.slidesOf id) ∧ InOrder req.endpoint.defaults.layout entries deck.slides

theorem number_mono (e : Endpoint) {i j : Nat} (h : i ≤ j) : e.defaults.number i ≤ e.defaults.number j := by
  cases e with
  | createPresentation body => exact Int.ofNat_le.mpr h
  | _ => exact le_rfl

/-- Slides whose entries give no numbers are stored in order. -/
theorem byIndex_unnumbered {e : Endpoint} {rows : List Slide} {bodies : List SlideBody}
    (hrows : rows.map Slide.body = bodies) (hnumbers : bodies.map (·.index) = entries.mapIdx fun i entry =>
      (givenIndex entry).getD (e.defaults.number i))
    (hnone : ∀ entry ∈ entries, givenIndex entry = none) : byIndex rows = rows := by
  refine List.Pairwise.insertionSort_eq ?_
  have hindex : rows.map (·.index) = entries.mapIdx fun i _ => e.defaults.number i := by
    rw [← hrows, List.map_map] at hnumbers
    refine hnumbers.trans (List.ext_getElem (by simp) fun i hi hi' => ?_)
    rw [List.length_mapIdx] at hi
    simp [hnone _ (List.getElem_mem hi)]
  have hget : ∀ i (hi : i < rows.length), rows[i].index = e.defaults.number i := by
    intro i hi
    have hi' : i < entries.length := by
      have hlength := congrArg List.length hindex
      rw [List.length_map, List.length_mapIdx] at hlength
      exact hlength ▸ hi
    have h := congrArg (·[i]?) hindex
    simpa [hi, hi'] using h
  rw [List.pairwise_iff_getElem]
  intro i j hi hj hij
  rw [hget i hi, hget j hj]
  exact number_mono e hij.le

/-- After a save of an array with distinct given indices, the presentation is shown in order exactly if no
    entry is filled in with the number of another one. -/
theorem shown_in_order_iff (hlinked : db.Linked) (huser : req.user? env = some user)
    (hsaves : req.endpoint.saves entries) (hlimit : ∀ row, db.users.find? user.id = some row →
      entries.length ≤ slideLimit row.plan) (hgiven : GivenApart entries)
    (hsaved : req.endpoint.savedId? (serve env ws req db).result = some id) :
    ShownInOrder env req entries id (serve env ws req db).state.1 ↔ FilledApart req.endpoint entries := by
  obtain ⟨p, bodies, rfl, howner, hne, hstored, hentries, hnumbers⟩ :=
    serve_saves hlinked huser hsaves hlimit hsaved
  generalize (serve env ws req db).state.1 = db' at hstored ⊢
  have hget : ∀ ws', (serve env ws' ⟨req.authorization, .getPresentationById p.id⟩ db').result =
      .ok ⟨200, .deck ⟨p, byIndex (db'.slidesOf p.id)⟩⟩ := by
    intro ws'
    have huser' : (⟨req.authorization, .getPresentationById p.id⟩ : Request).user? env = some user := huser
    rw [serve_getPresentationById huser' rfl hne hstored.row howner]
  have hindex : (db'.slidesOf p.id).map (·.index) = bodies.map (·.index) := by
    rw [← hstored.slides, List.map_map]
    rfl
  have hnodup : ((byIndex (db'.slidesOf p.id)).map (·.index)).Nodup ↔ FilledApart req.endpoint entries := by
    rw [((byIndex_perm (db'.slidesOf p.id)).map (·.index)).nodup_iff, hindex, hnumbers]
    exact nodup_numbers_iff hgiven
  constructor
  · intro hshown
    obtain ⟨deck, hresult, -, horder⟩ := hshown ws
    rw [hget] at hresult
    cases hresult
    exact hnodup.mp horder.numbers
  · intro hapart ws'
    refine ⟨_, hget ws', byIndex_perm _, hnodup.mpr hapart, List.pairwise_insertionSort _ _,
      ⟨_, (byIndex_perm _).symm, ?_⟩, fun hnone => ?_⟩
    · rw [hstored.slides]
      exact hentries
    · show List.Forall₂ _ entries ((byIndex (db'.slidesOf p.id)).map Slide.body)
      rw [byIndex_unnumbered hstored.slides hnumbers hnone, hstored.slides]
      exact hentries

end Saves

section Example

theorem officeDb_linked : officeDb.Linked := ⟨fun _ hs => (by cases hs), fun _ ht => by cases ht⟩

def slideEntry (layout : String) : Json := .obj [("layout", .str layout)]

/-- Three slides of the user's own, without numbers. -/
def manualRequest : Request :=
  aliceRequest (.createPresentation (some (.obj
    [("slides", .arr [slideEntry "hero", slideEntry "list", slideEntry "quote"])])))

theorem manual_deck_shown_in_order :
    ShownInOrder office manualRequest [slideEntry "hero", slideEntry "list", slideEntry "quote"] (issue 2 0)
      (serve office (world 0) manualRequest officeDb).state.1 := by
  have hsaved :
      manualRequest.endpoint.savedId? (serve office (world 0) manualRequest officeDb).result = some (issue 2 0) := by
    decide +kernel
  have huser : manualRequest.user? office = some alice := by decide +kernel
  have hlimit : ∀ row, officeDb.users.find? alice.id = some row → 3 ≤ slideLimit row.plan := by
    intro row hrow
    cases hplan : row.plan <;> decide
  have hnone : ∀ e ∈ [slideEntry "hero", slideEntry "list", slideEntry "quote"], givenIndex e = none := by
    decide +kernel
  have hgiven : GivenApart [slideEntry "hero", slideEntry "list", slideEntry "quote"] :=
    List.pairwise_of_forall_mem_list fun a ha b _ k hk => by
      rw [hnone a ha] at hk
      cases hk
  refine (shown_in_order_iff officeDb_linked huser rfl hlimit hgiven hsaved).mpr ?_
  intro i e _ _ other hother
  rw [hnone other hother]
  exact nofun

/-- The same slides, put into a presentation that exists. -/
def unnumberedUpdate : Request :=
  aliceRequest (.updatePresentation (issue 2 0)
    (some (.obj [("title", .str "Roadmap"), ("slides", .arr [slideEntry "hero", slideEntry "list"])])))

/-- An update with two entries that give no index stores both under the number 0. -/
theorem unnumbered_update_collides :
    unnumberedUpdate.user? office = some alice ∧
    unnumberedUpdate.endpoint.saves [slideEntry "hero", slideEntry "list"] ∧
      GivenApart [slideEntry "hero", slideEntry "list"] ∧ (createdDb "Roadmap").Linked ∧
      unnumberedUpdate.endpoint.savedId? (serve office
        (fun n => world 0 (10 + n)) unnumberedUpdate (createdDb "Roadmap")).result =
        some (issue 2 0) ∧
      ¬ ShownInOrder office unnumberedUpdate [slideEntry "hero", slideEntry "list"] (issue 2 0)
        (serve office (fun n => world 0 (10 + n)) unnumberedUpdate (createdDb "Roadmap")).state.1 := by
  have hlinked : (createdDb "Roadmap").Linked := by
    have hslides : (createdDb "Roadmap").slides.rows = [] := by decide +kernel
    have htokens : (createdDb "Roadmap").shareTokens.rows = [] := by decide +kernel
    exact ⟨fun s hs => (by rw [hslides] at hs; cases hs), fun t ht => by rw [htokens] at ht; cases ht⟩
  have hgiven : GivenApart [slideEntry "hero", slideEntry "list"] := by
    have hnone : givenIndex (slideEntry "hero") = none := by decide +kernel
    refine List.pairwise_pair.mpr fun k hk => ?_
    rw [hnone] at hk
    cases hk
  refine ⟨by decide +kernel, rfl, hgiven, hlinked, by decide +kernel, fun hshown => ?_⟩
  obtain ⟨deck, -, hperm, horder⟩ := hshown (world 0)
  have hnumbers := (hperm.map (·.index)).nodup_iff.mp horder.numbers
  have hzero : ((serve office (fun n => world 0 (10 + n)) unnumberedUpdate (createdDb "Roadmap")).state.1.slidesOf
      (issue 2 0)).map (·.index) = [0, 0] := by decide +kernel
  rw [hzero] at hnumbers
  simp at hnumbers

end Example

end Slideo
