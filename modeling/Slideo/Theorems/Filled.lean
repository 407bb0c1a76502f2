import Slideo.Theorems.Content
import Slideo.Theorems.Creation
import Slideo.Theorems.Effects

/-! What is stored never needs a default again. An update fills a missing layout, content or theme, so a save of
    what was read changes nothing only if no stored slide has one of them missing. This file holds that
    invariant, which each of the ways to store slides keeps. -/

namespace Slideo
open Js Interleave

/-! ### The invariant -/

/-- No default of an update would replace a column of the slide, and its values pass their checks. -/
structure SlideBody.Filled (b : SlideBody) : Prop where
  index : -2 ^ 31 ≤ b.index ∧ b.index < 2 ^ 31
  layout : b.layout ≠ "" ∧ storableText b.layout = true
  contentJSON : truthy (some b.contentJSON) = true ∧ storable b.contentJSON = true
  themeChoice : ∀ t, b.themeChoice = some t → storableText t = true

def Presentation.Filled (p : Presentation) : Prop := storableText p.title = true ∧ p.userId ≠ ""

/-- A slide of a template as the seed makes it. -/
def TemplateSlide.Seeded (s : TemplateSlide) : Prop := s.layout ≠ "" ∧ ∃ fields, s.contentJSON = .obj fields

structure Db.Filled (db : Db) : Prop where
  slides : ∀ s ∈ db.slides.rows, s.body.Filled
  presentations : ∀ p ∈ db.presentations.rows, p.Filled
  templates : ∀ s ∈ db.templateSlides.rows, s.Seeded

/-- A database with seeded templates, before its first presentation. -/
structure Db.Seeded (db : Db) : Prop where
  slides : db.slides.rows = []
  presentations : db.presentations.rows = []
  templates : ∀ s ∈ db.templateSlides.rows, s.Seeded

theorem Db.Seeded.filled {db : Db} (h : db.Seeded) : db.Filled := by
  refine ⟨fun s hs => ?_, fun p hp => ?_, h.templates⟩
  · rw [h.slides] at hs
    cases hs
  · rw [h.presentations] at hp
    cases hp

/-! ### Changes -/

/-- A change that stores nothing a default would replace. -/
def Write.Filled : Write → Prop
  | .insertSlide s => s.body.Filled
  | .insertPresentation p => p.Filled
  | .patchPresentation _ _ (some title) => storableText title = true
  | _ => True

section Changes
variable {db : Db}

theorem Db.Filled.apply (h : db.Filled) {y : Write} (hy : y.Filled) : (db.apply y).Filled := by
  cases y with
  | insertSlide s =>
    refine ⟨fun x hx => ?_, h.presentations, h.templates⟩
    rcases Table.mem_insert hx with hx | ⟨rfl, -⟩
    · exact h.slides x hx
    · exact hy
  | deleteSlide pid sid => exact ⟨fun x hx => h.slides x (Table.mem_delete.mp hx).1, h.presentations, h.templates⟩
  | insertPresentation p =>
    refine ⟨h.slides, fun x hx => ?_, h.templates⟩
    rcases Table.mem_insert hx with hx | ⟨rfl, -⟩
    · exact h.presentations x hx
    · exact hy
  | patchPresentation id at_ title =>
    refine ⟨h.slides, fun x hx => ?_, h.templates⟩
    obtain ⟨p, hp, rfl⟩ := mem_patchPresentation.mp hx
    obtain ⟨htitle, howner⟩ := h.presentations p hp
    split
    · cases title with
      | none => exact ⟨htitle, howner⟩
      | some t => exact ⟨hy, howner⟩
    · exact ⟨htitle, howner⟩
  | deletePresentation id => exact ⟨h.slides, fun x hx => h.presentations x (Table.mem_delete.mp hx).1, h.templates⟩
  | _ => exact ⟨h.slides, h.presentations, h.templates⟩

theorem Db.Filled.applyAll {ws : List Write} : ∀ {db : Db}, db.Filled →
    (∀ y ∈ ws, y.Filled) → (db.applyAll ws).Filled := by
  induction ws with
  | nil => exact fun h _ => h
  | cons y ws ih =>
    intro db h hws
    exact ih (h.apply (hws y List.mem_cons_self)) fun y' hy' => hws y' (List.mem_cons_of_mem y hy')

end Changes

/-! ### Data that passes its checks -/

/-- The data has a layout and a content. -/
def SlideData.Filled (d : SlideData) : Prop := truthy d.layout = true ∧ truthy (some d.contentJSON) = true

section Checks
variable {d : SlideData} {b : SlideBody} {w : World} {db : Db} {ws : List Write}

theorem intArg_bounds {v : Val} {k : Int} (h : intArg v = .ok k) : -2 ^ 31 ≤ k ∧ k < 2 ^ 31 := by
  unfold intArg at h
  split at h
  · cases h
    decide
  · split at h
    · rename_i hq
      cases h
      exact hq.2
    · cases h
  · cases h

theorem storable_of_textArg? {v : Val} {t : String} (h : textArg? v = .ok (some t)) : storableText t = true := by
  unfold textArg? at h
  split at h
  · cases h
  · cases h
  · obtain ⟨s, hs, hsome⟩ := except_map_eq_ok.mp h
    cases hsome
    exact (textArg_ok hs).2

theorem storable_of_textUpdate {v : Val} {t : String}
    (h : textUpdate v = .ok (some t)) : storableText t = true := by
  unfold textUpdate at h
  split at h
  · cases h
  all_goals
    obtain ⟨s, hs, hsome⟩ := except_map_eq_ok.mp h
    cases hsome
    exact (textArg_ok hs).2

theorem filled_of_check (hd : d.Filled) (h : d.check = .ok b) : b.Filled := by
  obtain ⟨hindex, hlayout, hstorable, hcontent, htheme⟩ := check_eq_ok.mp h
  obtain ⟨hlayout, hstorableLayout⟩ := textArg_ok hlayout
  refine ⟨intArg_bounds hindex, ⟨?_, hstorableLayout⟩, hcontent ▸ ⟨hd.2, hstorable⟩, fun t ht => ?_⟩
  · have htruthy := hd.1
    rw [hlayout] at htruthy
    simpa [truthy] using htruthy
  · exact storable_of_textArg? (ht ▸ htheme)

theorem filled_slideRows {id : String} {now : Time} {ids : Nat → String}
    {data : List SlideData} {bodies : List SlideBody} (hdata : ∀ d ∈ data, d.Filled)
    (hbodies : data.mapM SlideData.check = .ok bodies) :
    ∀ s ∈ slideRows id now ids bodies, s.body.Filled := by
  have hfilled : ∀ b ∈ bodies, b.Filled := by
    have hchecks := forall₂_of_mapM_check hbodies
    clear hbodies
    induction hchecks with
    | nil => exact fun _ hb => by cases hb
    | cons hcheck _ ih =>
      rw [List.forall_mem_cons] at hdata ⊢
      exact ⟨filled_of_check hdata.1 hcheck, ih hdata.2⟩
  intro s hs
  have hmem : s.body ∈ (slideRows id now ids bodies).map Slide.body := List.mem_map_of_mem hs
  rw [body_slideRows] at hmem
  exact hfilled _ hmem

end Checks

/-! ### What requests ask for -/

/-- The data is filled, or copied from one of the slides. -/
def SlideData.FilledFrom (slides : List TemplateSlide) (d : SlideData) : Prop :=
  d.Filled ∨ ∃ s ∈ slides, d.layout = some (.str s.layout) ∧ d.contentJSON = s.contentJSON

/-- Only filled data is stored, and copies of the template that was looked up last. -/
def drafting : Monitor Query Query.Answer Err (List TemplateSlide) where
  Allowed m
    | .presentationCreate userId _ data => userId ≠ "" ∧ ∀ d ∈ data, d.FilledFrom m
    | .slideCreateMany _ data => ∀ d ∈ data, d.Filled
    | _ => True
  next m
    | .templateFindUnique _, .ok (some (_, slides)) => slides
    | _, _ => m

section Requests
variable {env : Env} {req : Request} {d : SlideData} {entry : Json}

theorem truthy_or {v w : Val} (hw : truthy w = true) : truthy (Js.or v w) = true := by
  unfold Js.or
  split
  · assumption
  · exact hw

theorem truthy_content (v : Val) : truthy (some ((Js.or v (some (.obj []))).getD (.obj []))) = true := by
  have hor : truthy (Js.or v (some (.obj []))) = true := truthy_or rfl
  cases h : Js.or v (some (.obj [])) with
  | none =>
    rw [h] at hor
    cases hor
  | some content =>
    rw [h] at hor
    exact hor

theorem filled_createSlideData {i : Nat} (h : createSlideData i entry = some d) : d.Filled := by
  obtain ⟨index, -, h⟩ := Option.bind_eq_some_iff.mp h
  cases h
  exact ⟨truthy_or (by decide), truthy_content _⟩

theorem filled_updateSlideData (h : updateSlideData entry = some d) : d.Filled := by
  obtain ⟨index, -, h⟩ := Option.bind_eq_some_iff.mp h
  cases h
  exact ⟨truthy_or (by decide), truthy_content _⟩

theorem truthy_parsedLayout (p q : Prop) [Decidable p] [Decidable q] :
    truthy (some (.str (if p then "hero" else if q then "list" else "content_list"))) = true := by
  split
  · decide
  · split <;> decide

theorem filled_importedSlides {fileName : String} {entries : List ZipEntry} :
    ∀ d ∈ importedSlides fileName entries, d.Filled := by
  unfold importedSlides
  split
  · intro d hd
    rw [List.mem_singleton.mp hd]
    exact ⟨show truthy (some (.str "hero")) = true by decide, rfl⟩
  · intro d hd
    obtain ⟨i, hi, rfl⟩ := List.mem_mapIdx.mp hd
    exact ⟨truthy_parsedLayout _ _, rfl⟩

theorem filled_slidesToInsert {slides : Val} {data : List SlideData}
    (h : slidesToInsert slides = some (some data)) :
    ∀ d ∈ data, d.Filled := by
  obtain ⟨entries, -, hdata⟩ := slidesToInsert_eq_some h
  intro d hd
  have hmem : some d ∈ entries.map updateSlideData := by
    rw [mapM_eq_some_iff.mp hdata]
    exact List.mem_map_of_mem hd
  obtain ⟨entry, -, hentry⟩ := List.mem_map.mp hmem
  exact filled_updateSlideData hentry

theorem filled_mapIdxOption {slides : List Json} {data : List SlideData}
    (h : mapIdxOption createSlideData slides = some data) :
    ∀ d ∈ data, d.Filled := by
  intro d hd
  have hmem : some d ∈ slides.mapIdx createSlideData := by
    rw [mapIdxOption_eq_some_iff.mp h]
    exact List.mem_map_of_mem hd
  obtain ⟨i, hi, hdata⟩ := List.mem_mapIdx.mp hmem
  exact filled_createSlideData hdata

/-- Every request stores only filled data and copies. -/
theorem drafting_handle (m : List TemplateSlide) : drafting.Obeys m (handle env req) := by
  refine Lenient.handle ⟨fun m q hq => ?_, fun _ user m _ => ?_, fun _ _ user m topic slides _ hid => ?_,
    fun _ user m _ _ _ _ _ hid => ?_, fun _ user m _ _ _ _ hid => ?_, fun m id slides data h => ?_,
    fun _ _ _ _ _ _ _ => trivial⟩ m
  · cases q <;> trivial
  · exact obeys_limits (fun _ => trivial) (fun _ => trivial) fun _ _ _ => trivial
  · refine obeys_ofOption_bind fun data hdata => Monitor.Obeys.ask_bind ⟨hid, fun d hd => ?_⟩ fun _ =>
      Monitor.Obeys.ask_bind trivial fun _ => trivial
    exact Or.inl (filled_mapIdxOption hdata d hd)
  · refine ⟨hid, fun d hd => Or.inr ?_⟩
    obtain ⟨s, hs, rfl⟩ := List.mem_map.mp hd
    exact ⟨s, hs, rfl, rfl⟩
  · exact ⟨hid, fun d hd => Or.inl (filled_importedSlides d hd)⟩
  · exact filled_slidesToInsert h

end Requests

/-! ### What requests keep -/

section Keeps
variable {env : Env} {req : Request} {w : World} {db db₀ : Db} {ws : List Write}
  {q : Query} {m : List TemplateSlide}
  {s s' : Db × Conn} {r : Except Err q.Answer}

theorem SlideData.FilledFrom.filled {d : SlideData} (h : d.FilledFrom m) (hm : ∀ t ∈ m, t.Seeded) : d.Filled := by
  rcases h with h | ⟨t, ht, hlayout, hcontent⟩
  · exact h
  · obtain ⟨hne, fields, hobj⟩ := hm t ht
    refine ⟨?_, ?_⟩
    · rw [hlayout]
      simpa [truthy] using hne
    · rw [hcontent, hobj]
      rfl

/-- A statement that is asked for stores nothing a default would replace. -/
theorem exec_filled {a : q.Answer} (hq : drafting.Allowed m q) (hm : ∀ t ∈ m, t.Seeded)
    (h : exec w db db q = .ok (a, ws)) :
    ∀ y ∈ ws, y.Filled := by
  intro y hy
  cases q with
  | presentationCreate userId title data =>
    obtain ⟨t, bodies, ht, hbodies, -, -, hrow, hslides, -, rfl⟩ := createDeck_ok h
    rcases List.mem_cons.mp hy with rfl | hy
    · show storableText a.row.title = true ∧ a.row.userId ≠ ""
      rw [hrow]
      exact ⟨(textArg_ok ht).2, hq.1⟩
    · obtain ⟨x, hx, rfl⟩ := List.mem_map.mp hy
      rw [hslides] at hx
      exact filled_slideRows (fun d hd => (hq.2 d hd).filled hm) hbodies x hx
  | slideCreateMany id data =>
    obtain ⟨bodies, hbodies, -, -, rfl⟩ := createSlides_ok h
    obtain ⟨x, hx, rfl⟩ := List.mem_map.mp hy
    exact filled_slideRows hq hbodies x hx
  | presentationUpdate id title =>
    obtain ⟨t, p₀, ht, -, -, -, rfl⟩ := updatePresentationRow_ok h
    rw [List.mem_singleton.mp hy]
    cases t with
    | none => trivial
    | some t => exact storable_of_textUpdate ht
  | userUpdate id patch | presentationDelete id =>
    obtain rfl := exec_issues h y hy
    trivial
  | slideDeleteMany id | templateUpdate id name category description themeId
  | importedPptCreate userId fileName fileUrl =>
    obtain ⟨_, rfl⟩ := exec_issues h y hy
    trivial
  | shareTokenCreate id token email permission expiresAt =>
    obtain ⟨_, rfl, -⟩ := exec_issues h y hy
    trivial
  | _ => exact (exec_issues h y hy).elim

/-- The slides of a template that is looked up are seeded. -/
theorem drafting_next (hs : Holds Db.Filled s) (hanswers : Answers q s r s') (hm : ∀ t ∈ m, t.Seeded) :
    ∀ t ∈ drafting.next m q r, t.Seeded := by
  intro t ht
  cases q with
  | templateFindUnique id =>
    cases r with
    | error err => exact hm t ht
    | ok found =>
      rcases found with _ | ⟨template, slides⟩
      · exact hm t ht
      · obtain ⟨w, db, ws, hdb, hexec⟩ := hs.exec_ok hanswers trivial
        obtain ⟨tid, -, hexec⟩ := except_bind_eq_ok.mp hexec
        obtain ⟨row, -, hfound⟩ := Option.map_eq_some_iff.mp (congrArg Prod.fst (except_pure_eq_ok.mp hexec))
        cases hfound
        exact hdb.templates t (List.mem_filter.mp ht).1
  | _ => exact hm t ht

theorem serve_filled (wss : Nat → World) (hdb : db.Filled) : (serve env wss req db).state.1.Filled := by
  obtain ⟨⟨m, -, hholds⟩, -⟩ := serve_monitored (R := fun m s => (∀ t ∈ m, t.Seeded) ∧ Holds Db.Filled s)
    (G := fun _ => True) wss (drafting_handle []) ⟨fun t ht => (by cases ht), ⟨rfl, hdb, hdb⟩⟩
    fun m q s r s' hq h hanswers => ⟨⟨drafting_next h.2 hanswers h.1,
      h.2.answered hanswers fun w db a ws hdb hexec => hdb.applyAll (exec_filled hq h.1 hexec)⟩, trivial⟩
  exact hholds.committed

/-- In every state that requests lead to from a seeded database, no default of an update has anything to replace. -/
theorem Reaches.filled (h : Reaches env db₀ db) (hseed : db₀.Seeded) : db.Filled := by
  induction h with
  | start => exact hseed.filled
  | request _ ws req ih => exact serve_filled ws ih

end Keeps

end Slideo
