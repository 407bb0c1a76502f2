import Slideo.Theorems.Ownership
import Slideo.Theorems.Alone

/-! Databases that differ only in what is hidden from a request. A call that keeps to the request's scope
    has the same answer over both, and its changes keep the agreement. -/

namespace Slideo
open Js Interleave

/-- The same row but for the title; the very same unless it is hidden. -/
def Presentation.SameBut (H : String → Bool) (p p' : Presentation) : Prop :=
  p' = { p with title := p'.title } ∧ (H p.id = false → p' = p)

/-- The databases differ only in the titles and slides of presentations that `H` hides. -/
structure DiffersOnlyIn (H : String → Bool) (db db' : Db) : Prop where
  presentations : List.Forall₂ (Presentation.SameBut H) db.presentations.rows db'.presentations.rows
  slides : db'.slides.rows.filter (!H ·.presentationId) = db.slides.rows.filter (!H ·.presentationId)
  users : db'.users = db.users
  shareTokens : db'.shareTokens = db.shareTokens
  importedPpts : db'.importedPpts = db.importedPpts
  templates : db'.templates = db.templates
  templateSlides : db'.templateSlides = db.templateSlides

namespace DiffersOnlyIn
variable {H : String → Bool} {db db' : Db}

theorem keys (h : DiffersOnlyIn H db db') : db'.presentations.keys = db.presentations.keys := by
  have hids : ∀ {l l' : List Presentation}, List.Forall₂ (Presentation.SameBut H) l l' →
    l'.map (·.id) = l.map (·.id) := by
    intro l l' hl
    induction hl with
    | nil => rfl
    | cons hp _ ih => rw [List.map_cons, List.map_cons, ih, hp.1]
  exact hids h.presentations

/-- The two rows under a key. -/
theorem find? (h : DiffersOnlyIn H db db') (id : String) :
    Option.Rel (Presentation.SameBut H) (db.presentations.find? id) (db'.presentations.find? id) := by
  have hfind : ∀ {l l' : List Presentation}, List.Forall₂ (Presentation.SameBut H) l l' →
      Option.Rel (Presentation.SameBut H) (l.find? (·.id == id)) (l'.find? (·.id == id)) := by
    intro l l' hl
    induction hl with
    | nil => exact .none
    | @cons p p' _ _ hp _ ih =>
      have hid : p'.id = p.id := by rw [hp.1]
      rw [List.find?_cons, List.find?_cons, hid]
      cases p.id == id with
      | true => exact .some hp
      | false => exact ih
  exact hfind h.presentations

theorem find?_eq (h : DiffersOnlyIn H db db') {id : String} (hid : H id = false) :
    db'.presentations.find? id = db.presentations.find? id := by
  have hrel := h.find? id
  cases hp : db.presentations.find? id with
  | none =>
    rw [hp] at hrel
    generalize db'.presentations.find? id = found at hrel
    cases hrel
    rfl
  | some p =>
    rw [hp] at hrel
    generalize db'.presentations.find? id = found at hrel
    cases hrel with
    | some hsame => rw [hsame.2 (by rw [Table.key_of_find? hp]; exact hid)]

theorem slidesOf_eq (h : DiffersOnlyIn H db db') {id : String} (hid : H id = false) :
    db'.slidesOf id = db.slidesOf id := by
  have hvisible : ∀ db : Db, db.slidesOf id =
      (db.slides.rows.filter (!H ·.presentationId)).filter (·.presentationId == id) := by
    intro db
    rw [List.filter_filter]
    refine List.filter_congr fun s _ => ?_
    by_cases hs : s.presentationId = id
    · simp [hs, hid]
    · simp [hs]
  rw [hvisible, hvisible, h.slides]

theorem deck?_eq (h : DiffersOnlyIn H db db') {id : String} (hid : H id = false) : db'.deck? id = db.deck? id := by
  rw [Db.deck?, Db.deck?, h.find?_eq hid, h.slidesOf_eq hid]

end DiffersOnlyIn

/-- The agreement that a request of user `u` keeps while it draws ids from `drawn`. -/
structure Agree (u : Option String) (drawn : Set String) (H : String → Bool) (db db' : Db) : Prop
    extends DiffersOnlyIn H db db' where
  owner : ∀ p ∈ db.presentations.rows, H p.id = true → u ≠ some p.userId
  hidden : ∀ x, H x = true → x ∈ db.presentations.keys
  fresh : ∀ s ∈ db.slides.rows, H s.presentationId = true → s.id ∉ drawn
  fresh' : ∀ s ∈ db'.slides.rows, H s.presentationId = true → s.id ∉ drawn

/-- A change that shows nothing of what is hidden. -/
def Harmless (H : String → Bool) (drawn : Set String) : Write → Prop
  | .patchPresentation id _ _ | .deletePresentation id => H id = false
  | .insertSlide s => H s.presentationId = false ∧ s.id ∈ drawn
  | _ => True

namespace Agree
variable {u : Option String} {drawn : Set String} {H : String → Bool} {db db' : Db}

/-- A drawn id is in use on both sides or on none. -/
theorem slide_keys (h : Agree u drawn H db db') {x : String} (hx : x ∈ drawn) :
    x ∈ db'.slides.keys ↔ x ∈ db.slides.keys := by
  have hvisible : ∀ {db : Db}, (∀ s ∈ db.slides.rows, H s.presentationId = true → s.id ∉ drawn) →
      (x ∈ db.slides.keys ↔ ∃ s ∈ db.slides.rows.filter (!H ·.presentationId), s.id = x) := by
    intro db hfresh
    rw [Table.mem_keys]
    constructor
    · rintro ⟨s, hs, rfl⟩
      refine ⟨s, List.mem_filter.mpr ⟨hs, ?_⟩, rfl⟩
      cases hH : H s.presentationId with
      | false => rfl
      | true => exact absurd hx (hfresh s hs hH)
    · rintro ⟨s, hs, rfl⟩
      exact ⟨s, (List.mem_filter.mp hs).1, rfl⟩
  rw [hvisible h.fresh, hvisible h.fresh', h.slides]

theorem freshSlides_eq (h : Agree u drawn H db db') {rows : List Slide} (hrows : ∀ s ∈ rows, s.id ∈ drawn) :
    freshSlides db' rows = freshSlides db rows := by
  have hiff : (∀ s ∈ rows, s.id ∉ db'.slides.keys) ↔ ∀ s ∈ rows, s.id ∉ db.slides.keys :=
    forall₂_congr fun s hs => not_congr (h.slide_keys (hrows s hs))
  simp only [freshSlides, require, hiff]

/-! ### Changes -/

theorem insertPresentation (h : Agree u drawn H db db') (p : Presentation) :
    Agree u drawn H (db.apply (.insertPresentation p)) (db'.apply (.insertPresentation p)) := by
  by_cases hkey : p.id ∈ db.presentations.keys
  · have hsame : ∀ {db : Db}, p.id ∈ db.presentations.keys → db.apply (.insertPresentation p) = db := by
      intro db hkey
      rw [Db.apply, Table.insert, dif_pos (show p.id ∈ db.presentations.rows.map _ from hkey)]
    rw [hsame hkey, hsame (h.keys ▸ hkey)]
    exact h
  · have hnew : H p.id = false := by
      cases hH : H p.id with
      | false => rfl
      | true => exact absurd (h.hidden _ hH) hkey
    refine { h with presentations := ?_, owner := ?_, hidden := ?_ }
    · show List.Forall₂ _ (db.presentations.insert p).rows (db'.presentations.insert p).rows
      rw [Table.insert_rows hkey, Table.insert_rows (h.keys ▸ hkey)]
      exact List.rel_append h.presentations (.cons ⟨rfl, fun _ => rfl⟩ .nil)
    · intro p' hp' hH
      rcases Table.mem_insert hp' with hp' | ⟨rfl, -⟩
      · exact h.owner p' hp' hH
      · rw [hnew] at hH
        cases hH
    · intro x hx
      obtain ⟨p', hp', rfl⟩ := Table.mem_keys.mp (h.hidden x hx)
      exact Table.mem_keys.mpr ⟨p', Table.mem_insert_of_mem hp', rfl⟩

theorem patchPresentation (h : Agree u drawn H db db') {id : String} (hid : H id = false) (at_ : Time)
    (title : Option String) :
    Agree u drawn H (db.apply (.patchPresentation id at_ title)) (db'.apply (.patchPresentation id at_ title)) := by
  refine { h with presentations := ?_, owner := ?_, hidden := ?_ }
  · refine List.rel_map (fun p p' hp => ?_) h.presentations
    have hsame : p'.id = p.id := by rw [hp.1]
    by_cases hpid : p.id = id
    · have heq := hp.2 (hpid ▸ hid)
      subst heq
      exact ⟨by split <;> rfl, fun _ => rfl⟩
    · have hpid' : p'.id ≠ id := by rwa [hsame]
      rw [if_neg hpid, if_neg hpid']
      exact hp
  · intro p hp hH
    obtain ⟨r, hr, rfl⟩ := mem_patchPresentation.mp hp
    split at hH
    · rename_i hrid
      rw [Presentation.patch_id, hrid, hid] at hH
      cases hH
    · rename_i hrid
      rw [if_neg hrid]
      exact h.owner r hr hH
  · intro x hx
    rw [Db.apply, Table.modify_keys]
    exact h.hidden x hx

theorem deletePresentation (h : Agree u drawn H db db') {id : String} (hid : H id = false) :
    Agree u drawn H (db.apply (.deletePresentation id)) (db'.apply (.deletePresentation id)) := by
  refine { h with presentations := ?_, owner := ?_, hidden := ?_ }
  · refine List.rel_filter (fun p p' hp => ?_) h.presentations
    rw [hp.1]
  · intro p hp hH
    exact h.owner p (Table.mem_delete.mp hp).1 hH
  · intro x hx
    obtain ⟨p, hp, rfl⟩ := Table.mem_keys.mp (h.hidden x hx)
    refine Table.mem_keys.mpr ⟨p, Table.mem_delete.mpr ⟨hp, ?_⟩, rfl⟩
    refine beq_eq_false_iff_ne.mpr fun heq => ?_
    rw [heq, hid] at hx
    cases hx

theorem insertSlide (h : Agree u drawn H db db') {s : Slide}
    (hs : H s.presentationId = false) (hid : s.id ∈ drawn) :
    Agree u drawn H (db.apply (.insertSlide s)) (db'.apply (.insertSlide s)) := by
  have hfilter : ∀ {db : Db}, (db.slides.insert s).rows.filter (!H ·.presentationId) =
      db.slides.rows.filter (!H ·.presentationId) ++ if s.id ∈ db.slides.keys then [] else [s] := by
    intro db
    by_cases hkey : s.id ∈ db.slides.keys
    · rw [Table.insert, dif_pos (show s.id ∈ db.slides.rows.map _ from hkey), if_pos hkey, List.append_nil]
    · rw [Table.insert_rows hkey, if_neg hkey, List.filter_append]
      simp [hs]
  have hfresh : ∀ {db : Db}, (∀ x ∈ db.slides.rows, H x.presentationId = true → x.id ∉ drawn) →
      ∀ x ∈ (db.slides.insert s).rows, H x.presentationId = true → x.id ∉ drawn := by
    intro db hdb x hx hH
    rcases Table.mem_insert hx with hx | ⟨rfl, -⟩
    · exact hdb x hx hH
    · rw [hs] at hH
      cases hH
  refine { h with slides := ?_, fresh := hfresh h.fresh, fresh' := hfresh h.fresh' }
  show (db'.slides.insert s).rows.filter _ = (db.slides.insert s).rows.filter _
  rw [hfilter, hfilter, h.slides]
  simp only [h.slide_keys hid]

theorem deleteSlide (h : Agree u drawn H db db') (pid sid : String) :
    Agree u drawn H (db.apply (.deleteSlide pid sid)) (db'.apply (.deleteSlide pid sid)) := by
  refine { h with slides := ?_, fresh := ?_, fresh' := ?_ }
  · simp only [Db.apply, Table.delete]
    rw [List.filter_comm, h.slides, List.filter_comm]
  · exact fun s hs hH => h.fresh s (Table.mem_delete.mp hs).1 hH
  · exact fun s hs hH => h.fresh' s (Table.mem_delete.mp hs).1 hH

theorem apply (h : Agree u drawn H db db') {y : Write} (hy : Harmless H drawn y) :
    Agree u drawn H (db.apply y) (db'.apply y) := by
  cases y with
  | insertUser x => exact { h with users := by simp only [Db.apply, h.users] }
  | patchUser id at_ patch => exact { h with users := by simp only [Db.apply, h.users] }
  | insertPresentation p => exact h.insertPresentation p
  | patchPresentation id at_ title => exact h.patchPresentation hy at_ title
  | deletePresentation id => exact h.deletePresentation hy
  | insertSlide s => exact h.insertSlide hy.1 hy.2
  | deleteSlide pid sid => exact h.deleteSlide pid sid
  | insertShareToken t => exact { h with shareTokens := by simp only [Db.apply, h.shareTokens] }
  | insertImportedPpt i => exact { h with importedPpts := by simp only [Db.apply, h.importedPpts] }
  | patchTemplate id at_ patch => exact { h with templates := by simp only [Db.apply, h.templates] }

theorem applyAll {ws : List Write} : ∀ {db db' : Db}, Agree u drawn H db db' → (∀ y ∈ ws, Harmless H drawn y) →
    Agree u drawn H (db.applyAll ws) (db'.applyAll ws) := by
  induction ws with
  | nil => exact fun h _ => h
  | cons y ws ih =>
    intro db db' h hws
    exact ih (h.apply (hws y List.mem_cons_self)) fun y' hy' => hws y' (List.mem_cons_of_mem y hy')

/-! ### Statements -/

section Exec
variable {w : World}

theorem createDeck_eq (h : Agree u drawn H db db') (hw : ∀ k, w.uuid k ∈ drawn) (userId : String) (title : Val)
    (slides : List SlideData) : createDeck w db' userId title slides = createDeck w db userId title slides := by
  simp only [createDeck, h.users, h.keys]
  refine congrArg (textArg title >>= ·) (funext fun title => congrArg (_ >>= ·) (funext fun bodies => ?_))
  rw [h.freshSlides_eq]
  intro s hs
  obtain ⟨-, i, hi⟩ := mem_slideRows hs
  rw [hi]
  exact hw (i + 1)

theorem createSlides_eq (h : Agree u drawn H db db') (hw : ∀ k, w.uuid k ∈ drawn) (id : String)
    (data : List SlideData) : createSlides w db' id data = createSlides w db id data := by
  simp only [createSlides, h.keys]
  refine congrArg (_ >>= ·) (funext fun bodies => ?_)
  rw [h.freshSlides_eq]
  intro s hs
  obtain ⟨-, i, hi⟩ := mem_slideRows hs
  rw [hi]
  exact hw i

theorem createShareToken_eq (h : Agree u drawn H db db') (id token : String) (email : Val) (permission : String)
    (expiresAt : Option Time) :
    createShareToken w db' id token email permission expiresAt =
      createShareToken w db id token email permission expiresAt := by
  have htoken : db'.shareToken? token = db.shareToken? token := by
    rw [Db.shareToken?, h.shareTokens, Db.shareToken?]
  simp only [createShareToken, htoken, h.shareTokens, h.keys]

theorem findFirst_eq (h : Agree u drawn H db db') {id userId : String} (hu : u = some userId) :
    (db'.presentations.find? id).filter (·.userId == userId) =
      (db.presentations.find? id).filter (·.userId == userId) := by
  cases hid : H id with
  | false => rw [h.find?_eq hid]
  | true =>
    have hrel := h.find? id
    cases hp : db.presentations.find? id with
    | none =>
      rw [hp] at hrel
      generalize db'.presentations.find? id = found at hrel
      cases hrel
      rfl
    | some p =>
      rw [hp] at hrel
      generalize db'.presentations.find? id = found at hrel
      cases hrel with
      | @some _ p' hsame =>
        -- The row is hidden, so it is not the user's on either side.
        have hother : (p.userId == userId) = false := by
          refine beq_eq_false_iff_ne.mpr fun heq => ?_
          have hne := h.owner p (Table.mem_of_find? hp) (by rw [Table.key_of_find? hp]; exact hid)
          exact hne (heq ▸ hu)
        have hother' : (p'.userId == userId) = false := by rw [hsame.1]; exact hother
        simp [Option.filter_some, hother, hother']

/-- The user's own presentations, which are all visible. -/
theorem own_rows (h : Agree u drawn H db db') {userId : String} (hu : u = some userId) :
    db'.presentations.rows.filter (·.userId == userId) = db.presentations.rows.filter (·.userId == userId) := by
  have hrows : ∀ {l l' : List Presentation}, List.Forall₂ (Presentation.SameBut H) l l' →
      (∀ p ∈ l, H p.id = true → u ≠ some p.userId) →
        l'.filter (·.userId == userId) = l.filter (·.userId == userId) := by
    intro l l' hl
    induction hl with
    | nil => exact fun _ => rfl
    | @cons p p' l l' hp _ ih =>
      intro howner
      have ih := ih fun q hq => howner q (List.mem_cons_of_mem p hq)
      have huser : p'.userId = p.userId := by rw [hp.1]
      rw [List.filter_cons, List.filter_cons, huser, ih]
      by_cases hpu : p.userId = userId
      · have hvis : H p.id = false := by
          cases hH : H p.id with
          | false => rfl
          | true => exact absurd (hpu ▸ hu) (howner p List.mem_cons_self hH)
        rw [hp.2 hvis]
      · rw [if_neg (by simpa using hpu), if_neg (by simpa using hpu)]
  exact hrows h.presentations h.owner

theorem findMany_eq (h : Agree u drawn H db db') {userId : String} (hu : u = some userId) (take skip : Int) :
    exec w db' db' (.presentationFindMany userId take skip) = exec w db db
      (.presentationFindMany userId take skip) := by
  have hcount : (w.presentationOrder.sort (db.presentations.rows.filter (·.userId == userId))).map
        (fun p => (p, (db'.slidesOf p.id).length)) =
      (w.presentationOrder.sort (db.presentations.rows.filter (·.userId == userId))).map
        fun p => (p, (db.slidesOf p.id).length) := by
    refine List.map_congr_left fun p hp => ?_
    obtain ⟨hp, hpu⟩ := List.mem_filter.mp (w.presentationOrder.mem_sort.mp hp)
    have hvis : H p.id = false := by
      cases hH : H p.id with
      | false => rfl
      | true => exact absurd ((beq_iff_eq.mp hpu) ▸ hu) (h.owner p hp hH)
    rw [h.slidesOf_eq hvis]
  simp only [exec, h.own_rows hu, hcount]

/-- What the request may look up and touch is not hidden. -/
structure Clear (H : String → Bool) (a : Scope) (m : Rights) : Prop where
  target : ∀ id, a.target = some id → H id = false
  token : a.token = none
  owned : ∀ x ∈ m.owned, H x = false

theorem exec_eq {a : Scope} {m : Rights} {q : Query} (h : Agree a.user drawn H db db') (hc : Clear H a m)
    (hw : ∀ k, w.uuid k ∈ drawn) (hq : (ownership a).Allowed m q) : exec w db' db' q = exec w db db q := by
  cases q with
  | clock | randomUUID | begin | commit | rollback | generateContent _ | fetchArchive _ | uploadRaw _ => rfl
  | userFindUnique id => simp only [exec, h.users]
  | userUpdate id patch => simp only [exec, updateUserRow, h.users]
  | presentationFindUnique id => simp only [exec, h.deck?_eq (hc.target id hq)]
  | presentationFindFirst id userId => simp only [exec, h.findFirst_eq hq]
  | presentationFindMany userId take skip => exact h.findMany_eq hq take skip
  | presentationCreate userId title slides => exact h.createDeck_eq hw userId title slides
  | presentationUpdate id title => simp only [exec, updatePresentationRow, h.keys, h.find?_eq (hc.owned id hq)]
  | presentationDelete id =>
    have htokens : db'.tokensOf id = db.tokensOf id := by rw [Db.tokensOf, h.shareTokens, Db.tokensOf]
    simp only [exec, deletePresentationRow, h.keys, h.slidesOf_eq (hc.owned id hq), htokens]
  | slideDeleteMany id => rw [exec_slideDeleteMany, exec_slideDeleteMany, h.slidesOf_eq (hc.owned id hq)]
  | slideCreateMany id data => exact h.createSlides_eq hw id data
  | shareTokenCreate id token email permission expiresAt =>
    exact h.createShareToken_eq id token email permission expiresAt
  | shareTokenFindUnique token =>
    have hcarried : a.token = some token := hq
    rw [hc.token] at hcarried
    cases hcarried
  | templateFindUnique id => simp only [exec, Db.templateSlidesOf, h.templates, h.templateSlides]
  | templateFindMany => simp only [exec, Db.templateSlidesOf, h.templates, h.templateSlides]
  | templateUpdate id name category description themeId => simp only [exec, updateTemplateRow, h.templates]
  | importedPptFindFirst id userId => simp only [exec, h.importedPpts]
  | importedPptFindMany userId => simp only [exec, h.importedPpts]
  | importedPptCreate userId fileName fileUrl => simp only [exec, createImportedPpt, h.users, h.importedPpts]

theorem exec_harmless {a : Scope} {m : Rights} {q : Query} {r : q.Answer} {ws : List Write}
    (h : Agree a.user drawn H db db') (hc : Clear H a m) (hw : ∀ k, w.uuid k ∈ drawn)
    (hq : (ownership a).Allowed m q) (hexec : exec w db db q = .ok (r, ws)) : ∀ y ∈ ws, Harmless H drawn y := by
  intro y hy
  have hissue := exec_issues hexec y hy
  cases q with
  | presentationCreate userId title slides =>
    obtain ⟨t, bodies, -, -, -, hnew, -, hslides, -, rfl⟩ := createDeck_ok hexec
    rcases List.mem_cons.mp hy with rfl | hy
    · trivial
    · obtain ⟨s, hs, rfl⟩ := List.mem_map.mp hy
      rw [hslides] at hs
      obtain ⟨hpid, i, hid⟩ := mem_slideRows hs
      refine ⟨?_, hid ▸ hw (i + 1)⟩
      cases hH : H s.presentationId with
      | false => rfl
      | true => exact absurd (hpid ▸ h.hidden _ hH) hnew
  | presentationUpdate id title =>
    obtain ⟨title, rfl⟩ := hissue
    exact hc.owned id hq
  | presentationDelete id =>
    cases hissue
    exact hc.owned id hq
  | slideCreateMany id data =>
    obtain ⟨bodies, -, -, -, rfl⟩ := createSlides_ok hexec
    obtain ⟨s, hs, rfl⟩ := List.mem_map.mp hy
    obtain ⟨hpid, i, hid⟩ := mem_slideRows hs
    exact ⟨hpid ▸ hc.owned id hq, hid ▸ hw i⟩
  | userUpdate id patch => cases hissue; trivial
  | slideDeleteMany id => obtain ⟨_, rfl⟩ := hissue; trivial
  | shareTokenCreate id token email permission expiresAt => obtain ⟨_, rfl, -⟩ := hissue; trivial
  | templateUpdate id name category description themeId => obtain ⟨_, rfl⟩ := hissue; trivial
  | importedPptCreate userId fileName fileUrl => obtain ⟨_, rfl⟩ := hissue; trivial
  | _ => exact hissue.elim

end Exec

end Agree

/-! ### Two runs of one request -/

/-- The states of two runs of a request that has learned `m`. -/
structure Twins (a : Scope) (drawn : Set String) (H : String → Bool) (m : Rights) (s s' : Db × Conn) : Prop where
  conn : s'.2 = s.2
  snapshot : s.2.snapshot = none
  db : Agree a.user drawn H s.1 s'.1
  view : Agree a.user drawn H (s.2.view s.1) (s.2.view s'.1)
  clear : Agree.Clear H a m

namespace Twins
variable {a : Scope} {drawn : Set String} {H : String → Bool} {m : Rights} {q : Query} {w : World}

theorem learned {db db' : Db} {c : Conn} (h : Twins a drawn H m (db, c) (db', c)) :
    Agree.Clear H a ((ownership a).next m q (perform w db c q).1) where
  target := h.clear.target
  token := h.clear.token
  owned x hx := by
    rcases next_owned hx with hx | ⟨p, hp, rfl, hu⟩
    · exact h.clear.owned x hx
    · cases hH : H p.id with
      | false => rfl
      | true => exact absurd hu (h.view.owner p hp hH)

theorem statement {db db' : Db} {tx : Option (List Write)} (h : Twins a drawn H m (db, { tx }) (db', { tx }))
    (hst : q.IsStatement) (hw : ∀ k, w.uuid k ∈ drawn) (hq : (ownership a).Allowed m q) :
    (answer w q (db', { tx })).1 = (answer w q (db, { tx })).1 ∧
      Twins a drawn H ((ownership a).next m q (answer w q (db, { tx })).1)
        (answer w q (db, { tx })).2 (answer w q (db', { tx })).2 := by
  have hclear := h.learned (q := q) (w := w)
  have hexec := h.view.exec_eq h.clear hw hq
  rw [answer, answer, perform_eq hst, start_alone] at *
  rw [perform_eq hst, start_alone]
  simp only [hexec]
  cases hr : exec w (Conn.view { tx } db) (Conn.view { tx } db) q with
  | error e =>
    rw [hr] at hclear
    exact ⟨rfl, rfl, rfl, h.db, h.view, hclear⟩
  | ok out =>
    obtain ⟨r, ws⟩ := out
    have hws := h.view.exec_harmless h.clear hw hq hr
    rw [hr] at hclear
    cases tx with
    | none =>
      have hafter := h.db.applyAll hws
      exact ⟨rfl, rfl, rfl, hafter, hafter, hclear⟩
    | some ws' =>
      refine ⟨rfl, rfl, rfl, h.db, ?_, hclear⟩
      show Agree _ _ _ (db.applyAll (ws' ++ ws)) (db'.applyAll (ws' ++ ws))
      rw [Db.applyAll_append, Db.applyAll_append]
      exact h.view.applyAll hws

/-- An allowed call has the same answer in both runs. -/
theorem call {s s' : Db × Conn} (h : Twins a drawn H m s s') (hw : ∀ k, w.uuid k ∈ drawn)
    (hq : (ownership a).Allowed m q) : (answer w q s').1 = (answer w q s).1 ∧
      Twins a drawn H ((ownership a).next m q (answer w q s).1) (answer w q s).2 (answer w q s').2 := by
  obtain ⟨db, tx, snapshot⟩ := s
  obtain ⟨db', c'⟩ := s'
  obtain rfl : c' = ⟨tx, snapshot⟩ := h.conn
  obtain rfl : snapshot = none := h.snapshot
  cases q with
  | begin => exact ⟨rfl, rfl, rfl, h.db, h.db, h.learned⟩
  | commit => exact ⟨rfl, rfl, rfl, h.view, h.view, h.learned⟩
  | rollback => exact ⟨rfl, rfl, rfl, h.db, h.db, h.learned⟩
  | _ => exact h.statement trivial hw hq

end Twins

end Slideo
