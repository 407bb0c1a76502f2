import Slideo.Schedule
import Slideo.Theorems.Ownership
import Slideo.Theorems.Statements

/-! Only its owner changes a presentation, in every interleaving. A change of the committed state by user
    `u` respects everyone else's presentations (`Respects`); a request keeps the rights that it learned
    before its transaction, since ownership never changes and ids are never issued twice. -/

namespace Slideo
open Js Interleave

/-! ### Changes that respect other users -/

/-- Presentation `p` of `db` is in `db'` as it was, with its slides and its share tokens. -/
def Untouched (p : Presentation) (db db' : Db) : Prop :=
  p ∈ db'.presentations.rows ∧ db'.slidesOf p.id = db.slidesOf p.id ∧ db'.tokensOf p.id = db.tokensOf p.id

/-- From `db` to `db'`, user `u` changed only presentations of his own and created only such. -/
structure Respects (u : Option String) (db db' : Db) : Prop where
  userId : ∀ p ∈ db.presentations.rows, ∀ p' ∈ db'.presentations.rows, p'.id = p.id → p'.userId = p.userId
  foreign : ∀ p ∈ db.presentations.rows, u ≠ some p.userId → Untouched p db db'
  created : ∀ p' ∈ db'.presentations.rows, p'.id ∈ db.presentations.keys ∨ u = some p'.userId

namespace Respects
variable {u : Option String} {db db' db'' : Db}

/-- A change that leaves presentations, slides and share tokens as they are. -/
theorem of_eq (hp : db'.presentations = db.presentations) (hs : db'.slides = db.slides)
    (ht : db'.shareTokens = db.shareTokens) : Respects u db db' where
  userId p hp₁ p' hp₂ hid := by
    rw [hp] at hp₂
    rw [Table.eq_of_key hp₂ hp₁ hid]
  foreign p hp₁ _ := by
    refine ⟨hp ▸ hp₁, ?_, ?_⟩
    · simp only [Db.slidesOf, hs]
    · simp only [Db.tokensOf, ht]
  created p' hp' := Or.inl (Table.mem_keys.mpr ⟨p', hp ▸ hp', rfl⟩)

theorem refl (u : Option String) (db : Db) : Respects u db db := of_eq rfl rfl rfl

theorem trans (h₁ : Respects u db db') (h₂ : Respects u db' db'') : Respects u db db'' where
  userId p hp p'' hp'' hid := by
    by_cases hmid : p.id ∈ db'.presentations.keys
    · obtain ⟨p', hp', hid'⟩ := Table.mem_keys.mp hmid
      rw [h₂.userId p' hp' p'' hp'' (hid.trans hid'.symm), h₁.userId p hp p' hp' hid']
    · -- The first change removed `p`, so `p` was the user's own, and so is what he created since.
      have howner : u = some p.userId := by
        by_contra hne
        exact hmid (Table.mem_keys.mpr ⟨p, (h₁.foreign p hp hne).1, rfl⟩)
      rcases h₂.created p'' hp'' with hkey | hu
      · exact absurd (hid ▸ hkey) hmid
      · exact Option.some.inj (hu.symm.trans howner)
  foreign p hp hne := by
    obtain ⟨hp', hs', ht'⟩ := h₁.foreign p hp hne
    obtain ⟨hp'', hs'', ht''⟩ := h₂.foreign p hp' hne
    exact ⟨hp'', hs''.trans hs', ht''.trans ht'⟩
  created p'' hp'' := by
    rcases h₂.created p'' hp'' with hkey | hu
    · obtain ⟨p', hp', hid⟩ := Table.mem_keys.mp hkey
      rcases h₁.created p' hp' with hkey' | hu
      · exact Or.inl (hid ▸ hkey')
      · exact Or.inr (by rw [h₂.userId p' hp' p'' hp'' hid.symm]; exact hu)
    · exact Or.inr hu

end Respects

/-- Whatever presentation is stored under `id` belongs to `u`. -/
def OwnId (u : Option String) (db : Db) (id : String) : Prop :=
  ∀ p ∈ db.presentations.rows, p.id = id → u = some p.userId

/-- A change to a presentation of `u`, or to no presentation. -/
def OwnWrite (u : Option String) (db : Db) : Write → Prop
  | .insertPresentation p => u = some p.userId
  | .patchPresentation id _ _ | .deletePresentation id | .deleteSlide id _ => OwnId u db id
  | .insertSlide s => OwnId u db s.presentationId
  | .insertShareToken t => OwnId u db t.presentationId
  | .insertUser _ | .patchUser _ _ _ | .insertImportedPpt _ | .patchTemplate _ _ _ => True

section Apply
variable {u : Option String} {db : Db}

theorem filter_insert_of_neg {α : Type} {key : α → String} {t : Table α key} {r : α} {p : α → Bool}
    (h : p r = false) : (t.insert r).rows.filter p = t.rows.filter p := by
  unfold Table.insert
  split
  · rfl
  · simp [List.filter_append, h]

theorem Respects.insertPresentation {p : Presentation} (hu : u = some p.userId) :
    Respects u db (db.apply (.insertPresentation p)) where
  userId p₀ hp₀ p' hp' hid := by
    rcases Table.mem_insert hp' with hp' | ⟨rfl, hfresh⟩
    · rw [Table.eq_of_key hp' hp₀ hid]
    · exact absurd (Table.mem_keys.mpr ⟨p₀, hp₀, hid.symm⟩) hfresh
  foreign p₀ hp₀ _ := ⟨Table.mem_insert_of_mem hp₀, rfl, rfl⟩
  created p' hp' := by
    rcases Table.mem_insert hp' with hp' | ⟨rfl, -⟩
    · exact Or.inl (Table.mem_keys.mpr ⟨p', hp', rfl⟩)
    · exact Or.inr hu

theorem Respects.patchPresentation {id : String} {at_ : Time} {title : Option String} (hid : OwnId u db id) :
    Respects u db (db.apply (.patchPresentation id at_ title)) where
  userId p₀ hp₀ p' hp' heq := by
    obtain ⟨r, hr, rfl⟩ := mem_patchPresentation.mp hp'
    have same : r.id = p₀.id := by
      rw [← heq]
      split <;> rfl
    rw [← Table.eq_of_key hr hp₀ same]
    split <;> rfl
  foreign p₀ hp₀ hne := by
    refine ⟨mem_patchPresentation.mpr ⟨p₀, hp₀, ?_⟩, rfl, rfl⟩
    rw [if_neg fun h => hne (hid p₀ hp₀ h)]
  created p' hp' := by
    obtain ⟨r, hr, rfl⟩ := mem_patchPresentation.mp hp'
    refine Or.inl (Table.mem_keys.mpr ⟨r, hr, ?_⟩)
    split <;> rfl

theorem Respects.deletePresentation {id : String} (hid : OwnId u db id) :
    Respects u db (db.apply (.deletePresentation id)) where
  userId p₀ hp₀ p' hp' heq := by
    rw [Table.eq_of_key (Table.mem_delete.mp hp').1 hp₀ heq]
  foreign p₀ hp₀ hne := by
    refine ⟨Table.mem_delete.mpr ⟨hp₀, ?_⟩, rfl, rfl⟩
    simpa using fun h => hne (hid p₀ hp₀ h)
  created p' hp' := Or.inl (Table.mem_keys.mpr ⟨p', (Table.mem_delete.mp hp').1, rfl⟩)

/-- A change of the slides and tokens of one presentation. -/
theorem Respects.of_children {db' : Db} {id : String} (hid : OwnId u db id)
    (hp : db'.presentations = db.presentations) (hs : ∀ x, x ≠ id → db'.slidesOf x = db.slidesOf x)
    (ht : ∀ x, x ≠ id → db'.tokensOf x = db.tokensOf x) : Respects u db db' where
  userId p₀ hp₀ p' hp' heq := by
    rw [hp] at hp'
    rw [Table.eq_of_key hp' hp₀ heq]
  foreign p₀ hp₀ hne := by
    have hother : p₀.id ≠ id := fun h => hne (hid p₀ hp₀ h)
    exact ⟨hp ▸ hp₀, hs _ hother, ht _ hother⟩
  created p' hp' := Or.inl (Table.mem_keys.mpr ⟨p', hp ▸ hp', rfl⟩)

theorem slidesOf_insertSlide {s : Slide} {x : String} (h : x ≠ s.presentationId) :
    (db.apply (.insertSlide s)).slidesOf x = db.slidesOf x :=
  filter_insert_of_neg (by simpa using h.symm)

theorem tokensOf_insertShareToken {t : ShareToken} {x : String} (h : x ≠ t.presentationId) :
    (db.apply (.insertShareToken t)).tokensOf x = db.tokensOf x :=
  filter_insert_of_neg (by simpa using h.symm)

theorem slidesOf_deleteSlide {pid sid x : String} (h : x ≠ pid) :
    (db.apply (.deleteSlide pid sid)).slidesOf x = db.slidesOf x := by
  simp only [Db.slidesOf, Db.apply, Table.delete, List.filter_filter]
  refine List.filter_congr fun s _ => ?_
  by_cases hs : s.presentationId = x
  · simp [hs, h]
  · simp [hs]

theorem apply_respects {y : Write} (h : OwnWrite u db y) : Respects u db (db.apply y) := by
  cases y with
  | insertUser _ | patchUser _ _ _ | insertImportedPpt _ | patchTemplate _ _ _ => exact .of_eq rfl rfl rfl
  | insertPresentation p => exact .insertPresentation h
  | patchPresentation id at_ title => exact .patchPresentation h
  | deletePresentation id => exact .deletePresentation h
  | insertSlide s => exact .of_children h rfl (fun _ hx => slidesOf_insertSlide hx) fun _ _ => rfl
  | deleteSlide pid sid => exact .of_children h rfl (fun _ hx => slidesOf_deleteSlide hx) fun _ _ => rfl
  | insertShareToken t => exact .of_children h rfl (fun _ _ => rfl) fun _ hx => tokensOf_insertShareToken hx

theorem OwnId.respects {db' : Db} {id : String} (h : OwnId u db id) (hr : Respects u db db') : OwnId u db' id := by
  intro p' hp' hid
  rcases hr.created p' hp' with hkey | hu
  · obtain ⟨p, hp, hpid⟩ := Table.mem_keys.mp hkey
    rw [hr.userId p hp p' hp' hpid.symm]
    exact h p hp (hpid.trans hid)
  · exact hu

theorem OwnWrite.respects {db' : Db} {y : Write} (h : OwnWrite u db y)
    (hr : Respects u db db') : OwnWrite u db' y := by
  cases y with
  | insertUser _ | patchUser _ _ _ | insertImportedPpt _ | patchTemplate _ _ _ => trivial
  | insertPresentation p => exact h
  | patchPresentation _ _ _ | deletePresentation _ | deleteSlide _ _ | insertSlide _ | insertShareToken _ =>
    exact OwnId.respects h hr

theorem applyAll_respects {ws : List Write} : ∀ {db : Db}, (∀ y ∈ ws, OwnWrite u db y) →
    Respects u db (db.applyAll ws) := by
  induction ws with
  | nil => exact fun _ => .refl _ _
  | cons y ws ih =>
    intro db h
    have hy := apply_respects (h y List.mem_cons_self)
    exact hy.trans (ih fun y' hy' => (h y' (List.mem_cons_of_mem y hy')).respects hy)

end Apply

/-! ### What a request knows and holds back -/

/-- A change that a transaction may hold back: it is about presentations known to be the user's own. -/
def Pending (owned : Set String) : Write → Prop
  | .insertPresentation _ => False
  | .patchPresentation id _ _ | .deletePresentation id | .deleteSlide id _ => id ∈ owned
  | .insertSlide s => s.presentationId ∈ owned
  | .insertShareToken t => t.presentationId ∈ owned
  | .insertUser _ | .patchUser _ _ _ | .insertImportedPpt _ | .patchTemplate _ _ _ => True

section Pending
variable {u : Option String} {db : Db} {owned : Set String}

theorem Pending.mono {owned' : Set String} {y : Write} (h : Pending owned y) (hsub : owned ⊆ owned') :
    Pending owned' y := by
  cases y with
  | insertUser _ | patchUser _ _ _ | insertImportedPpt _ | patchTemplate _ _ _ => trivial
  | insertPresentation p => exact h
  | patchPresentation _ _ _ | deletePresentation _ | deleteSlide _ _ | insertSlide _ | insertShareToken _ =>
    exact hsub h

theorem Pending.ownWrite {y : Write} (h : Pending owned y)
    (hown : ∀ x ∈ owned, OwnId u db x) : OwnWrite u db y := by
  cases y with
  | insertUser _ | patchUser _ _ _ | insertImportedPpt _ | patchTemplate _ _ _ => trivial
  | insertPresentation p => exact h.elim
  | patchPresentation _ _ _ | deletePresentation _ | deleteSlide _ _ | insertSlide _ | insertShareToken _ =>
    exact hown _ h

end Pending

/-- A change creates a presentation only by inserting it. -/
theorem apply_keys {db : Db} {y : Write} {x : String} (hx : x ∈ (db.apply y).presentations.keys) :
    x ∈ db.presentations.keys ∨ ∃ p, y = .insertPresentation p ∧ p.id = x := by
  cases y with
  | insertPresentation p =>
    obtain ⟨p', hp', rfl⟩ := Table.mem_keys.mp hx
    rcases Table.mem_insert hp' with hp' | ⟨rfl, -⟩
    · exact Or.inl (Table.mem_keys.mpr ⟨p', hp', rfl⟩)
    · exact Or.inr ⟨p', rfl, rfl⟩
  | patchPresentation id at_ title =>
    rw [Db.apply, Table.modify_keys] at hx
    exact Or.inl hx
  | deletePresentation id =>
    obtain ⟨p, hp, rfl⟩ := Table.mem_keys.mp hx
    exact Or.inl (Table.mem_keys.mpr ⟨p, (Table.mem_delete.mp hp).1, rfl⟩)
  | insertUser _ | patchUser _ _ _ | insertImportedPpt _ | patchTemplate _ _ _ | deleteSlide _ _ | insertSlide _
  | insertShareToken _ => exact Or.inl hx

theorem applyAll_keys {ws : List Write} {x : String} :
    ∀ {db : Db}, x ∈ (db.applyAll ws).presentations.keys →
      x ∈ db.presentations.keys ∨ ∃ p, .insertPresentation p ∈ ws ∧ p.id = x := by
  induction ws with
  | nil => exact fun hx => Or.inl hx
  | cons y ws ih =>
    intro db hx
    rcases ih hx with hx | ⟨p, hp, hid⟩
    · rcases apply_keys hx with hx | ⟨p, rfl, hid⟩
      · exact Or.inl hx
      · exact Or.inr ⟨p, List.mem_cons_self, hid⟩
    · exact Or.inr ⟨p, List.mem_cons_of_mem _ hp, hid⟩

/-- What holds of a request of user `u` that has learned `m`, with connection `c`, over the store `s`. -/
structure SessionInv (u : Option String) (s : Store) (m : Rights) (c : Conn) : Prop where
  tx : c.tx.isSome = m.inTx
  owned : ∀ x ∈ m.owned, x ∈ s.issued ∧ OwnId u s.db x
  pending : ∀ y ∈ c.tx.getD [], Pending m.owned y

/-- A step of the store by user `u`. -/
structure Evolves (u : Option String) (s s' : Store) : Prop where
  respects : Respects u s.db s'.db
  issued : s.issued ⊆ s'.issued
  fresh : ∀ x ∈ s'.db.presentations.keys, x ∈ s.db.presentations.keys ∨ (x ∉ s.issued ∧ x ∈ s'.issued)

/-- Every presentation has an id that was issued. -/
def Store.Issued (s : Store) : Prop := ∀ x ∈ s.db.presentations.keys, x ∈ s.issued

theorem Evolves.refl (u : Option String) (s : Store) : Evolves u s s :=
  ⟨.refl u s.db, fun _ h => h, fun _ h => Or.inl h⟩

theorem Evolves.keepsIssued {u : Option String} {s s' : Store} (h : Evolves u s s')
    (hs : s.Issued) : s'.Issued := by
  intro x hx
  rcases h.fresh x hx with hx | ⟨-, hx⟩
  · exact h.issued (hs x hx)
  · exact hx

/-- A step of any user creates no presentation under an id that was issued before. -/
theorem OwnId.evolves {u u' : Option String} {s s' : Store} {x : String} (h : OwnId u s.db x) (hx : x ∈ s.issued)
    (hs : Evolves u' s s') : OwnId u s'.db x := by
  intro p' hp' hid
  rcases hs.fresh p'.id (Table.mem_keys.mpr ⟨p', hp', rfl⟩) with hkey | ⟨hnew, -⟩
  · obtain ⟨p, hp, hpid⟩ := Table.mem_keys.mp hkey
    rw [hs.respects.userId p hp p' hp' hpid.symm]
    exact h p hp (hpid.trans hid)
  · exact absurd (hid ▸ hx) hnew

theorem SessionInv.evolves {u u' : Option String} {s s' : Store} {m : Rights} {c : Conn} (h : SessionInv u s m c)
    (hs : Evolves u' s s') : SessionInv u s' m c where
  tx := h.tx
  pending := h.pending
  owned x hx := ⟨hs.issued (h.owned x hx).1, (h.owned x hx).2.evolves (h.owned x hx).1 hs⟩

/-! ### One call -/

section Call
variable {a : Scope} {s : Store} {m : Rights} {c : Conn} {q : Query}

/-- The changes of an allowed call: within what the request owns, or a new presentation of its user. -/
theorem issues_allowed {w : World} {y : Write} (hq : (ownership a).Allowed m q) (hy : Issues w q y) :
    Pending m.owned y ∨ (m.inTx = false ∧ ((∃ p, y = .insertPresentation p ∧
      a.user = some p.userId ∧ p.id = w.uuid 0) ∨
      ∃ t, y = .insertSlide t ∧ t.presentationId = w.uuid 0)) := by
  cases q with
  | userUpdate id patch => cases hy; exact Or.inl trivial
  | presentationCreate userId title slides =>
    obtain ⟨hu, htx⟩ := hq
    rcases hy with ⟨p, rfl, rfl, hid⟩ | ⟨t, rfl, hid⟩
    · exact Or.inr ⟨htx, Or.inl ⟨p, rfl, hu, hid⟩⟩
    · exact Or.inr ⟨htx, Or.inr ⟨t, rfl, hid⟩⟩
  | presentationUpdate id title => obtain ⟨_, rfl⟩ := hy; exact Or.inl hq
  | presentationDelete id => cases hy; exact Or.inl hq
  | slideDeleteMany id => obtain ⟨_, rfl⟩ := hy; exact Or.inl hq
  | slideCreateMany id data =>
    obtain ⟨t, rfl, rfl⟩ := hy
    exact Or.inl hq
  | shareTokenCreate id token email permission expiresAt =>
    obtain ⟨t, rfl, rfl⟩ := hy
    exact Or.inl hq
  | templateUpdate id name category description themeId => obtain ⟨_, rfl⟩ := hy; exact Or.inl trivial
  | importedPptCreate userId fileName fileUrl => obtain ⟨_, rfl⟩ := hy; exact Or.inl trivial
  | _ => exact hy.elim

theorem issues_ownWrite {w : World} {y : Write} (hs : s.Issued) (hinv : SessionInv a.user s m c) (hw : Fresh s w)
    (hq : (ownership a).Allowed m q) (hy : Issues w q y) : OwnWrite a.user s.db y := by
  rcases issues_allowed hq hy with hy | ⟨-, ⟨p, rfl, hu, -⟩ | ⟨t, rfl, hid⟩⟩
  · exact hy.ownWrite fun x hx => (hinv.owned x hx).2
  · exact hu
  · -- The id of the new presentation is stored nowhere yet.
    intro p hp hpid
    have : w.uuid 0 ∈ s.issued := hs _ (Table.mem_keys.mpr ⟨p, hp, hpid.trans hid⟩)
    exact absurd this (hw.2 0)

/-- A commit brings the changes that the transaction held back. -/
theorem SessionInv.commit {issued : Set String} (hinv : SessionInv a.user s m c) (hsub : s.issued ⊆ issued) :
    Evolves a.user s ⟨c.view s.db, issued⟩ where
  respects := applyAll_respects fun y hy => (hinv.pending y hy).ownWrite fun x hx => (hinv.owned x hx).2
  issued := hsub
  fresh x hx := by
    rcases applyAll_keys hx with hx | ⟨p, hp, -⟩
    · exact Or.inl hx
    · exact (hinv.pending _ hp).elim

/-- A statement outside a transaction commits at once. -/
theorem SessionInv.statement {w : World} (hs : s.Issued) (hinv : SessionInv a.user s m c) (hw : Fresh s w)
    (hq : (ownership a).Allowed m q) :
    Evolves a.user s ⟨s.db.applyAll (newWrites w s.db c q), s.issued ∪ Set.range w.uuid⟩ where
  respects := applyAll_respects fun y hy => issues_ownWrite hs hinv hw hq (newWrites_issues y hy)
  issued := Set.subset_union_left
  fresh x hx := by
    rcases applyAll_keys hx with hx | ⟨p, hp, rfl⟩
    · exact Or.inl hx
    · rcases issues_allowed hq (newWrites_issues _ hp) with h | ⟨-, ⟨p', hp', -, hid⟩ | ⟨t, ht, -⟩⟩
      · exact h.elim
      · cases hp'
        rw [hid]
        exact Or.inr ⟨hw.2 0, Or.inr ⟨0, rfl⟩⟩
      · cases ht

/-- What the request knows after an answer is true of the store after it. -/
theorem SessionInv.learned {w : World} {s' : Store} (hs : s.Issued) (hinv : SessionInv a.user s m c)
    (hev : Evolves a.user s s') {x : String} (hx : x ∈ ((ownership a).next m q (perform w s.db c q).1).owned) :
    x ∈ s'.issued ∧ OwnId a.user s'.db x := by
  rcases next_owned hx with hx | ⟨p, hp, rfl, hu⟩
  · exact (hinv.evolves hev).owned x hx
  · -- The call saw the committed state under the request's own changes, which create and give away nothing.
    have hview : Evolves a.user s ⟨c.view s.db, s.issued⟩ := hinv.commit fun _ h => h
    have hkey : p.id ∈ s.db.presentations.keys := by
      rcases hview.fresh p.id (Table.mem_keys.mpr ⟨p, hp, rfl⟩) with h | h
      · exact h
      · exact absurd h.2 h.1
    refine ⟨hev.issued (hs _ hkey), OwnId.respects (fun p₀ hp₀ hid => ?_) hev.respects⟩
    rw [← hview.respects.userId p₀ hp₀ p hp hid.symm]
    exact hu

/-- The transaction that an answered call leaves. -/
theorem SessionInv.held {w : World} (hinv : SessionInv a.user s m c) (hq : (ownership a).Allowed m q) :
    (perform w s.db c q).2.2.tx.isSome = ((ownership a).next m q (perform w s.db c q).1).inTx ∧
      ∀ y ∈ (perform w s.db c q).2.2.tx.getD [], Pending m.owned y := by
  by_cases hb : q = .begin
  · subst hb
    exact ⟨rfl, fun y hy => by cases hy⟩
  by_cases hc : q = .commit
  · subst hc
    exact ⟨rfl, fun y hy => by cases hy⟩
  by_cases hr : q = .rollback
  · subst hr
    exact ⟨rfl, fun y hy => by cases hy⟩
  have hin : ((ownership a).next m q (perform w s.db c q).1).inTx = m.inTx := next_inTx hb hc hr _
  rw [perform_statement hb hc hr, hin, ← hinv.tx]
  cases htx : c.tx with
  | none => exact ⟨rfl, fun y hy => by cases hy⟩
  | some ws =>
    refine ⟨rfl, fun y hy => ?_⟩
    rcases List.mem_append.mp hy with hy | hy
    · exact hinv.pending y (by rw [htx]; exact hy)
    · rcases issues_allowed hq (newWrites_issues y hy) with h | ⟨hout, -⟩
      · exact h
      · rw [← hinv.tx, htx] at hout
        cases hout

/-- A call of a request keeps what holds of it, and changes the store as its user may. -/
theorem Act.evolves {others : List Conn} {r : Except Err q.Answer} {s' : Store} {c' : Conn} (hs : s.Issued)
    (hinv : SessionInv a.user s m c) (hq : (ownership a).Allowed m q) (h : Act s others c q r s' c') :
    Evolves a.user s s' ∧ SessionInv a.user s' ((ownership a).next m q r) c' := by
  cases h with
  | failed =>
    have hnext : ((ownership a).next m q (.error .unavailable)).owned = m.owned := by cases q <;> rfl
    refine ⟨.refl a.user s, ?_, fun x hx => hinv.owned x (hnext ▸ hx), fun y hy => ?_⟩
    · cases q <;> first | exact hinv.tx | rfl
    · rw [hnext]
      cases q with
      | commit | rollback => cases hy
      | _ => exact hinv.pending y hy
  | answered w hw _ =>
    have hev : Evolves a.user s ⟨(perform w s.db c q).2.1, s.issued ∪ Set.range w.uuid⟩ := by
      by_cases hb : q = .begin
      · subst hb
        exact ⟨.refl a.user s.db, Set.subset_union_left, fun _ h => Or.inl h⟩
      by_cases hc : q = .commit
      · subst hc
        exact hinv.commit Set.subset_union_left
      by_cases hr : q = .rollback
      · subst hr
        exact ⟨.refl a.user s.db, Set.subset_union_left, fun _ h => Or.inl h⟩
      rw [perform_statement hb hc hr]
      cases htx : c.tx with
      | none => exact hinv.statement hs hw hq
      | some ws => exact ⟨.refl a.user s.db, Set.subset_union_left, fun _ h => Or.inl h⟩
    obtain ⟨htx, hpending⟩ := hinv.held (w := w) hq
    exact ⟨hev, htx, fun x hx => hinv.learned hs hev hx, fun y hy => (hpending y hy).mono (next_owned_subset _)⟩

end Call

/-! ### Every run -/

section Server
variable {env : Env} {c₀ c c' : Server} {es : List ServerEvent} {e : ServerEvent}

/-- The user whose request takes a step; a request that arrives does nothing yet. -/
def Server.actor (env : Env) (c : Server) : ServerEvent → Option String
  | .spawn _ => none
  | .act i _ | .stall i => (c.sessions[i]?).bind fun s => (s.tag.scope env).user

structure Server.Inv (env : Env) (c : Server) : Prop where
  issued : c.shared.Issued
  sessions : ∀ s ∈ c.sessions,
    SessionInv (s.tag.scope env).user c.shared ((ownership (s.tag.scope env)).after .none s.log) s.priv

theorem Server.Initial.inv (h : c.Initial) : c.Inv env where
  issued x hx := by
    obtain ⟨p, hp, rfl⟩ := Table.mem_keys.mp hx
    exact h.issued p hp
  sessions s hs := by
    rw [h.sessions] at hs
    cases hs

theorem obeys_of_run (h₀ : c₀.Initial) (run : ServerRun env c₀ es c) :
    ∀ s ∈ c.sessions, (ownership (s.tag.scope env)).Obeys
      ((ownership (s.tag.scope env)).after .none s.log) s.prog := by
  refine Run.obeys (fun req => ownership (req.scope env)) (fun _ => .none) run obeys_handle ?_
  intro s hs
  rw [h₀.sessions] at hs
  cases hs

theorem Server.Inv.step (inv : c.Inv env)
    (hobeys : ∀ s ∈ c.sessions,
      (ownership (s.tag.scope env)).Obeys ((ownership (s.tag.scope env)).after .none s.log) s.prog)
    (h : ServerStep env c e c') : Evolves (c.actor env e) c.shared c'.shared ∧ c'.Inv env := by
  cases h with
  | spawn tag =>
    refine ⟨.refl _ _, inv.issued, fun s hs => ?_⟩
    rcases List.mem_append.mp hs with hs | hs
    · exact inv.sessions s hs
    · rw [List.mem_singleton.mp hs]
      exact ⟨rfl, fun x hx => hx.elim, fun y hy => by cases hy⟩
  | @act i s q k r σ' π' hs hp ha =>
    have hmem := List.mem_of_getElem? hs
    have hq := hobeys s hmem
    rw [hp] at hq
    obtain ⟨hev, hself⟩ := ha.evolves inv.issued (inv.sessions s hmem) hq.1
    have hactor : c.actor env (.act i ⟨q, r⟩) = (s.tag.scope env).user := by simp [Server.actor, hs]
    rw [hactor]
    refine ⟨hev, hev.keepsIssued inv.issued, fun s' hs' => ?_⟩
    rcases List.mem_or_eq_of_mem_set hs' with hs' | rfl
    · exact (inv.sessions s' hs').evolves hev
    · rw [Monitor.after_append]
      exact hself
  | @stall i s q k π' hs hp ha =>
    refine ⟨.refl _ _, inv.issued, fun s' hs' => ?_⟩
    rcases List.mem_or_eq_of_mem_set hs' with hs' | rfl
    · exact inv.sessions s' hs'
    · have hself := inv.sessions s (List.mem_of_getElem? hs)
      obtain ⟨-, -, rfl⟩ := ha
      exact ⟨hself.tx, hself.owned, hself.pending⟩

theorem ServerRun.inv (h₀ : c₀.Initial) (run : ServerRun env c₀ es c) : c.Inv env := by
  induction run with
  | nil => exact h₀.inv
  | snoc run step ih => exact (ih.step (obeys_of_run h₀ run) step).2

/-- Whoever owns an id that was issued owns it from then on. -/
theorem OwnId.run {u : Option String} {x : String} {es' : List ServerEvent} (h₀ : c₀.Initial)
    (run : ServerRun env c₀ es c) (run' : ServerRun env c es' c') (hx : x ∈ c.shared.issued)
    (h : OwnId u c.shared.db x) : x ∈ c'.shared.issued ∧ OwnId u c'.shared.db x := by
  induction run' with
  | nil => exact ⟨hx, h⟩
  | snoc run' step ih =>
    have run₁ := run.trans run'
    obtain ⟨hev, -⟩ := (ServerRun.inv h₀ run₁).step (obeys_of_run h₀ run₁) step
    exact ⟨hev.issued ih.1, ih.2.evolves ih.1 hev⟩

/-- In every run, a step that touches a presentation is its owner's, what a step creates belongs to the
    user whose request takes it, and a presentation keeps its owner for good. -/
theorem only_owner_writes {es' : List ServerEvent} {c'' : Server} (h₀ : c₀.Initial) (run : ServerRun env c₀ es c)
    (step : ServerStep env c e c') (later : ServerRun env c' es' c'') :
    (∀ p ∈ c.shared.db.presentations.rows, ¬ Untouched p c.shared.db c'.shared.db →
      c.actor env e = some p.userId) ∧
    (∀ p ∈ c'.shared.db.presentations.rows, p.id ∉ c.shared.db.presentations.keys →
      c.actor env e = some p.userId) ∧
    (∀ p ∈ c'.shared.db.presentations.rows, ∀ p' ∈ c''.shared.db.presentations.rows, p'.id = p.id →
      p'.userId = p.userId) := by
  obtain ⟨hev, inv'⟩ := (ServerRun.inv h₀ run).step (obeys_of_run h₀ run) step
  refine ⟨fun p hp htouched => ?_, fun p hp hnew => ?_, fun p hp p' hp' hid => ?_⟩
  · by_contra hne
    exact htouched (hev.respects.foreign p hp hne)
  · rcases hev.respects.created p hp with hkey | hu
    · exact absurd hkey hnew
    · exact hu
  · have hissued := inv'.issued _ (Table.mem_keys.mpr ⟨p, hp, rfl⟩)
    have howner : OwnId (some p.userId) c'.shared.db p.id := fun r hr hrid => by rw [Table.eq_of_key hr hp hrid]
    obtain ⟨-, h⟩ := howner.run h₀ (.snoc run step) later hissued
    exact (Option.some.inj (h p' hp' hid)).symm

end Server

/-- A database with one template, and a request of `alice` that has read it. -/
def templateServer : Server :=
  ⟨⟨{ Db.empty with
      users := ⟨[account "alice" 0], by decide⟩
      templates := pitchTemplates }, ∅⟩, []⟩

def templateMoves : List Move :=
  [.arrive ⟨some "Bearer alice", .useTemplate (some (.obj [("templateId", .str "t")]))⟩, .answer 0]

theorem template_deck_is_alices :
    ∃ es e c c', ServerRun office templateServer es c ∧ ServerStep office c e c' ∧
      c.shared.db.presentations.rows = [] ∧
      c'.shared.db.presentations.rows = [⟨issue 2 0, "alice", "Pitch", 0, 0⟩] ∧
      c.actor office e = some "alice" := by
  have init : templateServer.Initial := ⟨rfl, fun p hp => by cases hp⟩
  have hbefore : (templateServer.play office 0 0 templateMoves).shared.db.presentations.rows = [] := by
    decide +kernel
  have hafter : ((templateServer.play office 0 0 templateMoves).move office 0 2
    (.answer 0)).shared.db.presentations.rows =
      [⟨issue 2 0, "alice", "Pitch", 0, 0⟩] := by decide +kernel
  have hplay : templateServer.playable (fun _ _ => true) office 0 0 templateMoves = true := by decide +kernel
  have hfree : (templateServer.play office 0 0 templateMoves).free 0 2 (.answer 0) = true := by decide +kernel
  have hissued : Unissued 0 templateServer.shared.issued := fun _ _ _ h => h
  obtain ⟨run, hn⟩ := Server.play_run office hissued hplay
  rcases Server.move_step office hn hfree with ⟨-, hsame⟩ | ⟨e, -, step⟩
  · have := hafter.symm.trans ((congrArg (·.shared.db.presentations.rows) hsame).trans hbefore)
    cases this
  · refine ⟨_, e, _, _, run.run, step, hbefore, hafter, ?_⟩
    refine (only_owner_writes init run.run step .nil).2.1 _ (hafter ▸ List.mem_singleton_self _) ?_
    rw [Table.mem_keys, hbefore]
    rintro ⟨p, hp, -⟩
    cases hp

end Slideo
