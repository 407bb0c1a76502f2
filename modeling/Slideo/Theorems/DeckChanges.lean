import Slideo.Lib.Atomic
import Slideo.Theorems.Content

/-! The decks of the database as one object with four operations, and the changes of rows behind them: a
    deck comes, is saved, goes, or is shared. Each change of rows is the operation on its deck, and leaves
    every other deck alone. -/

namespace Slideo
open Js Interleave

/-! ### The shelf -/

/-- What a share link says. -/
structure Grant where
  token : String
  recipientEmail : String
  permission : String
  expiresAt : Time

/-- A deck as others see it. -/
structure Entry where
  owner : String
  content : Content
  links : Multiset Grant

/-- Decks under their ids, and the ids that were given so far. -/
structure Shelf where
  decks : String → Option Entry
  used : Set String

inductive DeckOp where
  | create (id owner : String) (content : Content)
  | save (id owner : String) (save : Save)
  | remove (id owner : String)
  | share (id owner : String) (grant : Grant)

def DeckOp.id : DeckOp → String
  | .create id _ _ | .save id _ _ | .remove id _ | .share id _ _ => id

/-- An operation of the owner on a deck that exists. -/
def Shelf.onDeck (s : Shelf) (id owner : String) (f : Entry → Option (Option Entry)) : Option Shelf :=
  (s.decks id).bind fun e =>
    if e.owner = owner then (f e).map fun e' => { s with decks := Function.update s.decks id e' } else none

open Classical in
/-- A deck gets a new id. Only its owner saves, removes or shares it, and a shared deck is not removed. -/
noncomputable def shelf : Object Shelf DeckOp where
  apply s
    | .create id owner content =>
      if id ∈ s.used then none else some ⟨Function.update s.decks id (some ⟨owner, content, 0⟩), insert id s.used⟩
    | .save id owner save => s.onDeck id owner fun e => some (some { e with content := save.apply e.content })
    | .remove id owner => s.onDeck id owner fun e => if e.links = 0 then some none else none
    | .share id owner grant => s.onDeck id owner fun e => some (some { e with links := grant ::ₘ e.links })

section Shelf
variable {s s' : Shelf} {id owner : String} {f : Entry → Option (Option Entry)}

theorem Shelf.onDeck_eq_some : s.onDeck id owner f = some s' ↔
    ∃ e e', s.decks id = some e ∧ e.owner = owner ∧ f e = some e' ∧
    s' = { s with decks := Function.update s.decks id e' } := by
  unfold Shelf.onDeck
  cases he : s.decks id with
  | none => simp
  | some e =>
    rw [Option.bind_some]
    by_cases howner : e.owner = owner
    · rw [if_pos howner]
      cases hf : f e with
      | none => simp [hf]
      | some e' => simp [howner, hf, eq_comm]
    · rw [if_neg howner]
      simp [howner]

/-- What an operation on a deck that exists does to the others. -/
theorem shelf_inv {o : DeckOp} (h : shelf.apply s o = some s') :
    (∃ owner content, o = .create o.id owner content ∧ o.id ∉ s.used ∧ s'.used = insert o.id s.used ∧
        s'.decks = Function.update s.decks o.id (some ⟨owner, content, 0⟩)) ∨
      ((s.decks o.id).isSome = true ∧ s'.used = s.used ∧ ∃ e', s'.decks = Function.update s.decks o.id e') := by
  cases o with
  | create id owner content =>
    simp only [shelf] at h
    split at h
    · cases h
    · rename_i hnew
      cases h
      exact Or.inl ⟨owner, content, rfl, hnew, rfl, rfl⟩
  | save id owner save =>
    obtain ⟨e, e', he, -, -, rfl⟩ := Shelf.onDeck_eq_some.mp h
    exact Or.inr ⟨by simp [DeckOp.id, he], rfl, e', rfl⟩
  | remove id owner =>
    obtain ⟨e, e', he, -, -, rfl⟩ := Shelf.onDeck_eq_some.mp h
    exact Or.inr ⟨by simp [DeckOp.id, he], rfl, e', rfl⟩
  | share id owner grant =>
    obtain ⟨e, e', he, -, -, rfl⟩ := Shelf.onDeck_eq_some.mp h
    exact Or.inr ⟨by simp [DeckOp.id, he], rfl, e', rfl⟩

/-- A deck that is gone stays away, and nothing is done to it any more. -/
theorem shelf_gone {o : DeckOp} (hgone : id ∈ s.used ∧ s.decks id = none) (h : shelf.apply s o = some s') :
    (id ∈ s'.used ∧ s'.decks id = none) ∧ o.id ≠ id := by
  rcases shelf_inv h with ⟨owner, content, -, hnew, hused, hdecks⟩ | ⟨hsome, hused, e', hdecks⟩
  · have hne : o.id ≠ id := fun h => hnew (h ▸ hgone.1)
    rw [hused, hdecks, Function.update_of_ne hne.symm]
    exact ⟨⟨Set.mem_insert_of_mem _ hgone.1, hgone.2⟩, hne⟩
  · have hne : o.id ≠ id := by
      intro h
      rw [h, hgone.2] at hsome
      cases hsome
    rw [hused, hdecks, Function.update_of_ne hne.symm]
    exact ⟨hgone, hne⟩

end Shelf

/-! ### The decks of the database -/

def ShareToken.grant (t : ShareToken) : Grant := ⟨t.token, t.recipientEmail, t.permission, t.expiresAt⟩

def Db.entry? (db : Db) (id : String) : Option Entry :=
  (db.presentations.find? id).map fun p =>
    ⟨p.userId, ⟨p.title, ↑((db.slidesOf id).map Slide.body)⟩, ↑((db.tokensOf id).map ShareToken.grant)⟩

/-- The shelf shows the decks of the store, and every id that it has given was issued. -/
structure Shows (s : Shelf) (st : Store) : Prop where
  decks : ∀ id, s.decks id = st.db.entry? id
  used : s.used ⊆ st.issued
  given : ∀ id ∈ st.db.presentations.keys, id ∈ s.used

/-! ### Changes of rows -/

inductive Change where
  | create (p : Presentation) (rows : List Slide)
  | save (id : String) (at_ : Time) (title : Option String) (rows : List Slide)
  | remove (id : String)
  | share (t : ShareToken)

namespace Change

/-- The deck that changes. -/
def id : Change → String
  | .create p _ => p.id
  | .save id _ _ _ | .remove id => id
  | .share t => t.presentationId

/-- The rows after a change. -/
def Does (db db' : Db) : Change → Prop
  | .create p rows => p.id ∉ db.presentations.keys ∧ db.slidesOf p.id = [] ∧ db.tokensOf p.id = [] ∧
      (∀ s ∈ rows, s.presentationId = p.id) ∧ db'.presentations.rows = db.presentations.rows ++ [p] ∧
      db'.slides.rows = db.slides.rows ++ rows ∧ db'.shareTokens = db.shareTokens
  | .save id at_ title rows => id ∈ db.presentations.keys ∧ (∀ s ∈ rows, s.presentationId = id) ∧
      db'.presentations = db.presentations.modify id (Presentation.patch at_ title)
        (Presentation.patch_id at_ title) ∧
      db'.slides.rows = db.slides.rows.filter (!·.presentationId == id) ++ rows ∧ db'.shareTokens = db.shareTokens
  | .remove id => id ∈ db.presentations.keys ∧ db.tokensOf id = [] ∧
      db'.presentations = db.presentations.delete (·.id == id) ∧
      db'.slides = db.slides.delete (·.presentationId == id) ∧ db'.shareTokens = db.shareTokens
  | .share t => t.presentationId ∈ db.presentations.keys ∧ db'.presentations = db.presentations ∧
      db'.slides = db.slides ∧ db'.shareTokens.rows = db.shareTokens.rows ++ [t]

/-- The change as an operation of a user. -/
def op (user : String) : Change → DeckOp
  | .create p rows => .create p.id p.userId ⟨p.title, ↑(rows.map Slide.body)⟩
  | .save id _ title rows => .save id user ⟨title, rows.map Slide.body⟩
  | .remove id => .remove id user
  | .share t => .share t.presentationId user t.grant

@[simp] theorem op_id (user : String) (ch : Change) : (ch.op user).id = ch.id := by
  cases ch <;> rfl

section Does
variable {db db' : Db} {ch : Change} {x : String}

theorem find?_append_ne {p : Presentation} (h : x ≠ p.id) :
    (db.presentations.rows ++ [p]).find? (·.id == x) = db.presentations.find? x := by
  have hp : (p.id == x) = false := by simpa using h.symm
  rw [List.find?_append, Table.find?]
  simp [hp]

/-- Rows of one deck are none of another's. -/
theorem filter_other {rows : List Slide} {id : String} (hrows : ∀ s ∈ rows, s.presentationId = id) (hx : x ≠ id) :
    rows.filter (·.presentationId == x) = [] :=
  List.filter_eq_nil_iff.mpr fun s hs => by simpa [hrows s hs] using hx.symm

theorem filter_own {rows : List Slide} {id : String} (hrows : ∀ s ∈ rows, s.presentationId = id) :
    rows.filter (·.presentationId == id) = rows :=
  List.filter_eq_self.mpr fun s hs => by simpa using hrows s hs

/-- A change leaves the other decks alone. -/
theorem Does.others (h : ch.Does db db') (hx : x ≠ ch.id) :
    db'.presentations.find? x = db.presentations.find? x ∧ db'.slidesOf x = db.slidesOf x ∧
    db'.tokensOf x = db.tokensOf x := by
  cases ch with
  | create p rows =>
    obtain ⟨-, -, -, hrows, hp, hs, ht⟩ := h
    refine ⟨?_, ?_, by rw [Db.tokensOf, ht]; rfl⟩
    · rw [Table.find?, hp]
      exact find?_append_ne hx
    · rw [Db.slidesOf, hs, List.filter_append, filter_other hrows hx, List.append_nil]
      rfl
  | save id at_ title rows =>
    obtain ⟨-, hrows, hp, hs, ht⟩ := h
    change x ≠ id at hx
    refine ⟨?_, ?_, by rw [Db.tokensOf, ht]; rfl⟩
    · rw [hp, Table.find?_modify]
      cases hfind : db.presentations.find? x with
      | none => rfl
      | some p => rw [Option.map_some, if_neg fun h => hx ((Table.key_of_find? hfind).symm.trans h)]
    · have hkept := @slidesOf_cleared db id x
      rw [if_neg hx] at hkept
      rw [Db.slidesOf, hs, List.filter_append, filter_other hrows hx, List.append_nil]
      exact hkept
  | remove id =>
    obtain ⟨-, -, hp, hs, ht⟩ := h
    change x ≠ id at hx
    refine ⟨by rw [hp, Table.find?_delete_key, if_neg hx], ?_, by rw [Db.tokensOf, ht]; rfl⟩
    have hkept := @slidesOf_cleared db id x
    rw [if_neg hx] at hkept
    rw [Db.slidesOf, hs]
    exact hkept
  | share t =>
    obtain ⟨-, hp, hs, ht⟩ := h
    change x ≠ t.presentationId at hx
    refine ⟨by rw [hp], by rw [Db.slidesOf, hs]; rfl, ?_⟩
    have hnone : [t].filter (·.presentationId == x) = [] := by simpa using hx.symm
    rw [Db.tokensOf, ht, List.filter_append, hnone, List.append_nil]
    rfl

/-- The deck that changes, afterwards. -/
theorem Does.own (h : ch.Does db db') : db'.entry? ch.id = match ch with
    | .create p rows => some ⟨p.userId, ⟨p.title, ↑(rows.map Slide.body)⟩, 0⟩
    | .save id _ title rows => (db.entry? id).map fun e =>
      { e with content := (⟨title, rows.map Slide.body⟩ : Save).apply e.content }
    | .remove _ => none
    | .share t => (db.entry? t.presentationId).map fun e => { e with links := t.grant ::ₘ e.links } := by
  cases ch with
  | create p rows =>
    obtain ⟨hp₀, hs₀, ht₀, hrows, hp, hs, ht⟩ := h
    have hfind : db'.presentations.find? p.id = some p :=
      Table.find?_of_mem (hp ▸ List.mem_append_right _ (List.mem_singleton_self p))
    have hslides : db'.slidesOf p.id = rows := by
      rw [Db.slidesOf, hs, List.filter_append, filter_own hrows]
      exact (congrArg (· ++ rows) hs₀)
    have htokens : db'.tokensOf p.id = [] := by rw [Db.tokensOf, ht]; exact ht₀
    simp [Change.id, Db.entry?, hfind, hslides, htokens]
  | save id at_ title rows =>
    obtain ⟨-, hrows, hp, hs, ht⟩ := h
    have hslides : db'.slidesOf id = rows := by
      have hgone := @slidesOf_cleared db id id
      rw [if_pos rfl] at hgone
      rw [Db.slidesOf, hs, List.filter_append, filter_own hrows]
      exact congrArg (· ++ rows) hgone
    have htokens : db'.tokensOf id = db.tokensOf id := by rw [Db.tokensOf, ht]; rfl
    simp only [Change.id, Db.entry?, hp, hslides, htokens, Table.find?_modify, Option.map_map]
    cases hfind : db.presentations.find? id with
    | none => rfl
    | some p => simp [Table.key_of_find? hfind, Presentation.patch, Save.apply]
  | remove id =>
    obtain ⟨-, -, hp, -, -⟩ := h
    simp [Change.id, Db.entry?, hp, Table.find?_delete_key]
  | share t =>
    obtain ⟨-, hp, hs, ht⟩ := h
    have hslides : db'.slidesOf t.presentationId = db.slidesOf t.presentationId := by rw [Db.slidesOf, hs]; rfl
    have htokens : db'.tokensOf t.presentationId = db.tokensOf t.presentationId ++ [t] := by
      have hone : [t].filter (·.presentationId == t.presentationId) = [t] := by simp
      rw [Db.tokensOf, ht, List.filter_append, hone]
      rfl
    simp only [Change.id, Db.entry?, hp, hslides, htokens, Option.map_map]
    cases db.presentations.find? t.presentationId with
    | none => rfl
    | some p =>
      have hlinks : (↑((db.tokensOf t.presentationId ++ [t]).map ShareToken.grant) : Multiset Grant) =
          t.grant ::ₘ ↑((db.tokensOf t.presentationId).map ShareToken.grant) := by
        rw [List.map_append, List.map_singleton, ← Multiset.coe_add, Multiset.coe_singleton,
          Multiset.add_comm, Multiset.singleton_add]
      rw [Option.map_some, Option.map_some, hlinks]
      rfl

theorem Does.entry?_others (h : ch.Does db db') (hx : x ≠ ch.id) : db'.entry? x = db.entry? x := by
  obtain ⟨hp, hs, ht⟩ := h.others hx
  rw [Db.entry?, Db.entry?, hp, hs, ht]

/-- The slides and tokens of a change refer to a presentation that is there. -/
theorem Does.linked (h : ch.Does db db') (hlinked : db.Linked) : db'.Linked := by
  cases ch with
  | create p rows =>
    obtain ⟨-, -, -, hrows, hp, hs, ht⟩ := h
    have hkeys : db'.presentations.keys = db.presentations.keys ++ [p.id] := by
      rw [Table.keys, hp, List.map_append]
      rfl
    constructor
    · intro s hmem
      rw [hkeys, List.mem_append]
      rcases List.mem_append.mp (hs ▸ hmem) with hmem | hmem
      · exact Or.inl (hlinked.slides s hmem)
      · exact Or.inr (List.mem_singleton.mpr (hrows s hmem))
    · intro t hmem
      rw [hkeys, List.mem_append]
      exact Or.inl (hlinked.shareTokens t (ht ▸ hmem))
  | save id at_ title rows =>
    obtain ⟨hid, hrows, hp, hs, ht⟩ := h
    constructor
    · intro s hmem
      rw [hp, Table.modify_keys]
      rcases List.mem_append.mp (hs ▸ hmem) with hmem | hmem
      · exact hlinked.slides s (List.mem_filter.mp hmem).1
      · rw [hrows s hmem]
        exact hid
    · intro t hmem
      rw [hp, Table.modify_keys]
      exact hlinked.shareTokens t (ht ▸ hmem)
  | remove id =>
    obtain ⟨-, htokens, hp, hs, ht⟩ := h
    have hkept : ∀ x ∈ db.presentations.keys, x ≠ id → x ∈ db'.presentations.keys := by
      intro x hx hne
      obtain ⟨p, hp', rfl⟩ := Table.mem_keys.mp hx
      rw [hp]
      exact Table.mem_keys.mpr ⟨p, Table.mem_delete.mpr ⟨hp', by simpa using hne⟩, rfl⟩
    constructor
    · intro s hmem
      rw [hs] at hmem
      obtain ⟨hmem, hne⟩ := Table.mem_delete.mp hmem
      exact hkept _ (hlinked.slides s hmem) (by simpa using hne)
    · intro t hmem
      rw [ht] at hmem
      refine hkept _ (hlinked.shareTokens t hmem) fun hid => ?_
      have hnone : t ∈ db.tokensOf id := List.mem_filter.mpr ⟨hmem, by simpa using hid⟩
      rw [htokens] at hnone
      cases hnone
  | share t =>
    obtain ⟨hid, hp, hs, ht⟩ := h
    constructor
    · intro s hmem
      rw [hp]
      exact hlinked.slides s (hs ▸ hmem)
    · intro t' hmem
      rw [hp]
      rcases List.mem_append.mp (ht ▸ hmem) with hmem | hmem
      · exact hlinked.shareTokens t' hmem
      · rw [List.mem_singleton.mp hmem]
        exact hid

/-- No change but a creation brings a new presentation. -/
theorem Does.keys (h : ch.Does db db') (hx : x ∈ db'.presentations.keys) :
    x ∈ db.presentations.keys ∨ ∃ p rows, ch = .create p rows ∧ p.id = x := by
  by_cases hid : x = ch.id
  · cases ch with
    | create p rows => exact Or.inr ⟨p, rows, rfl, hid.symm⟩
    | save id at_ title rows => exact Or.inl (hid ▸ h.1)
    | remove id =>
      obtain ⟨-, -, hp, -, -⟩ := h
      obtain ⟨p, hmem, rfl⟩ := Table.mem_keys.mp hx
      rw [hp] at hmem
      exact Or.inl (Table.mem_keys.mpr ⟨p, (Table.mem_delete.mp hmem).1, rfl⟩)
    | share t => exact Or.inl (hid ▸ h.1)
  · obtain ⟨hfind, -, -⟩ := h.others hid
    obtain ⟨p, hmem, rfl⟩ := Table.mem_keys.mp hx
    rw [Table.find?_of_mem hmem] at hfind
    exact Or.inl (Table.mem_keys.mpr ⟨p, Table.mem_of_find? hfind.symm, rfl⟩)

end Does

end Change

/-! ### The writes of a change -/

section Writes
variable {w : World} {db : Db} {id : String} {ws : List Write}

/-- New slides with new ids come last. -/
theorem rows_insertSlides {rows : List Slide} : ∀ {db : Db}, (rows.map (·.id)).Nodup →
    (∀ s ∈ rows, s.id ∉ db.slides.keys) →
    (db.applyAll (rows.map .insertSlide)).slides.rows = db.slides.rows ++ rows := by
  induction rows with
  | nil => exact fun _ _ => (List.append_nil _).symm
  | cons s rows ih =>
    intro db hnodup hnew
    obtain ⟨hs, hnodup⟩ := List.nodup_cons.mp hnodup
    have hrows : (db.apply (.insertSlide s)).slides.rows = db.slides.rows ++ [s] :=
      Table.insert_rows (hnew s List.mem_cons_self)
    rw [List.map_cons, Db.applyAll_cons, ih hnodup fun x hx hkey => ?_, hrows, List.append_assoc]
    · rfl
    rw [Table.keys, hrows, List.map_append] at hkey
    rcases List.mem_append.mp hkey with hkey | hkey
    · exact hnew x (List.mem_cons_of_mem s hx) hkey
    · rw [List.map_singleton, List.mem_singleton] at hkey
      exact hs (List.mem_map.mpr ⟨x, hx, hkey⟩)

/-- Deleting all slides of a deck one by one. -/
theorem delete_all {ss : List Slide} (hall : ∀ s ∈ db.slidesOf id, ∃ x ∈ ss, x.id = s.id) :
    (db.slides.delete fun s => s.presentationId == id && ss.any (·.id == s.id)) =
      db.slides.delete (·.presentationId == id) := by
  refine Table.ext (List.filter_congr fun s hs => ?_)
  by_cases hid : s.presentationId = id
  · obtain ⟨x, hx, hxs⟩ := hall s (List.mem_filter.mpr ⟨hs, by simpa using hid⟩)
    have hany : ss.any (·.id == s.id) = true := List.any_eq_true.mpr ⟨x, hx, by simpa using hxs⟩
    simp [hany]
  · simp [hid]

theorem does_save {at_ : Time} {title : Option String} {ss rows : List Slide} (hid : id ∈ db.presentations.keys)
    (hall : ∀ s ∈ db.slidesOf id, ∃ x ∈ ss, x.id = s.id) (hrows : ∀ s ∈ rows, s.presentationId = id)
    (hnodup : (rows.map (·.id)).Nodup) (hnew : ∀ s ∈ rows, s.id ∉ db.slides.keys) :
    (Change.save id at_ title rows).Does db (db.applyAll
      (.patchPresentation id at_ title :: (ss.map (.deleteSlide id ·.id) ++ rows.map .insertSlide))) := by
  rw [Db.applyAll_cons, Db.applyAll_append, applyAll_deleteSlides]
  have hslides : (db.apply (.patchPresentation id at_ title)).slides = db.slides := rfl
  rw [hslides, delete_all hall]
  refine ⟨hid, hrows, by rw [applyAll_insertSlides]; rfl, ?_, by rw [applyAll_insertSlides]; rfl⟩
  refine rows_insertSlides hnodup fun s hs hkey => hnew s hs ?_
  obtain ⟨x, hx, hxs⟩ := Table.mem_keys.mp hkey
  exact Table.mem_keys.mpr ⟨x, (Table.mem_delete.mp hx).1, hxs⟩

theorem does_remove {ss : List Slide} (hid : id ∈ db.presentations.keys)
    (hall : ∀ s ∈ db.slidesOf id, ∃ x ∈ ss, x.id = s.id) (htokens : db.tokensOf id = []) :
    (Change.remove id).Does db (db.applyAll (ss.map (.deleteSlide id ·.id) ++ [.deletePresentation id])) := by
  rw [Db.applyAll_append, applyAll_deleteSlides, delete_all hall]
  exact ⟨hid, htokens, rfl, rfl, rfl⟩

theorem does_create {userId : String} {title : Val} {slides : List SlideData} {deck : Deck} (hlinked : db.Linked)
    (h : createDeck w db userId title slides = .ok (deck, ws)) :
    (Change.create deck.row deck.slides).Does db (db.applyAll ws) := by
  obtain ⟨hid, -, hp⟩ := presentations_createDeck h
  obtain ⟨t, bodies, -, -, -, -, hrow, hslides, ⟨hnodup, hnew⟩, rfl⟩ := createDeck_ok h
  refine ⟨hid, ?_, ?_, fun s hs => ?_, hp, ?_, by rw [Db.applyAll_cons, applyAll_insertSlides]; rfl⟩
  · refine List.filter_eq_nil_iff.mpr fun s hs heq => hid ?_
    rw [← beq_iff_eq.mp heq]
    exact hlinked.slides s hs
  · refine List.filter_eq_nil_iff.mpr fun t ht heq => hid ?_
    rw [← beq_iff_eq.mp heq]
    exact hlinked.shareTokens t ht
  · rw [hslides] at hs
    rw [(mem_slideRows hs).1, hrow]
  · rw [Db.applyAll_cons]
    exact rows_insertSlides hnodup hnew

theorem does_share {t : ShareToken} (hid : t.presentationId ∈ db.presentations.keys)
    (hkey : t.id ∉ db.shareTokens.keys) :
    (Change.share t).Does db (db.applyAll [.insertShareToken t]) := ⟨hid, rfl, rfl, Table.insert_rows hkey⟩

end Writes

/-! ### Changes perform operations -/

/-- A change of rows is its operation on the shelf, if the deck is the user's. -/
theorem Change.Does.performs {s : Shelf} {st st' : Store} {ch : Change} {user : String} (h : ch.Does st.db st'.db)
    (hs : Shows s st) (hissued : st.issued ⊆ st'.issued)
    (hnew : ∀ p rows, ch = .create p rows → p.id ∉ st.issued ∧ p.id ∈ st'.issued)
    (howner : ∀ p ∈ st.db.presentations.rows, p.id = ch.id → p.userId = user) :
    ∃ s', shelf.apply s (ch.op user) = some s' ∧ Shows s' st' := by
  -- the other decks are as before, and the own one is what the operation makes of it
  have hdecks : ∀ e', st'.db.entry? ch.id = e' → ∀ x, Function.update s.decks ch.id e' x = st'.db.entry? x := by
    intro e' he' x
    by_cases hx : x = ch.id
    · rw [hx, Function.update_self, he']
    · rw [Function.update_of_ne hx, hs.decks, h.entry?_others hx]
  have hown := h.own
  have hgiven : ∀ x ∈ st'.db.presentations.keys, x ∈ s.used ∨
    ∃ p rows, ch = .create p rows ∧ p.id = x := fun x hx =>
    (h.keys hx).imp_left (hs.given x)
  have hentry : ∀ {p : Presentation}, st.db.presentations.find? ch.id = some p → p.userId = user := fun hp =>
    howner _ (Table.mem_of_find? hp) (Table.key_of_find? hp)
  -- the operations on a deck that exists
  have hchange : ∀ {f : Entry → Option (Option Entry)} {e' : Option Entry}, (∀ p rows, ch ≠ .create p rows) →
      ch.id ∈ st.db.presentations.keys → (∀ e, st.db.entry? ch.id = some e → f e = some e') →
        st'.db.entry? ch.id = e' →
      ∃ s', s.onDeck ch.id user f = some s' ∧ Shows s' st' := by
    intro f e' hold hid hf he'
    obtain ⟨p, hp⟩ := Option.ne_none_iff_exists'.mp fun h => Table.find?_eq_none.mp h hid
    obtain ⟨e, he⟩ : ∃ e, st.db.entry? ch.id = some e := ⟨_, by rw [Db.entry?, hp]; rfl⟩
    have heowner : e.owner = user := by
      rw [Db.entry?, hp] at he
      cases he
      exact hentry hp
    refine ⟨_, Shelf.onDeck_eq_some.mpr ⟨e, e', by rw [hs.decks, he], heowner, hf e he, rfl⟩, hdecks e' he',
      fun x hx => hissued (hs.used hx), fun x hx => ?_⟩
    rcases hgiven x hx with hx | ⟨p, rows, hch, -⟩
    · exact hx
    · exact absurd hch (hold p rows)
  cases ch with
  | create p rows =>
    obtain ⟨hfresh, hgot⟩ := hnew p rows rfl
    have hunused : p.id ∉ s.used := fun h => hfresh (hs.used h)
    refine ⟨⟨Function.update s.decks p.id (some ⟨p.userId, ⟨p.title, ↑(rows.map Slide.body)⟩, 0⟩),
      insert p.id s.used⟩, if_neg hunused, hdecks _ hown, ?_, fun x hx => ?_⟩
    · rintro x (rfl | hx)
      · exact hgot
      · exact hissued (hs.used hx)
    · rcases hgiven x hx with hx | ⟨p', rows', hch, rfl⟩
      · exact Set.mem_insert_of_mem _ hx
      · cases hch
        exact Set.mem_insert _ _
  | save id at_ title rows =>
    obtain ⟨e, he⟩ : ∃ e, st.db.entry? id = some e := by
      obtain ⟨p, hp⟩ := Option.ne_none_iff_exists'.mp fun hn => Table.find?_eq_none.mp hn h.1
      exact ⟨_, by rw [Db.entry?, hp]; rfl⟩
    refine hchange (fun p rows => by simp) h.1 (fun e₁ he₁ => ?_) hown
    rw [show (Change.save id at_ title rows).id = id from rfl, he] at he₁
    cases he₁
    simp only [he, Option.map_some]
  | remove id =>
    refine hchange (fun p rows => by simp) h.1 (fun e he => ?_) hown
    obtain ⟨p, hp, rfl⟩ := Option.map_eq_some_iff.mp he
    have hnone : st.db.tokensOf id = [] := h.2.1
    rw [show (Change.remove id).id = id from rfl, hnone]
    exact if_pos rfl
  | share t =>
    obtain ⟨e, he⟩ : ∃ e, st.db.entry? t.presentationId = some e := by
      obtain ⟨p, hp⟩ := Option.ne_none_iff_exists'.mp fun hn => Table.find?_eq_none.mp hn h.1
      exact ⟨_, by rw [Db.entry?, hp]; rfl⟩
    refine hchange (fun p rows => by simp) h.1 (fun e₁ he₁ => ?_) hown
    rw [show (Change.share t).id = t.presentationId from rfl, he] at he₁
    cases he₁
    simp only [he, Option.map_some]

end Slideo
