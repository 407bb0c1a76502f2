import Mathlib.Data.List.Nodup

/-! Tables of rows under a primary key. A table carries the proof that its keys are distinct, so a
    lookup by key has one answer and every operation gives a table again. -/

/-- Rows with distinct keys, in insertion order. -/
structure Table (α : Type) (key : α → String) where
  rows : List α
  nodup : (rows.map key).Nodup

namespace Table
variable {α : Type} {key : α → String}

@[ext] theorem ext {t u : Table α key} (h : t.rows = u.rows) : t = u := by
  cases t; cases u; cases h; rfl

instance [DecidableEq α] : DecidableEq (Table α key) := fun t u =>
  decidable_of_iff (t.rows = u.rows) ⟨ext, fun h => h ▸ rfl⟩

/-! ### Operations -/

/-- The table without rows. -/
def empty : Table α key := ⟨[], List.nodup_nil⟩

/-- The keys in use. -/
def keys (t : Table α key) : List String := t.rows.map key

/-- The row under a key. -/
def find? (t : Table α key) (k : String) : Option α := t.rows.find? fun r => key r == k

/-- Adds a row, unless its key is taken. -/
def insert (t : Table α key) (r : α) : Table α key :=
  if h : key r ∈ t.rows.map key then t
  else ⟨t.rows ++ [r], by
    rw [List.map_append, List.map_singleton, List.nodup_append]
    refine ⟨t.nodup, List.nodup_singleton _, fun a ha b hb hab => ?_⟩
    rw [List.mem_singleton.mp hb] at hab
    exact h (hab ▸ ha)⟩

/-- Changes the row under a key by a function that keeps the key. -/
def modify (t : Table α key) (k : String) (f : α → α) (hf : ∀ r, key (f r) = key r) : Table α key where
  rows := t.rows.map fun r => if key r = k then f r else r
  nodup := by
    have same : (key ∘ fun r => if key r = k then f r else r) = key := by
      funext r
      simp only [Function.comp_apply]
      split
      · exact hf r
      · rfl
    rw [List.map_map, same]
    exact t.nodup

/-- Drops the rows that satisfy a condition. -/
def delete (t : Table α key) (p : α → Bool) : Table α key where
  rows := t.rows.filter fun r => !p r
  nodup := t.nodup.sublist (List.filter_sublist.map key)

/-! ### Lookup -/

theorem mem_of_find? {t : Table α key} {k : String} {r : α} (h : t.find? k = some r) : r ∈ t.rows :=
  List.mem_of_find?_eq_some h

theorem key_of_find? {t : Table α key} {k : String} {r : α} (h : t.find? k = some r) : key r = k :=
  beq_iff_eq.mp (List.find?_some (p := fun r => key r == k) h)

/-- A key names one row. -/
theorem eq_of_key {t : Table α key} {r r' : α} (hr : r ∈ t.rows) (hr' : r' ∈ t.rows) (h : key r = key r') :
    r = r' :=
  List.inj_on_of_nodup_map t.nodup hr hr' h

theorem find?_of_mem {t : Table α key} {r : α} (hr : r ∈ t.rows) : t.find? (key r) = some r := by
  have some : (t.find? (key r)).isSome := List.find?_isSome.mpr ⟨r, hr, beq_self_eq_true _⟩
  obtain ⟨r', hr'⟩ := Option.isSome_iff_exists.mp some
  rw [hr', eq_of_key (mem_of_find? hr') hr (key_of_find? hr')]

theorem find?_eq_some {t : Table α key} {k : String} {r : α} :
    t.find? k = some r ↔ r ∈ t.rows ∧ key r = k :=
  ⟨fun h => ⟨mem_of_find? h, key_of_find? h⟩, fun ⟨hr, hk⟩ => hk ▸ find?_of_mem hr⟩

theorem find?_eq_none {t : Table α key} {k : String} : t.find? k = none ↔ k ∉ t.keys := by
  simp [find?, keys, List.find?_eq_none]

/-- Rows with distinct keys: at most one has a key. -/
theorem filter_key (t : Table α key) (k : String) : t.rows.filter (key · == k) = (t.find? k).toList := by
  obtain ⟨rows, nodup⟩ := t
  simp only [find?]
  induction rows with
  | nil => rfl
  | cons r rows ih =>
    obtain ⟨hr, hrows⟩ := List.nodup_cons.mp nodup
    by_cases hk : key r = k
    · have hrest : rows.filter (key · == k) = [] := by
        refine List.filter_eq_nil_iff.mpr fun x hx hxk => hr ?_
        rw [hk, ← beq_iff_eq.mp hxk]
        exact List.mem_map_of_mem hx
      simp [hk, hrest]
    · simpa [hk] using ih hrows

theorem mem_keys {t : Table α key} {k : String} : k ∈ t.keys ↔ ∃ r ∈ t.rows, key r = k := by
  simp [keys]

/-! ### Rows after an operation -/

theorem insert_rows {t : Table α key} {r : α} (h : key r ∉ t.keys) : (t.insert r).rows = t.rows ++ [r] := by
  rw [insert, dif_neg (show key r ∉ t.rows.map key from h)]

theorem mem_insert {t : Table α key} {r x : α} (h : x ∈ (t.insert r).rows) :
    x ∈ t.rows ∨ (x = r ∧ key r ∉ t.keys) := by
  by_cases hk : key r ∈ t.keys
  · rw [insert, dif_pos (show key r ∈ t.rows.map key from hk)] at h
    exact Or.inl h
  · rw [insert_rows hk] at h
    rcases List.mem_append.mp h with h | h
    · exact Or.inl h
    · exact Or.inr ⟨List.mem_singleton.mp h, hk⟩

theorem mem_insert_of_mem {t : Table α key} {r x : α} (h : x ∈ t.rows) : x ∈ (t.insert r).rows := by
  unfold insert
  split
  · exact h
  · exact List.mem_append_left _ h

theorem mem_modify {t : Table α key} {k : String} {f : α → α} (hf : ∀ r, key (f r) = key r) {x : α} :
    x ∈ (t.modify k f hf).rows ↔ ∃ r ∈ t.rows, x = if key r = k then f r else r := by
  simp [modify, eq_comm]

theorem find?_modify {t : Table α key} {k x : String} {f : α → α} (hf : ∀ r, key (f r) = key r) :
    (t.modify k f hf).find? x = (t.find? x).map fun r => if key r = k then f r else r := by
  simp only [find?, modify, List.find?_map]
  have same : ((fun r => key r == x) ∘ fun r => if key r = k then f r else r) = fun r => key r == x := by
    funext r
    simp only [Function.comp_apply]
    split
    · rw [hf]
    · rfl
  rw [same]

theorem mem_delete {t : Table α key} {p : α → Bool} {x : α} :
    x ∈ (t.delete p).rows ↔ x ∈ t.rows ∧ p x = false := by
  simp [delete]

@[simp] theorem modify_keys {t : Table α key} {k : String} {f : α → α} {hf : ∀ r, key (f r) = key r} :
    (t.modify k f hf).keys = t.keys := by
  simp only [keys, modify, List.map_map]
  refine List.map_congr_left fun r _ => ?_
  simp only [Function.comp_apply]
  split
  · exact hf r
  · rfl

theorem find?_delete_key {t : Table α key} {k x : String} :
    (t.delete (key · == k)).find? x = if x = k then none else t.find? x := by
  split
  · rename_i hx
    refine find?_eq_none.mpr fun hkey => ?_
    obtain ⟨r, hr, hrx⟩ := mem_keys.mp hkey
    have hkept := (mem_delete.mp hr).2
    rw [hrx, hx, beq_self_eq_true] at hkept
    cases hkept
  · rename_i hx
    refine Option.ext fun r => ?_
    rw [find?_eq_some, find?_eq_some, mem_delete, and_assoc]
    refine and_congr_right fun _ => and_iff_right_of_imp fun hrx => ?_
    simpa [hrx] using hx

end Table
