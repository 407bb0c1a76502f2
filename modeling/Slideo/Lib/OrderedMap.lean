import Slideo.Lib.Table

/-! Maps in insertion order, as the `Map` of JavaScript: setting a key that is there keeps its place. -/

/-- A map from strings; its entries have distinct keys. -/
abbrev OrderedMap (α : Type) := Table (String × α) Prod.fst

namespace OrderedMap
variable {α β : Type}

def empty : OrderedMap α := Table.empty

def entries (m : OrderedMap α) : List (String × α) := m.rows

def get? (m : OrderedMap α) (k : String) : Option α := (m.find? k).map Prod.snd

def has (m : OrderedMap α) (k : String) : Bool := (m.get? k).isSome

def size (m : OrderedMap α) : Nat := m.entries.length

def set (m : OrderedMap α) (k : String) (v : α) : OrderedMap α :=
  if k ∈ m.keys then m.modify k (fun e => (e.1, v)) fun _ => rfl else m.insert (k, v)

def delete (m : OrderedMap α) (k : String) : OrderedMap α := Table.delete m fun e => e.1 == k

/-- Changes every value. -/
def map (f : α → β) (m : OrderedMap α) : OrderedMap β where
  rows := m.rows.map fun e => (e.1, f e.2)
  nodup := by
    rw [List.map_map]
    exact m.nodup

/-! ### Lookup after an operation -/

@[simp] theorem get?_empty (k : String) : (empty : OrderedMap α).get? k = none := rfl

theorem mem_entries {m : OrderedMap α} {k : String} {v : α} : (k, v) ∈ m.entries ↔ m.get? k = some v := by
  constructor
  · intro h
    rw [get?, Table.find?_of_mem (t := m) h]
    rfl
  · intro h
    obtain ⟨e, he, rfl⟩ := Option.map_eq_some_iff.mp h
    have hkey : e.1 = k := Table.key_of_find? he
    rw [← hkey]
    exact Table.mem_of_find? he

theorem mem_keys {m : OrderedMap α} {k : String} : k ∈ m.keys ↔ ∃ v, m.get? k = some v := by
  rw [Table.mem_keys]
  constructor
  · rintro ⟨⟨_, v⟩, he, rfl⟩
    exact ⟨v, mem_entries.mp he⟩
  · rintro ⟨v, hv⟩
    exact ⟨(k, v), mem_entries.mpr hv, rfl⟩

theorem get?_set (m : OrderedMap α) (k : String) (v : α) (x : String) :
    (m.set k v).get? x = if x = k then some v else m.get? x := by
  unfold set
  split
  · rename_i hk
    obtain ⟨u, hu⟩ := mem_keys.mp hk
    have hfind := Table.find?_modify (t := m) (k := k) (x := x) (f := fun e => (e.1, v)) fun _ => rfl
    rw [get?, hfind]
    split
    · rename_i hx
      obtain ⟨e, he, -⟩ := Option.map_eq_some_iff.mp hu
      rw [hx, he, Option.map_some, if_pos (Table.key_of_find? he)]
      rfl
    · rename_i hx
      cases he : m.find? x with
      | none => simp [get?, he]
      | some e =>
        have hkey : e.1 ≠ k := fun h => hx ((Table.key_of_find? he).symm.trans h)
        simp [get?, he, hkey]
  · rename_i hk
    have hrows := Table.insert_rows (t := m) (r := (k, v)) hk
    rw [get?, Table.find?, hrows, List.find?_append]
    split
    · rename_i hx
      have hnone : m.rows.find? (fun r => r.1 == x) = none := Table.find?_eq_none.mpr (hx ▸ hk)
      rw [hnone, hx]
      simp
    · rename_i hx
      have hother : [(k, v)].find? (fun r => r.1 == x) = none := by simp [Ne.symm hx]
      rw [hother, Option.or_none]
      rfl

theorem get?_delete (m : OrderedMap α) (k x : String) : (m.delete k).get? x = if x = k then none else m.get? x := by
  simp only [get?, delete, Table.find?, Table.delete, List.find?_filter]
  split
  · rename_i hx
    have hnone : m.rows.find? (fun e => !(e.1 == k) && e.1 == x) = none := by
      refine List.find?_eq_none.mpr fun e _ => ?_
      simp [hx]
    simpa using hnone
  · rename_i hx
    have hsame : (fun e : String × α => decide ((!(e.1 == k)) = true ∧ (e.1 == x) = true)) = fun e => e.1 == x := by
      funext e
      by_cases he : e.1 = x
      · simp [he, hx]
      · simp [he]
    rw [hsame]

theorem get?_map (f : α → β) (m : OrderedMap α) (x : String) : (m.map f).get? x = (m.get? x).map f := by
  simp only [get?, map, Table.find?, List.find?_map, Option.map_map]
  rfl

theorem has_iff {m : OrderedMap α} {k : String} : m.has k = true ↔
    ∃ v, m.get? k = some v := Option.isSome_iff_exists

/-! ### Size after an operation -/

theorem size_delete (m : OrderedMap α) (k : String) : (m.delete k).size + (m.has k).toNat = m.size := by
  have hsplit := List.length_eq_length_filter_add (l := m.rows) fun e => e.1 == k
  have hkey : (m.rows.filter fun e => e.1 == k).length = (m.has k).toNat := by
    rw [Table.filter_key m k, has, get?]
    cases m.find? k <;> rfl
  simp only [size, entries, delete, Table.delete]
  omega

theorem size_set (m : OrderedMap α) (k : String) (v : α) : (m.set k v).size = (m.delete k).size + 1 := by
  have hdelete := m.size_delete k
  unfold set
  split
  · rename_i hk
    have hhas : m.has k = true := has_iff.mpr (mem_keys.mp hk)
    have hsame : (m.modify k (fun e => (e.1, v)) fun _ => rfl).rows.length = m.rows.length := List.length_map _
    rw [hhas] at hdelete
    simp only [size, entries, Bool.toNat_true] at hdelete ⊢
    omega
  · rename_i hk
    have hhas : m.has k = false := Bool.eq_false_iff.mpr fun h => hk (mem_keys.mpr (has_iff.mp h))
    have hrows := Table.insert_rows (t := m) (r := (k, v)) hk
    rw [hhas] at hdelete
    simp only [size, entries, hrows, List.length_append, List.length_singleton, Bool.toNat_false] at hdelete ⊢
    omega

/-- A new key comes last. -/
theorem entries_set_of_not_has {m : OrderedMap α} {k : String} (v : α) (h : m.has k = false) :
    (m.set k v).entries = m.entries ++ [(k, v)] := by
  have hk : k ∉ m.keys := fun hk => by
    rw [has_iff.mpr (mem_keys.mp hk)] at h
    cases h
  rw [set, if_neg hk]
  exact Table.insert_rows hk

/-- A key that is there keeps its place. -/
theorem entries_set_of_has {m : OrderedMap α} {k : String} (v : α) (h : m.has k = true) :
    (m.set k v).entries = m.entries.map fun e => if e.1 = k then (e.1, v) else e := by
  rw [set, if_pos (mem_keys.mpr (has_iff.mp h))]
  rfl

end OrderedMap
