import Slideo.Lib.Js
import Mathlib.Data.List.Infix

/-! Removing every occurrence of a pattern from a text: where it distributes over the parts of the text, and what it
    takes away. -/

namespace Js

/-- `s.replace(/pat/g, '')` with enough fuel. -/
def remove (pat cs : List Char) : List Char := removeAll pat cs.length cs

section Removal
variable {pat p xs rest cs : List Char} {c : Char}

/-- More fuel than characters makes no difference. -/
theorem removeAll_fuel (hpat : pat ≠ []) : ∀ {cs : List Char} {n : Nat}, cs.length ≤ n →
    removeAll pat n cs = remove pat cs := by
  intro cs
  induction hlen : cs.length using Nat.strong_induction_on generalizing cs with
  | _ k ih =>
    intro n hn
    subst hlen
    cases cs with
    | nil => cases n <;> rfl
    | cons c cs =>
      obtain ⟨n, rfl⟩ : ∃ k, n = k + 1 := ⟨n - 1, by simp at hn; omega⟩
      have hle : cs.length ≤ n := by simpa using hn
      have hpos := List.length_pos_iff.mpr hpat
      rw [remove, List.length_cons, removeAll, removeAll]
      split
      · have hdrop : ((c :: cs).drop pat.length).length ≤ cs.length := by simp; omega
        rw [ih _ (by simp; omega) rfl (hdrop.trans hle), ih _ (by simp; omega) rfl hdrop]
      · rw [ih cs.length (by simp) rfl hle, remove]

theorem remove_cons (h : ¬ pat <+: c :: cs) : remove pat (c :: cs) = c :: remove pat cs := by
  rw [remove, List.length_cons, removeAll, if_neg (by rwa [List.isPrefixOf_iff_prefix])]
  rfl

theorem remove_append_self (hpat : pat ≠ []) (rest : List Char) : remove pat (pat ++ rest) = remove pat rest := by
  cases pat with
  | nil => exact absurd rfl hpat
  | cons c pat =>
    have hprefix : (c :: pat).isPrefixOf (c :: (pat ++ rest)) = true :=
      List.isPrefixOf_iff_prefix.mpr (List.prefix_append (c :: pat) rest)
    show removeAll (c :: pat) (c :: (pat ++ rest)).length (c :: (pat ++ rest)) = _
    rw [List.length_cons, removeAll, if_pos hprefix]
    have hdrop : (c :: (pat ++ rest)).drop (c :: pat).length = rest := by simp
    rw [hdrop, removeAll_fuel hpat (by simp)]

/-- A part without the first character of the pattern stays. -/
theorem remove_append (hxs : c ∉ xs) : remove (c :: p) (xs ++ rest) = xs ++ remove (c :: p) rest := by
  induction xs with
  | nil => rfl
  | cons x xs ih =>
    have hne : ¬ c :: p <+: x :: (xs ++ rest) := fun h => hxs (by simp [(List.cons_prefix_cons.mp h).1])
    rw [List.cons_append, remove_cons hne, ih fun h => hxs (List.mem_cons_of_mem x h)]
    rfl

/-- A part without the pattern stays, if what follows cannot complete one. -/
theorem remove_append_of_absent (hrest : ∀ c cs, rest = c :: cs → c ∉ pat) (hxs : ¬ pat <:+: xs) :
    remove pat (xs ++ rest) = xs ++ remove pat rest := by
  induction xs with
  | nil => rfl
  | cons x xs ih =>
    have hne : ¬ pat <+: x :: (xs ++ rest) := by
      intro h
      rcases List.prefix_or_prefix_of_prefix h (List.prefix_append (x :: xs) rest) with hshort | ⟨tail, htail⟩
      · exact hxs hshort.isInfix
      · cases tail with
        | nil =>
          rw [List.append_nil] at htail
          exact hxs (htail ▸ List.infix_refl _)
        | cons c tail =>
          rw [← htail, ← List.cons_append, List.prefix_append_right_inj] at h
          obtain ⟨cs, rfl⟩ := h
          exact hrest c (tail ++ cs) rfl (htail ▸ by simp)
    rw [List.cons_append, remove_cons hne, ih fun h => hxs (h.trans (List.suffix_cons x xs).isInfix)]
    rfl

theorem remove_of_absent (h : ¬ pat <:+: cs) : remove pat cs = cs := by
  have hsame : remove pat (cs ++ []) = cs ++ remove pat [] := remove_append_of_absent (fun _ _ h => by cases h) h
  rwa [List.append_nil, show remove pat [] = [] from rfl, List.append_nil] at hsame

theorem length_remove_le (hpat : pat ≠ []) : (remove pat cs).length ≤ cs.length := by
  induction hlen : cs.length using Nat.strong_induction_on generalizing cs with
  | _ k ih =>
    subst hlen
    by_cases hprefix : pat <+: cs
    · obtain ⟨rest, rfl⟩ := hprefix
      have hpos := List.length_pos_iff.mpr hpat
      rw [remove_append_self hpat]
      have hle := ih rest.length (by simp; omega) rfl
      simp
      omega
    · cases cs with
      | nil => exact le_rfl
      | cons c cs =>
        rw [remove_cons hprefix]
        simpa using ih cs.length (by simp) rfl

/-- Where the pattern occurs, something goes. -/
theorem length_remove_lt (hpat : pat ≠ []) (h : pat <:+: cs) : (remove pat cs).length < cs.length := by
  induction cs with
  | nil => exact absurd (List.infix_nil.mp h) hpat
  | cons c cs ih =>
    by_cases hprefix : pat <+: c :: cs
    · obtain ⟨rest, hrest⟩ := hprefix
      have hpos := List.length_pos_iff.mpr hpat
      have hle : (remove pat rest).length ≤ rest.length := length_remove_le hpat
      rw [← hrest, remove_append_self hpat]
      simp
      omega
    · rcases List.infix_cons_iff.mp h with hp | hinfix
      · exact absurd hp hprefix
      · rw [remove_cons hprefix]
        simpa using ih hinfix

end Removal

end Js
