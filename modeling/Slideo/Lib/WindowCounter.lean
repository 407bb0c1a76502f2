import Mathlib.Data.List.Basic
import Mathlib.Order.Lattice

/-! Counters for a window of time that are reset lazily, by the first visit in a new window. As long as
    the windows never go back, the count is the number of recorded visits in the current window. -/

namespace WindowCounter

structure Counter (ω : Type) where
  count : Nat
  window : ω

variable {ω : Type}

/-- A visit in a new window starts over. -/
def Counter.visit [DecidableEq ω] (c : Counter ω) (w : ω) : Counter ω := if c.window = w then c else ⟨0, w⟩

def Counter.record (c : Counter ω) (counts : Bool) : Counter ω := if counts then ⟨c.count + 1, c.window⟩ else c

/-- The visits of a window that were recorded. -/
def counted [DecidableEq ω] (visits : List (ω × Bool)) (w : ω) : Nat :=
  visits.countP fun v => v.2 && decide (v.1 = w)

@[simp] theorem Counter.visit_window [DecidableEq ω] (c : Counter ω) (w : ω) : (c.visit w).window = w := by
  unfold visit
  split
  · assumption
  · rfl

@[simp] theorem Counter.record_window (c : Counter ω) (b : Bool) : (c.record b).window = c.window := by
  cases b <;> rfl

theorem counted_snoc [DecidableEq ω] (visits : List (ω × Bool)) (w : ω) (b : Bool) :
    counted (visits ++ [(w, b)]) w = counted visits w + if b then 1 else 0 := by
  cases b <;> simp [counted, List.countP_append]

/-- The counter is right about a history. -/
structure Tracks [LinearOrder ω] (c : Counter ω) (visits : List (ω × Bool)) : Prop where
  count : c.count = counted visits c.window
  latest : ∀ v ∈ visits, v.1 ≤ c.window
  seen : visits = [] ∨ ∃ v ∈ visits, v.1 = c.window

namespace Tracks
variable [LinearOrder ω] {c : Counter ω} {visits : List (ω × Bool)} {w : ω}

theorem fresh (w : ω) : Tracks ⟨0, w⟩ [] := ⟨rfl, fun _ h => (by cases h), Or.inl rfl⟩

/-- A visit that is not in the past finds the count of its own window. -/
theorem count_visit (h : Tracks c visits) (hw : ∀ v ∈ visits, v.1 ≤ w) : (c.visit w).count = counted visits w := by
  by_cases hsame : c.window = w
  · rw [Counter.visit, if_pos hsame, h.count, hsame]
  · rw [Counter.visit, if_neg hsame]
    -- The last window is before `w`, so nothing was recorded in `w` yet.
    refine (List.countP_eq_zero.mpr fun v hv => ?_).symm
    rcases h.seen with rfl | ⟨last, hlast, hlw⟩
    · cases hv
    · have hbefore : c.window < w := lt_of_le_of_ne (hlw ▸ hw last hlast) hsame
      have hne : v.1 ≠ w := ne_of_lt (lt_of_le_of_lt (h.latest v hv) hbefore)
      simp [hne]

theorem snoc (h : Tracks c visits) (hw : ∀ v ∈ visits, v.1 ≤ w) (b : Bool) :
    Tracks ((c.visit w).record b) (visits ++ [(w, b)]) where
  count := by
    rw [Counter.record_window, Counter.visit_window, counted_snoc, ← h.count_visit hw]
    cases b <;> rfl
  latest v hv := by
    rw [Counter.record_window, Counter.visit_window]
    rcases List.mem_append.mp hv with hv | hv
    · exact hw v hv
    · rw [List.mem_singleton.mp hv]
  seen := Or.inr ⟨(w, b), List.mem_append_right _ (List.mem_singleton_self _), by simp⟩

end Tracks

end WindowCounter
