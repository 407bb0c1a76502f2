import Slideo.Lib.Atomic

/-! Progress. A session with a budget of calls ends when its calls are answered; so if in every state of an
    invariant some pending call can be answered, all sessions can be brought to their ends. -/

namespace Interleave

variable {Q : Type} {A : Q → Type} {ε σ π τ α β : Type}

/-! ### Budgets -/

/-- At most `n` more calls. -/
def budget : Monitor Q A ε Nat where
  Allowed n _ := 0 < n
  next n _ _ := n - 1

def Within (n : Nat) (p : Prog Q A ε α) : Prop := budget.Obeys n p

section Within
variable {n m : Nat}

theorem Within.mono {p : Prog Q A ε α} : ∀ {n m : Nat}, Within n p → n ≤ m → Within m p := by
  induction p with
  | pure a => exact fun _ _ => trivial
  | throw e => exact fun _ _ => trivial
  | call q k ih => exact fun h hle => ⟨Nat.lt_of_lt_of_le h.1 hle, fun r =>
    ih r (h.2 r) (Nat.sub_le_sub_right hle 1)⟩

theorem Within.bind {p : Prog Q A ε α} {f : α → Prog Q A ε β} :
    ∀ {n : Nat}, Within n p → (∀ a, Within m (f a)) → Within (n + m) (p >>= f) := by
  induction p with
  | pure a => exact fun _ hf => (hf a).mono (Nat.le_add_left ..)
  | throw e => exact fun _ _ => trivial
  | call q k ih =>
    intro n h hf
    refine ⟨Nat.lt_of_lt_of_le h.1 (Nat.le_add_right ..), fun r => ?_⟩
    have hnext : n + m - 1 = n - 1 + m := Nat.sub_add_comm h.1
    show Within (n + m - 1) _
    rw [hnext]
    exact ih r (h.2 r) hf

theorem Within.tryCatch {p : Prog Q A ε α} {f : ε → Prog Q A ε α} :
    ∀ {n : Nat}, Within n p → (∀ e, Within m (f e)) → Within (n + m) (p.tryCatch f) := by
  induction p with
  | pure a => exact fun _ _ => trivial
  | throw e => exact fun _ hf => (hf e).mono (Nat.le_add_left ..)
  | call q k ih =>
    intro n h hf
    refine ⟨Nat.lt_of_lt_of_le h.1 (Nat.le_add_right ..), fun r => ?_⟩
    have hnext : n + m - 1 = n - 1 + m := Nat.sub_add_comm h.1
    show Within (n + m - 1) _
    rw [hnext]
    exact ih r (h.2 r) hf

theorem Within.ask {q : Q} : Within 1 (Prog.ask q : Prog Q A ε (A q)) :=
  ⟨Nat.one_pos, fun r => by cases r <;> trivial⟩

/-- A call and what follows. -/
theorem Within.ask_bind {q : Q} {f : A q → Prog Q A ε β} (hf : ∀ a, Within n (f a)) :
    Within (1 + n) (Prog.ask q >>= f) :=
  Within.ask.bind hf

end Within

/-! ### Semantics with fewer steps -/

section Mono
variable {M M' : Semantics Q A ε σ π} {start : τ → Prog Q A ε α} {priv₀ : π} {c c' : Config Q A ε σ π τ α}
  {es : List (Event Q A ε τ)}

/-- A run whose steps are steps of another semantics is a run of it. -/
theorem Run.mono (hact : ∀ s others p q r s' p', M.act s others p q r s' p' → M'.act s others p q r s' p')
    (hstall : ∀ s p q p', M.stall s p q p' → M'.stall s p q p') (run : Run M start priv₀ c es c') :
    Run M' start priv₀ c es c' := by
  induction run with
  | nil => exact .nil
  | snoc _ step ih =>
    refine .snoc ih ?_
    cases step with
    | spawn tag => exact .spawn _ tag
    | act hs hp ha => exact .act hs hp (hact _ _ _ _ _ _ _ ha)
    | stall hs hp ha => exact .stall hs hp (hstall _ _ _ _ ha)

end Mono

/-! ### Completion -/

section Completion
variable {M : Semantics Q A ε σ π} {start : τ → Prog Q A ε α} {priv₀ : π} {N : Nat}

/-- The calls that a session has made, and those that it may still make, are at most `N`. -/
theorem Run.within {c₀ c : Config Q A ε σ π τ α} {es : List (Event Q A ε τ)} (hstart : c₀.sessions = [])
    (hwithin : ∀ tag, Within N (start tag)) (run : Run M start priv₀ c₀ es c) :
    ∀ s ∈ c.sessions, s.log.length ≤ N ∧ Within (N - s.log.length) s.prog := by
  induction run with
  | nil =>
    rw [hstart]
    exact fun s hs => by cases hs
  | snoc run step ih =>
    intro s' hs'
    rcases step.mem_sessions hs' with hs' | ⟨tag, rfl⟩ | ⟨s, hs, q, k, r, π', hp, rfl⟩ | ⟨s, hs, π', rfl⟩
    · exact ih s' hs'
    · exact ⟨Nat.zero_le N, hwithin tag⟩
    · obtain ⟨-, hleft⟩ := ih s hs
      rw [hp] at hleft
      have hpos : 0 < N - s.log.length := hleft.1
      rw [List.length_append, List.length_singleton, ← Nat.sub_sub]
      exact ⟨by omega, hleft.2 r⟩
    · exact ih s hs

/-- The calls that sessions have left. -/
def callsLeft (N : Nat) : List (Session Q A ε π τ α) → Nat
  | [] => 0
  | s :: l => (N - s.log.length) + callsLeft N l

/-- A session that makes one of its calls has one less. -/
theorem callsLeft_set {l : List (Session Q A ε π τ α)} {i : Nat} {s s' : Session Q A ε π τ α} (hs : l[i]? = some s)
    (hleft : N - s'.log.length < N - s.log.length) : callsLeft N (l.set i s') < callsLeft N l := by
  induction l generalizing i with
  | nil => cases hs
  | cons z l ih =>
    cases i with
    | zero =>
      cases hs
      exact Nat.add_lt_add_right hleft _
    | succ i => exact Nat.add_lt_add_left (ih hs) _

/-- If each session makes at most `N` calls and some pending call can always be answered, all sessions can
    be brought to their ends, without new ones. -/
theorem completes {I : Config Q A ε σ π τ α → Prop}
    (hbudget : ∀ c, I c → ∀ s ∈ c.sessions, Within (N - s.log.length) s.prog)
    (hprogress : ∀ c, I c → (∃ s ∈ c.sessions, s.prog.ended = false) → ∃ i s q k r σ' π',
      c.sessions[i]? = some s ∧ s.prog = .call q k ∧ M.act c.shared (c.others i) s.priv q r σ' π' ∧
        I ⟨σ', c.sessions.set i ⟨s.tag, π', k r, s.log ++ [⟨q, r⟩]⟩⟩) {c : Config Q A ε σ π τ α} (hI : I c) :
    ∃ es c', Run M start priv₀ c es c' ∧ I c' ∧ c'.sessions.map (·.tag) = c.sessions.map (·.tag) ∧
      ∀ s ∈ c'.sessions, s.prog.ended = true := by
  suffices ∀ m (c : Config Q A ε σ π τ α), callsLeft N c.sessions < m → I c →
    ∃ es c', Run M start priv₀ c es c' ∧ I c' ∧
      c'.sessions.map (·.tag) = c.sessions.map (·.tag) ∧ ∀ s ∈ c'.sessions, s.prog.ended = true from
    this _ c (Nat.lt_succ_self _) hI
  intro m
  induction m with
  | zero => exact fun c hm => absurd hm (Nat.not_lt_zero _)
  | succ m ih =>
    intro c hm hI
    by_cases hall : ∀ s ∈ c.sessions, s.prog.ended = true
    · exact ⟨[], c, .nil, hI, rfl, hall⟩
    push Not at hall
    obtain ⟨s₀, hs₀, hpending⟩ := hall
    obtain ⟨i, s, q, k, r, σ', π', hs, hp, ha, hI'⟩ := hprogress c hI ⟨s₀, hs₀, Bool.eq_false_iff.mpr hpending⟩
    have hstep : Step M start priv₀ c _ _ := .act hs hp ha
    have hwithin := hbudget c hI s (List.mem_of_getElem? hs)
    rw [hp] at hwithin
    have hpos : 0 < N - s.log.length := hwithin.1
    have hless : callsLeft N (c.sessions.set i ⟨s.tag, π', k r, s.log ++ [⟨q, r⟩]⟩) < m := by
      refine Nat.lt_of_lt_of_le (callsLeft_set hs ?_) (Nat.lt_succ_iff.mp hm)
      rw [List.length_append, List.length_singleton]
      omega
    obtain ⟨es, c', run, hI'', htags, hended⟩ := ih _ hless hI'
    exact ⟨_, c', Run.trans (.snoc .nil hstep) run, hI'', htags.trans (tags_set hs rfl), hended⟩

end Completion

end Interleave
