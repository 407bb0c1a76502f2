import Slideo.Lib.Interleave

/-! Preconditions of programs whose calls are answered by a relation: whatever the answers are, the
    program ends with an outcome, a state and a log that satisfy the postcondition. One rule for each
    construct, and the rule that connects them to `Prog.run`. -/

namespace Prog
variable {Q : Type} {A : Q → Type} {ε α β σ W : Type}

/-- What is asked of the end of a program: of its outcome, its state, and its calls. -/
abbrev Post (Q : Type) (A : Q → Type) (ε σ α : Type) := Except ε α → σ → List (Answered Q A ε) → Prop

section Rules
variable {step : (q : Q) → σ → Except ε (A q) → σ → Prop}

variable (step) in
/-- However `step` answers the calls from `s` on, the program ends in `P`. -/
def Wp : Prog Q A ε α → Post Q A ε σ α → σ → Prop
  | .pure a, P, s => P (.ok a) s []
  | .throw e, P, s => P (.error e) s []
  | .call q k, P, s => ∀ r s', step q s r s' → Wp (k r) (fun out s'' log => P out s'' (⟨q, r⟩ :: log)) s'

theorem Wp.mono {p : Prog Q A ε α} : ∀ {P P' : Post Q A ε σ α} {s : σ}, Wp step p P s →
    (∀ r s log, P r s log → P' r s log) → Wp step p P' s := by
  induction p with
  | pure a => exact fun h hpost => hpost _ _ _ h
  | throw e => exact fun h hpost => hpost _ _ _ h
  | call q k ih => exact fun h hpost r s' hstep => ih r (h r s' hstep) fun _ _ _ => hpost _ _ _

/-- The rule of sequence. -/
theorem Wp.bind {p : Prog Q A ε α} {f : α → Prog Q A ε β} : ∀ {P : Post Q A ε σ β} {s : σ},
    Wp step p (fun r s' log => match r with
      | .ok a => Wp step (f a) (fun r' s'' log' => P r' s'' (log ++ log')) s'
      | .error e => P (.error e) s' log) s → Wp step (p >>= f) P s := by
  induction p with
  | pure a => exact fun h => h
  | throw e => exact fun h => h
  | call q k ih =>
    intro P s h r s' hstep
    exact ih r (h r s' hstep)

/-- The rule of exceptions. -/
theorem Wp.tryCatch {p : Prog Q A ε α} {f : ε → Prog Q A ε α} : ∀ {P : Post Q A ε σ α} {s : σ},
    Wp step p (fun r s' log => match r with
      | .ok a => P (.ok a) s' log
      | .error e => Wp step (f e) (fun r' s'' log' => P r' s'' (log ++ log')) s') s →
        Wp step (p.tryCatch f) P s := by
  induction p with
  | pure a => exact fun h => h
  | throw e => exact fun h => h
  | call q k ih =>
    intro P s h r s' hstep
    exact ih r (h r s' hstep)

/-- A handler of exceptions that answers without a call. -/
theorem Wp.caught {p : Prog Q A ε α} {f : ε → α} {P : Post Q A ε σ α} {s : σ} (hp : Wp step p P s)
    (herror : ∀ e s' log, P (.error e) s' log → P (.ok (f e)) s' log) :
    Wp step (p.tryCatch fun e => .pure (f e)) P s := by
  refine Wp.tryCatch (hp.mono fun r s' log hr => ?_)
  cases r with
  | ok a => exact hr
  | error e =>
    show P (.ok (f e)) s' (log ++ [])
    rw [List.append_nil]
    exact herror e s' log hr

/-- A call, and the rest of the program. -/
theorem Wp.ask_bind {q : Q} {f : A q → Prog Q A ε β} {P : Post Q A ε σ β} {s : σ}
    (herror : ∀ e s', step q s (.error e) s' → P (.error e) s' [⟨q, .error e⟩])
    (hok : ∀ a s', step q s (.ok a) s' → Wp step (f a) (fun r s'' log => P r s'' (⟨q, .ok a⟩ :: log)) s') :
    Wp step (ask q >>= f) P s := by
  intro r s' hstep
  cases r with
  | error e => exact herror e s' hstep
  | ok a => exact hok a s' hstep

/-- A program that obeys a monitor, where every allowed call keeps `R` and satisfies `G`. -/
theorem Wp.of_ensures {State : Type} {M : Interleave.Monitor Q A ε State}
    {R : State → σ → Prop} {G : Answered Q A ε → Prop}
    (hcall : ∀ {m q s r s'}, M.Allowed m q → R m s → step q s r s' → R (M.next m q r) s' ∧ G ⟨q, r⟩)
    {p : Prog Q A ε α} : ∀ {m : State} {s : σ} {P : State → Except ε α → Prop}, M.Ensures m p P → R m s →
      Wp step p (fun r s' log => (∃ m', R m' s' ∧ P m' r) ∧ ∀ c ∈ log, G c) s := by
  induction p with
  | pure a => exact fun h hR => ⟨⟨_, hR, h⟩, fun _ hc => (by cases hc)⟩
  | throw e => exact fun h hR => ⟨⟨_, hR, h⟩, fun _ hc => (by cases hc)⟩
  | call q k ih =>
    intro m s P h hR r s' hstep
    obtain ⟨hR', hG⟩ := hcall h.1 hR hstep
    refine (ih r (h.2 r) hR').mono fun out s'' log hlog => ⟨hlog.1, fun c hc => ?_⟩
    rcases List.mem_cons.mp hc with rfl | hc
    · exact hG
    · exact hlog.2 c hc

/-- What holds however the calls are answered holds of a run. -/
theorem Wp.run {answer : W → (q : Q) → σ → Except ε (A q) × σ} {ws : Nat → W}
    (hstep : ∀ w q s, step q s (answer w q s).1 (answer w q s).2) {p : Prog Q A ε α} :
    ∀ {P : Post Q A ε σ α} {n : Nat} {s : σ}, Wp step p P s →
      P (p.run answer ws n s).result (p.run answer ws n s).state (p.run answer ws n s).log := by
  induction p with
  | pure a => exact fun h => h
  | throw e => exact fun h => h
  | call q k ih =>
    intro P n s h
    exact ih _ (h _ _ (hstep (ws n) q s))

end Rules

end Prog
