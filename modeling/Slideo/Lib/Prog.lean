import Mathlib.Data.List.Basic

/-! Programs that issue calls to their environment and wait for the answers. A call may fail, and the
    program sees the failure as an exception. The environment is a parameter: `Prog.run` answers the
    calls one after another, `Slideo.Lib.Interleave` lets many programs take turns. -/

/-- A program with calls `Q`, answers `A`, exceptions `ε` and result `α`. -/
inductive Prog (Q : Type) (A : Q → Type) (ε α : Type) where
  | pure (a : α)
  | throw (e : ε)
  | call (q : Q) (k : Except ε (A q) → Prog Q A ε α)

/-- An answered call. -/
abbrev Answered (Q : Type) (A : Q → Type) (ε : Type) := (q : Q) × Except ε (A q)

namespace Prog
variable {Q : Type} {A : Q → Type} {ε α β σ W : Type}

def bind : Prog Q A ε α → (α → Prog Q A ε β) → Prog Q A ε β
  | .pure a, f => f a
  | .throw e, _ => .throw e
  | .call q k, f => .call q fun r => bind (k r) f

def tryCatch : Prog Q A ε α → (ε → Prog Q A ε α) → Prog Q A ε α
  | .pure a, _ => .pure a
  | .throw e, h => h e
  | .call q k, h => .call q fun r => tryCatch (k r) h

instance : Monad (Prog Q A ε) where
  pure := .pure
  bind := bind

instance : MonadExceptOf ε (Prog Q A ε) where
  throw := .throw
  tryCatch := tryCatch

/-- The program of an outcome. -/
def ofExcept : Except ε α → Prog Q A ε α
  | .ok a => .pure a
  | .error e => .throw e

/-- Issues a call; a failed call throws. -/
def ask (q : Q) : Prog Q A ε (A q) := .call q ofExcept

/-- The program makes no more calls. -/
def ended : Prog Q A ε α → Bool
  | .pure _ | .throw _ => true
  | .call _ _ => false

/-! ### Equations -/

@[simp] theorem pure_bind' (a : α) (f : α → Prog Q A ε β) : (Pure.pure a >>= f : Prog Q A ε β) = f a := rfl

@[simp] theorem mk_pure_bind (a : α) (f : α → Prog Q A ε β) : (Prog.pure a >>= f : Prog Q A ε β) = f a := rfl

@[simp] theorem throw_bind (e : ε) (f : α → Prog Q A ε β) :
    (Prog.throw e >>= f : Prog Q A ε β) = Prog.throw e := rfl

@[simp] theorem call_bind (q : Q) (k : Except ε (A q) → Prog Q A ε α) (f : α → Prog Q A ε β) :
    (Prog.call q k >>= f : Prog Q A ε β) = Prog.call q fun r => k r >>= f := rfl

@[simp] theorem ofExcept_ok (a : α) : (ofExcept (.ok a) : Prog Q A ε α) = .pure a := rfl

@[simp] theorem ofExcept_error (e : ε) : (ofExcept (.error e) : Prog Q A ε α) = .throw e := rfl

theorem bind_assoc' {γ : Type} (p : Prog Q A ε α) (f : α → Prog Q A ε β) (g : β → Prog Q A ε γ) :
    (p >>= f >>= g : Prog Q A ε γ) = p >>= fun a => f a >>= g := by
  induction p with
  | pure a => rfl
  | throw e => rfl
  | call q k ih => exact congrArg (Prog.call q) (funext ih)

/-! ### One program alone -/

/-- What a run leaves: the outcome, the state, and the calls with their answers. -/
structure Ran (Q : Type) (A : Q → Type) (ε σ α : Type) where
  result : Except ε α
  state : σ
  log : List (Answered Q A ε)

section Run
variable (answer : W → (q : Q) → σ → Except ε (A q) × σ) (ws : Nat → W)

/-- Runs a program, answering its calls from number `n` on; call `i` sees the world `ws i`. -/
def run : Prog Q A ε α → Nat → σ → Ran Q A ε σ α
  | .pure a, _, s => ⟨.ok a, s, []⟩
  | .throw e, _, s => ⟨.error e, s, []⟩
  | .call q k, n, s =>
    let (r, s') := answer (ws n) q s
    let out := run (k r) (n + 1) s'
    ⟨out.result, out.state, ⟨q, r⟩ :: out.log⟩

@[simp] theorem run_pure (a : α) (n : Nat) (s : σ) :
    run answer ws (.pure a : Prog Q A ε α) n s = ⟨.ok a, s, []⟩ := rfl

@[simp] theorem run_throw (e : ε) (n : Nat) (s : σ) :
    run answer ws (.throw e : Prog Q A ε α) n s = ⟨.error e, s, []⟩ := rfl

theorem run_call (q : Q) (k : Except ε (A q) → Prog Q A ε α) (n : Nat) (s : σ) :
    run answer ws (.call q k) n s =
      ⟨(run answer ws (k (answer (ws n) q s).1) (n + 1) (answer (ws n) q s).2).result,
       (run answer ws (k (answer (ws n) q s).1) (n + 1) (answer (ws n) q s).2).state,
       ⟨q, (answer (ws n) q s).1⟩ ::
         (run answer ws (k (answer (ws n) q s).1) (n + 1) (answer (ws n) q s).2).log⟩ := rfl

/-- A sequence runs its second part where the first one stopped, unless that one threw. -/
theorem run_bind (p : Prog Q A ε α) (f : α → Prog Q A ε β) (n : Nat) (s : σ) :
    run answer ws (p >>= f) n s =
      match (run answer ws p n s).result with
      | .ok a =>
        let out := run answer ws (f a) (n + (run answer ws p n s).log.length) (run answer ws p n s).state
        ⟨out.result, out.state, (run answer ws p n s).log ++ out.log⟩
      | .error e => ⟨.error e, (run answer ws p n s).state, (run answer ws p n s).log⟩ := by
  induction p generalizing n s with
  | pure a => rfl
  | throw e => rfl
  | call q k ih =>
    rw [call_bind, run_call, run_call, ih]
    simp only [List.length_cons]
    split
    · simp only [List.cons_append, Nat.add_assoc, Nat.add_comm 1]
    · rfl

theorem run_tryCatch (p : Prog Q A ε α) (h : ε → Prog Q A ε α) (n : Nat) (s : σ) :
    run answer ws (tryCatch p h) n s =
      match (run answer ws p n s).result with
      | .ok a => ⟨.ok a, (run answer ws p n s).state, (run answer ws p n s).log⟩
      | .error e =>
        let out := run answer ws (h e) (n + (run answer ws p n s).log.length) (run answer ws p n s).state
        ⟨out.result, out.state, (run answer ws p n s).log ++ out.log⟩ := by
  induction p generalizing n s with
  | pure a => rfl
  | throw e => rfl
  | call q k ih =>
    show run answer ws (.call q fun r => tryCatch (k r) h) n s = _
    rw [run_call, run_call, ih]
    simp only [List.length_cons]
    split
    · rfl
    · simp only [List.cons_append, Nat.add_assoc, Nat.add_comm 1]

end Run

/-! Steps of a run whose parts are known. -/

section Steps
variable {answer : W → (q : Q) → σ → Except ε (A q) × σ} {ws : Nat → W} {n : Nat} {s s' s'' : σ}
  {log log' : List (Answered Q A ε)}

theorem run_ask_ok {q : Q} {a : A q} (h : answer (ws n) q s = (.ok a, s')) :
    run answer ws (ask q) n s = ⟨.ok a, s', [⟨q, .ok a⟩]⟩ := by
  rw [ask, run_call, h]
  rfl

theorem run_ask_error {q : Q} {e : ε} (h : answer (ws n) q s = (.error e, s')) :
    run answer ws (ask q) n s = ⟨.error e, s', [⟨q, .error e⟩]⟩ := by
  rw [ask, run_call, h]
  rfl

theorem run_bind_ok {p : Prog Q A ε α} {f : α → Prog Q A ε β} {a : α} {r : Except ε β}
    (hp : run answer ws p n s = ⟨.ok a, s', log⟩) (hf : run answer ws (f a) (n + log.length) s' = ⟨r, s'', log'⟩) :
    run answer ws (p >>= f) n s = ⟨r, s'', log ++ log'⟩ := by
  rw [run_bind, hp]
  simp only [hf]

/-- A call that is answered, and the rest of the program. -/
theorem run_ask_bind {q : Q} {a : A q} {f : A q → Prog Q A ε β} {r : Except ε β}
    (hq : answer (ws n) q s = (.ok a, s')) (hf : run answer ws (f a) (n + 1) s' = ⟨r, s'', log'⟩) :
    run answer ws (ask q >>= f) n s = ⟨r, s'', ⟨q, .ok a⟩ :: log'⟩ :=
  run_bind_ok (run_ask_ok hq) hf

theorem run_ask_bind_error {q : Q} {e : ε} {f : A q → Prog Q A ε β} (hq : answer (ws n) q s = (.error e, s')) :
    run answer ws (ask q >>= f) n s = ⟨.error e, s', [⟨q, .error e⟩]⟩ := by
  rw [run_bind, run_ask_error hq]

theorem run_bind_error {p : Prog Q A ε α} {e : ε} (h : run answer ws p n s = ⟨.error e, s', log⟩)
    (f : α → Prog Q A ε β) : run answer ws (p >>= f) n s = ⟨.error e, s', log⟩ := by
  rw [run_bind, h]

theorem run_tryCatch_ok {p : Prog Q A ε α} {a : α} (h : run answer ws p n s = ⟨.ok a, s', log⟩)
    (f : ε → Prog Q A ε α) : run answer ws (tryCatch p f) n s = ⟨.ok a, s', log⟩ := by
  rw [run_tryCatch, h]

theorem run_tryCatch_error {p : Prog Q A ε α} {f : ε → Prog Q A ε α} {e : ε} {r : Except ε α}
    (hp : run answer ws p n s = ⟨.error e, s', log⟩)
    (hf : run answer ws (f e) (n + log.length) s' = ⟨r, s'', log'⟩) :
    run answer ws (tryCatch p f) n s = ⟨r, s'', log ++ log'⟩ := by
  rw [run_tryCatch, hp]
  simp only [hf]

/-- Each call of the log was answered in its own world. -/
theorem answer_of_log {p : Prog Q A ε α} {c : Answered Q A ε} : ∀ {i n : Nat} {s : σ},
    (run answer ws p n s).log[i]? = some c → ∃ s', c.2 = (answer (ws (n + i)) c.1 s').1 := by
  induction p with
  | pure a => exact fun h => (by cases h)
  | throw e => exact fun h => (by cases h)
  | call q k ih =>
    intro i n s h
    rw [run_call] at h
    cases i with
    | zero =>
      cases h
      exact ⟨s, rfl⟩
    | succ i =>
      have hrest := ih _ h
      rwa [Nat.add_assoc, Nat.add_comm 1 i] at hrest

theorem mem_log_ask {q : Q} {c : Answered Q A ε} (h : c ∈ (run answer ws (ask q) n s).log) :
    c = ⟨q, (answer (ws n) q s).1⟩ := by
  rw [ask, run_call] at h
  rcases List.mem_cons.mp h with h | h
  · exact h
  · cases hr : (answer (ws n) q s).1 with
    | ok a => rw [hr] at h; cases h
    | error e => rw [hr] at h; cases h

/-- A call of a sequence is one of its first part, or of its second. -/
theorem mem_log_bind {p : Prog Q A ε α} {f : α → Prog Q A ε β} {c : Answered Q A ε}
    (h : c ∈ (run answer ws (p >>= f) n s).log) : c ∈ (run answer ws p n s).log ∨
      ∃ a, (run answer ws p n s).result = .ok a ∧
        c ∈ (run answer ws (f a) (n + (run answer ws p n s).log.length) (run answer ws p n s).state).log := by
  rw [run_bind] at h
  split at h
  · rename_i a ha
    rcases List.mem_append.mp h with h | h
    · exact Or.inl h
    · exact Or.inr ⟨a, ha, h⟩
  · exact Or.inl h

end Steps

end Prog
