import Slideo.Lib.Prog
import Mathlib.Data.Set.Basic

/-! Many programs over one shared state, one call at a time and in any order. Each session keeps a
    private state, the rest of its program and the calls it has made. A `Monitor` follows the calls of
    one session; a program that obeys its monitor obeys it in every interleaving. -/

namespace Interleave

/-! ### Sessions and runs -/

/-- A program in flight: what it was started for, its private state, what is left of it, and the calls
    it has made so far. -/
structure Session (Q : Type) (A : Q → Type) (ε π τ α : Type) where
  tag : τ
  priv : π
  prog : Prog Q A ε α
  log : List (Answered Q A ε)

structure Config (Q : Type) (A : Q → Type) (ε σ π τ α : Type) where
  shared : σ
  sessions : List (Session Q A ε π τ α)

/-- How the environment answers. `act` answers the pending call of a session, given the private states
    of the others; `stall` lets the call begin without an answer yet. -/
structure Semantics (Q : Type) (A : Q → Type) (ε σ π : Type) where
  act : σ → List π → π → (q : Q) → Except ε (A q) → σ → π → Prop
  stall : σ → π → Q → π → Prop

/-- What happens in a step. -/
inductive Event (Q : Type) (A : Q → Type) (ε τ : Type) where
  | spawn (tag : τ)
  | act (i : Nat) (c : Answered Q A ε)
  | stall (i : Nat)

variable {Q : Type} {A : Q → Type} {ε σ π τ α : Type}

/-- The private states of all sessions but `i`. -/
def Config.others (c : Config Q A ε σ π τ α) (i : Nat) : List π := (c.sessions.eraseIdx i).map (·.priv)

section Step
variable (M : Semantics Q A ε σ π) (start : τ → Prog Q A ε α) (priv₀ : π)

/-- The session that begins with a request. -/
def fresh (tag : τ) : Session Q A ε π τ α := ⟨tag, priv₀, start tag, []⟩

/-- One step: a request arrives, a session's call is answered, or its call begins to wait. -/
inductive Step : Config Q A ε σ π τ α → Event Q A ε τ → Config Q A ε σ π τ α → Prop
  | spawn (c : Config Q A ε σ π τ α) (tag : τ) :
      Step c (.spawn tag) ⟨c.shared, c.sessions ++ [fresh start priv₀ tag]⟩
  | act {c : Config Q A ε σ π τ α} {i : Nat} {s : Session Q A ε π τ α} {q : Q}
      {k : Except ε (A q) → Prog Q A ε α} {r : Except ε (A q)} {σ' : σ} {π' : π}
      (hs : c.sessions[i]? = some s) (hp : s.prog = .call q k)
      (ha : M.act c.shared (c.others i) s.priv q r σ' π') :
      Step c (.act i ⟨q, r⟩) ⟨σ', c.sessions.set i ⟨s.tag, π', k r, s.log ++ [⟨q, r⟩]⟩⟩
  | stall {c : Config Q A ε σ π τ α} {i : Nat} {s : Session Q A ε π τ α} {q : Q}
      {k : Except ε (A q) → Prog Q A ε α} {π' : π}
      (hs : c.sessions[i]? = some s) (hp : s.prog = .call q k) (ha : M.stall c.shared s.priv q π') :
      Step c (.stall i) ⟨c.shared, c.sessions.set i { s with priv := π' }⟩

/-- A run: the steps from one configuration to another, oldest first. -/
inductive Run (c₀ : Config Q A ε σ π τ α) : List (Event Q A ε τ) → Config Q A ε σ π τ α → Prop
  | nil : Run c₀ [] c₀
  | snoc {es : List (Event Q A ε τ)} {c c' : Config Q A ε σ π τ α} {e : Event Q A ε τ} :
      Run c₀ es c → Step M start priv₀ c e c' → Run c₀ (es ++ [e]) c'

/-- A run whose steps all satisfy `P`, a condition on the configuration before the step and on the event. -/
inductive RunWhere (P : Config Q A ε σ π τ α → Event Q A ε τ → Prop) (c₀ : Config Q A ε σ π τ α) :
    List (Event Q A ε τ) → Config Q A ε σ π τ α → Prop
  | nil : RunWhere P c₀ [] c₀
  | snoc {es : List (Event Q A ε τ)} {c c' : Config Q A ε σ π τ α} {e : Event Q A ε τ} :
      RunWhere P c₀ es c → Step M start priv₀ c e c' → P c e → RunWhere P c₀ (es ++ [e]) c'

end Step

/-! ### The other sessions -/

section Others
variable {c : Config Q A ε σ π τ α} {s x : Session Q A ε π τ α} {i j : Nat}

theorem getElem?_of_mem_of_ne {β : Type} {l : List β} {x y : β} (hy : l[i]? = some y) (hx : x ∈ l) (hne : x ≠ y) :
    ∃ j, j ≠ i ∧ l[j]? = some x := by
  obtain ⟨j, hj⟩ := List.mem_iff_getElem?.mp hx
  refine ⟨j, ?_, hj⟩
  rintro rfl
  rw [hy] at hj
  exact hne (Option.some.inj hj).symm

/-- Other sessions than the one that takes a step stay as they are. -/
theorem mem_set_of_ne {β : Type} {l : List β} {x y z : β} (hy : l[i]? = some y) (hx : x ∈ l) (hne : x ≠ y) :
    x ∈ l.set i z := by
  obtain ⟨j, hij, hj⟩ := getElem?_of_mem_of_ne hy hx hne
  exact List.mem_iff_getElem?.mpr ⟨j, by rw [List.getElem?_set_ne hij.symm, hj]⟩

theorem mem_others (hij : j ≠ i) (hx : c.sessions[j]? = some x) : x.priv ∈ c.others i :=
  List.mem_map_of_mem (List.mem_eraseIdx_iff_getElem?.mpr ⟨j, hij, hx⟩)

theorem mem_others_of_ne (hs : c.sessions[i]? = some s) (hx : x ∈ c.sessions)
    (hne : x ≠ s) : x.priv ∈ c.others i := by
  obtain ⟨j, hij, hj⟩ := getElem?_of_mem_of_ne hs hx hne
  exact mem_others hij hj

end Others

/-! ### Monitors -/

/-- A view of the calls of one program: which call is allowed next, and what its answer teaches. -/
structure Monitor (Q : Type) (A : Q → Type) (ε State : Type) where
  Allowed : State → Q → Prop
  next : State → (q : Q) → Except ε (A q) → State

namespace Monitor
variable {State β : Type} (M : Monitor Q A ε State)

/-- Every call of the program is allowed when it is made, and the outcome satisfies `Post`. -/
def Ensures : State → Prog Q A ε α → (State → Except ε α → Prop) → Prop
  | s, .pure a, Post => Post s (.ok a)
  | s, .throw e, Post => Post s (.error e)
  | s, .call q k, Post => M.Allowed s q ∧ ∀ r, Ensures (M.next s q r) (k r) Post

/-- Every call of the program is allowed when it is made. -/
def Obeys (s : State) (p : Prog Q A ε α) : Prop := M.Ensures s p fun _ _ => True

/-- The state of the monitor after some calls. -/
def after (s : State) (log : List (Answered Q A ε)) : State := log.foldl (fun s c => M.next s c.1 c.2) s

variable {M}

theorem after_append (s : State) (log : List (Answered Q A ε)) (c : Answered Q A ε) :
    M.after s (log ++ [c]) = M.next (M.after s log) c.1 c.2 := by
  simp [after, List.foldl_append]

theorem Ensures.mono {p : Prog Q A ε α} {Post Post' : State → Except ε α → Prop} :
    ∀ {s : State}, M.Ensures s p Post → (∀ s r, Post s r → Post' s r) → M.Ensures s p Post' := by
  induction p with
  | pure a => exact fun h hpost => hpost _ _ h
  | throw e => exact fun h hpost => hpost _ _ h
  | call q k ih => exact fun h hpost => ⟨h.1, fun r => ih r (h.2 r) hpost⟩

/-- The rule of sequence: the second part starts where the first one ends. -/
theorem Ensures.bind {p : Prog Q A ε α} {f : α → Prog Q A ε β} {Post : State → Except ε β → Prop} :
    ∀ {s : State}, M.Ensures s p (fun s' r => match r with
      | .ok a => M.Ensures s' (f a) Post
      | .error e => Post s' (.error e)) → M.Ensures s (p >>= f) Post := by
  induction p with
  | pure a => exact fun h => h
  | throw e => exact fun h => h
  | call q k ih => exact fun h => ⟨h.1, fun r => ih r (h.2 r)⟩

/-- The rule of exceptions: the handler starts where the body threw. -/
theorem Ensures.tryCatch {p : Prog Q A ε α} {f : ε → Prog Q A ε α} {Post : State → Except ε α → Prop} :
    ∀ {s : State}, M.Ensures s p (fun s' r => match r with
      | .ok a => Post s' (.ok a)
      | .error e => M.Ensures s' (f e) Post) → M.Ensures s (p.tryCatch f) Post := by
  induction p with
  | pure a => exact fun h => h
  | throw e => exact fun h => h
  | call q k ih => exact fun h => ⟨h.1, fun r => ih r (h.2 r)⟩

/-- The rule of sequence, where the first part ends in `P`. -/
theorem Ensures.bind_of {p : Prog Q A ε α} {f : α → Prog Q A ε β} {P : State → Except ε α → Prop}
    {Post : State → Except ε β → Prop} {s : State} (hp : M.Ensures s p P)
    (hok : ∀ s' a, P s' (.ok a) → M.Ensures s' (f a) Post) (herror : ∀ s' e, P s' (.error e) → Post s' (.error e)) :
    M.Ensures s (p >>= f) Post := by
  refine Ensures.bind (hp.mono fun s' r hr => ?_)
  cases r with
  | ok a => exact hok s' a hr
  | error e => exact herror s' e hr

/-- A call, and the rest of the program. -/
theorem Ensures.ask_bind {q : Q} {f : A q → Prog Q A ε β} {Post : State → Except ε β → Prop} {s : State}
    (hq : M.Allowed s q) (hok : ∀ a, M.Ensures (M.next s q (.ok a)) (f a) Post)
    (herror : ∀ e, Post (M.next s q (.error e)) (.error e)) : M.Ensures s (Prog.ask q >>= f) Post := by
  refine ⟨hq, fun r => ?_⟩
  cases r with
  | ok a => exact hok a
  | error e => exact herror e

/-- A handler of exceptions that answers without a call: the body may be described otherwise than the whole. -/
theorem Ensures.caught {p : Prog Q A ε α} {f : ε → α} {Tried Post : State → Except ε α → Prop} {s : State}
    (hp : M.Ensures s p Tried) (hok : ∀ s' a, Tried s' (.ok a) → Post s' (.ok a))
    (herror : ∀ s' e, Tried s' (.error e) → Post s' (.ok (f e))) :
    M.Ensures s (p.tryCatch fun e => .pure (f e)) Post := by
  refine Ensures.tryCatch (hp.mono fun s' r hr => ?_)
  cases r with
  | ok a => exact hok s' a hr
  | error e => exact herror s' e hr

/-- Wherever `I` holds the call is allowed, and `I` holds after it. -/
def Keeps (M : Monitor Q A ε State) (I : State → Prop) (q : Q) : Prop :=
  ∀ s, I s → M.Allowed s q ∧ ∀ r, I (M.next s q r)

/-- A call that keeps `I`, and the rest of the program. -/
theorem Keeps.ask_bind {I : State → Prop} {q : Q} {f : A q → Prog Q A ε β} {Post : State → Except ε β → Prop}
    {s : State} (hq : M.Keeps I q) (hs : I s) (hok : ∀ s' a, I s' → M.Ensures s' (f a) Post)
    (herror : ∀ s' e, I s' → Post s' (.error e)) : M.Ensures s (Prog.ask q >>= f) Post := by
  obtain ⟨hallowed, hnext⟩ := hq s hs
  exact Ensures.ask_bind hallowed (fun a => hok _ a (hnext _)) fun e => herror _ e (hnext _)

/-! Rules for programs whose outcome does not matter. -/

theorem Obeys.bind {p : Prog Q A ε α} {f : α → Prog Q A ε β} {P : State → α → Prop} {s : State}
    (hp : M.Ensures s p fun s' r => ∀ a, r = .ok a → P s' a) (hf : ∀ s' a, P s' a → M.Obeys s' (f a)) :
    M.Obeys s (p >>= f) :=
  hp.bind_of (fun s' a h => hf s' a (h a rfl)) fun _ _ _ => trivial

theorem Obeys.ask_bind {q : Q} {f : A q → Prog Q A ε β} {s : State} (hq : M.Allowed s q)
    (hf : ∀ a, M.Obeys (M.next s q (.ok a)) (f a)) : M.Obeys s (Prog.ask q >>= f) :=
  Ensures.ask_bind hq hf fun _ => trivial

theorem Obeys.ask {q : Q} {s : State} (hq : M.Allowed s q) : M.Obeys s (Prog.ask q : Prog Q A ε (A q)) :=
  ⟨hq, fun r => by cases r <;> trivial⟩

/-- A handler of exceptions that makes no calls. -/
theorem Obeys.tryCatch {p : Prog Q A ε α} {f : ε → Prog Q A ε α} {s : State} (hp : M.Obeys s p)
    (hf : ∀ s' e, M.Obeys s' (f e)) : M.Obeys s (p.tryCatch f) := by
  refine Ensures.tryCatch (hp.mono fun s' r _ => ?_)
  cases r with
  | ok a => trivial
  | error e => exact hf s' e

/-- Two runs of an obedient program from related states, if allowed calls have equal answers there. -/
theorem Obeys.lockstep {W σ : Type} {answer : W → (q : Q) → σ → Except ε (A q) × σ} {ws : Nat → W}
    {R : State → σ → σ → Prop}
    (safe : ∀ {m q n s s'}, M.Allowed m q → R m s s' → (answer (ws n) q s').1 = (answer (ws n) q s).1 ∧
      R (M.next m q (answer (ws n) q s).1) (answer (ws n) q s).2 (answer (ws n) q s').2) {p : Prog Q A ε α} :
    ∀ {m : State} {n : Nat} {s s' : σ}, M.Obeys m p → R m s s' →
      (p.run answer ws n s').result = (p.run answer ws n s).result := by
  induction p with
  | pure a => exact fun _ _ => rfl
  | throw e => exact fun _ _ => rfl
  | call q k ih =>
    intro m n s s' hobeys hR
    obtain ⟨hq, hk⟩ := hobeys
    obtain ⟨hanswer, hR'⟩ := safe hq hR
    rw [Prog.run_call, Prog.run_call, hanswer]
    exact ih _ (hk _) hR'

end Monitor

/-! ### Every session of a run obeys its monitor -/

section Sessions
variable {M : Semantics Q A ε σ π} {start : τ → Prog Q A ε α} {priv₀ : π}

theorem Run.trans {c₀ c c' : Config Q A ε σ π τ α} {es es' : List (Event Q A ε τ)}
    (run : Run M start priv₀ c₀ es c) (run' : Run M start priv₀ c es' c') :
    Run M start priv₀ c₀ (es ++ es') c' := by
  induction run' with
  | nil => rwa [List.append_nil]
  | snoc _ step ih =>
    rw [← List.append_assoc]
    exact .snoc ih step

theorem RunWhere.run {P : Config Q A ε σ π τ α → Event Q A ε τ → Prop} {c₀ c : Config Q A ε σ π τ α}
    {es : List (Event Q A ε τ)} (h : RunWhere M start priv₀ P c₀ es c) : Run M start priv₀ c₀ es c := by
  induction h with
  | nil => exact .nil
  | snoc _ step _ ih => exact .snoc ih step

theorem RunWhere.mono {P P' : Config Q A ε σ π τ α → Event Q A ε τ → Prop} {c₀ c : Config Q A ε σ π τ α}
    {es : List (Event Q A ε τ)} (run : RunWhere M start priv₀ P c₀ es c) (h : ∀ c e, P c e → P' c e) :
    RunWhere M start priv₀ P' c₀ es c := by
  induction run with
  | nil => exact .nil
  | snoc _ step hP ih => exact .snoc ih step (h _ _ hP)

theorem RunWhere.trans {P : Config Q A ε σ π τ α → Event Q A ε τ → Prop} {c₀ c c' : Config Q A ε σ π τ α}
    {es es' : List (Event Q A ε τ)} (run : RunWhere M start priv₀ P c₀ es c)
    (run' : RunWhere M start priv₀ P c es' c') :
    RunWhere M start priv₀ P c₀ (es ++ es') c' := by
  induction run' with
  | nil => rwa [List.append_nil]
  | snoc _ step hP ih =>
    rw [← List.append_assoc]
    exact .snoc ih step hP

/-- How many sessions satisfy `p` after one of them changes. -/
theorem countP_set {β : Type} {p : β → Bool} {l : List β} {i : Nat} {x y : β} (h : l[i]? = some x) :
    (l.set i y).countP p + (p x).toNat = l.countP p + (p y).toNat := by
  induction l generalizing i with
  | nil => cases h
  | cons z l ih =>
    cases i with
    | zero =>
      cases h
      simp only [List.set_cons_zero, List.countP_cons]
      cases p x <;> cases p y <;> simp
    | succ i =>
      have hrest := ih h
      simp only [List.set_cons_succ, List.countP_cons]
      omega

theorem countP_set_of_eq {β : Type} {p : β → Bool} {l : List β} {i : Nat} {x y : β} (h : l[i]? = some x)
    (hp : p y = p x) : (l.set i y).countP p = l.countP p := by
  have hset := countP_set (p := p) (y := y) h
  rw [hp] at hset
  exact Nat.add_right_cancel hset

theorem getElem?_set_cases {β : Type} {l : List β} {i j : Nat} {x y : β} (h : (l.set j y)[i]? = some x) :
    l[i]? = some x ∨ (i = j ∧ x = y) := by
  rw [List.getElem?_set] at h
  split at h
  · rename_i hij
    split at h
    · exact Or.inr ⟨hij.symm, (Option.some.inj h).symm⟩
    · cases h
  · exact Or.inl h

/-- Session `i` after a step was there before, is new, or is the one that the step has answered or stalled. -/
theorem Step.session {c c' : Config Q A ε σ π τ α} {e : Event Q A ε τ} (h : Step M start priv₀ c e c') {i : Nat}
    {s' : Session Q A ε π τ α} (hs' : c'.sessions[i]? = some s') :
    c.sessions[i]? = some s' ∨ (i = c.sessions.length ∧ ∃ tag, s' = fresh start priv₀ tag) ∨
      (∃ s q k r π', c.sessions[i]? = some s ∧ s.prog = .call q k ∧
        M.act c.shared (c.others i) s.priv q r c'.shared π' ∧
        s' = ⟨s.tag, π', k r, s.log ++ [⟨q, r⟩]⟩) ∨
      (∃ s π', c.sessions[i]? = some s ∧ s' = { s with priv := π' }) := by
  cases h with
  | spawn tag =>
    rw [List.getElem?_append] at hs'
    split at hs'
    · exact Or.inl hs'
    · rename_i hi
      obtain ⟨hlt, heq⟩ := List.getElem?_eq_some_iff.mp hs'
      have hzero : i - c.sessions.length = 0 := Nat.lt_one_iff.mp hlt
      simp only [hzero, List.getElem_cons_zero] at heq
      exact Or.inr (Or.inl ⟨by omega, tag, heq.symm⟩)
  | act hs hp ha =>
    rcases getElem?_set_cases hs' with h | ⟨rfl, h⟩
    · exact Or.inl h
    · exact Or.inr (Or.inr (Or.inl ⟨_, _, _, _, _, hs, hp, ha, h⟩))
  | stall hs hp ha =>
    rcases getElem?_set_cases hs' with h | ⟨rfl, h⟩
    · exact Or.inl h
    · exact Or.inr (Or.inr (Or.inr ⟨_, _, hs, h⟩))

/-- A step keeps every session, appends the new one, or changes the one it is about. -/
theorem Step.mem_sessions {c c' : Config Q A ε σ π τ α} {e : Event Q A ε τ} (h : Step M start priv₀ c e c')
    {s' : Session Q A ε π τ α} (hs' : s' ∈ c'.sessions) :
    s' ∈ c.sessions ∨ (∃ tag, s' = fresh start priv₀ tag) ∨
      (∃ s ∈ c.sessions, ∃ q k r π', s.prog = .call q k ∧ s' = ⟨s.tag, π', k r, s.log ++ [⟨q, r⟩]⟩) ∨
      (∃ s ∈ c.sessions, ∃ π', s' = { s with priv := π' }) := by
  obtain ⟨i, hi⟩ := List.mem_iff_getElem?.mp hs'
  rcases h.session hi with h | ⟨-, h⟩ | ⟨s, q, k, r, π', hs, hp, -, h⟩ | ⟨s, π', hs, h⟩
  · exact Or.inl (List.mem_of_getElem? h)
  · exact Or.inr (Or.inl h)
  · exact Or.inr (Or.inr (Or.inl ⟨s, List.mem_of_getElem? hs, q, k, r, π', hp, h⟩))
  · exact Or.inr (Or.inr (Or.inr ⟨s, List.mem_of_getElem? hs, π', h⟩))

/-- In every run, what is left of a session's program ensures what the monitor of its request promises, in
    the state that the session's calls have led to; `T` are the requests that the promise is made for. -/
theorem Run.ensures {State : Type} {T : τ → Prop} (mon : τ → Monitor Q A ε State) (s₀ : τ → State)
    {post : τ → State → Except ε α → Prop} {c₀ c : Config Q A ε σ π τ α} {es : List (Event Q A ε τ)}
    (run : Run M start priv₀ c₀ es c) (hstart : ∀ tag, T tag → (mon tag).Ensures (s₀ tag) (start tag) (post tag))
    (h₀ : ∀ s ∈ c₀.sessions, T s.tag → (mon s.tag).Ensures
      ((mon s.tag).after (s₀ s.tag) s.log) s.prog (post s.tag)) :
    ∀ s ∈ c.sessions, T s.tag → (mon s.tag).Ensures ((mon s.tag).after (s₀ s.tag) s.log) s.prog (post s.tag) := by
  induction run with
  | nil => exact h₀
  | snoc _ hstep ih =>
    intro s' hs' htag
    rcases hstep.mem_sessions hs' with hs' | ⟨tag, rfl⟩ | ⟨s, hs, q, k, r, π', hp, rfl⟩ | ⟨s, hs, π', rfl⟩
    · exact ih s' hs' htag
    · exact hstart tag htag
    · have h := ih s hs htag
      rw [hp] at h
      rw [Monitor.after_append]
      exact h.2 r
    · exact ih s hs htag

/-- In every run, what is left of a session's program obeys the monitor of its request. -/
theorem Run.obeys {State : Type} (mon : τ → Monitor Q A ε State) (s₀ : τ → State)
    {c₀ c : Config Q A ε σ π τ α} {es : List (Event Q A ε τ)} (run : Run M start priv₀ c₀ es c)
    (hstart : ∀ tag, (mon tag).Obeys (s₀ tag) (start tag))
    (h₀ : ∀ s ∈ c₀.sessions, (mon s.tag).Obeys ((mon s.tag).after (s₀ s.tag) s.log) s.prog) :
    ∀ s ∈ c.sessions, (mon s.tag).Obeys ((mon s.tag).after (s₀ s.tag) s.log) s.prog := fun s hs =>
  Run.ensures (T := fun _ => True) mon s₀ run (fun tag _ => hstart tag) (fun s hs _ => h₀ s hs) s hs trivial

end Sessions

end Interleave
