import Slideo.Lib.Interleave
import Mathlib.Data.List.Nodup

/-! Sessions that act on one object. Some calls take effect as an operation of the object, others do not;
    if every step simulates its effect, then a run performs the operations of its calls, in their order. -/

namespace Interleave

/-- What an operation makes of a state, if it is possible there. -/
structure Object (S O : Type) where
  apply : S → O → Option S

namespace Object
variable {S O : Type} (X : Object S O)

def run (s : S) (ops : List O) : Option S := ops.foldlM X.apply s

@[simp] theorem run_nil (s : S) : X.run s [] = some s := rfl

theorem run_append (s : S) (ops ops' : List O) : X.run s (ops ++ ops') = (X.run s ops).bind (X.run · ops') := by
  simp only [run, List.foldlM_append]
  rfl

theorem run_snoc {s s' s'' : S} {ops : List O} {o : O} (h : X.run s ops = some s') (ho : X.apply s' o = some s'') :
    X.run s (ops ++ [o]) = some s'' := by
  rw [run_append, h, Option.bind_some]
  show (X.apply s' o).bind some = _
  rw [ho]
  rfl

variable {X}

theorem run_cons {s s' : S} {o : O} {ops : List O} (h : X.run s (o :: ops) = some s') :
    ∃ t, X.apply s o = some t ∧ X.run t ops = some s' :=
  Option.bind_eq_some_iff.mp h

/-- What every operation keeps, a sequence of them keeps. -/
theorem run_keeps {P : S → Prop} (hkeep : ∀ s o s', P s → X.apply s o = some s' → P s') {ops : List O} :
    ∀ {s s' : S}, P s → X.run s ops = some s' → P s' := by
  induction ops with
  | nil =>
    intro s s' hs h
    cases h
    exact hs
  | cons o ops ih =>
    intro s s' hs h
    obtain ⟨t, ht, hrest⟩ := run_cons h
    exact ih (hkeep _ _ _ hs ht) hrest

/-- Where an operation of a sequence is performed, all that every operation keeps holds. -/
theorem run_at {P : S → Prop} (hkeep : ∀ s o s', P s → X.apply s o = some s' → P s')
    {ops : List O} {o : O} (ho : o ∈ ops) :
    ∀ {s s' : S}, P s → X.run s ops = some s' → ∃ t t' later, P t ∧
    X.apply t o = some t' ∧ X.run t' later = some s' := by
  induction ops with
  | nil => cases ho
  | cons o' ops ih =>
    intro s s' hs h
    obtain ⟨t, ht, hrest⟩ := run_cons h
    rcases List.mem_cons.mp ho with rfl | ho
    · exact ⟨s, t, ops, hs, ht, hrest⟩
    · exact ih ho (hkeep _ _ _ hs ht) hrest

/-- What is impossible as long as `P` holds does not occur. -/
theorem run_avoids {P : S → Prop} {bad : O → Prop} (hkeep : ∀ s o s', P s → X.apply s o = some s' → P s' ∧ ¬ bad o)
    {ops : List O} : ∀ {s s' : S}, P s → X.run s ops = some s' → ∀ o ∈ ops, ¬ bad o := by
  induction ops with
  | nil => exact fun _ _ _ h => by cases h
  | cons o ops ih =>
    intro s s' hs h o' ho'
    obtain ⟨t, ht, hrest⟩ := run_cons h
    obtain ⟨hP, hbad⟩ := hkeep _ _ _ hs ht
    rcases List.mem_cons.mp ho' with rfl | ho'
    · exact hbad
    · exact ih hP hrest o' ho'

/-- What an operation rules out for all that come later, holds between the operations of a sequence. -/
theorem run_pairwise {rel : O → O → Prop} {ops : List O}
    (h : ∀ s o t ops s', X.apply s o = some t → X.run t ops = some s' → ∀ o' ∈ ops, rel o o') :
    ∀ {s s' : S}, X.run s ops = some s' → ops.Pairwise rel := by
  induction ops with
  | nil => exact fun _ => .nil
  | cons o ops ih =>
    intro s s' hrun
    obtain ⟨t, ht, hrest⟩ := run_cons hrun
    exact List.pairwise_cons.mpr ⟨h s o t ops s' ht hrest, ih hrest⟩

/-- What an operation rules out for all that come later, no two operations of a sequence are. -/
theorem run_once (only : O → Prop) {ops : List O} {o o' : O}
    (h : ∀ s o t ops s', X.apply s o = some t → only o → X.run t ops = some s' → ∀ o' ∈ ops, ¬ only o')
    (ho : o ∈ ops) (ho' : o' ∈ ops) (honly : only o) (honly' : only o') : ∀ {s s' : S},
      X.run s ops = some s' → o = o' := by
  induction ops with
  | nil => cases ho
  | cons x ops ih =>
    intro s s' hrun
    obtain ⟨t, ht, hrest⟩ := run_cons hrun
    have hlater : only x → ∀ y ∈ ops, ¬ only y := fun hx => h s x t ops s' ht hx hrest
    rcases List.mem_cons.mp ho with heq | hmem <;> rcases List.mem_cons.mp ho' with heq' | hmem'
    · rw [heq, heq']
    · exact absurd honly' (hlater (heq ▸ honly) o' hmem')
    · exact absurd honly (hlater (heq' ▸ honly') o hmem)
    · exact ih hmem hmem' hrest

end Object

/-! ### The operations of a run -/

variable {Q : Type} {A : Q → Type} {ε σ π τ α S O : Type}

/-- The requests of a run, in the order of their arrival. -/
def arrivals (es : List (Event Q A ε τ)) : List τ := es.filterMap fun
  | .spawn tag => some tag
  | .act _ _ | .stall _ => none

/-- The operation of an event, with the number of its session; `tags` are the requests of the sessions. -/
def Event.effect? (effect : τ → Answered Q A ε → Option O) (tags : List τ) : Event Q A ε τ → Option (Nat × O)
  | .act i c => (tags[i]?).bind fun tag => (effect tag c).map (i, ·)
  | .spawn _ | .stall _ => none

/-- The operations of a run that starts without sessions. -/
def effects (effect : τ → Answered Q A ε → Option O) (es : List (Event Q A ε τ)) : List (Nat × O) :=
  es.filterMap (Event.effect? effect (arrivals es))

section Effects
variable {M : Semantics Q A ε σ π} {start : τ → Prog Q A ε α} {priv₀ : π} {effect : τ → Answered Q A ε → Option O}
  {c₀ c c' : Config Q A ε σ π τ α} {es es' : List (Event Q A ε τ)} {e : Event Q A ε τ}

theorem arrivals_append (es es' : List (Event Q A ε τ)) : arrivals (es ++ es') = arrivals es ++ arrivals es' :=
  List.filterMap_append

theorem tags_set {l : List (Session Q A ε π τ α)} {i : Nat} {s s' : Session Q A ε π τ α} (hs : l[i]? = some s)
    (htag : s'.tag = s.tag) : (l.set i s').map (·.tag) = l.map (·.tag) := by
  refine List.ext_getElem? fun j => ?_
  rw [List.getElem?_map, List.getElem?_map]
  by_cases hij : i = j
  · subst hij
    rw [List.getElem?_set_self (List.getElem?_eq_some_iff.mp hs).1, hs, Option.map_some, Option.map_some, htag]
  · rw [List.getElem?_set_ne hij]

/-- A step keeps the requests of the sessions, and adds the one that arrives. -/
theorem Step.tags (h : Step M start priv₀ c e c') :
    c'.sessions.map (·.tag) = c.sessions.map (·.tag) ++ arrivals [e] := by
  cases h with
  | spawn tag => simp [arrivals, fresh]
  | act hs hp ha => simpa [arrivals] using tags_set hs rfl
  | stall hs hp ha => simpa [arrivals] using tags_set hs rfl

theorem Run.tags (hstart : c₀.sessions = []) (run : Run M start priv₀ c₀ es c) :
    c.sessions.map (·.tag) = arrivals es := by
  induction run with
  | nil => rw [hstart]; rfl
  | snoc _ step ih => rw [step.tags, ih, arrivals_append]

/-- A session that takes a step has arrived. -/
theorem Run.arrived (hstart : c₀.sessions = []) (run : Run M start priv₀ c₀ es c) :
    ∀ {i : Nat} {a : Answered Q A ε}, Event.act i a ∈ es → i < (arrivals es).length := by
  induction run with
  | nil => exact fun h => (by cases h)
  | @snoc es c c' e run step ih =>
    intro i a h
    rw [arrivals_append, List.length_append]
    rcases List.mem_append.mp h with h | h
    · exact Nat.lt_add_right _ (ih h)
    · obtain rfl := List.mem_singleton.mp h
      cases step with
      | act hs hp ha =>
        refine Nat.lt_add_right _ ?_
        rw [← run.tags hstart, List.length_map]
        exact (List.getElem?_eq_some_iff.mp hs).1

/-- What has taken effect stays, whatever comes later. -/
theorem effects_append (hstart : c₀.sessions = []) (run : Run M start priv₀ c₀ es c) (es' : List (Event Q A ε τ)) :
    effects effect (es ++ es') = effects effect es ++
      es'.filterMap (Event.effect? effect (arrivals (es ++ es'))) := by
  rw [effects, List.filterMap_append]
  refine congrArg (· ++ _) (List.filterMap_congr fun e he => ?_)
  cases e with
  | spawn tag => rfl
  | stall i => rfl
  | act i a =>
    simp only [Event.effect?, arrivals_append]
    rw [List.getElem?_append_left (run.arrived hstart he)]

theorem effects_snoc (hstart : c₀.sessions = []) (run : Run M start priv₀ c₀ es c)
    (step : Step M start priv₀ c e c') :
    effects effect (es ++ [e]) = effects effect es ++ (e.effect? effect (c.sessions.map (·.tag))).toList := by
  rw [effects_append hstart run, run.tags hstart]
  refine congrArg (_ ++ ·) ?_
  cases step with
  | spawn tag => rfl
  | stall hs hp ha => rfl
  | @act i s q k r σ' π' hs hp ha =>
    have hsame : arrivals (es ++ [.act i ⟨q, r⟩]) = arrivals es := by simp [arrivals]
    rw [hsame, List.filterMap_cons]
    cases Event.effect? effect (arrivals es) (.act i ⟨q, r⟩) <;> rfl

/-- The operations of a session's calls. -/
def Config.opsOf (effect : τ → Answered Q A ε → Option O) (c : Config Q A ε σ π τ α) (i : Nat) : List O :=
  (c.sessions[i]?).elim [] fun s => s.log.filterMap (effect s.tag)

/-- What an event adds to the operations of session `i`. -/
theorem Step.opsOf (h : Step M start priv₀ c e c') (i : Nat) : c'.opsOf effect i =
    c.opsOf effect i ++ ((e.effect? effect (c.sessions.map (·.tag))).toList.filter (·.1 == i)).map (·.2) := by
  cases h with
  | spawn tag =>
    have hadd : (⟨c.shared, c.sessions ++ [fresh start priv₀ tag]⟩ : Config Q A ε σ π τ α).opsOf effect i =
        c.opsOf effect i := by
      unfold Config.opsOf
      by_cases hi : i < c.sessions.length
      · rw [List.getElem?_append_left hi]
      · rw [List.getElem?_append_right (not_lt.mp hi), List.getElem?_eq_none (not_lt.mp hi)]
        cases i - c.sessions.length <;> rfl
    simp [hadd, Event.effect?]
  | @stall j s q k π' hs hp ha =>
    have hsame : (⟨c.shared, c.sessions.set j { s with priv := π' }⟩ : Config Q A ε σ π τ α).opsOf effect i =
        c.opsOf effect i := by
      unfold Config.opsOf
      by_cases hij : j = i
      · subst hij
        rw [List.getElem?_set_self (List.getElem?_eq_some_iff.mp hs).1, hs]
        rfl
      · rw [List.getElem?_set_ne hij]
    simp [hsame, Event.effect?]
  | @act j s q k r σ' π' hs hp ha =>
    have hop : Event.effect? effect (c.sessions.map (·.tag)) (.act j ⟨q, r⟩) =
      (effect s.tag ⟨q, r⟩).map (j, ·) := by
      simp [Event.effect?, hs]
    rw [hop]
    unfold Config.opsOf
    by_cases hij : j = i
    · subst hij
      rw [List.getElem?_set_self (List.getElem?_eq_some_iff.mp hs).1, hs]
      simp only [Option.elim_some, List.filterMap_append, List.filterMap_cons, List.filterMap_nil]
      cases effect s.tag ⟨q, r⟩ <;> simp
    · rw [List.getElem?_set_ne hij]
      cases effect s.tag ⟨q, r⟩ <;> simp [hij]

theorem Run.effects_of (hstart : c₀.sessions = []) (run : Run M start priv₀ c₀ es c) (i : Nat) :
    ((effects effect es).filter (·.1 == i)).map (·.2) = c.opsOf effect i := by
  induction run with
  | nil => simp [effects, Config.opsOf, hstart]
  | snoc run step ih => rw [effects_snoc hstart run step, List.filter_append, List.map_append, ih, step.opsOf]

/-- The operations of one sort are as many as the sessions that have performed one, if none performs two. -/
theorem Run.countP_effects (hstart : c₀.sessions = []) (p : O → Bool) (run : Run M start priv₀ c₀ es c)
    (honce : ∀ {es : List (Event Q A ε τ)} {c : Config Q A ε σ π τ α}, Run M start priv₀ c₀ es c →
      ∀ s ∈ c.sessions, (s.log.filterMap (effect s.tag)).countP p ≤ 1) :
    (effects effect es).countP (fun o => p o.2) = c.sessions.countP fun s =>
      (s.log.filterMap (effect s.tag)).any p := by
  induction run with
  | nil => rw [hstart]; rfl
  | @snoc es c c' e run step ih =>
    rw [effects_snoc hstart run step, List.countP_append, ih]
    have hnext := honce (.snoc run step)
    cases step with
    | spawn tag => rw [List.countP_append]; rfl
    | stall hs hp ha =>
      refine (Nat.add_zero _).trans (countP_set_of_eq hs ?_).symm
      rfl
    | @act i s q k r σ' π' hs hp ha =>
      have hop : Event.effect? effect (c.sessions.map (·.tag)) (.act i ⟨q, r⟩) =
        (effect s.tag ⟨q, r⟩).map (i, ·) := by
        simp [Event.effect?, hs]
      have hmem : (⟨s.tag, π', k r, s.log ++ [⟨q, r⟩]⟩ : Session Q A ε π τ α) ∈ c.sessions.set i
        ⟨s.tag, π', k r, s.log ++ [⟨q, r⟩]⟩ :=
        List.mem_set (List.getElem?_eq_some_iff.mp hs).1 _
      have honce' := hnext _ hmem
      have hset := countP_set (p := fun s => (s.log.filterMap (effect s.tag)).any p)
        (y := ⟨s.tag, π', k r, s.log ++ [⟨q, r⟩]⟩) hs
      simp only [List.filterMap_append, List.countP_append, List.any_append, List.filterMap_cons,
        List.filterMap_nil] at honce' hset
      rw [hop]
      cases ho : effect s.tag ⟨q, r⟩ with
      | none =>
        simp only [ho, List.any_nil, Bool.or_false] at hset
        exact (Nat.add_right_cancel hset).symm
      | some o =>
        simp only [ho, List.any_cons, List.any_nil, Bool.or_false, List.countP_singleton] at hset honce'
        cases hpo : p o with
        | false =>
          rw [hpo, Bool.or_false] at hset
          simpa [hpo] using (Nat.add_right_cancel hset).symm
        | true =>
          rw [hpo, if_pos rfl] at honce'
          have hbefore : (s.log.filterMap (effect s.tag)).any p = false := by
            rw [List.any_eq_false]
            exact List.countP_eq_zero.mp (Nat.lt_one_iff.mp honce')
          rw [hpo, hbefore] at hset
          simpa [hpo] using hset.symm

/-- If no session has two effects, no session is named twice. -/
theorem Run.effects_once (hstart : c₀.sessions = []) (run : Run M start priv₀ c₀ es c)
    (honce : ∀ s ∈ c.sessions, (s.log.filterMap (effect s.tag)).length ≤ 1) :
    ((effects effect es).map (·.1)).Nodup := by
  refine List.nodup_iff_count_le_one.mpr fun i => ?_
  have hops : (c.opsOf effect i).length ≤ 1 := by
    unfold Config.opsOf
    cases hs : c.sessions[i]? with
    | none => exact Nat.zero_le 1
    | some s => exact honce s (List.mem_of_getElem? hs)
  rw [← run.effects_of hstart i, List.length_map, ← List.countP_eq_length_filter] at hops
  rwa [List.count, List.countP_map]

/-- A session that has taken effect is named, with its operation. -/
theorem Run.effect_mem (hstart : c₀.sessions = []) (run : Run M start priv₀ c₀ es c) {i : Nat} {o : O} :
    (i, o) ∈ effects effect es ↔ o ∈ c.opsOf effect i := by
  rw [← run.effects_of hstart i]
  simp

/-- What every call is like when it is answered, the calls of every session are like. -/
theorem Run.called {P : τ → Answered Q A ε → Prop} (hstart : c₀.sessions = []) (run : Run M start priv₀ c₀ es c)
    (hcall : ∀ {es : List (Event Q A ε τ)} {c : Config Q A ε σ π τ α} {i : Nat} {s : Session Q A ε π τ α} {q : Q}
      {k : Except ε (A q) → Prog Q A ε α} {r : Except ε (A q)} {σ' : σ} {π' : π}, Run M start priv₀ c₀ es c →
      c.sessions[i]? = some s → s.prog = .call q k →
      M.act c.shared (c.others i) s.priv q r σ' π' → P s.tag ⟨q, r⟩) :
    ∀ s ∈ c.sessions, ∀ a ∈ s.log, P s.tag a := by
  induction run with
  | nil =>
    rw [hstart]
    exact fun s hs => by cases hs
  | snoc run step ih =>
    intro s' hs' a ha
    obtain ⟨i, hi⟩ := List.mem_iff_getElem?.mp hs'
    rcases step.session hi with hs | ⟨-, tag, rfl⟩ | ⟨s, q, k, r, π', hs, hp, hact, rfl⟩ | ⟨s, π', hs, rfl⟩
    · exact ih s' (List.mem_of_getElem? hs) a ha
    · cases ha
    · rcases List.mem_append.mp ha with ha | ha
      · exact ih s (List.mem_of_getElem? hs) a ha
      · rw [List.mem_singleton.mp ha]
        show P s.tag ⟨q, r⟩
        exact hcall run hs hp hact
    · exact ih s (List.mem_of_getElem? hs) a ha

/-- What every allowed call of a request is like, its calls in a run are like. -/
theorem Run.logged {State : Type} {P : τ → Answered Q A ε → Prop} (mon : τ → Monitor Q A ε State) (s₀ : τ → State)
    (hstart : c₀.sessions = []) (hobeys : ∀ tag, (mon tag).Obeys (s₀ tag) (start tag))
    (hP : ∀ tag m q r, (mon tag).Allowed m q → P tag ⟨q, r⟩) (run : Run M start priv₀ c₀ es c) :
    ∀ s ∈ c.sessions, ∀ a ∈ s.log, P s.tag a := by
  refine run.called hstart fun {_ c i s q k r σ' π'} run hs hp _ => ?_
  have hnone : ∀ s ∈ c₀.sessions, (mon s.tag).Obeys ((mon s.tag).after (s₀ s.tag) s.log) s.prog := by
    rw [hstart]
    exact fun s hs => by cases hs
  have hnext := Run.obeys mon s₀ run hobeys hnone s (List.mem_of_getElem? hs)
  rw [hp] at hnext
  exact hP _ _ _ _ hnext.1

/-- What the allowed calls of a request keep of its monitor's state, holds of the calls of every session. -/
theorem Run.monitored {State : Type} {P : τ → State → Prop} (mon : τ → Monitor Q A ε State) (s₀ : τ → State)
    (hstart : c₀.sessions = []) (hobeys : ∀ tag, (mon tag).Obeys (s₀ tag) (start tag)) (hP₀ : ∀ tag, P tag (s₀ tag))
    (hP : ∀ tag m q r, P tag m → (mon tag).Allowed m q → P tag ((mon tag).next m q r))
    (run : Run M start priv₀ c₀ es c) :
    ∀ s ∈ c.sessions, P s.tag ((mon s.tag).after (s₀ s.tag) s.log) := by
  have hnone : ∀ s ∈ c₀.sessions, (mon s.tag).Obeys ((mon s.tag).after (s₀ s.tag) s.log) s.prog := by
    rw [hstart]
    exact fun s hs => by cases hs
  induction run with
  | nil =>
    rw [hstart]
    exact fun s hs => by cases hs
  | snoc run step ih =>
    intro s' hs'
    rcases step.mem_sessions hs' with hs' | ⟨tag, rfl⟩ | ⟨s, hs, q, k, r, π', hp, rfl⟩ | ⟨s, hs, π', rfl⟩
    · exact ih s' hs'
    · exact hP₀ tag
    · have hs' := Run.obeys mon s₀ run hobeys hnone s hs
      rw [hp] at hs'
      rw [Monitor.after_append]
      exact hP _ _ _ _ (ih s hs) hs'.1
    · exact ih s hs

/-- The monitor that keeps the calls; `P` says which call may follow which. -/
def transcript (P : List (Answered Q A ε) → Q → Prop) : Monitor Q A ε (List (Answered Q A ε)) where
  Allowed := P
  next log q r := log ++ [⟨q, r⟩]

theorem after_transcript {P : List (Answered Q A ε) → Q → Prop} (log log' : List (Answered Q A ε)) :
    (transcript P).after log log' = log ++ log' := by
  induction log' generalizing log with
  | nil => rw [List.append_nil]; rfl
  | cons a log' ih =>
    show (transcript P).after (log ++ [a]) log' = _
    rw [ih, List.append_assoc]
    rfl

/-- Forward simulation: where every step relates the next configuration to what its effect makes of the
    object, a run performs its effects one after another. -/
theorem Run.performs {X : Object S O} {R : S → Config Q A ε σ π τ α → Prop} {s₀ : S} (hstart : c₀.sessions = [])
    (h₀ : R s₀ c₀) (run : Run M start priv₀ c₀ es c)
    (hstep : ∀ {es : List (Event Q A ε τ)} {c c' : Config Q A ε σ π τ α} {e : Event Q A ε τ} {s : S},
      Run M start priv₀ c₀ es c → Step M start priv₀ c e c' → R s c →
      (e.effect? effect (c.sessions.map (·.tag))).elim (R s c') fun o => ∃ s', X.apply s o.2 = some s' ∧ R s' c') :
    ∃ s, X.run s₀ ((effects effect es).map (·.2)) = some s ∧ R s c := by
  induction run with
  | nil => exact ⟨s₀, rfl, h₀⟩
  | @snoc es c c' e run step ih =>
    obtain ⟨s, hs, hR⟩ := ih
    have hnext := hstep run step hR
    rw [effects_snoc hstart run step, List.map_append]
    cases ho : e.effect? effect (c.sessions.map (·.tag)) with
    | none =>
      rw [ho] at hnext
      exact ⟨s, by simpa using hs, hnext⟩
    | some o =>
      rw [ho] at hnext
      obtain ⟨s', hs', hR'⟩ := hnext
      exact ⟨s', Object.run_snoc X hs hs', hR'⟩

end Effects

end Interleave
