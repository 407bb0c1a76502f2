import Slideo.Theorems.Failures
import Slideo.Theorems.Race

/-! The first requests of a month. Each request that finds the usage of an earlier month resets it, on the
    strength of a row it read before. A reset that comes after another request was counted takes that count
    back; as long as resets only meet usage that nobody has counted in, no count is lost. -/

namespace Slideo
open Js Interleave

/-! ### Stages of a `POST /api/presentations` -/

/-- How far a request has come with the usage of the month. -/
inductive Stage where
  | arrived
  | looked (row : User)
  | stale (row : User) (now : Time)
  | current
  | created
  | counted
  | missing
  | failed
  deriving DecidableEq

/-- The calls of a `POST /api/presentations`; a reset is for the row and the instant that were read. -/
def rollover (env : Env) (user : AuthUser) : Monitor Query Query.Answer Err Stage where
  Allowed
    | .arrived, .userFindUnique id => id = user.id
    | .looked _, .clock => True
    | .stale row now, .userUpdate id patch => id = row.id ∧ patch = .resetUsage now
    | .current, .templateFindUnique _ | .current, .generateContent _ | .current, .presentationCreate _ _ _ => True
    | .created, .userUpdate id patch => id = user.id ∧ patch = .incrementUsage
    | _, _ => False
  next
    | .arrived, .userFindUnique _, .ok (some row) => .looked row
    | .arrived, .userFindUnique _, .ok none => .missing
    | .looked row, .clock, .ok now => if monthChanged env now row.lastUsageReset then .stale row now else .current
    | .stale _ _, .userUpdate _ _, .ok _ => .current
    | .current, .presentationCreate _ _ _, .ok _ => .created
    | .current, .presentationCreate _ _ _, .error _ => .failed
    | .current, _, _ => .current
    | .created, .userUpdate _ _, .ok _ => .counted
    | _, _, _ => .failed

/-- Where a request can be when it ends without an error. -/
def EndsAt (m : Stage) (r : Except Err Response) : Prop := statusOf r < 500 →
    m = .current ∨ m = .counted ∨ m = .missing

section Discipline
variable {env : Env} {user : AuthUser}

theorem endsAt_error (m : Stage) (e : Err) : EndsAt m (.error e) := fun h => absurd h (lt_irrefl 500)

theorem rollover_guarded {m : Stage} {onError : Err → Response} {body : Handler Response}
    (herror : ∀ e, (onError e).status = 500) (h : (rollover env user).Ensures m body EndsAt) :
    (rollover env user).Ensures m (guarded onError body) EndsAt := by
  refine ensures_guarded h fun m' e _ h => ?_
  rw [statusOf, herror] at h
  exact absurd h (lt_irrefl 500)

theorem rollover_saveDeck {topic : Val} {slides : List Json} :
    (rollover env user).Ensures .current (saveDeck user topic slides) EndsAt := by
  unfold saveDeck
  cases mapIdxOption createSlideData slides with
  | none => exact endsAt_error _ _
  | some data =>
    refine Monitor.Ensures.ask_bind trivial (fun deck => ?_) fun e => endsAt_error _ e
    exact Monitor.Ensures.ask_bind ⟨rfl, rfl⟩ (fun _ _ => Or.inr (Or.inl rfl)) fun e => endsAt_error _ e

theorem rollover_createPresentation {body : Val} :
    (rollover env user).Ensures .current (createPresentation user body) EndsAt := by
  refine rollover_guarded (fun _ => rfl) ?_
  split
  · exact fun _ => Or.inl rfl
  unfold prop
  cases Js.get body "topic" with
  | none => exact endsAt_error _ _
  | some topic =>
    show Monitor.Ensures _ _ (if _ then _ else _) _
    split
    · exact fun _ => Or.inl rfl
    refine (ensures_findRequiredLayouts (fun _ => trivial) fun _ _ => rfl).bind_of (fun m layouts hm => ?_)
      fun _ e _ => endsAt_error _ e
    cases hm
    refine (ensures_finalSlides (fun _ => trivial) fun _ _ => rfl).bind_of (fun m slides hm => ?_)
      fun _ e _ => endsAt_error _ e
    cases hm
    exact rollover_saveDeck

theorem rollover_resetUsage {now : Time} {row : User} :
    (rollover env user).Ensures ((rollover env user).next (.looked row) .clock (.ok now)) (resetUsage env now row)
      fun m r => ∀ row', r = .ok row' → m = .current := by
  show (rollover env user).Ensures (if _ then _ else _) _ _
  unfold resetUsage
  by_cases hmonth : monthChanged env now row.lastUsageReset
  · rw [if_pos hmonth, if_pos hmonth]
    exact Monitor.Ensures.ask_bind ⟨rfl, rfl⟩ (fun _ _ _ => rfl) fun _ _ h => by cases h
  · rw [if_neg hmonth, if_neg hmonth]
    exact fun _ _ => rfl

/-- Whoever passes the limiter has met usage of the month. -/
theorem rollover_checkLimits : (rollover env user).Ensures .arrived (checkLimits env user) fun m r =>
    (∀ row, r = .ok (.inr row) → m = .current) ∧ ∀ response, r = .ok (.inl response) → EndsAt m (.ok response) := by
  have threw : ∀ (m : Stage) e,
      (∀ row, (Except.error e : Except Err (Response ⊕ User)) = .ok (.inr row) → m = .current) ∧
      ∀ response, (Except.error e : Except Err (Response ⊕ User)) = .ok (.inl response) → EndsAt m (.ok response) :=
    fun _ _ => ⟨fun _ h => (by cases h), fun _ h => by cases h⟩
  refine Monitor.Ensures.caught (?_ : (rollover env user).Ensures .arrived _ fun m r =>
    (∀ row, r = .ok (.inr row) → m = .current) ∧ ∀ response, r = .ok (.inl response) → EndsAt m (.ok response))
    (fun _ _ h => h) fun m e _ => ⟨fun _ h => (by cases h), fun response h => ?_⟩
  · refine Monitor.Ensures.ask_bind rfl (fun found => ?_) (threw _)
    cases found with
    | none => exact ⟨fun _ h => (by cases h), fun _ _ _ => Or.inr (Or.inr rfl)⟩
    | some row =>
      refine Monitor.Ensures.ask_bind trivial (fun now => ?_) (threw _)
      refine rollover_resetUsage.bind_of (fun m row' hm => ?_) fun m e _ => threw m e
      cases hm row' rfl
      show Monitor.Ensures _ _ (if _ then _ else _) _
      split
      · exact ⟨fun _ h => (by cases h), fun _ _ _ => Or.inl rfl⟩
      · exact ⟨fun _ _ => rfl, fun _ _ _ => Or.inl rfl⟩
  · cases h
    exact fun h => absurd h (lt_irrefl 500)

theorem rollover_handle {req : Request} {body : Val} (huser : req.user? env = some user)
    (hpost : req.endpoint = .createPresentation body) :
    (rollover env user).Ensures .arrived (handle env req) EndsAt := by
  rw [handle, hpost]
  show Monitor.Ensures _ _ (authenticated env req (postPresentations env body)) _
  rw [authenticated_of_user huser]
  refine rollover_checkLimits.bind_of (fun m passed hr => ?_) fun _ e _ => endsAt_error _ e
  rcases passed with response | row
  · exact hr.2 response rfl
  · cases hr.1 row rfl
    dsimp only
    split
    · exact rollover_createPresentation
    · exact fun _ => Or.inl rfl

end Discipline

/-! ### One step -/

/-- What a call does to the stage of its request and to the user row; the flag tells whether it stores a
    presentation. -/
inductive Rolls (env : Env) (month : Month) (row : User) : Stage → Bool → Stage → User → Prop
  | looked : Rolls env month row .arrived false (.looked row) row
  | stale {seen : User} {now : Time} (hnow : env.month now = month) :
      Rolls env month row (.looked seen) false (.stale seen now) row
  | current {seen : User} (hsame : env.month seen.lastUsageReset = month) :
      Rolls env month row (.looked seen) false .current row
  | reset {seen row' : User} {now : Time} (hcount : row'.presentationsCreatedThisMonth = 0)
      (hreset : row'.lastUsageReset = now) :
      Rolls env month row (.stale seen now) false .current row'
  | prepared : Rolls env month row .current false .current row
  | stored : Rolls env month row .current true .created row
  | counted {row' : User} (hcount : row'.presentationsCreatedThisMonth = row.presentationsCreatedThisMonth + 1)
      (hreset : row'.lastUsageReset = row.lastUsageReset) : Rolls env month row .created false .counted row'
  | failed {m : Stage} (hm : m ≠ .counted) : Rolls env month row m false .failed row

section Step
variable {env : Env} {user : AuthUser} {month : Month} {m m' : Stage} {q : Query} {r : Except Err q.Answer}
  {s s' : Store} {others : List Conn} {c c' : Conn} {row row' : User} {stored : Bool}

theorem rollover_inv (h : (rollover env user).Allowed m q) :
    (m = .arrived ∧ q = .userFindUnique user.id) ∨ (∃ seen, m = .looked seen ∧ q = .clock) ∨
      (∃ seen now, m = .stale seen now ∧ q = .userUpdate seen.id (.resetUsage now)) ∨
      (m = .current ∧ ((∃ id, q = .templateFindUnique id) ∨ (∃ p, q = .generateContent p) ∨
        ∃ userId title data, q = .presentationCreate userId title data)) ∨
      (m = .created ∧ q = .userUpdate user.id .incrementUsage) := by
  simp only [rollover] at h
  split at h
  · exact Or.inl ⟨rfl, by rw [h]⟩
  · exact Or.inr (Or.inl ⟨_, rfl, rfl⟩)
  · exact Or.inr (Or.inr (Or.inl ⟨_, _, rfl, by rw [h.1, h.2]⟩))
  · exact Or.inr (Or.inr (Or.inr (Or.inl ⟨rfl, Or.inl ⟨_, rfl⟩⟩)))
  · exact Or.inr (Or.inr (Or.inr (Or.inl ⟨rfl, Or.inr (Or.inl ⟨_, rfl⟩)⟩)))
  · exact Or.inr (Or.inr (Or.inr (Or.inl ⟨rfl, Or.inr (Or.inr ⟨_, _, _, rfl⟩)⟩)))
  · exact Or.inr (Or.inr (Or.inr (Or.inr ⟨rfl, by rw [h.1, h.2]⟩)))
  · exact h.elim

/-- Every call of a request is one of these. -/
theorem Act.rolls (h : Act s others c q r s' c') (hq : (rollover env user).Allowed m q) (htx : c.tx = none)
    (hrow : s.db.users.find? user.id = some row) (hseen : ∀ seen now, m = .stale seen now → seen.id = user.id)
    {i : Nat} (hpost : postsOf env user month (.act i ⟨q, r⟩) = true) :
    c'.tx = none ∧ ∃ row', s'.db.users.find? user.id = some row' ∧
      Rolls env month row m (storesDeck ⟨q, r⟩) ((rollover env user).next m q r) row' := by
  have hstatement : q.IsStatement := by
    rcases rollover_inv hq with ⟨-, rfl⟩ | ⟨_, -, rfl⟩ | ⟨_, _, -, rfl⟩ | ⟨-,
      ⟨_, rfl⟩ | ⟨_, rfl⟩ | ⟨_, _, _, rfl⟩⟩ | ⟨-, rfl⟩ <;>
      trivial
  refine ⟨(h.outside hstatement htx).1, ?_⟩
  have hkept : (∀ w y, Issues w q y → y.onUsers = false) → s'.db.users.find? user.id = some row := by
    intro husers
    rw [h.users_eq hstatement htx husers, hrow]
  rcases rollover_inv hq with ⟨rfl, rfl⟩ | ⟨seen, rfl, rfl⟩ | ⟨seen, now, rfl, rfl⟩ | ⟨rfl, hcurrent⟩ | ⟨rfl, rfl⟩
  · refine ⟨row, hkept fun _ _ h => h.elim, ?_⟩
    rcases h.userFindUnique htx with ⟨e, rfl⟩ | rfl
    · exact .failed fun h => by cases h
    · rw [hrow]
      exact .looked
  · refine ⟨row, hkept fun _ _ h => h.elim, ?_⟩
    cases r with
    | error e => exact .failed fun h => by cases h
    | ok now =>
      have hnow : env.month now = month := of_decide_eq_true hpost
      show Rolls env month row (.looked seen) false (if _ then _ else _) row
      split
      · exact .stale hnow
      · rename_i hsame
        rw [monthChanged_iff, not_not] at hsame
        exact .current (hsame.trans hnow)
  · rw [hseen seen now rfl] at h
    rcases h.userUpdate htx hrow with ⟨e, rfl, hdb⟩ | ⟨at_, rfl, hrow'⟩
    · exact ⟨row, by rw [hdb, hrow], .failed fun h => by cases h⟩
    · exact ⟨_, hrow', .reset rfl rfl⟩
  · rcases hcurrent with ⟨id, rfl⟩ | ⟨p, rfl⟩ | ⟨userId, title, data, rfl⟩
    · exact ⟨row, hkept fun _ _ h => h.elim, .prepared⟩
    · exact ⟨row, hkept fun _ _ h => h.elim, .prepared⟩
    · refine ⟨row, hkept fun w y hy => ?_, ?_⟩
      · rcases hy with ⟨p, rfl, -⟩ | ⟨s, rfl, -⟩ <;> rfl
      · cases r with
        | error e => exact .failed fun h => by cases h
        | ok deck => exact .stored
  · rcases h.userUpdate htx hrow with ⟨e, rfl, hdb⟩ | ⟨at_, rfl, hrow'⟩
    · exact ⟨row, by rw [hdb, hrow], .failed fun h => by cases h⟩
    · exact ⟨_, hrow', .counted rfl rfl⟩

end Step

/-! ### Every run -/

section Holding
variable (env : Env) (user : AuthUser) (month : Month)

def stage (s : ServerSession) : Stage := (rollover env user).after .arrived s.log

def isRecorded (s : ServerSession) : Bool := decide (stage env user s = .counted)

/-- The request has answered, and not with an error of the server. -/
def succeeded (s : ServerSession) : Bool :=
  match s.prog with
  | .pure response => decide (response.status < 500)
  | _ => false

/-- A reset meets usage of an earlier month, or usage in which nothing is counted. -/
def resetsUnused (c : Server) : ServerEvent → Bool
  | .act _ ⟨.userUpdate id (.resetUsage _), _⟩ => match c.shared.db.users.find? id with
    | some row => decide (env.month row.lastUsageReset ≠ month ∨ row.presentationsCreatedThisMonth = 0)
    | none => true
  | _ => true

/-- What the stage of a request tells; `late` says that the usage is of the month. -/
structure Sound (late : Prop) (m : Stage) (deck : Bool) : Prop where
  present : m ≠ .missing
  looked : ∀ seen, m = .looked seen → seen.id = user.id ∧ (env.month seen.lastUsageReset = month → late)
  stale : ∀ seen now, m = .stale seen now → seen.id = user.id ∧ env.month now = month
  current : m = .current ∨ m = .created ∨ m = .counted → late
  undone : deck = true → m = .created ∨ m = .counted ∨ m = .failed
  done : m = .created ∨ m = .counted → deck = true

structure SessionRolls (late : Prop) (s : ServerSession) : Prop where
  ensures : (rollover env user).Ensures (stage env user s) s.prog EndsAt
  tx : s.priv.tx = none
  sound : Sound env user month late (stage env user s) (createsDeck s)

/-- The usage of the month is what was counted. -/
def RolloverInv (c : Server) : Prop :=
  ∃ row, c.shared.db.users.find? user.id = some row ∧
    (∀ s ∈ c.sessions, SessionRolls env user month (env.month row.lastUsageReset = month) s) ∧
    (env.month row.lastUsageReset = month → row.presentationsCreatedThisMonth =
      c.sessions.countP (isRecorded env user))

end Holding

section Session
variable {env : Env} {user : AuthUser} {month : Month} {m m' : Stage} {row row' : User}
  {deck stored : Bool} {late late' : Prop}

theorem Sound.mono (h : Sound env user month late m deck) (hlate : late → late') :
    Sound env user month late' m deck :=
  ⟨h.present, fun seen hm => ⟨(h.looked seen hm).1, fun hmonth => hlate ((h.looked seen hm).2 hmonth)⟩, h.stale,
    fun hm => hlate (h.current hm), h.undone, h.done⟩

theorem SessionRolls.mono {s : ServerSession} (h : SessionRolls env user month late s) (hlate : late → late') :
    SessionRolls env user month late' s :=
  ⟨h.ensures, h.tx, h.sound.mono hlate⟩

/-- Usage of the month stays so. -/
theorem Rolls.stays_late (h : Rolls env month row m stored m' row') (hsound : Sound env user month late m deck)
    (hlate : env.month row.lastUsageReset = month) : env.month row'.lastUsageReset = month := by
  cases h with
  | reset hcount hreset => rw [hreset, (hsound.stale _ _ rfl).2]
  | counted hcount hreset => rw [hreset, hlate]
  | _ => exact hlate

theorem Rolls.sound (h : Rolls env month row m stored m' row') (hid : row.id = user.id)
    (hsound : Sound env user month (env.month row.lastUsageReset = month) m deck) :
    Sound env user month (env.month row'.lastUsageReset = month) m' (deck || stored) := by
  have hundone := hsound.undone
  cases h with
  | looked => exact ⟨by simp, by simp [hid], by simp, by simp, by simpa using hundone, by simp⟩
  | stale hnow =>
    have hseen := (hsound.looked _ rfl).1
    exact ⟨by simp, by simp, by simp [hseen, hnow], by simp, by simpa using hundone, by simp⟩
  | current hsame =>
    have hlate := (hsound.looked _ rfl).2 hsame
    exact ⟨by simp, by simp, by simp, by simp [hlate], by simpa using hundone, by simp⟩
  | reset hcount hreset =>
    have hnow := (hsound.stale _ _ rfl).2
    exact ⟨by simp, by simp, by simp, by simp [hreset, hnow], by simpa using hundone, by simp⟩
  | prepared => exact ⟨by simp, by simp, by simp, hsound.current, by simpa using hundone, by simp⟩
  | stored => exact ⟨by simp, by simp, by simp, by simp [hsound.current (Or.inl rfl)], by simp, by simp⟩
  | counted hcount hreset =>
    have hlate := hsound.current (Or.inr (Or.inl rfl))
    have hdone := hsound.done (Or.inl rfl)
    exact ⟨by simp, by simp, by simp, by simp [hreset, hlate], by simp, by simp [hdone]⟩
  | failed hm => exact ⟨by simp, by simp, by simp, by simp, by simp, by simp⟩

theorem Rolls.uncounted_before (h : Rolls env month row m stored m' row') : m ≠ .counted := by
  cases h with
  | failed hm => exact hm
  | _ => exact fun h => by cases h

/-- The usage follows the number of requests that are counted, unless a reset takes some back. -/
theorem Rolls.counts {n : Nat} (h : Rolls env month row m stored m' row')
    (hsound : Sound env user month (env.month row.lastUsageReset = month) m deck)
    (hcount : env.month row.lastUsageReset = month → row.presentationsCreatedThisMonth = n)
    (hearly : env.month row.lastUsageReset ≠ month → n = 0)
    (hunused : ∀ seen now, m = .stale seen now → env.month row.lastUsageReset ≠ month ∨
      row.presentationsCreatedThisMonth = 0) :
    env.month row'.lastUsageReset = month → row'.presentationsCreatedThisMonth = n +
      (decide (m' = .counted)).toNat := by
  cases h with
  | @reset seen _ now hzero hreset =>
    intro _
    have hn : n = 0 := by
      by_cases hlate : env.month row.lastUsageReset = month
      · rcases hunused seen now rfl with h | h
        · exact absurd hlate h
        · rw [← hcount hlate, h]
      · exact hearly hlate
    rw [hzero, hn]
    rfl
  | counted hnext hreset =>
    intro _
    rw [hnext, hcount (hsound.current (Or.inr (Or.inl rfl)))]
    rfl
  | _ => exact hcount

end Session

section Runs
variable {env : Env} {user : AuthUser} {month : Month} {c c' : Server} {e : ServerEvent}

theorem sessionRolls_fresh {late : Prop} {req : Request} (h : postsOf env user month (.spawn req) = true) :
    SessionRolls env user month late (fresh (handle env) {} req) := by
  have hsound : Sound env user month late .arrived false :=
    ⟨by simp, by simp, by simp, by simp, by simp, by simp⟩
  cases hreq : req.endpoint with
  | createPresentation body =>
    simp only [postsOf, hreq, decide_eq_true_eq] at h
    exact ⟨rollover_handle h hreq, rfl, hsound⟩
  | _ =>
    simp only [postsOf, hreq] at h
    cases h

/-- Before the month is entered nothing is counted in it. -/
theorem countP_isRecorded_early {late : Prop} {l : List ServerSession}
    (h : ∀ s ∈ l, SessionRolls env user month late s) (hlate : ¬ late) : l.countP (isRecorded env user) = 0 := by
  refine List.countP_eq_zero.mpr fun s hs hcounted => hlate ?_
  exact (h s hs).sound.current (Or.inr (Or.inr (of_decide_eq_true hcounted)))

theorem RolloverInv.step (inv : RolloverInv env user month c) (h : ServerStep env c e c')
    (hpost : postsOf env user month e = true) (hunused : resetsUnused env month c e = true) :
    RolloverInv env user month c' := by
  obtain ⟨row, hrow, hsessions, hcount⟩ := inv
  cases h with
  | spawn req =>
    refine ⟨row, hrow, fun s hs => ?_, fun hlate => ?_⟩
    · rcases List.mem_append.mp hs with hs | hs
      · exact hsessions s hs
      · rw [List.mem_singleton.mp hs]
        exact sessionRolls_fresh hpost
    · rw [List.countP_append, hcount hlate]
      rfl
  | @act i s q p r σ' π' hs hp ha =>
    have hs' := hsessions s (List.mem_of_getElem? hs)
    have hensures := hs'.ensures
    rw [hp] at hensures
    obtain ⟨htx, row', hrow', hrolls⟩ := ha.rolls hensures.1 hs'.tx hrow
      (fun seen now hm => (hs'.sound.stale seen now hm).1) hpost
    have hstage : stage env user ⟨s.tag, π', p r, s.log ++ [⟨q, r⟩]⟩ =
      (rollover env user).next (stage env user s) q r :=
      Monitor.after_append _ _ _
    refine ⟨row', hrow', fun x hx => ?_, ?_⟩
    · rcases List.mem_or_eq_of_mem_set hx with hx | rfl
      · exact (hsessions x hx).mono (hrolls.stays_late hs'.sound)
      · refine ⟨?_, htx, ?_⟩
        · rw [hstage]
          exact hensures.2 r
        · rw [hstage, createsDeck_append]
          exact hrolls.sound (Table.key_of_find? hrow) hs'.sound
    · have hset := countP_set (p := isRecorded env user) (y := ⟨s.tag, π', p r, s.log ++ [⟨q, r⟩]⟩) hs
      rw [isRecorded, isRecorded, hstage, decide_eq_false hrolls.uncounted_before,
        Bool.toNat_false, Nat.add_zero] at hset
      show _ → _ = List.countP _ (c.sessions.set i _)
      rw [hset]
      refine hrolls.counts hs'.sound hcount (countP_isRecorded_early hsessions) fun seen now hm => ?_
      -- the call is the reset of this stage
      have hq := hensures.1
      rw [hm] at hq
      rcases rollover_inv hq with ⟨h, -⟩ | ⟨_, h, -⟩ | ⟨_, _, h, rfl⟩ | ⟨h, -⟩ | ⟨h, -⟩
      on_goal 3 =>
        cases h
        simpa [resetsUnused, (hs'.sound.stale seen now hm).1, hrow] using hunused
      all_goals cases h
  | @stall i s q p π' hs hp ha =>
    obtain ⟨-, -, rfl⟩ := ha
    have hset : (c.sessions.set i { s with priv := { s.priv with snapshot := some c.shared.db } }).countP
        (isRecorded env user) = _ := countP_set_of_eq hs rfl
    refine ⟨row, hrow, fun x hx => ?_, fun hlate => (hcount hlate).trans hset.symm⟩
    rcases List.mem_or_eq_of_mem_set hx with hx | rfl
    · exact hsessions x hx
    · have hs' := hsessions s (List.mem_of_getElem? hs)
      exact ⟨hs'.ensures, hs'.tx, hs'.sound⟩

/-- A request that has ended without an error is through with the usage of the month. -/
theorem SessionRolls.done {late : Prop} {s : ServerSession}
    (h : SessionRolls env user month late s) (hend : succeeded s = true) :
    late ∧ createsDeck s = isRecorded env user s := by
  have hends := h.ensures
  unfold succeeded at hend
  split at hend
  · rename_i response hresponse
    rw [hresponse] at hends
    rcases hends (of_decide_eq_true hend) with hm | hm | hm
    · have hcreated : createsDeck s = false := by
        refine Bool.eq_false_iff.mpr fun hdeck => ?_
        rcases h.sound.undone hdeck with hm' | hm' | hm' <;> rw [hm] at hm' <;> cases hm'
      refine ⟨h.sound.current (Or.inl hm), ?_⟩
      rw [hcreated, isRecorded, hm]
      rfl
    · refine ⟨h.sound.current (Or.inr (Or.inr hm)), ?_⟩
      rw [h.sound.done (Or.inr hm), isRecorded, hm]
      rfl
    · exact absurd hm h.sound.present
  · cases hend

end Runs

/-- Requests that start in a new month, where no reset takes back what is counted: when they have ended without
    an error, the usage is the number of presentations that they created. -/
theorem increments_kept {env : Env} {user : AuthUser} {month : Month} {c₀ c : Server}
    {row : User} {es : List ServerEvent} (hstart : c₀.sessions = [])
    (hrow : c₀.shared.db.users.find? user.id = some row) (hearlier : env.month row.lastUsageReset < month)
    (run : RunWhere server (handle env) {} (fun c e =>
      (postsOf env user month e && resetsUnused env month c e) = true) c₀ es c)
    (hsome : c.sessions ≠ []) (hended : ∀ s ∈ c.sessions, succeeded s = true) :
    ∃ row', c.shared.db.users.find? user.id = some row' ∧
      row'.presentationsCreatedThisMonth = c.sessions.countP createsDeck := by
  have inv : RolloverInv env user month c := by
    clear hsome hended
    induction run with
    | nil =>
      refine ⟨row, hrow, fun s hs => ?_, fun hlate => absurd hlate (ne_of_lt hearlier)⟩
      rw [hstart] at hs
      cases hs
    | snoc _ step hP ih =>
      obtain ⟨hpost, hunused⟩ := Bool.and_eq_true_iff.mp hP
      exact ih.step step hpost hunused
  obtain ⟨row', hrow', hsessions, hcount⟩ := inv
  obtain ⟨s, hs⟩ := List.exists_mem_of_ne_nil _ hsome
  refine ⟨row', hrow', ?_⟩
  rw [hcount ((hsessions s hs).done (hended s hs)).1]
  refine List.countP_congr fun x hx => ?_
  rw [((hsessions x hx).done (hended x hx)).2]

/-- `alice` has created 3 presentations in January. -/
def afterJanuary : Server := ⟨⟨{ Db.empty with users := ⟨[account "alice" 3], by decide⟩ }, ∅⟩, []⟩

/-- Two posts that both find January's usage, and both reset it before either is counted. -/
def resetsFirst : List Move :=
  [.arrive alicesPost, .arrive alicesPost, .answer 0, .answer 1, .answer 0, .answer 1, .answer 0,
    .answer 1, .answer 0, .answer 1, .answer 0, .answer 1]

theorem resets_first_kept :
    ∃ es c row', RunWhere server (handle twoMonths) {}
      (fun c e => (postsOf twoMonths alice (twoMonths.month 1000) e &&
      resetsUnused twoMonths (twoMonths.month 1000) c e) = true) afterJanuary es c ∧
      c.shared.db.users.find? "alice" = some row' ∧
      row'.presentationsCreatedThisMonth = c.sessions.countP createsDeck ∧
      c.sessions.countP createsDeck = 2 := by
  have hrow : afterJanuary.shared.db.users.find? alice.id = some (account "alice" 3) := by decide +kernel
  have hplay : afterJanuary.playable (fun c e => postsOf twoMonths alice (twoMonths.month 1000) e &&
      resetsUnused twoMonths (twoMonths.month 1000) c e) twoMonths 1000 0 resetsFirst = true := by decide +kernel
  have hissued : Unissued 0 afterJanuary.shared.issued := fun _ _ _ h => h
  obtain ⟨run, -⟩ := Server.play_run twoMonths hissued hplay
  have hended : ∀ s ∈ (afterJanuary.play twoMonths 1000 0 resetsFirst).sessions, succeeded s = true :=
    List.all_eq_true.mp (by decide +kernel)
  have hsome : (afterJanuary.play twoMonths 1000 0 resetsFirst).sessions ≠ [] :=
    List.ne_nil_of_length_pos (by decide +kernel)
  obtain ⟨row', hrow', hcount⟩ := increments_kept rfl hrow (by decide) run hsome hended
  exact ⟨_, _, row', run, hrow', hcount, by decide +kernel⟩

/-- Two posts that both find January's usage; the second resets it when the first is counted. -/
def lateReset : List Move :=
  [.arrive alicesPost, .arrive alicesPost, .answer 0, .answer 1, .answer 0, .answer 1, .answer 0,
    .answer 0, .answer 0, .answer 1, .answer 1, .answer 1]

theorem late_reset_loses_count :
    ¬ ∀ (env : Env) (user : AuthUser) (month : Month) (c₀ c : Server) (row : User) (es : List ServerEvent),
      c₀.sessions = [] →
      c₀.shared.db.users.find? user.id = some row → env.month row.lastUsageReset < month →
      RunWhere server (handle env) {} (fun _ e => postsOf env user month e = true) c₀ es c → c.sessions ≠ [] →
      (∀ s ∈ c.sessions, succeeded s = true) →
      ∃ row', c.shared.db.users.find? user.id = some row' ∧
        row'.presentationsCreatedThisMonth = c.sessions.countP createsDeck := by
  intro h
  have hrow : afterJanuary.shared.db.users.find? alice.id = some (account "alice" 3) := by decide +kernel
  have hplay : afterJanuary.playable (fun _ e => postsOf twoMonths alice (twoMonths.month 1000) e)
      twoMonths 1000 0 lateReset = true := by decide +kernel
  have hissued : Unissued 0 afterJanuary.shared.issued := fun _ _ _ h => h
  obtain ⟨run, -⟩ := Server.play_run twoMonths hissued hplay
  have hended : ∀ s ∈ (afterJanuary.play twoMonths 1000 0 lateReset).sessions, succeeded s = true :=
    List.all_eq_true.mp (by decide +kernel)
  have hsome : (afterJanuary.play twoMonths 1000 0 lateReset).sessions ≠ [] :=
    List.ne_nil_of_length_pos (by decide +kernel)
  obtain ⟨row', hrow', hcount⟩ := h twoMonths alice _ _ _ _ _ rfl hrow (by decide) run hsome hended
  have husage : ((afterJanuary.play twoMonths 1000 0 lateReset).shared.db.users.find? alice.id).map
      (·.presentationsCreatedThisMonth) = some 1 := by decide +kernel
  have hcreated : (afterJanuary.play twoMonths 1000 0 lateReset).sessions.countP createsDeck = 2 := by
    decide +kernel
  rw [hrow', Option.map_some, hcount, hcreated] at husage
  cases husage

end Slideo
