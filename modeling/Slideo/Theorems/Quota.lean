import Slideo.Lib.WindowCounter
import Slideo.Schedule
import Slideo.Theorems.Creation
import Mathlib.Data.Prod.Lex

/-! The monthly limit of a user whose requests come one after another. The usage columns of the user row
    are a counter that is reset lazily (`WindowCounter`), so the limiter is exact as long as the calendar
    does not go back. -/

namespace Slideo
open Js WindowCounter

/-- A calendar month in server time: years first. -/
abbrev Month := Int ×ₗ Int

def Env.month (env : Env) (t : Time) : Month := toLex (env.getFullYear t, env.getMonth t)

/-- The usage columns as a counter. -/
def User.usage (env : Env) (row : User) : Counter Month :=
  ⟨row.presentationsCreatedThisMonth, env.month row.lastUsageReset⟩

section Usage
variable {env : Env} {row : User}

theorem monthChanged_iff {now lastReset : Time} : monthChanged env now lastReset ↔
    env.month lastReset ≠ env.month now := by
  simp only [monthChanged, Env.month, ne_eq, toLex_inj, Prod.mk.injEq]
  constructor
  · rintro (h | h) ⟨hy, hm⟩
    · exact h hm.symm
    · exact h hy.symm
  · intro h
    by_cases hm : env.getMonth now = env.getMonth lastReset
    · exact Or.inr fun hy => h ⟨hy.symm, hm.symm⟩
    · exact Or.inl hm

end Usage

/-! ### One request -/

/-- The request passes `checkLimits`. -/
def passes (env : Env) (ws : Nat → World) (user : AuthUser) (db : Db) : Bool :=
  match ((checkLimits env user).run answer ws 0 (db, {})).result with
  | .ok (.inr _) => true
  | _ => false

section Request
variable {env : Env} {ws : Nat → World} {db : Db} {user : AuthUser} {row : User}

/-- The usage is brought to the month that the request sees. -/
theorem run_resetUsage (env : Env) (ws : Nat → World) (n : Nat) (now : Time)
    (hrow : db.users.find? user.id = some row) :
    ∃ seen db' log row', (resetUsage env now row).run answer ws n (db, {}) = ⟨.ok seen, (db', {}), log⟩ ∧
      db'.users.find? user.id = some row' ∧ row'.usage env = (row.usage env).visit (env.month now) ∧
      seen.plan = row.plan ∧ seen.presentationsCreatedThisMonth =
        ((row.usage env).visit (env.month now)).count := by
  have hid : row.id = user.id := Table.key_of_find? hrow
  unfold resetUsage
  by_cases hmonth : monthChanged env now row.lastUsageReset
  · have hvisit : (row.usage env).visit (env.month now) = ⟨0, env.month now⟩ := if_neg (monthChanged_iff.mp hmonth)
    have hkey : user.id ∈ db.users.keys := Table.mem_keys.mpr ⟨row, Table.mem_of_find? hrow, hid⟩
    have hexec : exec (ws n) db db (.userUpdate row.id (.resetUsage now)) =
        .ok ((), [.patchUser user.id (ws n).now (.resetUsage now)]) := by
      simp only [exec, updateUserRow, require, hid, hkey, and_self, if_true]
      rfl
    have hupdate := answer_ok (q := .userUpdate row.id (.resetUsage now)) trivial hexec
    rw [if_pos hmonth, hvisit]
    exact ⟨_, _, _, _, Prog.run_ask_bind hupdate rfl, find?_patchUser_self hrow, rfl, rfl, rfl⟩
  · have hvisit : (row.usage env).visit (env.month now) = row.usage env :=
      if_pos (not_not.mp fun h => hmonth (monthChanged_iff.mpr h))
    rw [if_neg hmonth, hvisit]
    exact ⟨_, _, _, _, rfl, hrow, rfl, rfl, rfl⟩

/-- The last check of `checkLimits`. -/
theorem run_limit {α : Type} (ws : Nat → World) (n : Nat) (s : Db × Conn) (seen : User) (refused : α) :
    ∃ r, (if seen.plan = .FREE ∧ monthlyLimit ≤ seen.presentationsCreatedThisMonth then pure (.inl refused)
        else pure (.inr seen) : Handler (α ⊕ User)).run answer ws n s = ⟨.ok r, s, []⟩ ∧
        (∀ x, r = .inl x → x = refused) ∧
      ((∃ x, r = .inr x) ↔ seen.plan ≠ .FREE ∨ seen.presentationsCreatedThisMonth < monthlyLimit) := by
  split
  · rename_i hlimit
    refine ⟨_, rfl, fun _ h => (by cases h; rfl), iff_of_false (by rintro ⟨x, hx⟩; cases hx) ?_⟩
    rintro (hplan | hcount)
    · exact hplan hlimit.1
    · exact absurd hcount (not_lt.mpr hlimit.2)
  · rename_i hlimit
    refine ⟨_, rfl, fun _ h => (by cases h), iff_of_true ⟨_, rfl⟩ ?_⟩
    by_cases hplan : seen.plan = .FREE
    · exact Or.inr (not_le.mp fun hle => hlimit ⟨hplan, hle⟩)
    · exact Or.inl hplan

theorem run_checkLimits (env : Env) (ws : Nat → World) (hrow : db.users.find? user.id = some row) :
    ∃ r db' log row', (checkLimits env user).run answer ws 0 (db, {}) = ⟨.ok r, (db', {}), log⟩ ∧
      db'.users.find? user.id = some row' ∧ row'.usage env = (row.usage env).visit (env.month (ws 1).now) ∧
      (∀ x, r = .inl x → x.status = 403) ∧
      ((∃ x, r = .inr x) ↔ row.plan ≠ .FREE ∨
        ((row.usage env).visit (env.month (ws 1).now)).count < monthlyLimit) := by
  have hfind : answer (ws 0) (.userFindUnique user.id) (db, {}) = (.ok (some row), (db, {})) :=
    answer_read (q := .userFindUnique user.id) trivial (by simp only [exec, hrow])
  have hclock : answer (ws 1) .clock (db, {}) = (.ok (ws 1).now, (db, {})) := answer_read (q := .clock) trivial rfl
  obtain ⟨seen, db', log, row', hreset, hrow', husage, hplan, hcount⟩ := run_resetUsage env ws 2 (ws 1).now hrow
  obtain ⟨r, hr, hrefused, hiff⟩ := run_limit ws (2 + log.length) (db', {}) seen
    (⟨403, .limitReached monthlyLimit seen.presentationsCreatedThisMonth⟩ : Response)
  rw [hplan, hcount] at hiff
  exact ⟨r, db', _, row', Prog.run_tryCatch_ok (Prog.run_ask_bind hfind (Prog.run_ask_bind hclock
    (Prog.run_bind_ok hreset hr))) _, hrow', husage, fun x hx => (by rw [hrefused x hx]), hiff⟩

theorem run_generateSingleSlide (ws : Nat → World) (n : Nat) (db : Db) (user : AuthUser) (body : Val) :
    ∃ response log, (generateSingleSlide user body).run answer ws n (db, {}) = ⟨.ok response, (db, {}), log⟩ := by
  unfold generateSingleSlide prop
  split
  · exact ⟨_, _, rfl⟩
  cases Js.get body "topic" with
  | none => exact ⟨_, _, rfl⟩
  | some topic =>
    simp only [ofOption, Prog.mk_pure_bind]
    split
    · exact ⟨_, _, rfl⟩
    · obtain ⟨r, log, hrun, -, -⟩ := run_generate ws n db topic 1
        { tone := getOpt body "tone", language := getOpt body "language",
          textContentAmount := getOpt body "textContentAmount" }
      cases r with
      | error e => exact ⟨_, _, run_guarded (Prog.run_bind_error hrun _)⟩
      | ok slides => cases slides <;> exact ⟨_, _, run_guarded (Prog.run_bind_ok hrun rfl)⟩

/-- The two endpoints behind `checkLimits`. -/
def Endpoint.limited : Endpoint → Bool
  | .createPresentation _ | .generateSingleSlide _ => true
  | _ => false

/-- The request is a successful `POST /api/presentations`. -/
def creates (env : Env) (ws : Nat → World) (req : Request) (db : Db) : Bool :=
  match req.endpoint, (serve env ws req db).result with
  | .createPresentation _, .ok response => response.status == 201
  | _, _ => false

theorem usage_counted (env : Env) {response : Response} {db' : Db} (hrow : db.users.find? user.id = some row)
    (h : Counted user db (.ok response) db') :
    ∃ row', db'.users.find? user.id = some row' ∧
    row'.usage env = (row.usage env).record (response.status == 201) := by
  rcases h with ⟨_, hresponse, hstatus, at_, husers⟩ | ⟨hstatus, husers⟩
  · cases hresponse
    rw [husers, hstatus]
    exact ⟨_, find?_patchUser_self hrow, rfl⟩
  · have hne : (response.status == 201) = false := beq_eq_false_iff_ne.mpr (hstatus response rfl)
    rw [husers, hne]
    exact ⟨row, hrow, rfl⟩

/-- Behind the limiter, `POST /api/presentations` caps its body and creates. -/
theorem run_capped (ws : Nat → World) (n : Nat) (db : Db) (user : AuthUser) (seen : User) (body : Val) :
    ∃ response db' log, (match checkSlideCountLimit seen body with
        | some body => createPresentation user body
        | none => pure ⟨500, .errorDetails "Internal Server Error" .typeError⟩).run answer ws n (db, {}) =
      ⟨.ok response, (db', {}), log⟩ ∧ Counted user db (.ok response) db' := by
  cases checkSlideCountLimit seen body with
  | none => exact ⟨_, _, _, rfl, Or.inr ⟨fun _ h => (by cases h; decide), rfl⟩⟩
  | some capped => exact run_createPresentation ws n db user capped

theorem run_postPresentations {r : Response ⊕ User} {db₁ : Db} {log : List (Answered Query Query.Answer Err)}
    (hcheck : (checkLimits env user).run answer ws 0 (db, {}) = ⟨.ok r, (db₁, {}), log⟩)
    (hrefused : ∀ x, r = .inl x → x.status = 403) (body : Val) :
    ∃ response db' log', (postPresentations env body user).run answer ws 0 (db, {}) =
      ⟨.ok response, (db', {}), log'⟩ ∧
      Counted user db₁ (.ok response) db' := by
  rcases r with response | seen
  · have hstatus : response.status ≠ 201 := by rw [hrefused response rfl]; decide
    exact ⟨response, db₁, _, Prog.run_bind_ok hcheck rfl, Or.inr ⟨fun _ h => (by cases h; exact hstatus), rfl⟩⟩
  · obtain ⟨response, db', log', hrun, hcounted⟩ := run_capped ws (0 + log.length) db₁ user seen body
    exact ⟨response, db', _, Prog.run_bind_ok hcheck hrun, hcounted⟩

theorem run_postGenerateSlide {r : Response ⊕ User} {db₁ : Db} {log : List (Answered Query Query.Answer Err)}
    (hcheck : (checkLimits env user).run answer ws 0 (db, {}) = ⟨.ok r, (db₁, {}), log⟩) (body : Val) :
    ∃ r' log', (postGenerateSlide env body user).run answer ws 0 (db, {}) = ⟨r', (db₁, {}), log'⟩ := by
  rcases r with response | seen
  · exact ⟨_, _, Prog.run_bind_ok hcheck rfl⟩
  · obtain ⟨response, log', hrun⟩ := run_generateSingleSlide ws (0 + log.length) db₁ user body
    exact ⟨_, _, Prog.run_bind_ok hcheck hrun⟩

/-- What a limited request does to the usage: a visit in its month, recorded if it creates a presentation. -/
theorem serve_usage (ws : Nat → World) {req : Request} (hrow : db.users.find? user.id = some row)
    (huser : req.user? env = some user) (hlimited : req.endpoint.limited = true) :
    ∃ row', (serve env ws req db).state.1.users.find? user.id = some row' ∧
      row'.usage env = ((row.usage env).visit (env.month (ws 1).now)).record (creates env ws req db) := by
  obtain ⟨r, db₁, log, row₁, hcheck, hrow₁, husage, hrefused, -⟩ := run_checkLimits env ws hrow
  rw [← husage]
  cases hreq : req.endpoint with
  | createPresentation body =>
    obtain ⟨response, db', log', hrun, hcounted⟩ := run_postPresentations hcheck hrefused body
    obtain ⟨row', hrow', husage'⟩ := usage_counted env hrow₁ hcounted
    have hserve := (serve_postPresentations huser hreq).trans hrun
    have hcreates : creates env ws req db = (response.status == 201) := by rw [creates, hreq, hserve]
    rw [hcreates, hserve]
    exact ⟨row', hrow', husage'⟩
  | generateSingleSlide body =>
    obtain ⟨r', log', hrun⟩ := run_postGenerateSlide hcheck body
    have hserve := (serve_of_user huser (by rw [handle, hreq])).trans hrun
    have hcreates : creates env ws req db = false := by rw [creates, hreq]
    rw [hcreates, hserve]
    exact ⟨row₁, hrow₁, rfl⟩
  | _ =>
    rw [hreq] at hlimited
    cases hlimited

theorem passes_iff (env : Env) (ws : Nat → World) (hrow : db.users.find? user.id = some row) :
    passes env ws user db = true ↔
      row.plan ≠ .FREE ∨ ((row.usage env).visit (env.month (ws 1).now)).count < monthlyLimit := by
  obtain ⟨r, db', log, row', hcheck, -, -, -, hiff⟩ := run_checkLimits env ws hrow
  rw [← hiff, passes, hcheck]
  rcases r with response | seen
  · exact iff_of_false (by simp) (by rintro ⟨x, hx⟩; cases hx)
  · exact iff_of_true rfl ⟨seen, rfl⟩

/-- A request that the limiter refuses creates nothing. -/
theorem passes_of_creates {req : Request} (hrow : db.users.find? user.id = some row)
    (huser : req.user? env = some user) (h : creates env ws req db = true) : passes env ws user db = true := by
  obtain ⟨r, db₁, log, row₁, hcheck, -, -, hrefused, -⟩ := run_checkLimits env ws hrow
  rw [passes, hcheck]
  rcases r with response | seen
  · cases hreq : req.endpoint with
    | createPresentation body =>
      have hserve : serve env ws req db = ⟨.ok response, (db₁, {}), log ++ []⟩ := by
        rw [serve_postPresentations huser hreq]
        exact Prog.run_bind_ok hcheck rfl
      rw [creates, hreq, hserve] at h
      have hstatus : (response.status == 201) = true := h
      rw [hrefused response rfl] at hstatus
      cases hstatus
    | _ =>
      rw [creates, hreq] at h
      cases h
  · rfl

end Request

/-! ### Runs of one user -/

/-- A limited request in the past. -/
structure Visit where
  month : Month
  passed : Bool
  created : Bool

/-- The limited requests of a user one after another, from a fresh account on. Between them anything may
    happen to the database but a change of the usage columns; the plan may change too. -/
inductive UserRun (env : Env) (user : AuthUser) : List Visit → Db → Prop
  | fresh {db : Db} {row : User} (hrow : db.users.find? user.id = some row)
      (hnew : row.presentationsCreatedThisMonth = 0) : UserRun env user [] db
  | between {visits : List Visit} {db db' : Db} {row row' : User} (run : UserRun env user visits db)
      (hrow : db.users.find? user.id = some row) (hrow' : db'.users.find? user.id = some row')
      (hcount : row'.presentationsCreatedThisMonth = row.presentationsCreatedThisMonth)
      (hreset : row'.lastUsageReset = row.lastUsageReset) : UserRun env user visits db'
  | request {visits : List Visit} {db : Db} (run : UserRun env user visits db) (ws : Nat → World) (req : Request)
      (huser : req.user? env = some user) (hlimited : req.endpoint.limited = true)
      (hmonth : ∀ v ∈ visits, v.month ≤ env.month (ws 1).now) :
      UserRun env user (visits ++ [⟨env.month (ws 1).now, passes env ws user db, creates env ws req db⟩])
        (serve env ws req db).state.1

/-- What a visit records. -/
def Visit.entry (v : Visit) : Month × Bool := (v.month, v.created && v.passed)

/-- The usage columns are right about the user's history. -/
theorem UserRun.tracks {env : Env} {user : AuthUser} {visits : List Visit} {db : Db}
    (run : UserRun env user visits db) :
    ∃ row, db.users.find? user.id = some row ∧ Tracks (row.usage env) (visits.map Visit.entry) := by
  induction run with
  | @fresh db row hrow hnew =>
    refine ⟨row, hrow, ?_⟩
    rw [User.usage, hnew]
    exact .fresh _
  | @between visits db db' row row' run hrow hrow' hcount hreset ih =>
    obtain ⟨_, hsame, htracks⟩ := ih
    rw [hrow] at hsame
    cases hsame
    refine ⟨row', hrow', ?_⟩
    rw [User.usage, hcount, hreset]
    exact htracks
  | @request visits db run ws req huser hlimited hmonth ih =>
    obtain ⟨row, hrow, htracks⟩ := ih
    obtain ⟨row', hrow', husage⟩ := serve_usage ws hrow huser hlimited
    refine ⟨row', hrow', ?_⟩
    have hentry : (creates env ws req db && passes env ws user db) = creates env ws req db := by
      cases hcreates : creates env ws req db with
      | false => rfl
      | true => rw [passes_of_creates hrow huser hcreates]; rfl
    rw [husage, List.map_append, List.map_singleton, Visit.entry, hentry]
    refine htracks.snoc (fun e he => ?_) _
    obtain ⟨v, hv, rfl⟩ := List.mem_map.mp he
    exact hmonth v hv

/-- A request passes the limiter exactly when the plan has no limit, or fewer than 5 of the user's earlier
    requests created a presentation in the month that it sees. -/
theorem limiter_exact {env : Env} {user : AuthUser} {visits : List Visit} {db : Db} {row : User}
    (run : UserRun env user visits db) (ws : Nat → World) (hmonth : ∀ v ∈ visits, v.month ≤ env.month (ws 1).now)
    (hrow : db.users.find? user.id = some row) :
    passes env ws user db = true ↔ row.plan ≠ .FREE ∨
      (visits.filter fun v => v.created && v.passed && decide (v.month = env.month (ws 1).now)).length < 5 := by
  obtain ⟨_, hsame, htracks⟩ := run.tracks
  rw [hrow] at hsame
  cases hsame
  have hpast : ∀ e ∈ visits.map Visit.entry, e.1 ≤ env.month (ws 1).now := by
    intro e he
    obtain ⟨v, hv, rfl⟩ := List.mem_map.mp he
    exact hmonth v hv
  rw [passes_iff env ws hrow, htracks.count_visit hpast, counted, List.countP_map, List.countP_eq_length_filter]
  rfl

def alicesPost : Request := aliceRequest (.createPresentation
    (some (.obj [("topic", .str "Roadmap"), ("slides", .arr [])])))

/-- The database after `n` posts of `alice`. -/
def alicesDb : Nat → Db
  | 0 => officeDb
  | n + 1 => (serve office (fun k => world 0 (10 * n + k)) alicesPost (alicesDb n)).state.1

def alicesVisits : Nat → List Visit
  | 0 => []
  | n + 1 => alicesVisits n ++ [⟨toLex (2026, 0), passes office (fun k => world 0 (10 * n + k)) alice (alicesDb n),
      creates office (fun k => world 0 (10 * n + k)) alicesPost (alicesDb n)⟩]

theorem alicesVisits_month (n : Nat) : ∀ v ∈ alicesVisits n, v.month = toLex (2026, 0) := by
  induction n with
  | zero => simp [alicesVisits]
  | succ n ih =>
    intro v hv
    rcases List.mem_append.mp hv with hv | hv
    · exact ih v hv
    · rw [List.mem_singleton.mp hv]

theorem alicesRun (n : Nat) : UserRun office alice (alicesVisits n) (alicesDb n) := by
  induction n with
  | zero =>
    have hrow : officeDb.users.find? alice.id = some (account "alice" 0) := by decide +kernel
    exact .fresh hrow rfl
  | succ n ih =>
    exact .request ih _ alicesPost (by decide +kernel) rfl fun v hv => le_of_eq (alicesVisits_month n v hv)

theorem sixth_post_refused :
    (alicesVisits 5).all (·.created) = true ∧ passes office (world 0) alice (alicesDb 5) = false := by
  refine ⟨by decide +kernel, ?_⟩
  have hrow : (alicesDb 5).users.find? "alice" = some { account "alice" 5 with lastUsageReset := 0 } := by
    decide +kernel
  have hiff := limiter_exact (alicesRun 5) (world 0) (fun v hv => le_of_eq (alicesVisits_month 5 v hv)) hrow
  refine Bool.eq_false_iff.mpr fun hpass => ?_
  rcases hiff.mp hpass with hplan | hcount
  · exact hplan rfl
  · exact absurd hcount (by decide +kernel)

end Slideo
