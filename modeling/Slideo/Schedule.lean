import Slideo.Server

/-! Schedules: which request arrives or gets its next answer. A schedule that waits for the row locks is a
    run of the server, so interleavings can be computed. -/

namespace Slideo
open Js Interleave

/-! ### Ids -/

/-- The ids that call `n` draws. -/
def issue (n k : Nat) : String := String.ofList (List.replicate n 'a' ++ 'b' :: List.replicate k 'c')

theorem issue_inj {n k n' k' : Nat} (h : issue n k = issue n' k') : n = n' ∧ k = k' := by
  have h := String.ofList_injective h
  have ha := congrArg (List.count 'a') h
  have hc := congrArg (List.count 'c') h
  simp [List.count_append, List.count_replicate] at ha hc
  exact ⟨ha, hc⟩

/-- Ids that no call from number `n` on draws. -/
def Unissued (n : Nat) (issued : Set String) : Prop := ∀ m k, n ≤ m → issue m k ∉ issued

/-- A world at time `now` without other services. -/
def world (now : Time) (n : Nat) : World where
  now := now
  uuid := issue n
  gemini := .error .unavailable
  archive := .error .unavailable
  upload := .error .unavailable
  presentationOrder := .stable _
  importedPptOrder := .stable _

theorem Unissued.fresh {s : Store} {n : Nat} {w : World} (h : Unissued n s.issued)
    (hw : w.uuid = issue n) : Fresh s w := by
  rw [Fresh, hw]
  exact ⟨fun _ _ hk => (issue_inj hk).2, fun k => h n k le_rfl⟩

theorem Unissued.next {issued : Set String} {n : Nat} (h : Unissued n issued) :
    Unissued (n + 1) (issued ∪ Set.range (issue n)) := by
  rintro m k hm (hk | ⟨k', hk⟩)
  · exact h m k (Nat.le_of_succ_le hm) hk
  · have := (issue_inj hk).1
    omega

/-! ### Moves -/

inductive Move where
  | arrive (req : Request)
  | answer (i : Nat)

namespace Server

/-- Answers the pending call of request `i`. -/
def tick (c : Server) (i : Nat) (w : World) : Server :=
  match c.sessions[i]? with
  | none => c
  | some s => match s.prog with
    | .call q k =>
      let out := perform w c.shared.db s.priv q
      ⟨⟨out.2.1, c.shared.issued ∪ Set.range w.uuid⟩,
        c.sessions.set i ⟨s.tag, out.2.2, k out.1, s.log ++ [⟨q, out.1⟩]⟩⟩
    | .pure _ | .throw _ => c

/-- The pending call of request `i` waits for no other request. -/
def unblocked (c : Server) (i : Nat) (w : World) : Bool :=
  match c.sessions[i]? with
  | none => true
  | some s => match s.prog with
    | .call q _ => (c.others i).all fun c' => (c'.tx.getD []).all fun x =>
        (newWrites w c.shared.db s.priv q).all fun y => !x.conflicts y
    | .pure _ | .throw _ => true

def move (env : Env) (now : Time) (n : Nat) (c : Server) : Move → Server
  | .arrive req => ⟨c.shared, c.sessions ++ [fresh (handle env) {} req]⟩
  | .answer i => c.tick i (world now n)

/-- The event of a move, unless its request has ended. -/
def event (now : Time) (n : Nat) (c : Server) : Move → Option ServerEvent
  | .arrive req => some (.spawn req)
  | .answer i => match c.sessions[i]? with
    | none => none
    | some s => match s.prog with
      | .call q _ => some (.act i ⟨q, (perform (world now n) c.shared.db s.priv q).1⟩)
      | .pure _ | .throw _ => none

/-- Plays the moves of a schedule from number `n` on. -/
def play (env : Env) (now : Time) : Nat → Server → List Move → Server
  | _, c, [] => c
  | n, c, m :: ms => play env now (n + 1) (c.move env now n m) ms

/-- The steps that a schedule makes. -/
def events (env : Env) (now : Time) : Nat → Server → List Move → List ServerEvent
  | _, _, [] => []
  | n, c, m :: ms => (c.event now n m).toList ++ events env now (n + 1) (c.move env now n m) ms

/-- The move does not have to wait. -/
def free (now : Time) (n : Nat) (c : Server) : Move → Bool
  | .arrive _ => true
  | .answer i => c.unblocked i (world now n)

/-- No move of the schedule has to wait, and its steps satisfy `P`. -/
def playable (P : Server → ServerEvent → Bool) (env : Env) (now : Time) : Nat → Server → List Move → Bool
  | _, _, [] => true
  | n, c, m :: ms =>
    c.free now n m && (c.event now n m).all (P c) && playable P env now (n + 1) (c.move env now n m) ms

section Play
variable {P : Server → ServerEvent → Bool} (env : Env) {now : Time} {n : Nat} {c : Server} {m : Move}

/-- Answering a pending call that waits for nobody is a step. -/
theorem tick_step {i : Nat} {w : World} {s : ServerSession} {q : Query} {k : Except Err q.Answer → Handler Response}
    (hs : c.sessions[i]? = some s) (hp : s.prog = .call q k) (hw : Fresh c.shared w)
    (hfree : c.unblocked i w = true) :
    ServerStep env c (.act i ⟨q, (perform w c.shared.db s.priv q).1⟩) (c.tick i w) := by
  have hun : Unblocked w c.shared.db (c.others i) s.priv q := by
    intro c' hc' x hx y hy
    simp only [unblocked, hs, hp, List.all_eq_true] at hfree
    simpa using hfree c' hc' x hx y hy
  rw [tick]
  simp only [hs, hp]
  exact .act hs hp (.answered w hw hun)

theorem tick_unissued {i : Nat} {w : World} (hw : w.uuid = issue n) (hn : Unissued n c.shared.issued) :
    Unissued (n + 1) (c.tick i w).shared.issued := by
  have hlater : Unissued (n + 1) c.shared.issued := fun m k hm => hn m k (Nat.le_of_succ_le hm)
  cases hs : c.sessions[i]? with
  | none => simpa [tick, hs] using hlater
  | some s =>
    cases hp : s.prog with
    | pure r => simpa [tick, hs, hp] using hlater
    | throw e => simpa [tick, hs, hp] using hlater
    | call q k => simpa [tick, hs, hp, hw] using hn.next

/-- A move is a step, unless its request has ended. -/
theorem move_step (hn : Unissued n c.shared.issued) (hfree : c.free now n m = true) :
    (c.event now n m = none ∧ c.move env now n m = c) ∨
      ∃ e, c.event now n m = some e ∧ ServerStep env c e (c.move env now n m) := by
  cases m with
  | arrive req => exact Or.inr ⟨_, rfl, .spawn c req⟩
  | answer i =>
    cases hs : c.sessions[i]? with
    | none => exact Or.inl ⟨by simp [event, hs], by simp [move, tick, hs]⟩
    | some s =>
      cases hp : s.prog with
      | pure r => exact Or.inl ⟨by simp [event, hs, hp], by simp [move, tick, hs, hp]⟩
      | throw e => exact Or.inl ⟨by simp [event, hs, hp], by simp [move, tick, hs, hp]⟩
      | call q k => exact Or.inr ⟨_, by simp [event, hs, hp], tick_step env hs hp (hn.fresh rfl) hfree⟩

theorem move_unissued (hn : Unissued n c.shared.issued) : Unissued (n + 1) (c.move env now n m).shared.issued := by
  cases m with
  | arrive req => exact fun m k hm => hn m k (Nat.le_of_succ_le hm)
  | answer i => exact tick_unissued rfl hn

theorem play_run : ∀ {ms : List Move} {n : Nat} {c : Server}, Unissued n c.shared.issued →
    playable P env now n c ms = true →
    RunWhere server (handle env) {} (fun c e => P c e = true) c (events env now n c ms) (play env now n c ms) ∧
      Unissued (n + ms.length) (play env now n c ms).shared.issued := by
  intro ms
  induction ms with
  | nil => exact fun hn _ => ⟨.nil, hn⟩
  | cons m ms ih =>
    intro n c hn hplay
    simp only [playable, Bool.and_eq_true] at hplay
    obtain ⟨⟨hfree, hP⟩, hrest⟩ := hplay
    obtain ⟨run, hn'⟩ := ih (move_unissued env hn) hrest
    rw [List.length_cons, Nat.add_comm ms.length 1, ← Nat.add_assoc]
    refine ⟨?_, hn'⟩
    rw [events, play]
    rcases move_step env hn hfree with ⟨hnone, hsame⟩ | ⟨e, he, step⟩
    · rw [hsame] at run ⊢
      rw [hnone]
      exact run
    · rw [he] at hP ⊢
      exact RunWhere.trans (.snoc .nil step hP) run

end Play

end Server

/-! ### A small deployment -/

/-- Two users; every instant is in January 2026. -/
def office : Env where
  verify token := if token = "alice" then some ⟨"alice", "alice@slideo.ai"⟩
    else if token = "bob" then some ⟨"bob", "bob@slideo.ai"⟩ else none
  getMonth _ := 0
  getFullYear _ := 2026
  frontendUrl := "http://localhost:3000"

/-- The office, where instants from 1000 on are in February. -/
def twoMonths : Env := { office with getMonth := fun t => if t < 1000 then 0 else 1 }

/-- A FREE account. -/
def account (id : String) (created : Nat) : User :=
  ⟨id, id ++ "@slideo.ai", some "hash", none, "email", .FREE, created, 0, none, 0, 0⟩

/-- The accounts, without any presentation. -/
def officeDb : Db := { Db.empty with users := ⟨[account "alice" 0, account "bob" 0], by decide⟩ }

/-- One template. -/
def pitchTemplates : Table Template (·.id) := ⟨[⟨"t", "Pitch", "Business", "", "dark", 0, 0⟩], by decide⟩

def alice : AuthUser := ⟨"alice", "alice@slideo.ai"⟩

def aliceRequest (endpoint : Endpoint) : Request := ⟨some "Bearer alice", endpoint⟩

/-- `alice` creates a presentation without slides. -/
def createdDb (topic : String) : Db :=
  (serve office (world 0) (aliceRequest (.createPresentation
    (some (.obj [("topic", .str topic), ("slides", .arr [])]))))
    officeDb).state.1

end Slideo
