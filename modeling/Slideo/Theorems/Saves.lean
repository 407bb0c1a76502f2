import Slideo.Theorems.Content
import Slideo.Theorems.Ownership
import Slideo.Theorems.Race

/-! Concurrent saves of one presentation. The title is updated first, which locks the presentation row until
    the transaction ends, so at most one save at a time is between its update and its end. Nothing else
    changes the presentation, so saves take effect one after another, in the order of their locks. -/

namespace Slideo
open Js Interleave

/-! ### What a save does -/

/-- How far a save has come. -/
inductive Phase where
  | idle
  | opened
  | held
  | cleared
  | filled
  | broken
  | committed
  | closed
  deriving DecidableEq

/-- The calls of a save in their order. -/
def saving (user : AuthUser) (id : String) (body : Val) : Monitor Query Query.Answer Err Phase where
  Allowed
    | .idle, .presentationFindUnique _ | .idle, .begin => True
    | .opened, .presentationUpdate x title => x = id ∧ user.id ≠ "" ∧ get body "title" = some title
    | .held, .slideDeleteMany x => x = id
    | .cleared, .slideCreateMany x data =>
      x = id ∧ ∃ slides, get body "slides" = some slides ∧ slidesToInsert slides = some (some data)
    | .cleared, .commit => ∃ slides, get body "slides" = some slides ∧ slidesToInsert slides = some none
    | .filled, .commit => True
    | .opened, .rollback | .held, .rollback | .cleared, .rollback | .filled, .rollback | .broken, .rollback => True
    | _, _ => False
  next
    | .idle, .begin, .ok _ => .opened
    | .idle, .presentationFindUnique _, _ => .idle
    | .opened, .presentationUpdate _ _, .ok _ => .held
    | .opened, .presentationUpdate _ _, .error _ => .broken
    | .held, .slideDeleteMany _, .ok _ => .cleared
    | .held, .slideDeleteMany _, .error _ => .broken
    | .cleared, .slideCreateMany _ _, .ok _ => .filled
    | .cleared, .slideCreateMany _ _, .error _ => .broken
    | .cleared, .commit, .ok _ | .filled, .commit, .ok _ => .committed
    | _, _, _ => .closed

section Discipline
variable {env : Env} {user : AuthUser} {id : String} {body title slides : Val}

/-- The saves of a body end ready for their `COMMIT`, or have thrown. -/
theorem saving_saveSlides (hid : user.id ≠ "") (htitle : get body "title" = some title)
    (hslides : get body "slides" = some slides) :
    (saving user id body).Ensures .opened (saveSlides id title slides) fun m r =>
      (saving user id body).Allowed m .rollback ∧ ∀ p, r = .ok p → (saving user id body).Allowed m .commit := by
  refine ⟨⟨rfl, hid, htitle⟩, fun r => ?_⟩
  cases r with
  | error e => exact ⟨trivial, fun _ h => by cases h⟩
  | ok pres =>
    refine ⟨rfl, fun r => ?_⟩
    cases r with
    | error e => exact ⟨trivial, fun _ h => by cases h⟩
    | ok _ =>
      show (saving user id body).Ensures .cleared (insertSlides id slides >>= _) _
      unfold insertSlides
      cases hdata : slidesToInsert slides with
      | none => exact ⟨trivial, fun _ h => by cases h⟩
      | some data =>
        cases data with
        | none => exact ⟨trivial, fun _ _ => ⟨slides, hslides, hdata⟩⟩
        | some data =>
          refine ⟨⟨rfl, slides, hslides, hdata⟩, fun r => ?_⟩
          cases r with
          | error e => exact ⟨trivial, fun _ h => by cases h⟩
          | ok _ => exact ⟨trivial, fun _ _ => trivial⟩

theorem saving_updatePresentation : (saving user id body).Obeys .idle (updatePresentation user id body) := by
  apply obeys_guarded
  refine obeys_ofOption_bind fun title htitle => obeys_ofOption_bind fun slides hslides => ?_
  split
  · trivial
  rename_i hid
  refine Monitor.Obeys.ask_bind trivial fun found => ?_
  cases found with
  | none => trivial
  | some deck =>
    show (saving user id body).Obeys .idle (if _ then _ else _)
    split
    · trivial
    refine obeys_transaction_bind trivial ((saving_saveSlides hid htitle hslides).mono fun m r hr => ?_)
    exact ⟨hr.1, fun p hp => ⟨hr.2 p hp, trivial⟩⟩

theorem saving_handle {req : Request} (huser : req.user? env = some user)
    (hreq : req.endpoint = .updatePresentation id body) : (saving user id body).Obeys .idle (handle env req) := by
  rw [handle, hreq]
  show Monitor.Obeys _ _ (authenticated env req (updatePresentation · id body))
  rw [authenticated_of_user huser]
  exact saving_updatePresentation

end Discipline

/-! ### The order of saves -/

/-- The call obtains the presentation row. -/
def obtainsRow : Answered Query Query.Answer Err → Bool
  | ⟨.presentationUpdate _ _, .ok _⟩ => true
  | _ => false

/-- The call commits the transaction. -/
def commits : Answered Query Query.Answer Err → Bool
  | ⟨.commit, .ok _⟩ => true
  | _ => false

/-- The requests in the order in which they obtained the presentation row. -/
def rowOrder (es : List ServerEvent) : List Nat :=
  es.filterMap fun
    | .act i a => if obtainsRow a then some i else none
    | .spawn _ | .stall _ => none

def hasCommitted (s : ServerSession) : Bool := s.log.any commits

/-- The committed requests among some, in their order. -/
def committedAmong (c : Server) (order : List Nat) : List Request :=
  order.filterMap fun i => (c.sessions[i]?).bind fun s => if hasCommitted s then some s.tag else none

/-- Every request is a save of the presentation by the user. -/
def savesOf (env : Env) (user : AuthUser) (id : String) : ServerEvent → Bool
  | .spawn req => match req.endpoint with
    | .updatePresentation x _ => decide (x = id ∧ req.user? env = some user)
    | _ => false
  | _ => true

/-- Requests one after another: each runs alone from the state that the one before left. -/
inductive InTurn (env : Env) : Db → List Request → Db → Prop
  | nil (db : Db) : InTurn env db [] db
  | cons {db db' : Db} {req : Request} {reqs : List Request} (ws : Nat → World) (hfresh : ∀ n, FreshIds db (ws n))
      (rest : InTurn env (serve env ws req db).state.1 reqs db') : InTurn env db (req :: reqs) db'

/-- The body of a save. -/
def Endpoint.saveBody : Endpoint → Val
  | .updatePresentation _ body => body
  | _ => none

def Request.save? (env : Env) (req : Request) : Option Save :=
  (req.user? env).bind fun user => Slideo.save? user req.endpoint.saveBody

/-! ### The invariant -/

/-- The connection has changed the presentation row and not ended its transaction. -/
def Conn.holds (id : String) (c : Conn) : Prop := ∃ at_ t, Write.patchPresentation id at_ t ∈ c.tx.getD []

section Invariant
variable (env : Env) (user : AuthUser) (id : String)

def phase (s : ServerSession) : Phase := (saving user id s.tag.endpoint.saveBody).after .idle s.log

/-- The title that the body asks for is `t`. -/
def AsksTitle (body : Val) (t : Option String) : Prop :=
  user.id ≠ "" ∧ ∃ title, get body "title" = some title ∧ textUpdate title = .ok t

/-- What the open transaction of a save would leave. -/
def WouldLeave (body : Val) (db : Db) (c : Conn) : Phase → Prop
  | .idle | .closed | .committed => c.tx = none
  | .opened => c.tx = some []
  | .held => c.holds id ∧ ∃ t, AsksTitle user body t ∧
      (c.view db).content? id = (db.content? id).map fun x => ⟨t.getD x.title, x.slides⟩
  | .cleared => c.holds id ∧ ∃ t, AsksTitle user body t ∧
      (c.view db).content? id = (db.content? id).map fun x => ⟨t.getD x.title, 0⟩
  | .filled => c.holds id ∧ ∃ save, Slideo.save? user body = some save ∧
      (c.view db).content? id = (db.content? id).map save.apply
  | .broken => c.tx ≠ none

/-- What is known of save number `i`. Only the last one that obtained the row can hold it. -/
structure SaveInv (db : Db) (order : List Nat) (i : Nat) (s : ServerSession) : Prop where
  author : s.tag.user? env = some user
  endpoint : s.tag.endpoint = .updatePresentation id s.tag.endpoint.saveBody
  obeys : (saving user id s.tag.endpoint.saveBody).Obeys (phase user id s) s.prog
  committed : hasCommitted s = decide (phase user id s = .committed)
  pending : WouldLeave user id s.tag.endpoint.saveBody db s.priv (phase user id s)
  early : phase user id s = .idle ∨ phase user id s = .opened → i ∉ order
  late : phase user id s = .committed → i ∈ order
  last : s.priv.holds id → order.getLast? = some i
  snapshot : s.priv.holds id → s.priv.snapshot = none ∨ s.priv.snapshot = some db

end Invariant

/-! ### One call -/

section Call
variable {user : AuthUser} {id : String} {body : Val} {m m' : Phase} {q : Query} {r : Except Err q.Answer}
  {s s' : Store} {others : List Conn} {c c' : Conn} {db : Db}

theorem saving_inv (h : (saving user id body).Allowed m q) :
    (m = .idle ∧ ((∃ x, q = .presentationFindUnique x) ∨ q = .begin)) ∨
      (m = .opened ∧ ∃ title, q = .presentationUpdate id title ∧ user.id ≠ "" ∧ get body "title" = some title) ∨
      (m = .held ∧ q = .slideDeleteMany id) ∨
      (m = .cleared ∧ ∃ data slides, q = .slideCreateMany id data ∧ get body "slides" = some slides ∧
        slidesToInsert slides = some (some data)) ∨
      (q = .commit ∧ (m = .filled ∨
        (m = .cleared ∧ ∃ slides, get body "slides" = some slides ∧ slidesToInsert slides = some none))) ∨
      (q = .rollback ∧ m ≠ .committed) := by
  simp only [saving] at h
  split at h
  · exact Or.inl ⟨rfl, Or.inl ⟨_, rfl⟩⟩
  · exact Or.inl ⟨rfl, Or.inr rfl⟩
  · obtain ⟨rfl, hid, htitle⟩ := h
    exact Or.inr (Or.inl ⟨rfl, _, rfl, hid, htitle⟩)
  · subst h
    exact Or.inr (Or.inr (Or.inl ⟨rfl, rfl⟩))
  · obtain ⟨rfl, slides, hslides, hdata⟩ := h
    exact Or.inr (Or.inr (Or.inr (Or.inl ⟨rfl, _, slides, rfl, hslides, hdata⟩)))
  · exact Or.inr (Or.inr (Or.inr (Or.inr (Or.inl ⟨rfl, Or.inr ⟨rfl, h⟩⟩))))
  · exact Or.inr (Or.inr (Or.inr (Or.inr (Or.inl ⟨rfl, Or.inl rfl⟩))))
  all_goals first | exact h.elim | exact Or.inr (Or.inr (Or.inr (Or.inr (Or.inr ⟨rfl, fun h => by cases h⟩))))

variable (user id body s s' others c c' q r m m') in
/-- What a call of a save can do. -/
inductive SaveStep : Prop
  | quiet (hdb : s'.db = s.db) (hpending : WouldLeave user id body s.db c' m') (hholds : c'.holds id → c.holds id)
      (hrow : obtainsRow ⟨q, r⟩ = false) (hcommit : commits ⟨q, r⟩ = false)
      (hm : m ≠ .committed) (hm' : m' ≠ .committed)
      (hearly : m' = .idle ∨ m' = .opened → m = .idle)
  | obtain (hdb : s'.db = s.db) (hm : m = .opened) (hm' : m' = .held)
      (hpending : WouldLeave user id body s.db c' .held)
      (hothers : ∀ d ∈ others, ¬ d.holds id) (hrow : obtainsRow ⟨q, r⟩ = true) (hcommit : commits ⟨q, r⟩ = false)
  | commit {save : Save} (hholds : c.holds id) (hm : m ≠ .committed) (hm' : m' = .committed) (htx : c'.tx = none)
      (hsave : Slideo.save? user body = some save)
      (hcontent : s'.db.content? id = (s.db.content? id).map save.apply)
      (hrow : obtainsRow ⟨q, r⟩ = false) (hcommit : commits ⟨q, r⟩ = true)

theorem not_holds_of_tx (h : c.tx = none) : ¬ c.holds id := by
  rintro ⟨at_, t, hmem⟩
  rw [h] at hmem
  cases hmem

theorem tx_of_holds (h : c.holds id) : ∃ ws, c.tx = some ws := by
  cases htx : c.tx with
  | none => exact absurd h (not_holds_of_tx htx)
  | some ws => exact ⟨ws, rfl⟩

/-- While the row is held, a statement starts from the current state. -/
theorem start_of_snapshot (h : c.snapshot = none ∨ c.snapshot = some db) : c.start db q = c.view db := by
  unfold Conn.start
  split
  · rcases h with h | h <;> rw [h] <;> rfl
  · rfl

theorem view_append {ws ws' : List Write} (h : c.tx = some ws) :
    Conn.view { tx := some (ws ++ ws') } db = (c.view db).applyAll ws' := by
  rw [Conn.view, Conn.view, h]
  exact Db.applyAll_append db ws ws'

theorem holds_append {ws ws' : List Write} (h : c.tx = some ws) (hc : c.holds id) :
    Conn.holds id { tx := some (ws ++ ws') } := by
  obtain ⟨at_, t, hmem⟩ := hc
  rw [h] at hmem
  exact ⟨at_, t, List.mem_append_left _ hmem⟩

/-- The update of the title obtains the row. -/
theorem saveStep_update {title : Val} {r : Except Err Presentation}
    (h : Act s others c (.presentationUpdate id title) r s' c') (htx : c.tx = some []) (hid : user.id ≠ "")
    (htitle : get body "title" = some title) :
    SaveStep user id body .opened ((saving user id body).next .opened (.presentationUpdate id title) r)
      (.presentationUpdate id title) r s s' others c c' := by
  obtain ⟨hdb, ⟨e, rfl, rfl⟩ | ⟨w, a, ws, hexec, rfl, rfl, hun⟩⟩ := h.inside trivial htx
  · exact .quiet hdb (by simp [saving, WouldLeave])
      (fun ⟨_, _, h⟩ => by cases h) rfl rfl (by simp) (by simp [saving])
      (by simp [saving])
  · obtain ⟨t, p₀, ht, -, -, -, rfl⟩ := updatePresentationRow_ok hexec
    refine .obtain hdb rfl rfl ⟨⟨w.now, t, List.mem_singleton_self _⟩, t, ⟨hid, title, htitle, ht⟩, ?_⟩ ?_ rfl rfl
    · rw [List.nil_append]
      exact content?_patch s.db id w.now t
    · rintro d hd ⟨at_, t', hmem⟩
      have hfree := hun d hd _ hmem _ (List.mem_singleton_self _)
      simp [Write.conflicts] at hfree

theorem saveStep_delete {r : Except Err Unit} (h : Act s others c (.slideDeleteMany id) r s' c')
    (hpending : WouldLeave user id body s.db c .held) (hsnap : c.snapshot = none ∨ c.snapshot = some s.db) :
    SaveStep user id body .held ((saving user id body).next .held (.slideDeleteMany id) r)
      (.slideDeleteMany id) r s s' others c c' := by
  obtain ⟨hholds, t, ht, hcontent⟩ := hpending
  obtain ⟨ws, htx⟩ := tx_of_holds hholds
  obtain ⟨hdb, ⟨e, rfl, rfl⟩ | ⟨w, a, ws', hexec, rfl, rfl, -⟩⟩ := h.inside trivial htx
  · exact .quiet hdb (by simp [saving, WouldLeave]) (fun _ => hholds) rfl rfl (by simp)
      (by simp [saving]) (by simp [saving])
  · rw [start_of_snapshot hsnap] at hexec
    obtain ⟨hcleared, -⟩ := content?_slideDeleteMany hexec
    refine .quiet hdb ⟨holds_append htx hholds, t, ht, ?_⟩ (fun _ => hholds) rfl rfl (by simp)
      (by simp [saving]) (by simp [saving])
    rw [view_append htx, hcleared, hcontent, Option.map_map]
    rfl

theorem saveStep_insert {data : List SlideData} {slides : Val} {r : Except Err Unit}
    (h : Act s others c (.slideCreateMany id data) r s' c') (hpending : WouldLeave user id body s.db c .cleared)
    (hslides : get body "slides" = some slides) (hdata : slidesToInsert slides = some (some data)) :
    SaveStep user id body .cleared ((saving user id body).next .cleared (.slideCreateMany id data) r)
      (.slideCreateMany id data) r s s' others c c' := by
  obtain ⟨hholds, t, ⟨hid, title, htitle, ht⟩, hcontent⟩ := hpending
  obtain ⟨ws, htx⟩ := tx_of_holds hholds
  obtain ⟨hdb, ⟨e, rfl, rfl⟩ | ⟨w, a, ws', hexec, rfl, rfl, -⟩⟩ := h.inside trivial htx
  · exact .quiet hdb (by simp [saving, WouldLeave]) (fun _ => hholds) rfl rfl (by simp)
      (by simp [saving]) (by simp [saving])
  · obtain ⟨bodies, hbodies, hinserted, -⟩ := content?_slideCreateMany hexec
    have hsave : Slideo.save? user body = some ⟨t, bodies⟩ :=
      save?_eq_some.mpr ⟨title, slides, some data, htitle, hslides, hid, ht, hdata, hbodies⟩
    refine .quiet hdb ⟨holds_append htx hholds, _, hsave, ?_⟩ (fun _ => hholds) rfl rfl (by simp) (by simp [saving])
      (by simp [saving])
    rw [view_append htx, hinserted, hcontent, Option.map_map]
    rfl

/-- The save that a transaction commits. -/
theorem WouldLeave.ready (h : WouldLeave user id body db c m) (hm : m = .filled ∨
      (m = .cleared ∧ ∃ slides, get body "slides" = some slides ∧ slidesToInsert slides = some none)) :
    c.holds id ∧ ∃ save, Slideo.save? user body = some save ∧
    (c.view db).content? id = (db.content? id).map save.apply := by
  rcases hm with rfl | ⟨rfl, slides, hslides, hdata⟩
  · exact h
  · obtain ⟨hholds, t, ⟨hid, title, htitle, ht⟩, hcontent⟩ := h
    have hsave : Slideo.save? user body = some ⟨t, []⟩ :=
      save?_eq_some.mpr ⟨title, slides, none, htitle, hslides, hid, ht, hdata, rfl⟩
    exact ⟨hholds, _, hsave, hcontent⟩

theorem saveStep_commit {r : Except Err Unit} (h : Act s others c .commit r s' c')
    (hpending : WouldLeave user id body s.db c m) (hm : m = .filled ∨
      (m = .cleared ∧ ∃ slides, get body "slides" = some slides ∧ slidesToInsert slides = some none)) :
    SaveStep user id body m ((saving user id body).next m .commit r) .commit r s s' others c c' := by
  obtain ⟨hholds, save, hsave, hcontent⟩ := hpending.ready hm
  have hne : m ≠ .committed := by rcases hm with rfl | ⟨rfl, -⟩ <;> exact fun h => by cases h
  rcases h.inv with ⟨w, -, -, rfl, rfl, rfl⟩ | ⟨rfl, rfl, rfl⟩
  · have hnext : (saving user id body).next m .commit (.ok ()) = .committed := by
      rcases hm with rfl | ⟨rfl, -⟩ <;> rfl
    exact .commit hholds hne hnext rfl hsave hcontent rfl rfl
  · have hnext : (saving user id body).next m .commit (.error .unavailable) = .closed := by
      rcases hm with rfl | ⟨rfl, -⟩ <;> rfl
    rw [hnext]
    exact .quiet rfl rfl (fun h => absurd h (not_holds_of_tx rfl)) rfl rfl hne (by simp) (by simp)

theorem saveStep_rollback {r : Except Err Unit} (h : Act s others c .rollback r s' c') (hm : m ≠ .committed) :
    SaveStep user id body m ((saving user id body).next m .rollback r) .rollback r s s' others c c' := by
  have hnext : (saving user id body).next m .rollback r = .closed := by cases m <;> rfl
  rw [hnext]
  rcases h.inv with ⟨w, -, -, rfl, rfl, rfl⟩ | ⟨rfl, rfl, rfl⟩
  · exact .quiet rfl rfl (fun h => absurd h (not_holds_of_tx rfl)) rfl rfl hm (by simp) (by simp)
  · exact .quiet rfl rfl (fun h => absurd h (not_holds_of_tx rfl)) rfl rfl hm (by simp) (by simp)

theorem saveStep_idle {x : String} {r : Except Err (Option Deck)}
    (h : Act s others c (.presentationFindUnique x) r s' c') (htx : c.tx = none) :
    SaveStep user id body .idle .idle (.presentationFindUnique x) r s s' others c c' := by
  obtain ⟨htx', ⟨e, -, hdb⟩ | ⟨w, snap, a, ws, hexec, -, -, hdb⟩⟩ := h.outside trivial htx
  · exact .quiet hdb htx' (fun h => absurd h (not_holds_of_tx htx')) rfl rfl (by simp) (by simp) fun _ => rfl
  · cases hexec
    exact .quiet hdb htx' (fun h => absurd h (not_holds_of_tx htx')) rfl rfl (by simp) (by simp) fun _ => rfl

theorem saveStep_begin {r : Except Err Unit} (h : Act s others c .begin r s' c') (htx : c.tx = none) :
    SaveStep user id body .idle ((saving user id body).next .idle .begin r) .begin r s s' others c c' := by
  rcases h.inv with ⟨w, -, -, rfl, rfl, rfl⟩ | ⟨rfl, rfl, rfl⟩
  · exact .quiet rfl rfl (fun ⟨_, _, h⟩ => by cases h) rfl rfl (by simp) (by simp [saving, perform]) fun _ => rfl
  · exact .quiet rfl htx (fun h => absurd h (not_holds_of_tx htx)) rfl rfl (by simp) (by simp [saving]) fun _ => rfl

/-- Every call of a save is one of these. -/
theorem saveStep (h : Act s others c q r s' c') (hq : (saving user id body).Allowed m q)
    (hpending : WouldLeave user id body s.db c m)
    (hsnap : c.holds id → c.snapshot = none ∨ c.snapshot = some s.db) :
    SaveStep user id body m ((saving user id body).next m q r) q r s s' others c c' := by
  rcases saving_inv hq with ⟨rfl, ⟨x, rfl⟩ | rfl⟩ | ⟨rfl, title, rfl, hid, htitle⟩ | ⟨rfl, rfl⟩ |
    ⟨rfl, data, slides, rfl, hslides, hdata⟩ | ⟨rfl, hm⟩ | ⟨rfl, hm⟩
  · exact saveStep_idle h hpending
  · exact saveStep_begin h hpending
  · exact saveStep_update h hpending hid htitle
  · exact saveStep_delete h hpending (hsnap hpending.1)
  · exact saveStep_insert h hpending hslides hdata
  · exact saveStep_commit h hpending hm
  · exact saveStep_rollback h hm

/-- A call that was answered or has failed no longer waits. -/
theorem Act.snapshot (h : Act s others c q r s' c') : c'.snapshot = none := by
  rcases h.inv with ⟨w, -, -, -, -, rfl⟩ | ⟨-, -, rfl⟩
  · by_cases hq : q.IsStatement
    · rw [perform_eq hq]
      split
      · rfl
      · split <;> rfl
    · cases q with
      | begin | commit | rollback => rfl
      | _ => exact absurd trivial hq
  · cases q <;> rfl

end Call

/-! ### Sessions -/

section Session
variable {env : Env} {user : AuthUser} {id : String} {x : ServerSession} {q : Query} {r : Except Err q.Answer}
  {k : Except Err q.Answer → Handler Response} {s s' : Store} {others : List Conn}
    {c' : Conn} {order : List Nat} {i : Nat}
  {db db' : Db}

theorem phase_append : phase user id ⟨x.tag, c', k r, x.log ++ [⟨q, r⟩]⟩ =
    (saving user id x.tag.endpoint.saveBody).next (phase user id x) q r := Monitor.after_append _ _ _

theorem hasCommitted_append :
    hasCommitted ⟨x.tag, c', k r, x.log ++ [⟨q, r⟩]⟩ = (hasCommitted x || commits ⟨q, r⟩) := by
  simp [hasCommitted, List.any_append]

theorem WouldLeave.frame {body : Val} {c : Conn} {m : Phase}
    (h : WouldLeave user id body db c m) (hfree : ¬ c.holds id) :
    WouldLeave user id body db' c m := by
  cases m with
  | held | cleared | filled => exact absurd h.1 hfree
  | idle | opened | broken | committed | closed => exact h

/-- A save that does not hold the row is not concerned by what others do. -/
theorem SaveInv.frame {order' : List Nat} (inv : SaveInv env user id db order i x) (hfree : ¬ x.priv.holds id)
    (horder : i ∈ order' ↔ i ∈ order) : SaveInv env user id db' order' i x where
  author := inv.author
  endpoint := inv.endpoint
  obeys := inv.obeys
  committed := inv.committed
  pending := inv.pending.frame hfree
  early h := fun hi => inv.early h (horder.mp hi)
  late h := horder.mpr (inv.late h)
  last h := absurd h hfree
  snapshot h := absurd h hfree

/-- The outcome of a call for its own session. -/
theorem SaveInv.act (inv : SaveInv env user id s.db order i x) (hp : x.prog = .call q k)
    (h : Act s others x.priv q r s' c') (hstep : SaveStep user id x.tag.endpoint.saveBody (phase user id x)
      ((saving user id x.tag.endpoint.saveBody).next (phase user id x) q r) q r s s' others x.priv c') :
    SaveInv env user id s'.db (order ++ if obtainsRow ⟨q, r⟩ then [i] else []) i
      ⟨x.tag, c', k r, x.log ++ [⟨q, r⟩]⟩ := by
  have hobeys := inv.obeys
  rw [hp] at hobeys
  have hbase : hasCommitted x = decide (phase user id x = .committed) := inv.committed
  refine ⟨inv.author, inv.endpoint, ?_, ?_, ?_, ?_, ?_, ?_, fun _ => Or.inl h.snapshot⟩
  · rw [phase_append]
    exact hobeys.2 r
  · rw [phase_append, hasCommitted_append, hbase]
    cases hstep with
    | quiet _ _ _ _ hcommit hm hm' _ => simp [hm, hm', hcommit]
    | obtain _ hm hm' _ _ _ hcommit =>
      rw [hm', hm, hcommit]
      rfl
    | commit _ hm hm' _ _ _ _ hcommit => simp [hm, hm', hcommit]
  · rw [phase_append]
    cases hstep with
    | quiet hdb hpending => rw [hdb]; exact hpending
    | obtain hdb _ hm' hpending => rw [hdb, hm']; exact hpending
    | commit _ _ hm' htx => rw [hm']; exact htx
  · rw [phase_append]
    cases hstep with
    | quiet _ _ _ hrow _ _ _ hearly =>
      rw [hrow]
      intro h
      simpa using inv.early (Or.inl (hearly h))
    | obtain _ _ hm' =>
      rw [hm']
      rintro (h | h) <;> cases h
    | commit _ _ hm' =>
      rw [hm']
      rintro (h | h) <;> cases h
  · rw [phase_append]
    cases hstep with
    | quiet _ _ _ _ _ _ hm' => exact fun h => absurd h hm'
    | obtain _ _ hm' =>
      rw [hm']
      exact fun h => by cases h
    | commit hholds =>
      exact fun _ => List.mem_append_left _ (List.mem_of_getLast? (inv.last hholds))
  · intro hholds
    cases hstep with
    | quiet _ _ hkeep hrow =>
      rw [hrow]
      simpa using inv.last (hkeep hholds)
    | obtain _ _ _ _ _ hrow => simp [hrow]
    | commit _ _ _ htx => exact absurd hholds (not_holds_of_tx htx)

end Session

/-! ### Every run -/

section Committed
variable {c : Server} {st : Store} {x x' : ServerSession} {i : Nat} {order : List Nat}

theorem committedAmong_append (order' : List Nat) :
    committedAmong c (order ++ order') = committedAmong c order ++ committedAmong c order' := List.filterMap_append

theorem committedAmong_singleton (hs : c.sessions[i]? = some x) :
    committedAmong c [i] = if hasCommitted x then [x.tag] else [] := by
  simp only [committedAmong, List.filterMap_cons, hs, Option.bind_some, List.filterMap_nil]
  cases hasCommitted x <;> rfl

theorem committedAmong_spawn (hx : hasCommitted x = false) :
    committedAmong ⟨st, c.sessions ++ [x]⟩ order = committedAmong c order := by
  refine List.filterMap_congr fun j _ => ?_
  show ((c.sessions ++ [x])[j]?).bind _ = _
  by_cases hj : j < c.sessions.length
  · rw [List.getElem?_append_left hj]
  · have hnone : c.sessions[j]? = none := List.getElem?_eq_none (not_lt.mp hj)
    rw [List.getElem?_append_right (not_lt.mp hj), hnone]
    cases hrest : [x][j - c.sessions.length]? with
    | none => rfl
    | some y =>
      have hy := List.mem_singleton.mp (List.mem_of_getElem? hrest)
      rw [hy, Option.bind_some, hx]
      rfl

/-- A session that changes without committing. -/
theorem committedAmong_set (hs : c.sessions[i]? = some x) (htag : x'.tag = x.tag)
    (h : i ∈ order → hasCommitted x' = hasCommitted x) :
    committedAmong ⟨st, c.sessions.set i x'⟩ order = committedAmong c order := by
  refine List.filterMap_congr fun j hj => ?_
  show ((c.sessions.set i x')[j]?).bind _ = _
  by_cases hij : i = j
  · subst hij
    have hlt : i < c.sessions.length := (List.getElem?_eq_some_iff.mp hs).1
    rw [List.getElem?_set_self hlt, hs, Option.bind_some, Option.bind_some, h hj, htag]
  · rw [List.getElem?_set_ne hij]

end Committed

/-- The content after a save, if it goes through. -/
def Request.applySave (env : Env) (y : Content) (req : Request) : Content := (req.save? env).elim y (·.apply y)

/-- The content is that of the committed saves, in the order of their locks. -/
structure SavesInv (env : Env) (user : AuthUser) (id : String) (x₀ : Content)
    (order : List Nat) (c : Server) : Prop where
  sessions : ∀ i x, c.sessions[i]? = some x → SaveInv env user id c.shared.db order i x
  nodup : order.Nodup
  bound : ∀ i ∈ order, i < c.sessions.length
  content : c.shared.db.content? id = some ((committedAmong c order).foldl (Request.applySave env) x₀)
  saved : ∀ req ∈ committedAmong c order, (req.save? env).isSome = true ∧ req.user? env = some user ∧
    req.endpoint = .updatePresentation id req.endpoint.saveBody

section Runs
variable {env : Env} {user : AuthUser} {id : String} {x₀ : Content} {order : List Nat}
  {c c' : Server} {e : ServerEvent}

theorem rowOrder_act (i : Nat) (a : Answered Query Query.Answer Err) :
    rowOrder [.act i a] = if obtainsRow a then [i] else [] := by
  simp only [rowOrder, List.filterMap_cons, List.filterMap_nil]
  cases obtainsRow a <;> rfl

theorem saveInv_fresh {db : Db} {req : Request} {i : Nat}
    (h : savesOf env user id (.spawn req) = true) (hi : i ∉ order) :
    SaveInv env user id db order i (fresh (handle env) {} req) := by
  cases hreq : req.endpoint with
  | updatePresentation x body =>
    simp only [savesOf, hreq, decide_eq_true_eq] at h
    obtain ⟨rfl, huser⟩ := h
    have hfree : ¬ Conn.holds x {} := not_holds_of_tx rfl
    have hbody : req.endpoint.saveBody = body := by rw [hreq]; rfl
    refine ⟨huser, ?_, ?_, rfl, rfl, fun _ => hi, fun h => (by cases h), fun h =>
      absurd h hfree, fun h => absurd h hfree⟩
    · show req.endpoint = .updatePresentation x req.endpoint.saveBody
      rw [hbody, hreq]
    · show (saving user x req.endpoint.saveBody).Obeys .idle (handle env req)
      rw [hbody]
      exact saving_handle huser hreq
  | _ =>
    simp only [savesOf, hreq] at h
    cases h

/-- Sessions after one of them has changed. -/
theorem sessions_set {P : Nat → ServerSession → Prop} {i : Nat}
    {x x' : ServerSession} (hs : c.sessions[i]? = some x) (hself : P i x')
    (hothers : ∀ j y, j ≠ i → c.sessions[j]? = some y → P j y) :
    ∀ j y, (c.sessions.set i x')[j]? = some y → P j y := by
  intro j y hy
  by_cases hij : i = j
  · subst hij
    rw [List.getElem?_set_self (List.getElem?_eq_some_iff.mp hs).1] at hy
    cases hy
    exact hself
  · rw [List.getElem?_set_ne hij] at hy
    exact hothers j y (Ne.symm hij) hy

theorem SavesInv.spawn (inv : SavesInv env user id x₀ order c) {req : Request}
    (hsaves : savesOf env user id (.spawn req) = true) {x : ServerSession} (hx : x = fresh (handle env) {} req) :
    SavesInv env user id x₀ order ⟨c.shared, c.sessions ++ [x]⟩ := by
  have hlength : c.sessions.length ∉ order := fun h => lt_irrefl _ (inv.bound _ h)
  have hcommitted : committedAmong ⟨c.shared, c.sessions ++ [x]⟩ order = committedAmong c order :=
    committedAmong_spawn (by rw [hx]; rfl)
  refine ⟨fun i y hy => ?_, inv.nodup, fun i hi => ?_, ?_, ?_⟩
  · by_cases hi : i < c.sessions.length
    · rw [List.getElem?_append_left hi] at hy
      exact inv.sessions i y hy
    · have hlt : i < (c.sessions ++ [x]).length := (List.getElem?_eq_some_iff.mp hy).1
      have heq : i = c.sessions.length := by
        rw [List.length_append, List.length_singleton] at hlt
        omega
      rw [heq, List.getElem?_append_right le_rfl, Nat.sub_self] at hy
      cases hy
      rw [hx, heq]
      exact saveInv_fresh hsaves hlength
  · rw [List.length_append]
    exact Nat.lt_add_right _ (inv.bound i hi)
  · rw [hcommitted]
    exact inv.content
  · rw [hcommitted]
    exact inv.saved

/-- A save changes without obtaining the row or committing. -/
theorem SavesInv.quiet (inv : SavesInv env user id x₀ order c) {st : Store} {i : Nat} {x x' : ServerSession}
    (hs : c.sessions[i]? = some x) (hdb : st.db = c.shared.db) (htag : x'.tag = x.tag)
    (hcommit : hasCommitted x' = hasCommitted x) (hself : SaveInv env user id c.shared.db order i x') :
    SavesInv env user id x₀ order ⟨st, c.sessions.set i x'⟩ := by
  have hcommitted : committedAmong ⟨st, c.sessions.set i x'⟩ order = committedAmong c order :=
    committedAmong_set hs htag fun _ => hcommit
  refine ⟨?_, inv.nodup, ?_, ?_, ?_⟩
  · rw [hdb]
    exact sessions_set hs hself fun j y _ hy => inv.sessions j y hy
  · simpa using inv.bound
  · rw [hcommitted, hdb]
    exact inv.content
  · rw [hcommitted]
    exact inv.saved

/-- A save obtains the row, which nobody else holds. -/
theorem SavesInv.obtain (inv : SavesInv env user id x₀ order c) {st : Store} {i : Nat} {x x' : ServerSession}
    (hs : c.sessions[i]? = some x) (hdb : st.db = c.shared.db) (htag : x'.tag = x.tag)
    (hbefore : hasCommitted x = false) (hafter : hasCommitted x' = false) (hi : i ∉ order)
    (hothers : ∀ d ∈ c.others i, ¬ d.holds id) (hself : SaveInv env user id c.shared.db (order ++ [i]) i x') :
    SavesInv env user id x₀ (order ++ [i]) ⟨st, c.sessions.set i x'⟩ := by
  have hcommitted : committedAmong ⟨st, c.sessions.set i x'⟩ (order ++ [i]) = committedAmong c order := by
    rw [committedAmong_set hs htag fun _ => hafter.trans hbefore.symm,
      committedAmong_append, committedAmong_singleton hs, hbefore]
    exact List.append_nil _
  refine ⟨?_, ?_, ?_, ?_, ?_⟩
  · rw [hdb]
    refine sessions_set hs hself fun j y hij hy => ?_
    refine (inv.sessions j y hy).frame (hothers y.priv (mem_others hij hy)) ?_
    simp [hij]
  · exact List.nodup_append.mpr ⟨inv.nodup, List.nodup_singleton i, fun a ha b hb hab => by
      rw [List.mem_singleton.mp hb] at hab
      exact hi (hab ▸ ha)⟩
  · intro j hj
    rw [List.length_set]
    rcases List.mem_append.mp hj with hj | hj
    · exact inv.bound j hj
    · rw [List.mem_singleton.mp hj]
      exact (List.getElem?_eq_some_iff.mp hs).1
  · rw [hcommitted, hdb]
    exact inv.content
  · rw [hcommitted]
    exact inv.saved

/-- The save that holds the row commits. -/
theorem SavesInv.commit (inv : SavesInv env user id x₀ order c) {st : Store} {i : Nat}
    {x x' : ServerSession} {save : Save} (hs : c.sessions[i]? = some x) (htag : x'.tag = x.tag)
    (hholds : x.priv.holds id) (hbefore : hasCommitted x = false) (hafter : hasCommitted x' = true)
    (hsave : Slideo.save? user x.tag.endpoint.saveBody = some save)
    (hcontent : st.db.content? id = (c.shared.db.content? id).map save.apply)
    (hself : SaveInv env user id st.db order i x') : SavesInv env user id x₀ order ⟨st, c.sessions.set i x'⟩ := by
  have hinv := inv.sessions i x hs
  obtain ⟨pre, horder⟩ := List.getLast?_eq_some_iff.mp (hinv.last hholds)
  have hpre : i ∉ pre := by
    have hnodup := inv.nodup
    rw [horder, List.nodup_append] at hnodup
    exact fun h => hnodup.2.2 i h i (List.mem_singleton_self i) rfl
  have hx' : (⟨st, c.sessions.set i x'⟩ : Server).sessions[i]? = some x' :=
    List.getElem?_set_self (List.getElem?_eq_some_iff.mp hs).1
  -- the request joins the committed ones at the end
  have hcommitted : committedAmong ⟨st, c.sessions.set i x'⟩ order = committedAmong c order ++ [x.tag] := by
    rw [horder, committedAmong_append, committedAmong_append,
      committedAmong_singleton hx', committedAmong_singleton hs,
      committedAmong_set hs htag fun h => absurd h hpre, hbefore, hafter, htag]
    simp
  have hreq : x.tag.save? env = some save := by rw [Request.save?, hinv.author, Option.bind_some, hsave]
  refine ⟨?_, inv.nodup, ?_, ?_, ?_⟩
  · refine sessions_set hs hself fun j y hij hy => ?_
    refine (inv.sessions j y hy).frame (fun hj => hij ?_) Iff.rfl
    have hlast := ((inv.sessions j y hy).last hj).symm.trans (hinv.last hholds)
    exact Option.some.inj hlast
  · simpa using inv.bound
  · rw [hcommitted, hcontent, inv.content, List.foldl_append]
    simp [Request.applySave, hreq]
  · rw [hcommitted]
    intro req hmem
    rcases List.mem_append.mp hmem with hmem | hmem
    · exact inv.saved req hmem
    · rw [List.mem_singleton.mp hmem, hreq]
      exact ⟨rfl, hinv.author, hinv.endpoint⟩

theorem SavesInv.step (inv : SavesInv env user id x₀ order c) (h : ServerStep env c e c')
    (hsaves : savesOf env user id e = true) : SavesInv env user id x₀ (order ++ rowOrder [e]) c' := by
  cases h with
  | spawn req =>
    show SavesInv env user id x₀ (order ++ []) _
    rw [List.append_nil]
    exact inv.spawn hsaves rfl
  | @act i x q k r σ' π' hs hp ha =>
    have hinv := inv.sessions i x hs
    have hobeys := hinv.obeys
    rw [hp] at hobeys
    have hstep := saveStep ha hobeys.1 hinv.pending hinv.snapshot
    have hself := hinv.act hp ha hstep
    rw [rowOrder_act]
    cases hstep with
    | quiet hdb _ _ hrow hcommit =>
      rw [hrow, hdb, if_neg Bool.false_ne_true, List.append_nil] at hself
      rw [hrow, if_neg Bool.false_ne_true, List.append_nil]
      exact inv.quiet hs hdb rfl (by rw [hasCommitted_append, hcommit, Bool.or_false]) hself
    | obtain hdb hm _ _ hothers hrow hcommit =>
      rw [hrow, hdb, if_pos rfl] at hself
      rw [hrow, if_pos rfl]
      have hbefore : hasCommitted x = false := by rw [hinv.committed, hm]; rfl
      have hafter : hasCommitted ⟨x.tag, π', k r, x.log ++ [⟨q, r⟩]⟩ = false := by
        rw [hasCommitted_append, hcommit, hbefore]
        rfl
      exact inv.obtain hs hdb rfl hbefore hafter (hinv.early (Or.inr hm)) hothers hself
    | commit hholds hm _ _ hsave hcontent hrow hcommit =>
      rw [hrow, if_neg Bool.false_ne_true, List.append_nil] at hself
      rw [hrow, if_neg Bool.false_ne_true, List.append_nil]
      have hbefore : hasCommitted x = false := by rw [hinv.committed, decide_eq_false hm]
      have hafter : hasCommitted ⟨x.tag, π', k r, x.log ++ [⟨q, r⟩]⟩ = true := by
        rw [hasCommitted_append, hcommit, Bool.or_true]
      exact inv.commit hs rfl hholds hbefore hafter hsave hcontent hself
  | @stall i x q k π' hs hp ha =>
    show SavesInv env user id x₀ (order ++ []) _
    rw [List.append_nil]
    have hinv := inv.sessions i x hs
    obtain ⟨-, -, rfl⟩ := ha
    have hself : SaveInv env user id c.shared.db order i
      { x with priv := { x.priv with snapshot := some c.shared.db } } := by
      refine ⟨hinv.author, hinv.endpoint, hinv.obeys, hinv.committed, ?_, hinv.early, hinv.late, hinv.last,
        fun _ => Or.inr rfl⟩
      have hpending := hinv.pending
      show WouldLeave user id x.tag.endpoint.saveBody c.shared.db { x.priv with snapshot := some c.shared.db }
        (phase user id x)
      cases hm : phase user id x <;> rw [hm] at hpending <;> exact hpending
    exact inv.quiet hs rfl rfl rfl hself

theorem rowOrder_append (es : List ServerEvent) (e : ServerEvent) :
    rowOrder (es ++ [e]) = rowOrder es ++ rowOrder [e] :=
  List.filterMap_append

theorem SavesInv.run {c₀ : Server} {es : List ServerEvent} (hstart : c₀.sessions = [])
    (hcontent : c₀.shared.db.content? id = some x₀)
    (run : RunWhere server (handle env) {} (fun _ e => savesOf env user id e = true) c₀ es c) :
    SavesInv env user id x₀ (rowOrder es) c := by
  induction run with
  | nil =>
    refine ⟨fun i x hx => ?_, List.nodup_nil, fun _ h => (by cases h), hcontent, fun _ h => (by cases h)⟩
    rw [hstart] at hx
    cases hx
  | snoc _ step hsaves ih =>
    rw [rowOrder_append]
    exact ih.step step hsaves

/-- Saves that run alone leave the content that they ask for. -/
theorem InTurn.content {db db' : Db} {reqs : List Request} (run : InTurn env db reqs db') :
    ∀ {p : Presentation} {y : Content}, db.presentations.find? id = some p →
    p.userId = user.id → db.content? id = some y →
      (∀ req ∈ reqs, (req.save? env).isSome = true ∧ req.user? env = some user ∧
        req.endpoint = .updatePresentation id req.endpoint.saveBody) →
      db'.content? id = some (reqs.foldl (Request.applySave env) y) := by
  induction run with
  | nil db => exact fun _ _ hy _ => hy
  | @cons db db' req reqs ws hfresh rest ih =>
    intro p y hp howner hy hreqs
    obtain ⟨hsome, huser, hreq⟩ := hreqs req List.mem_cons_self
    obtain ⟨save, hsave⟩ := Option.isSome_iff_exists.mp hsome
    have hsave' : Slideo.save? user req.endpoint.saveBody = some save := by
      rwa [Request.save?, huser, Option.bind_some] at hsave
    obtain ⟨-, hcontent, p', hp', howner'⟩ := serve_save huser hreq hsave' hp howner hfresh
    rw [hy, Option.map_some] at hcontent
    have hrest := ih hp' howner' hcontent fun req' h => hreqs req' (List.mem_cons_of_mem req h)
    rw [hrest, List.foldl_cons, Request.applySave, hsave]
    rfl

end Runs

theorem exists_inTurn (env : Env) (reqs : List Request) : ∀ db, ∃ db', InTurn env db reqs db' := by
  induction reqs with
  | nil => exact fun db => ⟨db, .nil db⟩
  | cons req reqs ih =>
    intro db
    obtain ⟨w, hw⟩ := exists_freshIds db
    obtain ⟨db', rest⟩ := ih (serve env (fun _ => w) req db).state.1
    exact ⟨db', .cons _ (fun _ => hw) rest⟩

/-- At every time, the title and the slides of the presentation are those that the committed saves leave
    when they run one after another, in the order in which they obtained the row. -/
theorem saves_never_mix {env : Env} {user : AuthUser} {id : String} {c₀ c : Server} {p : Presentation}
    {es : List ServerEvent} (hstart : c₀.sessions = []) (hp : c₀.shared.db.presentations.find? id = some p)
    (howner : p.userId = user.id)
    (run : RunWhere server (handle env) {} (fun _ e => savesOf env user id e = true) c₀ es c) :
    ((rowOrder es).Nodup ∧ ∀ i x, c.sessions[i]? = some x → hasCommitted x = true → i ∈ rowOrder es) ∧
    (∃ db', InTurn env c₀.shared.db (committedAmong c (rowOrder es)) db') ∧
    (∀ db', InTurn env c₀.shared.db (committedAmong c (rowOrder es)) db' →
      c.shared.db.content? id = db'.content? id) ∧
    (committedAmong c (rowOrder es) = [] → c.shared.db.content? id = c₀.shared.db.content? id) ∧
    (∀ req, (committedAmong c (rowOrder es)).getLast? = some req → ∃ save, req.save? env = some save ∧
      (c.shared.db.content? id).map (·.slides) = some ↑save.slides) := by
  have hcontent : c₀.shared.db.content? id = some ⟨p.title, ↑((c₀.shared.db.slidesOf id).map Slide.body)⟩ := by
    rw [Db.content?, hp]
    rfl
  have inv := SavesInv.run hstart hcontent run
  refine ⟨⟨inv.nodup, fun i x hx hcommitted => ?_⟩, exists_inTurn env _ _, fun db' hturn => ?_,
    fun hnone => ?_, fun req hreq => ?_⟩
  · have hinv := inv.sessions i x hx
    rw [hinv.committed] at hcommitted
    exact hinv.late (of_decide_eq_true hcommitted)
  · rw [inv.content, hturn.content hp howner hcontent inv.saved]
  · rw [inv.content, hnone, hcontent]
    rfl
  · obtain ⟨pre, hpre⟩ := List.getLast?_eq_some_iff.mp hreq
    have hmem : req ∈ committedAmong c (rowOrder es) := List.mem_of_getLast? hreq
    obtain ⟨save, hsave⟩ := Option.isSome_iff_exists.mp (inv.saved req hmem).1
    refine ⟨save, hsave, ?_⟩
    rw [inv.content, hpre, List.foldl_append, List.foldl_cons, List.foldl_nil, Request.applySave, hsave]
    rfl

/-- A deck of `alice`, and her saves of it. -/
def deckServer : Server := ⟨⟨createdDb "Roadmap", ∅⟩, []⟩

def alicesSave (title : String) (slides : List Json) : Request :=
  aliceRequest (.updatePresentation (issue 2 0) (some (.obj [("title", .str title), ("slides", .arr slides)])))

/-- The second save waits for the first one's lock, and then fails at its malformed slide. -/
def crossingSaves : List Move :=
  [.arrive (alicesSave "Plan" [.obj [("index", .num 0)]]),
    .arrive (alicesSave "Draft" [.obj [("index", .str "first")]]),
    .answer 0, .answer 1, .answer 0, .answer 1, .answer 0, .answer 0, .answer 0, .answer 0,
    .answer 1, .answer 1, .answer 1, .answer 1]

theorem crossing_saves_take_turns :
    ∃ es c, RunWhere server (handle office) {}
      (fun _ e => savesOf office alice (issue 2 0) e = true) deckServer es c ∧
      c.sessions.all (·.prog.ended) = true ∧ rowOrder es = [0, 1] ∧ (committedAmong c (rowOrder es)).length = 1 ∧
      (c.shared.db.presentations.find? (issue 2 0)).map (·.title) = some "Plan" ∧
      ∀ db', InTurn office deckServer.shared.db (committedAmong c (rowOrder es)) db' →
        c.shared.db.content? (issue 2 0) = db'.content? (issue 2 0) := by
  have hp : deckServer.shared.db.presentations.find? (issue 2 0) = some ⟨issue 2 0, "alice", "Roadmap", 0, 0⟩ := by
    decide +kernel
  have hplay :
      deckServer.playable (fun _ e => savesOf office alice (issue 2 0) e) office 0 10 crossingSaves = true := by
    decide +kernel
  have hissued : Unissued 10 deckServer.shared.issued := fun _ _ _ h => h
  obtain ⟨run, -⟩ := Server.play_run office hissued hplay
  have howner : (⟨issue 2 0, "alice", "Roadmap", 0, 0⟩ : Presentation).userId = alice.id := rfl
  obtain ⟨-, -, hturn, -, -⟩ := saves_never_mix rfl hp howner run
  exact ⟨_, _, run, by decide +kernel, by decide +kernel, by decide +kernel, by decide +kernel, hturn⟩

end Slideo
