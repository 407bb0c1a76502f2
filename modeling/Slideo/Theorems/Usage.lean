import Slideo.Theorems.Effects
import Slideo.Theorems.Failures
import Slideo.Theorems.Race

/-! The usage of a user against what the user has done. The limiter resets the usage of an earlier month when
    it next sees the user, while `GET /api/plans/usage` reports it as it is; and two of the three endpoints
    that create presentations neither ask the limiter nor count. -/

namespace Slideo
open Js WindowCounter
open Prog (Wp Post)

/-! ### What a request stores -/

/-- A statement outside a transaction. -/
theorem Answers.outside {q : Query} {db : Db} {s' : Db × Conn}
    {r : Except Err q.Answer} (h : Answers q (db, {}) r s') (hq : q.IsStatement) :
    (∃ w e, r = .error e ∧ s' = (db, {}) ∧ exec w db db q = .error e) ∨
      ∃ w a ws, exec w db db q = .ok (a, ws) ∧ r = .ok a ∧ s' = (db.applyAll ws, {}) := by
  obtain ⟨w, hw⟩ := h
  cases hexec : exec w db db q with
  | error e =>
    rw [answer_error hq hexec] at hw
    cases hw
    exact Or.inl ⟨w, e, rfl, rfl, hexec⟩
  | ok out =>
    rw [answer_ok hq hexec] at hw
    cases hw
    exact Or.inr ⟨w, out.1, out.2, hexec, rfl, rfl⟩

/-- Calls that store no presentation. -/
def unstoring : Interleave.Monitor Query Query.Answer Err Unit where
  Allowed _ q := q.IsStatement ∧ q.stores = false
  next m _ _ := m

theorem storesDeck_of_stores {q : Query} (h : q.stores = false)
    (r : Except Err q.Answer) : storesDeck ⟨q, r⟩ = false := by
  cases q <;> first | rfl | cases h

/-- One presentation is stored when the answer is 201, none otherwise; 403 is answered only where `forbidden`. -/
def Stored (forbidden : Prop) : Post Query Query.Answer Err (Db × Conn) Response := fun r _ log =>
  log.countP storesDeck = (statusOf r == 201).toNat ∧ (statusOf r = 403 → forbidden)

section Rules
variable {forbidden : Prop} {α : Type} {db : Db} {user : AuthUser}

theorem stored_pure {response : Response} {s : Db × Conn} (h : response.status ≠ 201) (h' : response.status ≠ 403) :
    Wp Answers (pure response : Handler Response) (Stored forbidden) s :=
  ⟨by rw [statusOf, beq_eq_false_iff_ne.mpr h]; rfl, fun hstatus => absurd hstatus h'⟩

theorem stored_guarded {onError : Err → Response} {body : Handler Response} {s : Db × Conn}
    (herror : ∀ e, (onError e).status = 500) (h : Wp Answers body (Stored forbidden) s) :
    Wp Answers (guarded onError body) (Stored forbidden) s := by
  refine h.caught fun e s' log hr => ?_
  rw [Stored, statusOf, herror]
  exact hr

theorem stored_throw (e : Err) (s : Db × Conn) {log : List (Answered Query Query.Answer Err)}
    (hlog : log.countP storesDeck = 0) :
    Stored forbidden (.error e) s log :=
  ⟨hlog, fun h => absurd h (show 500 ≠ 403 by decide)⟩

theorem stored_ofOption_bind {o : Option α} {f : α → Handler Response} {s : Db × Conn}
    (hf : ∀ a, o = some a → Wp Answers (f a) (Stored forbidden) s) :
    Wp Answers (ofOption o >>= f) (Stored forbidden) s :=
  wp_ofOption_bind (stored_throw _ s rfl) hf

theorem stored_append {r : Except Err Response} {s : Db × Conn} {log log' : List (Answered Query Query.Answer Err)}
    (hlog : log.countP storesDeck = 0) : Stored forbidden r s (log ++ log') ↔ Stored forbidden r s log' := by
  rw [Stored, Stored, List.countP_append, hlog, Nat.zero_add]

/-- A call that stores nothing. -/
theorem stored_ask_bind {q : Query} {f : q.Answer → Handler Response}
    (hq : q.IsStatement) (hstores : q.stores = false)
    (hf : ∀ a db', Wp Answers (f a) (Stored forbidden) (db', {})) :
    Wp Answers (ask q >>= f) (Stored forbidden) (db, {}) := by
  have hcount : ∀ r, [(⟨q, r⟩ : Answered Query Query.Answer Err)].countP storesDeck = 0 :=
    fun r => List.countP_singleton.trans (by rw [storesDeck_of_stores hstores r]; rfl)
  refine Wp.ask_bind (fun e s' _ => stored_throw e s' (hcount _)) fun a s' h => ?_
  rcases h.outside hq with ⟨w, e, hr, -⟩ | ⟨w, a', ws, -, -, rfl⟩
  · cases hr
  · exact (hf a _).mono fun r s'' log hr => (stored_append (hcount _)).mpr hr

/-- A part that stores nothing. -/
theorem stored_quiet_bind {p : Handler α} {f : α → Handler Response} {P : Except Err α → Prop}
    (hp : unstoring.Ensures () p fun _ r => P r)
    (hf : ∀ a db', P (.ok a) → Wp Answers (f a) (Stored forbidden) (db', {})) :
    Wp Answers (p >>= f) (Stored forbidden) (db, {}) := by
  have hcall : ∀ {m q s r s'}, unstoring.Allowed m q → (∃ db, s = (db, {})) → Answers q s r s' →
      (∃ db', s' = (db', {})) ∧ storesDeck ⟨q, r⟩ = false := by
    rintro m q _ r s' ⟨hq, hstores⟩ ⟨db, rfl⟩ hanswers
    refine ⟨?_, storesDeck_of_stores hstores r⟩
    rcases hanswers.outside hq with ⟨w, e, -, rfl, -⟩ | ⟨w, a, ws, -, -, rfl⟩
    · exact ⟨_, rfl⟩
    · exact ⟨_, rfl⟩
  refine Wp.bind ((Wp.of_ensures (R := fun _ s => ∃ db', s = (db', {}))
    (G := fun c => storesDeck c = false) hcall hp
    ⟨db, rfl⟩).mono fun r s log hr => ?_)
  obtain ⟨⟨_, ⟨db', rfl⟩, hP⟩, hlog⟩ := hr
  have hcount : log.countP storesDeck = 0 := List.countP_eq_zero.mpr fun c hc => by simp [hlog c hc]
  cases r with
  | error e => exact stored_throw e _ hcount
  | ok a => exact (hf a db' hP).mono fun r s' log' hr => (stored_append hcount).mpr hr

/-- The presentation that is answered. -/
theorem stored_create {userId : String} {title : Val} {data : List SlideData} {body : Deck → Body} {s : Db × Conn} :
    Wp Answers (ask (.presentationCreate userId title data) >>= fun deck => pure ⟨201, body deck⟩)
      (Stored forbidden) s := by
  refine Wp.ask_bind (fun e s' _ => stored_throw e s' rfl) fun deck s' _ => ?_
  exact ⟨rfl, fun h => absurd h (show 201 ≠ 403 by decide)⟩

theorem stored_saveDeck {topic : Val} {slides : List Json} :
    Wp Answers (saveDeck user topic slides) (Stored forbidden) (db, {}) := by
  refine stored_ofOption_bind fun data _ => ?_
  refine Wp.ask_bind (fun e s' _ => stored_throw e s' rfl) fun deck s' h => ?_
  rcases h.outside trivial with ⟨_, _, hr, -⟩ | ⟨w, a, ws, hexec, -, rfl⟩
  · cases hr
  have huser : user.id ∈ (db.applyAll ws).users.keys := by
    obtain ⟨t, bodies, -, -, huser, -, -, -, -, rfl⟩ := createDeck_ok hexec
    rw [Db.applyAll_cons, applyAll_insertSlides]
    exact huser
  refine Wp.ask_bind (fun e s' h' => ?_) fun _ s' _ => ⟨rfl, fun h => absurd h (show 201 ≠ 403 by decide)⟩
  -- the user is there, so the increment does not fail
  rcases h'.outside trivial with ⟨w', _, hr, -, hexec'⟩ | ⟨_, _, _, -, hr, -⟩
  · simp [exec, updateUserRow, require, huser, bind, Except.bind, pure, Except.pure] at hexec'
  · cases hr

end Rules

section Handlers
variable {forbidden : Prop} {env : Env} {db : Db} {user : AuthUser}

theorem stored_createPresentation {body : Val} :
    Wp Answers (createPresentation user body) (Stored forbidden) (db, {}) := by
  refine stored_guarded (fun _ => rfl) ?_
  split
  · exact stored_pure (show 401 ≠ 201 by decide) (show 401 ≠ 403 by decide)
  refine stored_ofOption_bind fun topic _ => ?_
  split
  · exact stored_pure (show 400 ≠ 201 by decide) (show 400 ≠ 403 by decide)
  refine stored_quiet_bind (P := fun _ => True) ((ensures_findRequiredLayouts (M := unstoring) (m := ())
    (fun _ => ⟨trivial, rfl⟩) fun _ _ => rfl).mono fun _ _ _ => trivial) fun layouts db' _ => ?_
  refine stored_quiet_bind (P := fun _ => True) ((ensures_finalSlides (M := unstoring) (m := ())
    (fun _ => ⟨trivial, rfl⟩) fun _ _ => rfl).mono fun _ _ _ => trivial) fun slides db'' _ => ?_
  exact stored_saveDeck

theorem stored_useTemplate {body : Val} : Wp Answers (useTemplate user body) (Stored forbidden) (db, {}) := by
  refine stored_guarded (fun _ => rfl) ?_
  refine stored_ofOption_bind fun templateId _ => ?_
  show Wp _ (if _ then _ else _) _ _
  split
  · exact stored_pure (show 401 ≠ 201 by decide) (show 401 ≠ 403 by decide)
  refine stored_ask_bind trivial rfl fun found db' => ?_
  rcases found with _ | ⟨template, slides⟩
  · exact stored_pure (show 404 ≠ 201 by decide) (show 404 ≠ 403 by decide)
  · exact stored_create

theorem stored_convertPptToPresentation {id : String} :
    Wp Answers (convertPptToPresentation user id) (Stored forbidden) (db, {}) := by
  refine stored_guarded (fun _ => rfl) ?_
  split
  · exact stored_pure (show 401 ≠ 201 by decide) (show 401 ≠ 403 by decide)
  refine stored_ask_bind trivial rfl fun found db' => ?_
  cases found with
  | none => exact stored_pure (show 404 ≠ 201 by decide) (show 404 ≠ 403 by decide)
  | some importedPpt =>
    refine stored_ask_bind trivial rfl fun entries db'' => ?_
    exact stored_create

/-- The limiter stores nothing, and answers with errors. -/
theorem unstoring_checkLimits : unstoring.Ensures () (checkLimits env user) fun _ r =>
    ∀ response, r = .ok (.inl response) → response.status ≠ 201 := by
  have hquiet : ∀ q : Query, unstoring.Allowed () q → unstoring.Keeps (fun _ => True) q :=
    fun q hq _ _ => ⟨hq, fun _ => trivial⟩
  refine (ensures_limits (hquiet _ ⟨trivial, rfl⟩) (hquiet _ ⟨trivial, rfl⟩) (fun _ _ => hquiet _ ⟨trivial, rfl⟩)
    trivial).mono fun _ r h response heq => ?_
  have := h.2 response heq
  omega

theorem stored_capped {row : User} {body : Val} : Wp Answers (match checkSlideCountLimit row body with
    | some body => createPresentation user body
    | none => pure ⟨500, .errorDetails "Internal Server Error" .typeError⟩) (Stored forbidden) (db, {}) := by
  cases checkSlideCountLimit row body with
  | none => exact stored_pure (show 500 ≠ 201 by decide) (show 500 ≠ 403 by decide)
  | some body => exact stored_createPresentation

theorem stored_postPresentations {body : Val} :
    Wp Answers (postPresentations env body user) (Stored True) (db, {}) := by
  refine stored_quiet_bind unstoring_checkLimits fun found db' hfound => ?_
  rcases found with response | row
  · refine ⟨?_, fun _ => trivial⟩
    rw [statusOf, beq_eq_false_iff_ne.mpr (hfound response rfl)]
    rfl
  · exact stored_capped

end Handlers

/-! ### Reported usage -/

section Reported
variable {env : Env} {ws : Nat → World} {req : Request} {user : AuthUser} {db : Db} {row : User}

/-- The usage is reported as it is stored. -/
theorem result_getUserPlan (ws : Nat → World) (huser : req.user? env = some user)
    (hreq : req.endpoint = .getUserPlan) (hrow : db.users.find? user.id = some row) :
    (serve env ws req db).result = .ok (if user.id = "" then .error 401 "Unauthorized"
      else ⟨200, .usage row.plan row.presentationsCreatedThisMonth row.lastUsageReset⟩) := by
  have hfind : exec (ws 0) db db (.userFindUnique user.id) = .ok (some row, []) := by simp only [exec, hrow]
  rw [serve_of_user huser (show handle env req = authenticated env req getUserPlan by rw [handle, hreq]), getUserPlan]
  split
  · rfl
  · rw [result_guarded, result_read (q := .userFindUnique user.id) trivial hfind]
    rfl

/-- Only the limiter forbids a `POST /api/presentations`. -/
theorem forbidden_iff {body : Val} (huser : req.user? env = some user)
    (hreq : req.endpoint = .createPresentation body) (hrow : db.users.find? user.id = some row) :
    (∃ b, (serve env ws req db).result = .ok ⟨403, b⟩) ↔ passes env ws user db = false := by
  obtain ⟨r, db₁, log, row₁, hcheck, -, -, hrefused, -⟩ := run_checkLimits env ws hrow
  rw [serve_postPresentations huser hreq, passes, hcheck]
  rcases r with ⟨status, b⟩ | seen
  · obtain rfl : status = 403 := hrefused _ rfl
    have hrun : (postPresentations env body user).run answer ws 0 (db, {}) = ⟨.ok ⟨403, b⟩, (db₁, {}), log ++ []⟩ :=
      Prog.run_bind_ok hcheck rfl
    exact iff_of_true ⟨b, by rw [hrun]⟩ rfl
  · refine iff_of_false ?_ Bool.noConfusion
    rintro ⟨b, hb⟩
    rw [postPresentations, Prog.run_bind, hcheck] at hb
    have hstored := wp_run ws (0 + log.length) (@stored_capped False db₁ user seen body)
    exact hstored.2 (congrArg statusOf hb)

/-- After any requests, the report tells whether the user's next `POST /api/presentations` is forbidden, unless
    the user is at the limit of a month that is over. -/
theorem usage_agrees_iff {turns : List Turn} {db₀ : Db} {report post : Request}
    {ws' : Nat → World} {body : Val} {plan : Plan} {count : Nat} {reset : Time}
    (huser : report.user? env = some user) (hreport : report.endpoint = .getUserPlan)
    (huser' : post.user? env = some user) (hpost : post.endpoint = .createPresentation body)
    (hrow : (dbAfter env db₀ turns).users.find? user.id = some row)
    (hanswer : (serve env ws report (dbAfter env db₀ turns)).result = .ok ⟨200, .usage plan count reset⟩) :
    ((∃ b, (serve env ws' post (dbAfter env db₀ turns)).result = .ok ⟨403, b⟩) ↔ plan = .FREE ∧ 5 ≤ count) ↔
      ¬ (row.plan = .FREE ∧ 5 ≤ row.presentationsCreatedThisMonth ∧
        monthChanged env (ws' 1).now row.lastUsageReset) := by
  have hreported : plan = row.plan ∧ count = row.presentationsCreatedThisMonth := by
    rw [result_getUserPlan ws huser hreport hrow] at hanswer
    split at hanswer
    · cases hanswer
    · cases hanswer
      exact ⟨rfl, rfl⟩
  obtain ⟨rfl, rfl⟩ := hreported
  rw [forbidden_iff huser' hpost hrow, ← Bool.not_eq_true, passes_iff env ws' hrow,
    Counter.visit, User.usage, monthChanged_iff]
  by_cases hmonth : env.month row.lastUsageReset = env.month (ws' 1).now
  · simp [hmonth, monthlyLimit]
  · simp [hmonth, monthlyLimit]

end Reported

/-- The first `n` posts of `alice`, in January. -/
def januaryPosts (n : Nat) : List Turn := (List.range n).map fun i => ⟨fun k => world 0 (10 * i + k), alicesPost⟩

def usageRequest : Request := aliceRequest .getUserPlan

/-- Within January the report and the limiter agree that `alice` has used up her quota. -/
theorem full_january_refused :
    ∃ b, (serve twoMonths (world 0) alicesPost (dbAfter twoMonths officeDb (januaryPosts 5))).result =
      .ok ⟨403, b⟩ := by
  have hrow : (dbAfter twoMonths officeDb (januaryPosts 5)).users.find? alice.id =
      some { account "alice" 5 with lastUsageReset := 0 } := by decide +kernel
  have huser : usageRequest.user? twoMonths = some alice := by decide +kernel
  have hanswer := result_getUserPlan (world 0) huser rfl hrow
  have huser' : alicesPost.user? twoMonths = some alice := by decide +kernel
  refine ((usage_agrees_iff huser rfl huser' rfl hrow hanswer).mpr ?_).mpr ⟨rfl, le_rfl⟩
  rintro ⟨-, -, hchanged⟩
  exact absurd hchanged (by decide +kernel)

/-- In February the usage of January is reported, but a post passes. -/
theorem february_report_disagrees :
    ¬ ∀ (env : Env) (user : AuthUser) (db₀ : Db) (turns : List Turn) (report post : Request) (ws ws' : Nat →
      World) (body : Val)
      (plan : Plan) (count : Nat) (reset : Time), (∀ x ∈ turns, ∀ n m, (x.ws n).now ≤ (ws' m).now) →
      report.user? env = some user → report.endpoint = .getUserPlan → post.user? env = some user →
      post.endpoint = .createPresentation body →
      (serve env ws report (dbAfter env db₀ turns)).result = .ok ⟨200, .usage plan count reset⟩ →
      ((∃ b, (serve env ws' post (dbAfter env db₀ turns)).result = .ok ⟨403, b⟩) ↔ plan = .FREE ∧ 5 ≤ count) := by
  intro h
  have hrow : (dbAfter twoMonths officeDb (januaryPosts 5)).users.find? alice.id =
      some { account "alice" 5 with lastUsageReset := 0 } := by decide +kernel
  have huser : usageRequest.user? twoMonths = some alice := by decide +kernel
  have hanswer := result_getUserPlan (world 1000) huser rfl hrow
  have huser' : alicesPost.user? twoMonths = some alice := by decide +kernel
  have hlater : ∀ x ∈ januaryPosts 5, ∀ n m, (x.ws n).now ≤ (world 1000 m).now := by
    intro x hx n m
    obtain ⟨i, -, rfl⟩ := List.mem_map.mp hx
    exact show (0 : Int) ≤ 1000 by decide
  obtain ⟨b, hb⟩ := (h twoMonths alice officeDb (januaryPosts 5) usageRequest alicesPost (world 1000)
    (fun k => world 1000 (100 + k)) _ _ _ _ hlater huser rfl huser' rfl hanswer).mpr ⟨rfl, le_rfl⟩
  have hstatus : statusOf (serve twoMonths (fun k => world 1000 (100 + k)) alicesPost
      (dbAfter twoMonths officeDb (januaryPosts 5))).result = 201 := by decide +kernel
  rw [hb] at hstatus
  cases hstatus

/-! ### Creations that count -/

/-- The endpoints that create presentations without the limiter. -/
def Endpoint.uncounted (e : Endpoint) : Bool := e.storesDecks && !e.limited

/-- The call stores a presentation of the user. -/
def storesDeckOf (id : String) : Answered Query Query.Answer Err → Bool
  | ⟨.presentationCreate userId _ _, .ok _⟩ => userId == id
  | _ => false

section Counting
variable (env : Env) (id : String)

/-- The presentations that a user creates in a run. -/
def decksCreated : Db → List Turn → Nat
  | _, [] => 0
  | db, x :: turns => (x.serve env db).log.countP (storesDeckOf id) + decksCreated (x.serve env db).state.1 turns

/-- The user's requests to the endpoints that create presentations succeed. -/
def CreationsSucceed : Db → List Turn → Prop
  | _, [] => True
  | db, x :: turns => (x.req.userId? env = some id → x.req.endpoint.storesDecks = true →
    statusOf (x.serve env db).result = 201) ∧
      CreationsSucceed (x.serve env db).state.1 turns

/-- What a request adds to the usage of the user. -/
def Turn.counts (x : Turn) (db : Db) : Nat :=
  (decide (x.req.userId? env = some id) && creates env x.ws x.req db).toNat

/-- What a run adds to the usage of the user. -/
def decksCounted : Db → List Turn → Nat
  | _, [] => 0
  | db, x :: turns => x.counts env id db + decksCounted (x.serve env db).state.1 turns

/-- A request of the user that creates a presentation without the limiter. -/
def Turn.bypasses (x : Turn) : Bool := decide (x.req.userId? env = some id) && x.req.endpoint.uncounted

end Counting

section Run
variable {env : Env} {id : String} {db : Db} {row : User} {x : Turn}

theorem userId?_eq_some {req : Request} (h : req.userId? env = some id) :
    ∃ user, req.user? env = some user ∧ user.id = id :=
  Option.map_eq_some_iff.mp h

/-- A successful `POST /api/presentations`. -/
theorem creates_eq : creates env x.ws x.req db =
    (x.req.endpoint.storesDecks && x.req.endpoint.limited && statusOf (x.serve env db).result == 201) := by
  unfold creates Turn.serve
  cases x.req.endpoint with
  | createPresentation body => cases (serve env x.ws x.req db).result <;> rfl
  | _ => rfl

/-- One request within the month. -/
theorem usage_turn (hrow : db.users.find? id = some row)
    (hmonth : env.month (x.ws 1).now = env.month row.lastUsageReset) :
    ∃ row', (x.serve env db).state.1.users.find? id = some row' ∧ row'.plan = row.plan ∧
      env.month row'.lastUsageReset = env.month row.lastUsageReset ∧
      row'.presentationsCreatedThisMonth = row.presentationsCreatedThisMonth + x.counts env id db ∧
      (row.plan = .FREE → row.presentationsCreatedThisMonth ≤ monthlyLimit →
        row'.presentationsCreatedThisMonth ≤ monthlyLimit) := by
  by_cases huses : x.req.uses env id
  · obtain ⟨hlimited, hid⟩ := huses
    obtain ⟨user, huser, rfl⟩ := userId?_eq_some hid
    obtain ⟨row', hrow', husage⟩ := serve_usage x.ws hrow huser hlimited
    obtain ⟨_, hsame, hplan⟩ := @serve_plan_kept env db _ row x.ws x.req hrow
    rw [hrow'] at hsame
    cases hsame
    have hvisit : (row.usage env).visit (env.month (x.ws 1).now) = row.usage env := if_pos hmonth.symm
    have hcounts : x.counts env user.id db = (creates env x.ws x.req db).toNat := by
      rw [Turn.counts, decide_eq_true hid]; rfl
    rw [hvisit] at husage
    rw [hcounts]
    cases hcreates : creates env x.ws x.req db with
    | false =>
      rw [hcreates] at husage
      have hcount : row'.presentationsCreatedThisMonth = row.presentationsCreatedThisMonth :=
        congrArg Counter.count husage
      exact ⟨row', hrow', hplan, congrArg Counter.window husage, hcount, fun _ hle => by rwa [hcount]⟩
    | true =>
      rw [hcreates] at husage
      have hcount : row'.presentationsCreatedThisMonth = row.presentationsCreatedThisMonth + 1 :=
        congrArg Counter.count husage
      refine ⟨row', hrow', hplan, congrArg Counter.window husage, hcount, fun hfree _ => ?_⟩
      -- the request has passed the limiter
      rcases (passes_iff env x.ws hrow).mp (passes_of_creates hrow huser hcreates) with hplan | hless
      · exact absurd hfree hplan
      · rw [hvisit] at hless
        rw [hcount]
        exact hless
  · have hcounts : x.counts env id db = 0 := by
      have hneither : (decide (x.req.userId? env = some id) && creates env x.ws x.req db) = false := by
        refine Bool.eq_false_iff.mpr fun h => huses ?_
        obtain ⟨hid, hcreates⟩ := Bool.and_eq_true_iff.mp h
        rw [creates_eq, Bool.and_eq_true_iff, Bool.and_eq_true_iff] at hcreates
        exact ⟨hcreates.1.2, of_decide_eq_true hid⟩
      rw [Turn.counts, hneither]
      rfl
    exact ⟨row, serve_user_kept x.ws hrow huses, rfl, rfl, by rw [hcounts]; rfl, fun _ hle => hle⟩

/-- The usage counts what the limiter has let through. -/
theorem usage_turns {turns : List Turn} : ∀ {db : Db} {row : User}, db.users.find? id = some row →
    (∀ x ∈ turns, ∀ n, env.month (x.ws n).now = env.month row.lastUsageReset) →
    ∃ row', (dbAfter env db turns).users.find? id = some row' ∧ row'.plan = row.plan ∧
      row'.presentationsCreatedThisMonth = row.presentationsCreatedThisMonth + decksCounted env id db turns ∧
      (row.plan = .FREE → row.presentationsCreatedThisMonth ≤ monthlyLimit →
        row'.presentationsCreatedThisMonth ≤ monthlyLimit) := by
  induction turns with
  | nil => exact fun hrow _ => ⟨_, hrow, rfl, rfl, fun _ hle => hle⟩
  | cons x turns ih =>
    intro db row hrow hmonth
    obtain ⟨row₁, hrow₁, hplan₁, hreset₁, hcount₁, hlimit₁⟩ := usage_turn hrow (hmonth x List.mem_cons_self 1)
    obtain ⟨row', hrow', hplan', hcount', hlimit'⟩ := ih hrow₁ fun y hy n => by
      rw [hreset₁]
      exact hmonth y (List.mem_cons_of_mem x hy) n
    refine ⟨row', hrow', hplan'.trans hplan₁, ?_, fun hfree hle => hlimit' (hplan₁.trans hfree) (hlimit₁ hfree hle)⟩
    rw [hcount', hcount₁, decksCounted, Nat.add_assoc]

/-- The endpoints that create presentations answer 201 for each that they store. -/
theorem stored_serve {user : AuthUser} (huser : x.req.user? env = some user)
    (hstores : x.req.endpoint.storesDecks = true) :
    (x.serve env db).log.countP storesDeck = (statusOf (x.serve env db).result == 201).toNat := by
  have hserved : ∀ {handler : AuthUser → Handler Response}, handle env x.req = authenticated env x.req handler →
      Wp Answers (handler user) (Stored True) (db, {}) →
      (x.serve env db).log.countP storesDeck = (statusOf (x.serve env db).result == 201).toNat := by
    intro handler hhandle hwp
    rw [Turn.serve, serve_of_user huser hhandle]
    exact (wp_run x.ws 0 hwp).1
  cases hreq : x.req.endpoint with
  | createPresentation body => exact hserved (by rw [handle, hreq]) stored_postPresentations
  | useTemplate body => exact hserved (by rw [handle, hreq]) stored_useTemplate
  | convertPptToPresentation id => exact hserved (by rw [handle, hreq]) stored_convertPptToPresentation
  | _ =>
    rw [hreq] at hstores
    cases hstores

theorem permitted_of_log {c : Answered Query Query.Answer Err} (hc : c ∈ (x.serve env db).log) :
    Permitted (x.req.userId? env) x.req.endpoint c.1 :=
  (serve_keeps x.ws x.req (R := fun _ => True) trivial fun _ _ _ _ _ _ _ _ => trivial).2 c hc

/-- A request stores presentations for its own user only. -/
theorem storesDeckOf_eq {c : Answered Query Query.Answer Err} (hc : c ∈ (x.serve env db).log) :
    storesDeckOf id c = (storesDeck c && decide (x.req.userId? env = some id)) := by
  have hpermitted := permitted_of_log hc
  obtain ⟨q, r⟩ := c
  cases q with
  | presentationCreate userId title data =>
    cases r with
    | error e => rfl
    | ok deck =>
      show (userId == id) = decide _
      rw [hpermitted.2, Bool.eq_iff_iff, beq_iff_eq, decide_eq_true_iff, Option.some.injEq]
  | _ => rfl

theorem storesDeck_false {c : Answered Query Query.Answer Err} (hc : c ∈ (x.serve env db).log)
    (hstores : x.req.endpoint.storesDecks = false) : storesDeck c = false := by
  have hpermitted := permitted_of_log hc
  obtain ⟨q, r⟩ := c
  cases q with
  | presentationCreate userId title data =>
    rw [hpermitted.1] at hstores
    cases hstores
  | _ => rfl

/-- What a request stores for the user is counted, or bypasses the limiter. -/
theorem decks_turn (hsuccess : x.req.userId? env = some id → x.req.endpoint.storesDecks = true →
      statusOf (x.serve env db).result = 201) :
    (x.serve env db).log.countP (storesDeckOf id) = x.counts env id db + (x.bypasses env id).toNat := by
  by_cases hmine : x.req.userId? env = some id
  · have hown : (x.serve env db).log.countP (storesDeckOf id) = (x.serve env db).log.countP storesDeck :=
      List.countP_congr fun c hc => by rw [storesDeckOf_eq hc, decide_eq_true hmine, Bool.and_true]
    rw [hown, Turn.counts, Turn.bypasses, creates_eq, Endpoint.uncounted,
      decide_eq_true hmine, Bool.true_and, Bool.true_and]
    cases hstores : x.req.endpoint.storesDecks with
    | false =>
      have hnone : (x.serve env db).log.countP storesDeck = 0 :=
        List.countP_eq_zero.mpr fun c hc => by rw [storesDeck_false hc hstores]; decide
      rw [hnone]
      rfl
    | true =>
      obtain ⟨user, huser, rfl⟩ := userId?_eq_some hmine
      have hstatus := hsuccess hmine hstores
      rw [stored_serve huser hstores, hstatus]
      cases x.req.endpoint.limited <;> rfl
  · have hnone : (x.serve env db).log.countP (storesDeckOf id) = 0 :=
      List.countP_eq_zero.mpr fun c hc => by rw [storesDeckOf_eq hc, decide_eq_false hmine, Bool.and_false]; decide
    rw [hnone, Turn.counts, Turn.bypasses, decide_eq_false hmine]
    rfl

theorem decks_turns {turns : List Turn} : ∀ {db : Db}, CreationsSucceed env id db turns →
    decksCreated env id db turns = decksCounted env id db turns + turns.countP (Turn.bypasses env id) := by
  induction turns with
  | nil => exact fun _ => rfl
  | cons x turns ih =>
    intro db hsuccess
    rw [decksCreated, decksCounted, decks_turn hsuccess.1, ih hsuccess.2, List.countP_cons]
    cases x.bypasses env id <;> simp <;> omega

end Run

/-- In a month from a fresh account, where the user's creations succeed, the usage is the number of presentations
    that the user has created (at most 5 in a FREE plan) exactly when none of them came from a template or an
    import. -/
theorem creations_counted_iff {env : Env} {id : String} {db : Db} {row : User} {turns : List Turn}
    (hrow : db.users.find? id = some row) (hfresh : row.presentationsCreatedThisMonth = 0)
    (hmonth : ∀ x ∈ turns, ∀ n, env.month (x.ws n).now = env.month row.lastUsageReset)
    (hsuccess : CreationsSucceed env id db turns) :
    (∃ row', (dbAfter env db turns).users.find? id = some row' ∧
        row'.presentationsCreatedThisMonth = decksCreated env id db turns ∧
        (row'.plan = .FREE → decksCreated env id db turns ≤ 5)) ↔
      ∀ x ∈ turns, x.req.userId? env = some id → x.req.endpoint.uncounted = false := by
  obtain ⟨row', hrow', hplan, hcount, hlimit⟩ := usage_turns hrow hmonth
  have hdecks := decks_turns hsuccess
  have hbypasses : turns.countP (Turn.bypasses env id) = 0 ↔
      ∀ x ∈ turns, x.req.userId? env = some id → x.req.endpoint.uncounted = false := by
    rw [List.countP_eq_zero]
    refine forall₂_congr fun x _ => ?_
    simp [Turn.bypasses]
  rw [← hbypasses]
  constructor
  · rintro ⟨_, hsame, hequal, -⟩
    rw [hrow'] at hsame
    cases hsame
    omega
  · intro hnone
    have hequal : row'.presentationsCreatedThisMonth = decksCreated env id db turns := by omega
    refine ⟨row', hrow', hequal, fun hfree => ?_⟩
    rw [← hequal]
    exact hlimit (hplan.symm.trans hfree) (by rw [hfresh]; exact Nat.zero_le _)

theorem two_posts_counted :
    ∃ row', (dbAfter office officeDb (januaryPosts 2)).users.find? "alice" = some row' ∧
      row'.presentationsCreatedThisMonth = decksCreated office "alice" officeDb (januaryPosts 2) ∧
      (row'.plan = .FREE → decksCreated office "alice" officeDb (januaryPosts 2) ≤ 5) := by
  have hrow : officeDb.users.find? "alice" = some (account "alice" 0) := by decide +kernel
  have hsuccess : CreationsSucceed office "alice" officeDb (januaryPosts 2) :=
    ⟨fun _ _ => by decide +kernel, fun _ _ => by decide +kernel, trivial⟩
  refine (creations_counted_iff hrow rfl (fun _ _ _ => rfl) hsuccess).mpr fun x hx _ => ?_
  obtain ⟨i, -, rfl⟩ := List.mem_map.mp hx
  rfl

/-- The accounts, and a template. -/
def templateDb : Db := { officeDb with templates := pitchTemplates }

def templateTurn : Turn := ⟨world 0, aliceRequest (.useTemplate (some (.obj [("templateId", .str "t")])))⟩

/-- A presentation from a template is not counted. -/
theorem template_deck_uncounted :
    ¬ ∀ (env : Env) (id : String) (db : Db) (row : User) (turns : List Turn), db.users.find? id = some row →
      row.presentationsCreatedThisMonth = 0 →
      (∀ x ∈ turns, ∀ n, env.month (x.ws n).now = env.month row.lastUsageReset) →
      CreationsSucceed env id db turns →
      ∃ row', (dbAfter env db turns).users.find? id = some row' ∧
        row'.presentationsCreatedThisMonth = decksCreated env id db turns ∧
        (row'.plan = .FREE → decksCreated env id db turns ≤ 5) := by
  intro h
  have hrow : templateDb.users.find? "alice" = some (account "alice" 0) := by decide +kernel
  have hsuccess : CreationsSucceed office "alice" templateDb [templateTurn] :=
    ⟨fun _ _ => by decide +kernel, trivial⟩
  obtain ⟨row', hrow', hcount, -⟩ := h office "alice" templateDb _ [templateTurn]
    hrow rfl (fun _ _ _ => rfl) hsuccess
  have hstays : (dbAfter office templateDb [templateTurn]).users.find? "alice" = some (account "alice" 0) := by
    decide +kernel
  have hcreated : decksCreated office "alice" templateDb [templateTurn] = 1 := by decide +kernel
  rw [hstays] at hrow'
  cases hrow'
  rw [hcreated] at hcount
  cases hcount

end Slideo
