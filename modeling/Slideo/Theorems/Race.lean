import Slideo.Theorems.Ownership
import Slideo.Theorems.Quota

/-! The monthly limit under concurrency. A `POST /api/presentations` reads the usage long before it counts
    itself, so requests that read in between are admitted on the same quota. A request that has passed the
    check holds quota until it is counted; the limit is kept as long as no request is admitted on quota
    that others hold. -/

namespace Slideo
open Js Interleave

/-! ### What a `POST /api/presentations` does -/

/-- How far a request has come. -/
inductive Progress where
  | arrived
  | looked (row : User)
  | resetting
  | admitted
  | created
  | counted
  | closed
  deriving DecidableEq

/-- The check of `checkLimits` on a row whose usage is of this month. -/
def User.hasQuota (row : User) : Bool := !decide
    (row.plan = .FREE ∧ monthlyLimit ≤ row.presentationsCreatedThisMonth)

/-- The calls of a `POST /api/presentations` in their order. -/
def posting (env : Env) (user : AuthUser) : Monitor Query Query.Answer Err Progress where
  Allowed
    | .arrived, .userFindUnique id => id = user.id
    | .looked _, .clock => True
    | .resetting, .userUpdate _ (.resetUsage _) => True
    | .admitted, .templateFindUnique _ | .admitted, .generateContent _ | .admitted, .presentationCreate _ _ _ =>
      True
    | .created, .userUpdate id .incrementUsage => id = user.id
    | _, _ => False
  next
    | .arrived, .userFindUnique _, .ok (some row) => .looked row
    | .looked row, .clock, .ok now =>
      if monthChanged env now row.lastUsageReset then .resetting else if row.hasQuota then .admitted else .closed
    | .resetting, .userUpdate _ _, .ok _ => .admitted
    | .admitted, .presentationCreate _ _ _, .ok _ => .created
    | .admitted, .presentationCreate _ _ _, .error _ => .closed
    | .admitted, _, _ => .admitted
    | .created, .userUpdate _ _, .ok _ => .counted
    -- a request that fails to count itself has created its presentation nevertheless
    | .created, _, _ => .created
    | _, _, _ => .closed

section Discipline
variable {env : Env} {user : AuthUser}

theorem obeys_saveDeck {topic : Val} {slides : List Json} :
    (posting env user).Obeys .admitted (saveDeck user topic slides) := by
  refine obeys_ofOption_bind fun data _ => ?_
  refine Monitor.Obeys.ask_bind trivial fun deck => ?_
  exact Monitor.Obeys.ask_bind rfl fun _ => trivial

theorem posting_createPresentation {body : Val} :
    (posting env user).Obeys .admitted (createPresentation user body) := by
  apply obeys_guarded
  split
  · trivial
  refine obeys_ofOption_bind fun topic _ => ?_
  split
  · trivial
  refine Monitor.Obeys.bind (P := fun m _ => m = .admitted)
    ((ensures_findRequiredLayouts (fun _ => trivial) fun _ _ => rfl).mono fun _ _ h _ _ => h) ?_
  rintro _ layouts rfl
  refine Monitor.Obeys.bind (P := fun m _ => m = .admitted)
    ((ensures_finalSlides (fun _ => trivial) fun _ _ => rfl).mono fun _ _ h _ _ => h) ?_
  rintro _ slides rfl
  exact obeys_saveDeck

theorem posting_resetUsage {now : Time} {row : User} :
    (posting env user).Ensures ((posting env user).next (.looked row) .clock (.ok now)) (resetUsage env now row)
      fun m r => ∀ row', r = .ok row' → m = if row'.hasQuota then .admitted else .closed := by
  show (posting env user).Ensures (if _ then _ else _) _ _
  unfold resetUsage
  by_cases hmonth : monthChanged env now row.lastUsageReset
  · rw [if_pos hmonth, if_pos hmonth]
    refine Monitor.Ensures.ask_bind trivial (fun _ row' h => ?_) fun _ _ h => by cases h
    cases h
    have hquota : User.hasQuota { row with presentationsCreatedThisMonth := 0 } = true := by
      simp [User.hasQuota, monthlyLimit]
    rw [if_pos hquota]
    rfl
  · rw [if_neg hmonth, if_neg hmonth]
    intro row' h
    cases h
    rfl

/-- Whoever passes the limiter is admitted. -/
theorem posting_checkLimits :
    (posting env user).Ensures .arrived (checkLimits env user) fun m r => ∀ row,
      r = .ok (.inr row) → m = .admitted := by
  refine Monitor.Ensures.caught (?_ : (posting env user).Ensures .arrived _ fun m r => ∀ row,
    r = .ok (.inr row) → m = .admitted) (fun _ _ h => h) fun _ _ _ _ h => by cases h
  refine Monitor.Ensures.ask_bind rfl (fun found => ?_) fun _ _ h => by cases h
  cases found with
  | none => exact fun _ h => by cases h
  | some row =>
    refine Monitor.Ensures.ask_bind trivial (fun now => ?_) fun _ _ h => by cases h
    refine posting_resetUsage.bind_of (fun m row' hm => ?_) fun _ _ _ _ h => by cases h
    show Monitor.Ensures _ _ (if _ then _ else _) _
    split
    · exact fun _ h => by cases h
    · rename_i hlimit
      intro _ _
      rw [hm row' rfl, User.hasQuota, decide_eq_false hlimit]
      rfl

theorem posting_handle {req : Request} {body : Val} (huser : req.user? env = some user)
    (hpost : req.endpoint = .createPresentation body) : (posting env user).Obeys .arrived (handle env req) := by
  rw [handle, hpost]
  show Monitor.Obeys _ _ (authenticated env req (postPresentations env body))
  rw [authenticated_of_user huser]
  refine Monitor.Obeys.bind (P := fun m r => ∀ row, r = .inr row → m = .admitted)
    (posting_checkLimits.mono fun m r h a ha row hrow => h row (by rw [ha, hrow])) ?_
  rintro m (response | row) hm
  · trivial
  · rw [hm row rfl]
    dsimp only
    split
    · exact posting_createPresentation
    · trivial

end Discipline

/-! ### Quota that is held -/

section Holding
variable (env : Env) (user : AuthUser)

def progress (s : ServerSession) : Progress := (posting env user).after .arrived s.log

/-- The request was admitted, and is neither counted nor over without a presentation. -/
def Progress.holds (ended : Bool) : Progress → Bool
  | .looked row => row.hasQuota && !ended
  | .resetting | .admitted => !ended
  | .created => true
  | .arrived | .counted | .closed => false

def holdsQuota (s : ServerSession) : Bool := (progress env user s).holds s.prog.ended

def isCounted (s : ServerSession) : Bool := decide (progress env user s = .counted)

/-- The call stores a presentation. -/
def storesDeck : Answered Query Query.Answer Err → Bool
  | ⟨.presentationCreate _ _ _, .ok _⟩ => true
  | _ => false

/-- The request has created a presentation. -/
def createsDeck (s : ServerSession) : Bool := s.log.any storesDeck

/-- A request reads the usage only when all quota is used up, or some is left for it besides the quota
    that others hold. -/
def quotaLeft (c : Server) : ServerEvent → Bool
  | .act _ ⟨.userFindUnique id, _⟩ => match c.shared.db.users.find? id with
    | some row => decide (monthlyLimit ≤ row.presentationsCreatedThisMonth ∨
        row.presentationsCreatedThisMonth + c.sessions.countP (holdsQuota env user) < monthlyLimit)
    | none => true
  | _ => true

/-- Every request is a `POST /api/presentations` of the user, in one month. -/
def postsOf (month : Month) : ServerEvent → Bool
  | .spawn req => match req.endpoint with
    | .createPresentation _ => decide (req.user? env = some user)
    | _ => false
  | .act _ ⟨.clock, .ok now⟩ => decide (env.month now = month)
  | _ => true

/-- What is known of a request. -/
structure PostInv (month : Month) (s : ServerSession) : Prop where
  obeys : (posting env user).Obeys (progress env user s) s.prog
  tx : s.priv.tx = none
  looked : ∀ row, progress env user s = .looked row → row.plan = .FREE ∧ env.month row.lastUsageReset = month
  unreset : progress env user s ≠ .resetting
  created : createsDeck s = true → progress env user s = .created ∨ progress env user s = .counted

/-- The usage is what was created, and what is held is left. -/
structure QuotaInv (month : Month) (k : Nat) (c : Server) : Prop where
  sessions : ∀ s ∈ c.sessions, PostInv env user month s
  usage : ∃ row, c.shared.db.users.find? user.id = some row ∧ row.plan = .FREE ∧
    env.month row.lastUsageReset = month ∧
    row.presentationsCreatedThisMonth = k + c.sessions.countP (isCounted env user) ∧
    row.presentationsCreatedThisMonth + c.sessions.countP (holdsQuota env user) ≤ monthlyLimit

end Holding

section Step
variable {env : Env} {user : AuthUser} {month : Month} {m : Progress} {q : Query} {r : Except Err q.Answer}
  {s s' : Store} {others : List Conn} {c c' : Conn} {row : User}

theorem posting_inv (h : (posting env user).Allowed m q) :
    (m = .arrived ∧ q = .userFindUnique user.id) ∨ (∃ row, m = .looked row ∧ q = .clock) ∨ m = .resetting ∨
      (m = .admitted ∧ ((∃ id, q = .templateFindUnique id) ∨ (∃ p, q = .generateContent p) ∨
        ∃ userId title data, q = .presentationCreate userId title data)) ∨
      (m = .created ∧ q = .userUpdate user.id .incrementUsage) := by
  simp only [posting] at h
  split at h
  · exact Or.inl ⟨rfl, by rw [h]⟩
  · exact Or.inr (Or.inl ⟨_, rfl, rfl⟩)
  · exact Or.inr (Or.inr (Or.inl rfl))
  · exact Or.inr (Or.inr (Or.inr (Or.inl ⟨rfl, Or.inl ⟨_, rfl⟩⟩)))
  · exact Or.inr (Or.inr (Or.inr (Or.inl ⟨rfl, Or.inr (Or.inl ⟨_, rfl⟩)⟩)))
  · exact Or.inr (Or.inr (Or.inr (Or.inl ⟨rfl, Or.inr (Or.inr ⟨_, _, _, rfl⟩)⟩)))
  · exact Or.inr (Or.inr (Or.inr (Or.inr ⟨rfl, by rw [h]⟩)))
  · exact h.elim

/-- Calls that leave the user table alone. -/
theorem Act.users_eq (h : Act s others c q r s' c') (hq : q.IsStatement) (htx : c.tx = none)
    (husers : ∀ w y, Issues w q y → y.onUsers = false) : s'.db.users = s.db.users := by
  obtain ⟨-, ⟨e, -, hdb⟩ | ⟨w, snap, a, ws, hexec, -, -, hdb⟩⟩ := h.outside hq htx
  · rw [hdb]
  · rw [hdb]
    exact applyAll_users fun y hy => husers w y (exec_issues hexec y hy)

/-- A read of a user row outside a transaction sees the row as it is. -/
theorem Act.userFindUnique {id : String} {r : Except Err (Query.Answer (.userFindUnique id))}
    (h : Act s others c (.userFindUnique id) r s' c') (htx : c.tx = none) :
    (∃ e, r = .error e) ∨ r = .ok (s.db.users.find? id) := by
  obtain ⟨-, ⟨e, rfl, -⟩ | ⟨w, snap, a, ws, hexec, hsnap, rfl, -⟩⟩ := h.outside trivial htx
  · exact Or.inl ⟨e, rfl⟩
  · rw [hsnap rfl] at hexec
    cases hexec
    exact Or.inr rfl

/-- An update of the user row outside a transaction. -/
theorem Act.userUpdate {id : String} {patch : UserPatch} {r : Except Err (Query.Answer (.userUpdate id patch))}
    (h : Act s others c (.userUpdate id patch) r s' c') (htx : c.tx = none)
    (hrow : s.db.users.find? id = some row) :
    (∃ e, r = .error e ∧ s'.db = s.db) ∨ ∃ at_, r = .ok () ∧ s'.db.users.find? id = some (patch.apply at_ row) := by
  obtain ⟨-, ⟨e, rfl, hdb⟩ | ⟨w, snap, a, ws, hexec, -, rfl, hdb⟩⟩ := h.outside trivial htx
  · exact Or.inl ⟨e, rfl, hdb⟩
  · obtain ⟨-, -, rfl⟩ := updateUserRow_ok hexec
    refine Or.inr ⟨w.now, rfl, ?_⟩
    rw [hdb]
    exact find?_patchUser_self hrow

/-- What a call of a `POST /api/presentations` tells about the user row, and does to it. -/
theorem Act.postRow (h : Act s others c q r s' c') (hq : (posting env user).Allowed m q) (hm : m ≠ .resetting)
    (htx : c.tx = none) (hrow : s.db.users.find? user.id = some row) :
    c'.tx = none ∧ (∀ found, (posting env user).next m q r = .looked found → found = row) ∧
      ∃ row', s'.db.users.find? user.id = some row' ∧ row'.plan = row.plan ∧
      row'.lastUsageReset = row.lastUsageReset ∧
        row'.presentationsCreatedThisMonth = row.presentationsCreatedThisMonth +
          (decide ((posting env user).next m q r = .counted)).toNat := by
  have same : (∀ w y, Issues w q y → y.onUsers = false) → q.IsStatement → (posting env user).next m q r ≠ .counted →
      ∃ row', s'.db.users.find? user.id = some row' ∧ row'.plan = row.plan ∧
        row'.lastUsageReset = row.lastUsageReset ∧
        row'.presentationsCreatedThisMonth = row.presentationsCreatedThisMonth +
          (decide ((posting env user).next m q r = .counted)).toNat := by
    intro husers hstatement hnext
    rw [h.users_eq hstatement htx husers, decide_eq_false hnext]
    exact ⟨row, hrow, rfl, rfl, rfl⟩
  rcases posting_inv hq with ⟨rfl, rfl⟩ | ⟨row₀, rfl, rfl⟩ | rfl | ⟨rfl, hadmitted⟩ | ⟨rfl, rfl⟩
  · refine ⟨(h.outside trivial htx).1, fun found hfound => ?_, same (fun _ _ h => h.elim) trivial ?_⟩
    · rcases h.userFindUnique htx with ⟨e, rfl⟩ | rfl
      · cases hfound
      · rw [hrow] at hfound
        cases hfound
        rfl
    · rcases r with e | _ | found <;> exact fun h => by cases h
  · obtain ⟨htx', -⟩ := h.outside trivial htx
    have hnext : (posting env user).next (.looked row₀) .clock r = .resetting ∨
        (posting env user).next (.looked row₀) .clock r = .admitted ∨
        (posting env user).next (.looked row₀) .clock r = .closed := by
      rcases r with e | now
      · exact Or.inr (Or.inr rfl)
      · simp only [posting]
        split
        · exact Or.inl rfl
        · split
          · exact Or.inr (Or.inl rfl)
          · exact Or.inr (Or.inr rfl)
    refine ⟨htx', fun found hfound => ?_, same (fun _ _ h => h.elim) trivial ?_⟩
    · rcases hnext with hnext | hnext | hnext <;> rw [hnext] at hfound <;> cases hfound
    · rcases hnext with hnext | hnext | hnext <;> rw [hnext] <;> exact fun h => by cases h
  · exact absurd rfl hm
  · rcases hadmitted with ⟨id, rfl⟩ | ⟨p, rfl⟩ | ⟨userId, title, data, rfl⟩
    · exact ⟨(h.outside trivial htx).1, fun _ h => (by cases h),
        same (fun _ _ h => h.elim) trivial fun h => (by cases h)⟩
    · exact ⟨(h.outside trivial htx).1, fun _ h => (by cases h),
        same (fun _ _ h => h.elim) trivial fun h => (by cases h)⟩
    · refine ⟨(h.outside trivial htx).1, ?_, same (fun w y hy => ?_) trivial ?_⟩
      · cases r <;> exact fun _ h => by cases h
      · rcases hy with ⟨p, rfl, -⟩ | ⟨s, rfl, -⟩ <;> rfl
      · cases r <;> exact fun h => by cases h
  · refine ⟨(h.outside trivial htx).1, ?_, ?_⟩
    · cases r <;> exact fun _ h => by cases h
    · rcases h.userUpdate htx hrow with ⟨e, rfl, hdb⟩ | ⟨at_, rfl, hrow'⟩
      · rw [hdb]
        exact ⟨row, hrow, rfl, rfl, rfl⟩
      · exact ⟨_, hrow', rfl, rfl, rfl⟩

theorem hasQuota_iff (hfree : row.plan = .FREE) :
    row.hasQuota = true ↔ row.presentationsCreatedThisMonth < monthlyLimit := by
  simp [User.hasQuota, hfree]

/-- How a request advances by a call within the month; the flag tells whether the call stores a
    presentation. -/
inductive Advance : Progress → Bool → Progress → Prop
  | looked (row : User) : Advance .arrived false (.looked row)
  | lost : Advance .arrived false .closed
  | passed {row : User} (hquota : row.hasQuota = true) : Advance (.looked row) false .admitted
  | refused (row : User) : Advance (.looked row) false .closed
  | prepared : Advance .admitted false .admitted
  | stored : Advance .admitted true .created
  | failed : Advance .admitted false .closed
  | uncounted : Advance .created false .created
  | counted : Advance .created false .counted

theorem Advance.unreset {stored : Bool} {m' : Progress} (h : Advance m stored m') : m' ≠ .resetting := by
  cases h <;> exact fun h => by cases h

theorem Advance.created {stored : Bool} {m' : Progress} (h : Advance m stored m')
    (hm : (m = .created ∨ m = .counted) ∨ stored = true) : m' = .created ∨ m' = .counted := by
  cases h <;> simp at hm ⊢

theorem Advance.uncounted_before {stored : Bool} {m' : Progress} (h : Advance m stored m') : m ≠ .counted := by
  cases h <;> exact fun h => by cases h

theorem Advance.holds_of_counted {stored : Bool} (h : Advance m stored .counted) : m.holds false = true := by
  cases h
  rfl

theorem Advance.arrived_of_looked {stored : Bool} (h : Advance m stored (.looked row)) : m = .arrived := by
  cases h
  rfl

/-- Quota is held on, unless the request looks or is counted. -/
theorem Advance.holds {stored : Bool} {m' : Progress} (h : Advance m stored m') (ended : Bool)
    (hlooked : ∀ row, m' ≠ .looked row) (hcounted : m' ≠ .counted) :
    (m'.holds ended).toNat ≤ (m.holds false).toNat := by
  cases h with
  | looked row => exact absurd rfl (hlooked row)
  | counted => exact absurd rfl hcounted
  | passed hquota => cases ended <;> simp [Progress.holds, hquota]
  | _ => cases ended <;> simp [Progress.holds]

theorem posting_advance (h : (posting env user).Allowed m q) (hm : m ≠ .resetting)
    (hlooked : ∀ row, m = .looked row → env.month row.lastUsageReset = month)
    {i : Nat} (hpost : postsOf env user month (.act i ⟨q, r⟩) = true) :
    Advance m (storesDeck ⟨q, r⟩) ((posting env user).next m q r) := by
  rcases posting_inv h with ⟨rfl, rfl⟩ | ⟨row, rfl, rfl⟩ | rfl | ⟨rfl, hadmitted⟩ | ⟨rfl, rfl⟩
  · rcases r with e | _ | found
    · exact .lost
    · exact .lost
    · exact .looked found
  · rcases r with e | now
    · exact .refused row
    · have hnow : env.month now = month := of_decide_eq_true hpost
      have hnext : (posting env user).next (.looked row) .clock (.ok now) =
        if row.hasQuota then .admitted else .closed :=
        if_neg fun h => monthChanged_iff.mp h ((hlooked row rfl).trans hnow.symm)
      rw [hnext]
      split
      · exact .passed ‹_›
      · exact .refused row
  · exact absurd rfl hm
  · rcases hadmitted with ⟨id, rfl⟩ | ⟨p, rfl⟩ | ⟨userId, title, data, rfl⟩
    · cases r <;> exact .prepared
    · cases r <;> exact .prepared
    · cases r with
      | error e => exact .failed
      | ok deck => exact .stored
  · cases r with
    | error e => exact .uncounted
    | ok _ => exact .counted

end Step

/-! ### One step of a request -/

section Session
variable {env : Env} {user : AuthUser} {month : Month} {x : ServerSession} {q : Query} {r : Except Err q.Answer}
  {k : Except Err q.Answer → Handler Response} {s s' : Store} {others : List Conn} {c' : Conn} {row : User}

theorem progress_append : progress env user ⟨x.tag, c', k r, x.log ++ [⟨q, r⟩]⟩ =
    (posting env user).next (progress env user x) q r := Monitor.after_append _ _ _

theorem createsDeck_append : createsDeck ⟨x.tag, c', k r, x.log ++ [⟨q, r⟩]⟩ =
    (createsDeck x || storesDeck ⟨q, r⟩) := by
  simp [createsDeck, List.any_append]

theorem PostInv.advance (inv : PostInv env user month x) (hp : x.prog = .call q k)
    {i : Nat} (hpost : postsOf env user month (.act i ⟨q, r⟩) = true) :
    Advance (progress env user x) (storesDeck ⟨q, r⟩) ((posting env user).next (progress env user x) q r) := by
  have hobeys := inv.obeys
  rw [hp] at hobeys
  exact posting_advance hobeys.1 inv.unreset (fun row hrow => (inv.looked row hrow).2) hpost

theorem PostInv.act (inv : PostInv env user month x) (hp : x.prog = .call q k) (h : Act s others x.priv q r s' c')
    (hrow : s.db.users.find? user.id = some row) (hfree : row.plan = .FREE)
    (hmonth : env.month row.lastUsageReset = month) {i : Nat}
    (hpost : postsOf env user month (.act i ⟨q, r⟩) = true) :
    PostInv env user month ⟨x.tag, c', k r, x.log ++ [⟨q, r⟩]⟩ := by
  have hobeys := inv.obeys
  rw [hp] at hobeys
  obtain ⟨htx, hfound, -⟩ := h.postRow hobeys.1 inv.unreset inv.tx hrow
  have hadv := inv.advance hp hpost
  refine ⟨?_, htx, ?_, ?_, ?_⟩
  · rw [progress_append]
    exact hobeys.2 r
  · rw [progress_append]
    intro found hnext
    rw [hfound found hnext]
    exact ⟨hfree, hmonth⟩
  · rw [progress_append]
    exact hadv.unreset
  · rw [progress_append, createsDeck_append, Bool.or_eq_true]
    rintro (hcreated | hstores)
    · exact hadv.created (Or.inl (inv.created hcreated))
    · exact hadv.created (Or.inr hstores)

/-- What a call does to the usage and to the quota that is held. -/
theorem PostInv.settle (inv : PostInv env user month x) (hp : x.prog = .call q k)
    (h : Act s others x.priv q r s' c') (hrow : s.db.users.find? user.id = some row) (hfree : row.plan = .FREE)
    {i : Nat} (hpost : postsOf env user month (.act i ⟨q, r⟩) = true) {held : Nat}
    (hbound : row.presentationsCreatedThisMonth + held ≤ monthlyLimit)
    (hleft : q = .userFindUnique user.id → monthlyLimit ≤ row.presentationsCreatedThisMonth ∨
      row.presentationsCreatedThisMonth + held < monthlyLimit) :
    ∃ row' d, s'.db.users.find? user.id = some row' ∧ row'.plan = row.plan ∧
    row'.lastUsageReset = row.lastUsageReset ∧
      row'.presentationsCreatedThisMonth = row.presentationsCreatedThisMonth + d ∧
      (isCounted env user ⟨x.tag, c', k r, x.log ++ [⟨q, r⟩]⟩).toNat = (isCounted env user x).toNat + d ∧
      row'.presentationsCreatedThisMonth + held + (holdsQuota env user ⟨x.tag, c', k r, x.log ++ [⟨q, r⟩]⟩).toNat ≤
        monthlyLimit + (holdsQuota env user x).toNat := by
  have hobeys := inv.obeys
  rw [hp] at hobeys
  have hadv := inv.advance hp hpost
  obtain ⟨-, hfound, row', hrow', hplan, hreset, hcount⟩ := h.postRow hobeys.1 inv.unreset inv.tx hrow
  have hbefore : isCounted env user x = false := decide_eq_false hadv.uncounted_before
  have hheld : holdsQuota env user x = (progress env user x).holds false := by rw [holdsQuota, hp]; rfl
  refine ⟨row', _, hrow', hplan, hreset, hcount, ?_, ?_⟩
  · rw [hbefore, isCounted, progress_append, Bool.toNat_false, Nat.zero_add]
  rw [hcount, hheld, holdsQuota, progress_append]
  show _ + _ + held + (Progress.holds (k r).ended _).toNat ≤ _
  generalize hm' : (posting env user).next (progress env user x) q r = m' at hadv hfound ⊢
  by_cases hcounted : m' = .counted
  · subst hcounted
    rw [hadv.holds_of_counted]
    simp [Progress.holds]
    omega
  · rw [decide_eq_false hcounted, Bool.toNat_false, Nat.add_zero]
    by_cases hlooked : ∃ found, m' = .looked found
    · obtain ⟨found, rfl⟩ := hlooked
      -- the row that the request saw is the current one
      cases hfound found rfl
      have hread : q = .userFindUnique user.id := by
        have hq := hobeys.1
        rw [hadv.arrived_of_looked] at hq
        rcases posting_inv hq with ⟨-, hq⟩ | ⟨_, h, -⟩ | h | ⟨h, -⟩ | ⟨h, -⟩
        · exact hq
        all_goals cases h
      cases hquota : row.hasQuota with
      | false => simpa [Progress.holds, hquota] using Nat.le_add_right_of_le hbound
      | true =>
        have hcount := (hasQuota_iff hfree).mp hquota
        have hle := Bool.toNat_le ((Progress.looked row).holds (k r).ended)
        rcases hleft hread with hfull | hroom
        · omega
        · omega
    · have hle := hadv.holds (k r).ended (fun row hrow => hlooked ⟨row, hrow⟩) hcounted
      omega

end Session

/-! ### Every run -/

section Runs
variable {env : Env} {user : AuthUser} {month : Month} {k : Nat} {c c' : Server} {e : ServerEvent}

theorem postInv_fresh {req : Request} (h : postsOf env user month (.spawn req) = true) :
    PostInv env user month (fresh (handle env) {} req) := by
  cases hreq : req.endpoint with
  | createPresentation body =>
    simp only [postsOf, hreq, decide_eq_true_eq] at h
    exact ⟨posting_handle h hreq, rfl, fun _ hrow => (by cases hrow), fun h => (by cases h), fun h => (by cases h)⟩
  | _ =>
    simp only [postsOf, hreq] at h
    cases h

theorem QuotaInv.step (inv : QuotaInv env user month k c) (h : ServerStep env c e c')
    (hpost : postsOf env user month e = true) (hleft : quotaLeft env user c e = true) :
    QuotaInv env user month k c' := by
  obtain ⟨row, hrow, hfree, hmonth, hcount, hbound⟩ := inv.usage
  cases h with
  | spawn req =>
    refine ⟨fun s hs => ?_, row, hrow, hfree, hmonth, ?_, ?_⟩
    · rcases List.mem_append.mp hs with hs | hs
      · exact inv.sessions s hs
      · rw [List.mem_singleton.mp hs]
        exact postInv_fresh hpost
    · rw [List.countP_append, hcount]
      rfl
    · rw [List.countP_append]
      exact hbound
  | @act i s q p r σ' π' hs hp ha =>
    have hs' := inv.sessions s (List.mem_of_getElem? hs)
    have hread : q = .userFindUnique user.id → monthlyLimit ≤ row.presentationsCreatedThisMonth ∨
        row.presentationsCreatedThisMonth + c.sessions.countP (holdsQuota env user) < monthlyLimit := by
      rintro rfl
      simpa [quotaLeft, hrow] using hleft
    obtain ⟨row', d, hrow', hplan, hreset, hcount', hcounted, hheld⟩ :=
      hs'.settle hp ha hrow hfree hpost hbound hread
    have hset := countP_set (p := isCounted env user) (y := ⟨s.tag, π', p r, s.log ++ [⟨q, r⟩]⟩) hs
    have hset' := countP_set (p := holdsQuota env user) (y := ⟨s.tag, π', p r, s.log ++ [⟨q, r⟩]⟩) hs
    refine ⟨fun x hx => ?_, row', hrow', hplan.trans hfree, by rw [hreset, hmonth], ?_, ?_⟩
    rotate_left
    · show _ = k + List.countP _ (c.sessions.set i _)
      omega
    · show _ + List.countP _ (c.sessions.set i _) ≤ _
      omega
    rcases List.mem_or_eq_of_mem_set hx with hx | rfl
    · exact inv.sessions x hx
    · exact hs'.act hp ha hrow hfree hmonth hpost
  | @stall i s q p π' hs hp ha =>
    have hset : (c.sessions.set i { s with priv := π' }).countP (isCounted env user) = _ := countP_set_of_eq hs rfl
    have hset' : (c.sessions.set i { s with priv := π' }).countP (holdsQuota env user) = _ :=
      countP_set_of_eq hs rfl
    refine ⟨fun x hx => ?_, row, hrow, hfree, hmonth, hcount.trans (by rw [hset]), by rw [hset']; exact hbound⟩
    rcases List.mem_or_eq_of_mem_set hx with hx | rfl
    · exact inv.sessions x hx
    · have hs' := inv.sessions s (List.mem_of_getElem? hs)
      obtain ⟨-, -, rfl⟩ := ha
      exact ⟨hs'.obeys, hs'.tx, hs'.looked, hs'.unreset, hs'.created⟩

/-- Whoever has created a presentation is counted, or holds quota. -/
theorem QuotaInv.created_le (inv : QuotaInv env user month k c) :
    k + c.sessions.countP createsDeck ≤ monthlyLimit := by
  obtain ⟨row, -, -, -, hcount, hbound⟩ := inv.usage
  have hle : ∀ l : List ServerSession, (∀ s ∈ l, PostInv env user month s) →
      l.countP createsDeck ≤ l.countP (isCounted env user) + l.countP (holdsQuota env user) := by
    intro l
    induction l with
    | nil => exact fun _ => le_rfl
    | cons s l ih =>
      intro hl
      have hrest := ih fun x hx => hl x (List.mem_cons_of_mem s hx)
      simp only [List.countP_cons]
      cases hcreated : createsDeck s with
      | false => simp; omega
      | true =>
        rcases (hl s List.mem_cons_self).created hcreated with hm | hm
        · have : holdsQuota env user s = true := by rw [holdsQuota, hm]; rfl
          simp [this]; omega
        · have : isCounted env user s = true := decide_eq_true hm
          simp [this]; omega
  have := hle c.sessions inv.sessions
  omega

end Runs

/-- As long as no request reads the usage when the quota that is left is held by others, the requests of
    a month create at most what is left of the limit at the start. -/
theorem quota_kept {env : Env} {user : AuthUser} {c₀ c : Server} {row : User} {es : List ServerEvent}
    (hstart : c₀.sessions = []) (hrow : c₀.shared.db.users.find? user.id = some row) (hfree : row.plan = .FREE)
    (hlimit : row.presentationsCreatedThisMonth ≤ 5)
    (run : RunWhere server (handle env) {} (fun c e => (postsOf env user (env.month row.lastUsageReset) e &&
      quotaLeft env user c e) = true) c₀ es c) :
    c.sessions.countP createsDeck ≤ 5 - row.presentationsCreatedThisMonth := by
  have inv : QuotaInv env user (env.month row.lastUsageReset) row.presentationsCreatedThisMonth c := by
    induction run with
    | nil =>
      refine ⟨fun s hs => ?_, row, hrow, hfree, rfl, ?_, ?_⟩
      · rw [hstart] at hs
        cases hs
      · rw [hstart]
        rfl
      · rw [hstart]
        exact hlimit
    | snoc _ step hP ih =>
      obtain ⟨hpost, hleft⟩ := Bool.and_eq_true_iff.mp hP
      exact ih.step step hpost hleft
  have := inv.created_le
  simp only [monthlyLimit] at this
  omega

/-- `alice` has one presentation left this month. -/
def almostFull : Server := ⟨⟨{ Db.empty with users := ⟨[account "alice" 4], by decide⟩ }, ∅⟩, []⟩

/-- Two posts one after the other: the second one is refused. -/
def postsInTurn : List Move :=
  [.arrive alicesPost, .answer 0, .answer 0, .answer 0, .answer 0, .arrive alicesPost, .answer 1, .answer 1]

theorem posts_in_turn_keep_quota :
    ∃ es c, RunWhere server (handle office) {} (fun c e => (postsOf office alice (office.month 0) e &&
      quotaLeft office alice c e) = true) almostFull es c ∧ c.sessions.countP createsDeck = 1 ∧
      c.sessions.countP createsDeck ≤ 5 - 4 := by
  have hrow : almostFull.shared.db.users.find? alice.id = some (account "alice" 4) := by decide +kernel
  have hplay : almostFull.playable (fun c e =>
    postsOf office alice (office.month 0) e && quotaLeft office alice c e)
      office 0 0 postsInTurn = true := by decide +kernel
  have hissued : Unissued 0 almostFull.shared.issued := fun _ _ _ h => h
  obtain ⟨run, -⟩ := Server.play_run office hissued hplay
  exact ⟨_, _, run, by decide +kernel, quota_kept rfl hrow rfl (by decide) run⟩

/-- Two posts that both read the usage before either is counted. -/
def crossingPosts : List Move :=
  [.arrive alicesPost, .arrive alicesPost, .answer 0, .answer 1, .answer 0, .answer 0,
    .answer 0, .answer 1, .answer 1, .answer 1]

theorem crossing_posts_exceed_quota :
    ¬ ∀ (env : Env) (user : AuthUser) (c₀ c : Server) (row : User) (es : List ServerEvent), c₀.sessions = [] →
      c₀.shared.db.users.find? user.id = some row → row.plan = .FREE → row.presentationsCreatedThisMonth ≤ 5 →
      RunWhere server (handle env) {} (fun _ e => postsOf env user (env.month row.lastUsageReset) e = true) c₀ es c →
      c.sessions.countP createsDeck ≤ 5 - row.presentationsCreatedThisMonth := by
  intro h
  have hrow : almostFull.shared.db.users.find? alice.id = some (account "alice" 4) := by decide +kernel
  have hplay : almostFull.playable (fun _ e => postsOf office alice (office.month 0) e)
    office 0 0 crossingPosts = true := by
    decide +kernel
  have hissued : Unissued 0 almostFull.shared.issued := fun _ _ _ h => h
  obtain ⟨run, -⟩ := Server.play_run office hissued hplay
  have hle := h office alice almostFull _ _ _ rfl hrow rfl (by decide) run
  exact absurd hle (by decide +kernel)

end Slideo
