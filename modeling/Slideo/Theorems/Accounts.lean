import Slideo.Auth
import Slideo.Theorems.Statements
import Mathlib.Data.List.Induction

/-! The accounts of sign-ups and logins: what one request does to the table of users, whose unique columns
    every request keeps. -/

namespace Slideo
open Js

/-! ### The table of users -/

/-- The unique columns, and what is never stored. -/
structure UsersInv (db : Db) : Prop where
  emails : ∀ u ∈ db.users.rows, ∀ v ∈ db.users.rows, u.email = v.email → u = v
  storable : ∀ u ∈ db.users.rows, storableText u.email = true
  subjects : ∀ u ∈ db.users.rows, ∀ v ∈ db.users.rows, ∀ g, u.googleId = some g → v.googleId = some g → u = v
  named : ∀ u ∈ db.users.rows, u.googleId ≠ some ""

/-- What a request does to the table. -/
inductive AccountChange (db : Db) : Db → Prop
  | same : AccountChange db db
  | created (u : User) (hid : u.id ∉ db.users.keys) (hemail : db.userByEmail? u.email = none)
      (hstorable : storableText u.email = true)
      (hsub : ∀ g, u.googleId = some g → g ≠ "" ∧ db.userByGoogleId? g = none) :
      AccountChange db (db.apply (.insertUser u))
  | linked (u : User) (at_ : Time) (g : String) (hu : db.users.find? u.id = some u)
      (hfree : u.googleId.getD "" = "")
      (hg : g ≠ "") (hsub : ∀ v ∈ db.users.rows, v.googleId = some g → v.id = u.id) :
      AccountChange db (db.apply (.patchUser u.id at_ (.linkGoogle g)))

section Table
variable {db db' : Db}

theorem userByEmail?_none {email : String} : db.userByEmail? email = none ↔
    ∀ u ∈ db.users.rows, u.email ≠ email := by
  simp [Db.userByEmail?]

theorem userByGoogleId?_none {g : String} : db.userByGoogleId? g = none ↔
    ∀ u ∈ db.users.rows, u.googleId ≠ some g := by
  simp [Db.userByGoogleId?]

theorem mem_of_userByEmail? {email : String} {u : User} (h : db.userByEmail? email = some u) :
    u ∈ db.users.rows ∧ u.email = email :=
  ⟨List.mem_of_find?_eq_some h, by simpa using List.find?_some h⟩

/-- A row after a link is the old one, or the linked one. -/
theorem mem_linked {id g : String} {at_ : Time} {v : User}
    (hv : v ∈ (db.apply (.patchUser id at_ (.linkGoogle g))).users.rows) :
    ∃ u ∈ db.users.rows, (u.id ≠ id ∧ v = u) ∨ (u.id = id ∧ v = (UserPatch.linkGoogle g).apply at_ u) := by
  obtain ⟨u, hu, rfl⟩ := (Table.mem_modify (UserPatch.apply_id at_ · (.linkGoogle g))).mp hv
  refine ⟨u, hu, ?_⟩
  split
  · rename_i hid
    exact Or.inr ⟨hid, rfl⟩
  · rename_i hid
    exact Or.inl ⟨hid, rfl⟩

/-- A new row keeps the columns unique, if its own values are new. -/
theorem UsersInv.insert {u : User} (inv : UsersInv db) (hid : u.id ∉ db.users.keys)
    (hemail : db.userByEmail? u.email = none) (hstorable : storableText u.email = true)
    (hsub : ∀ g, u.googleId = some g → g ≠ "" ∧ db.userByGoogleId? g = none) :
    UsersInv (db.apply (.insertUser u)) := by
  have hrows : (db.apply (.insertUser u)).users.rows = db.users.rows ++ [u] := Table.insert_rows hid
  have hemail := userByEmail?_none.mp hemail
  have hsub' : ∀ v ∈ db.users.rows, ∀ g, u.googleId = some g → v.googleId ≠ some g := fun v hv g hg =>
    userByGoogleId?_none.mp (hsub g hg).2 v hv
  constructor <;> simp only [hrows, List.forall_mem_append, List.forall_mem_singleton]
  case emails =>
    refine ⟨fun v hv => ⟨inv.emails v hv, fun heq => ?_⟩, fun v hv heq => ?_, fun _ => trivial⟩
    · exact absurd heq (hemail v hv)
    · exact absurd heq.symm (hemail v hv)
  case storable => exact ⟨inv.storable, hstorable⟩
  case subjects =>
    refine ⟨fun v hv => ⟨inv.subjects v hv, fun g hg hg' => ?_⟩, fun v hv g hg hg' => ?_, fun _ _ _ => trivial⟩
    · exact absurd hg (hsub' v hv g hg')
    · exact absurd hg' (hsub' v hv g hg)
  case named => exact ⟨inv.named, fun hempty => (hsub "" hempty).1 rfl⟩

/-- A link keeps the columns unique, if no other row has the subject. -/
theorem UsersInv.link {u : User} {at_ : Time} {g : String} (inv : UsersInv db) (hu : db.users.find? u.id = some u)
    (hg : g ≠ "") (hsub : ∀ v ∈ db.users.rows, v.googleId = some g → v.id = u.id) :
    UsersInv (db.apply (.patchUser u.id at_ (.linkGoogle g))) := by
  have hrow : ∀ v ∈ db.users.rows, v.id = u.id → v = u := by
    intro v hv hid
    have hfind := Table.find?_of_mem hv
    rw [hid, hu] at hfind
    exact (Option.some.inj hfind).symm
  refine ⟨?_, ?_, ?_, ?_⟩
  · intro v hv v' hv' heq
    obtain ⟨x, hx, ⟨hxid, rfl⟩ | ⟨hxid, rfl⟩⟩ := mem_linked hv <;>
      obtain ⟨y, hy, ⟨hyid, rfl⟩ | ⟨hyid, rfl⟩⟩ := mem_linked hv'
    · exact inv.emails _ hx _ hy heq
    · exact absurd (congrArg User.id (inv.emails _ hx _ hy heq)) (fun h => hxid (h.trans hyid))
    · exact absurd (congrArg User.id (inv.emails _ hx _ hy heq)) (fun h => hyid (h.symm.trans hxid))
    · rw [hrow x hx hxid, hrow y hy hyid]
  · intro v hv
    obtain ⟨x, hx, ⟨-, rfl⟩ | ⟨-, rfl⟩⟩ := mem_linked hv
    · exact inv.storable _ hx
    · exact inv.storable x hx
  · intro v hv v' hv' g' hg hg'
    obtain ⟨x, hx, ⟨hxid, rfl⟩ | ⟨hxid, rfl⟩⟩ := mem_linked hv <;>
      obtain ⟨y, hy, ⟨hyid, rfl⟩ | ⟨hyid, rfl⟩⟩ := mem_linked hv'
    · exact inv.subjects _ hx _ hy g' hg hg'
    · cases hg'
      exact absurd (hsub _ hx hg) hxid
    · cases hg
      exact absurd (hsub _ hy hg') hyid
    · rw [hrow x hx hxid, hrow y hy hyid]
  · intro v hv hempty
    obtain ⟨x, hx, ⟨-, rfl⟩ | ⟨-, rfl⟩⟩ := mem_linked hv
    · exact inv.named _ hx hempty
    · exact hg (Option.some.inj hempty)

/-- Every request keeps the columns unique. -/
theorem UsersInv.change (inv : UsersInv db) (h : AccountChange db db') : UsersInv db' := by
  cases h with
  | same => exact inv
  | created u hid hemail hstorable hsub => exact inv.insert hid hemail hstorable hsub
  | linked u at_ g hu _ hg hsub => exact inv.link hu hg hsub

/-- No request takes the subject of an account away. -/
theorem AccountChange.keeps (h : AccountChange db db') {id g : String} {u : User} (hu : db.users.find? id = some u)
    (hsub : u.googleId = some g) (hg : g ≠ "") : ∃ u', db'.users.find? id = some u' ∧ u'.googleId = some g := by
  cases h with
  | same => exact ⟨u, hu, hsub⟩
  | created v hid _ _ _ =>
    refine ⟨u, ?_, hsub⟩
    have hrows : (db.apply (.insertUser v)).users.rows = db.users.rows ++ [v] := Table.insert_rows hid
    rw [Table.find?, hrows, List.find?_append, ← Table.find?, hu]
    rfl
  | linked v at_ g' hv hfree _ _ =>
    have hfind := find?_patchUser db v.id id at_ (.linkGoogle g')
    rw [hu, Option.map_some] at hfind
    refine ⟨_, hfind, ?_⟩
    by_cases hid : u.id = v.id
    · rw [← hid, Table.key_of_find? hu, hu] at hv
      cases hv
      rw [hsub] at hfree
      exact absurd hfree hg
    · rw [if_neg hid]
      exact hsub

end Table

/-! ### One request -/

/-- The verified payload of a Google login. -/
def AuthStep.payload? (x : AuthStep) : Option GooglePayload :=
  match x.req with
  | .googleLogin body =>
    if truthy (getOpt body "idToken") then ((x.ws 0).verifyIdToken (getOpt body "idToken")).toOption.join else none
  | .signup _ | .login _ => none

section Request
variable {w : AuthWorld} {ws : Nat → AuthWorld} {n : Nat} {db db' : Db} {writes : List Write}

theorem createUser_ok {email : Val} {password googleId : Option String} {provider : String} {u : User}
    (h : createUser w db email password googleId provider = .ok (u, writes)) :
    email = some (.str u.email) ∧ u.password = password ∧ u.googleId = googleId ∧ u.id ∉ db.users.keys ∧
      db.userByEmail? u.email = none ∧ storableText u.email = true ∧ googleId.bind db.userByGoogleId? = none ∧
      writes = [.insertUser u] := by
  simp only [createUser, except_bind_eq_ok, require_eq_ok, except_pure_eq_ok, Prod.mk.injEq] at h
  obtain ⟨e, he, _, -, _, hemail, _, hsub, _, hid, rfl, rfl⟩ := h
  obtain ⟨he, hstorable⟩ := textArg_ok he
  exact ⟨he, rfl, rfl, hid, hemail, hstorable, hsub, rfl⟩

theorem passwordArg_ok {v : Val} {p : String} (h : passwordArg v = .ok p) : v = some (.str p) := by
  unfold passwordArg at h
  split at h <;> cases h
  rfl

theorem linkGoogle_ok {id googleId : String} {u : User} (h : linkGoogle w db id googleId = .ok (u, writes)) :
    ∃ v, db.users.find? id = some v ∧ u = (UserPatch.linkGoogle googleId).apply w.now v ∧
      (∀ v ∈ db.users.rows, v.googleId = some googleId → v.id = id) ∧
      writes = [.patchUser id w.now (.linkGoogle googleId)] := by
  simp only [linkGoogle, except_bind_eq_ok, require_eq_ok] at h
  obtain ⟨_, -, h⟩ := h
  cases hv : db.users.find? id with
  | none => rw [hv] at h; cases h
  | some v =>
    rw [hv] at h
    simp only [except_bind_eq_ok, require_eq_ok, except_pure_eq_ok, Prod.mk.injEq] at h
    obtain ⟨_, hsub, hu, hwrites⟩ := h
    exact ⟨v, rfl, hu.symm, hsub, hwrites.symm⟩

/-- What the lookup of an account for a subject and an e-mail address comes to. -/
inductive Accounted (db : Db) (sub email : String) : Except Err User → Db → Prop
  | refused (e : Err)
      (hlinked : ∀ u, db.userByEmail? email = some u → storableText email = true → u.googleId.getD "" = "") :
      Accounted db sub email (.error e) db
  | found (u : User) (hu : db.userByEmail? email = some u) (hlinked : u.googleId.getD "" ≠ "") :
      Accounted db sub email (.ok u) db
  | linked (u : User) (at_ : Time) (hu : db.userByEmail? email = some u) (hfree : u.googleId.getD "" = "")
      (hsub : ∀ v ∈ db.users.rows, v.googleId = some sub → v.id = u.id) :
      Accounted db sub email (.ok ((UserPatch.linkGoogle sub).apply at_ u))
        (db.apply (.patchUser u.id at_ (.linkGoogle sub)))
  | created (u : User) (hsub : u.googleId = some sub) (hid : u.id ∉ db.users.keys)
      (hemail : db.userByEmail? u.email = none)
      (hstorable : storableText u.email = true) (hnew : db.userByGoogleId? sub = none)
      (hnone : db.userByEmail? email = none) :
      Accounted db sub email (.ok u) (db.apply (.insertUser u))

/-- How a call is answered. -/
theorem authAnswer_cases (w : AuthWorld) (db : Db) (q : AuthQuery) :
    (∃ e, authExec w db q = .error e ∧ authAnswer w db q = (.error e, db)) ∨
    ∃ a writes, authExec w db q = .ok (a, writes) ∧ authAnswer w db q = (.ok a, db.applyAll writes) := by
  unfold authAnswer
  cases authExec w db q with
  | error e => exact Or.inl ⟨e, rfl, rfl⟩
  | ok out => exact Or.inr ⟨out.1, out.2, rfl, rfl⟩

/-- The lookup of an account reads the row of the address, unless the address is no text that can be stored. -/
theorem answer_userFindUnique (w : AuthWorld) (db : Db) (email : Val) :
    ((∀ e, email = some (.str e) → storableText e = false) ∧
        ∃ err, authAnswer w db (.userFindUnique email) = (.error err, db)) ∨
      ∃ e, email = some (.str e) ∧ storableText e = true ∧
        authAnswer w db (.userFindUnique email) = (.ok (db.userByEmail? e), db) := by
  rcases authAnswer_cases w db (.userFindUnique email) with ⟨err, hexec, hanswer⟩ | ⟨found, writes, hexec, hanswer⟩
  · refine Or.inl ⟨fun e he => ?_, err, hanswer⟩
    subst he
    rw [← Bool.not_eq_true]
    intro hstorable
    simp [authExec, textArg, hstorable, Except.map] at hexec
  · simp only [authExec, except_map_eq_ok, Prod.mk.injEq] at hexec
    obtain ⟨e, he, rfl, rfl⟩ := hexec
    obtain ⟨he, hstorable⟩ := textArg_ok he
    exact Or.inr ⟨e, he, hstorable, hanswer⟩

theorem run_linkAccount (ws : Nat → AuthWorld) (n : Nat) {db : Db} (sub : String) {email : String} {user : User}
    (hfound : db.userByEmail? email = some user) :
    ∃ r db' log, (linkAccount sub user).run (fun w q db => authAnswer w db q) ws n db = ⟨r, db', log⟩ ∧
      Accounted db sub email r db' := by
  unfold linkAccount
  split
  · rename_i hfree
    rcases authAnswer_cases (ws n) db (.userUpdate user.id sub) with ⟨e, hexec,
      hanswer⟩ | ⟨u, writes, hexec, hanswer⟩
    · refine ⟨_, _, _, Prog.run_ask_error hanswer, .refused e fun u hu _ => ?_⟩
      rw [hfound] at hu
      cases hu
      exact hfree
    · obtain ⟨v, hv, rfl, hsub, rfl⟩ := linkGoogle_ok hexec
      have hrow : db.users.find? user.id = some user := Table.find?_of_mem (mem_of_userByEmail? hfound).1
      rw [hrow] at hv
      cases hv
      exact ⟨_, _, _, Prog.run_ask_ok hanswer, .linked user _ hfound hfree hsub⟩
  · rename_i hlinked
    exact ⟨_, _, _, rfl, .found user hfound hlinked⟩

theorem run_googleAccount (ws : Nat → AuthWorld) (n : Nat) (db : Db) (sub email : String) :
    ∃ r db' log, (googleAccount sub email).run (fun w q db => authAnswer w db q) ws n db = ⟨r, db', log⟩ ∧
      Accounted db sub email r db' := by
  unfold googleAccount
  rcases answer_userFindUnique (ws n) db (some (.str email)) with ⟨hrefused, e,
    hanswer⟩ | ⟨e, he, hstorable, hanswer⟩
  · refine ⟨_, _, _, Prog.run_ask_bind_error hanswer, .refused e fun u _ hstorable => ?_⟩
    rw [hrefused email rfl] at hstorable
    cases hstorable
  cases he
  cases hfound : db.userByEmail? email with
  | some user =>
    rw [hfound] at hanswer
    obtain ⟨r, db', log, hrun, haccounted⟩ := run_linkAccount ws (n + 1) sub hfound
    exact ⟨_, _, _, Prog.run_ask_bind hanswer hrun, haccounted⟩
  | none =>
    rw [hfound] at hanswer
    rcases authAnswer_cases (ws (n + 1)) db (.userCreate (some (.str email)) none (some sub) "google") with
      ⟨e, hexec', hanswer'⟩ | ⟨u, writes, hexec', hanswer'⟩
    · refine ⟨_, _, _, Prog.run_ask_bind hanswer (Prog.run_ask_error hanswer'), .refused e fun u hu => ?_⟩
      rw [hfound] at hu
      cases hu
    · obtain ⟨-, -, hsub, hid, hemail, hstored, hnew, rfl⟩ := createUser_ok hexec'
      exact ⟨_, _, _, Prog.run_ask_bind hanswer (Prog.run_ask_ok hanswer'),
        .created u hsub hid hemail hstored hnew hfound⟩

/-- The answer of a Google login that has looked its account up. -/
def signedIn (env : AuthEnv) : Except Err User → AuthResponse
  | .ok user => session env 200 user
  | .error _ => .error 500 "Google Login failed"

/-- A `try` with its `catch` always answers. -/
theorem run_authGuarded {message : String} {body : AuthHandler AuthResponse} {r : Except Err AuthResponse}
    {log : List (Answered AuthQuery AuthQuery.Answer Err)}
    (h : body.run (fun w q db => authAnswer w db q) ws n db = ⟨r, db', log⟩) :
    (authGuarded message body).run (fun w q db => authAnswer w db q) ws n db =
      ⟨.ok (r.toOption.getD (.error 500 message)), db', log⟩ := by
  cases r with
  | ok response => exact Prog.run_tryCatch_ok h _
  | error e =>
    have hcatch := Prog.run_tryCatch_error (f := fun _ => .pure (.error 500 message)) h rfl
    rw [List.append_nil] at hcatch
    exact hcatch

/-- A Google login is refused without a change, or comes to the account of its payload. -/
inductive GoogleAnswer (env : AuthEnv) (payload? : Option GooglePayload) (db : Db) : AuthResponse → Db → Prop
  | refused (status : Nat) (message : String) (hstatus : status ≠ 200)
      (hemail : ∀ payload, payload? = some payload → payload.email.filter (· != "") = none) :
      GoogleAnswer env payload? db (.error status message) db
  | accounted {payload : GooglePayload} {email : String} {r : Except Err User} {db' : Db}
      (hpayload : payload? = some payload)
      (hemail : payload.email.filter (· != "") = some email) (h : Accounted db payload.sub email r db') :
      GoogleAnswer env payload? db (signedIn env r) db'

theorem run_signInWithGoogle (env : AuthEnv) (ws : Nat → AuthWorld) (n : Nat) (db : Db) (payload : GooglePayload) :
    ∃ r db' log, (signInWithGoogle env payload).run (fun w q db => authAnswer w db q) ws n db = ⟨r, db', log⟩ ∧
      GoogleAnswer env (some payload) db (r.toOption.getD (.error 500 "Google Login failed")) db' := by
  unfold signInWithGoogle
  cases hemail : payload.email.filter (· != "") with
  | none =>
    refine ⟨_, _, _, rfl, .refused 400 _ (by decide) fun payload' h => ?_⟩
    cases h
    exact hemail
  | some email =>
    obtain ⟨r, db', log, hrun, haccounted⟩ := run_googleAccount ws n db payload.sub email
    cases r with
    | error e => exact ⟨_, _, _, Prog.run_bind_error hrun _, .accounted rfl hemail haccounted⟩
    | ok user => exact ⟨_, _, _, Prog.run_bind_ok hrun rfl, .accounted rfl hemail haccounted⟩

theorem run_googleLogin (env : AuthEnv) (ws : Nat → AuthWorld) (db : Db) (body : Val) :
    ∃ response db' log, (googleLogin env body).run
      (fun w q db => authAnswer w db q) ws 0 db = ⟨.ok response, db', log⟩ ∧
      GoogleAnswer env (AuthStep.payload? ⟨ws, .googleLogin body⟩) db response db' := by
  rw [AuthStep.payload?, googleLogin, authProp]
  cases hget : get body "idToken" with
  | none => exact ⟨_, _, _, rfl, .refused 500 _ (by decide) fun payload h => (by simp [getOpt, hget, truthy] at h)⟩
  | some idToken =>
    have hopt : getOpt body "idToken" = idToken := by rw [getOpt, hget, Option.getD_some]
    simp only [hopt, Prog.mk_pure_bind]
    cases htruthy : truthy idToken with
    | false => exact ⟨_, _, _, rfl, .refused 400 _ (by decide) fun payload h => (by cases h)⟩
    | true =>
      simp only [Bool.not_true, Bool.false_eq_true, if_false, if_true]
      cases hverify : (ws 0).verifyIdToken idToken with
      | error e =>
        have hanswer : authAnswer (ws 0) db (.verifyIdToken idToken) = (.error e, db) := by
          simp [authAnswer, authExec, hverify, Except.map]
        exact ⟨_, _, _, run_authGuarded (Prog.run_ask_bind_error hanswer),
          .refused 500 _ (by decide) fun payload h => (by cases h)⟩
      | ok found =>
        have hanswer : authAnswer (ws 0) db (.verifyIdToken idToken) = (.ok found, db) := by
          simp [authAnswer, authExec, hverify, Except.map]
        cases found with
        | none =>
          exact ⟨_, _, _, run_authGuarded (Prog.run_ask_bind hanswer rfl),
            .refused 401 _ (by decide) fun payload h => (by cases h)⟩
        | some payload =>
          obtain ⟨r, db', log, hrun, hgoogle⟩ := run_signInWithGoogle env ws 1 db payload
          exact ⟨_, _, _, run_authGuarded (Prog.run_ask_bind hanswer hrun), hgoogle⟩

/-- The request is answered with a session token. -/
def Opens (status : Nat) (r : Except Err AuthResponse) : Prop :=
  ∃ user createdAt token, r = .ok ⟨status, .session user createdAt token⟩

theorem opens_session (env : AuthEnv) (status : Nat) (u : User) : Opens status (.ok (session env status u)) :=
  ⟨_, _, _, rfl⟩

theorem not_opens_error {status status' : Nat} {message : String} :
    ¬ Opens status (.ok (.error status' message)) := by
  rintro ⟨user, createdAt, token, h⟩
  cases h

theorem not_opens_errors {status status' : Nat} : ¬ Opens status (.ok ⟨status', .errors⟩) := by
  rintro ⟨user, createdAt, token, h⟩
  cases h

/-- A `catch` opens nothing. -/
theorem opens_guarded_iff {status : Nat} {message : String} {r : Except Err AuthResponse} :
    Opens status (.ok (r.toOption.getD (.error 500 message))) ↔ Opens status r := by
  cases r with
  | ok response => rfl
  | error e =>
    refine iff_of_false not_opens_error ?_
    rintro ⟨user, createdAt, token, h⟩
    cases h

/-- A sign-up is refused without a change, or stores a user with a hashed password. -/
inductive SignupAnswer (env : AuthEnv) (w : AuthWorld) (body : Val) (db : Db) : AuthResponse → Db → Prop
  | refused (response : AuthResponse) (h : ¬ Opens 201 (.ok response)) : SignupAnswer env w body db response db
  | created (u : User) (password : String) (hvalid : env.validSignup body = true)
      (hemail : getOpt body "email" = some (.str u.email)) (hgiven : getOpt body "password" = some (.str password))
      (hhash : u.password = some (w.hash password)) (hsub : u.googleId = none) (hid : u.id ∉ db.users.keys)
      (hnew : db.userByEmail? u.email = none) (hstorable : storableText u.email = true) :
      SignupAnswer env w body db (session env 201 u) (db.apply (.insertUser u))

theorem run_signup (env : AuthEnv) (ws : Nat → AuthWorld) (db : Db) (body : Val) :
    ∃ response db' log, (signup env body).run (fun w q db => authAnswer w db q) ws 0 db = ⟨.ok response, db', log⟩ ∧
      SignupAnswer env (ws 1) body db response db' := by
  rw [signup, authProp]
  cases hvalid : env.validSignup body with
  | false => exact ⟨_, _, _, rfl, .refused _ not_opens_errors⟩
  | true =>
    simp only [Bool.not_true, Bool.false_eq_true, if_false]
    cases hget : get body "email" with
    | none => exact ⟨_, _, _, rfl, .refused _ not_opens_error⟩
    | some email =>
      have hopt : getOpt body "email" = email := by rw [getOpt, hget, Option.getD_some]
      rw [Prog.mk_pure_bind]
      rcases answer_userFindUnique (ws 0) db email with ⟨-, err, hanswer⟩ | ⟨e, -, -, hanswer⟩
      · exact ⟨_, _, _, run_authGuarded (Prog.run_ask_bind_error hanswer), .refused _ not_opens_error⟩
      cases hfound : db.userByEmail? e with
      | some user =>
        rw [hfound] at hanswer
        exact ⟨_, _, _, run_authGuarded (Prog.run_ask_bind hanswer rfl), .refused _ not_opens_error⟩
      | none =>
        rw [hfound] at hanswer
        rcases authAnswer_cases (ws 1) db (.hash (getOpt body "password")) with
          ⟨e, hexec, hhash⟩ | ⟨hashed, writes, hexec, hhash⟩
        · exact ⟨_, _, _, run_authGuarded (Prog.run_ask_bind hanswer (Prog.run_ask_bind_error hhash)),
            .refused _ not_opens_error⟩
        simp only [authExec, except_map_eq_ok, Prod.mk.injEq] at hexec
        obtain ⟨password, hgiven, rfl, rfl⟩ := hexec
        rw [Db.applyAll_nil] at hhash
        rcases authAnswer_cases (ws 2) db (.userCreate email (some ((ws 1).hash password)) none "local") with
          ⟨e, hexec, hcreate⟩ | ⟨u, writes, hexec, hcreate⟩
        · exact ⟨_, _, _, run_authGuarded (Prog.run_ask_bind hanswer (Prog.run_ask_bind hhash
            (Prog.run_ask_bind_error hcreate))), .refused _ not_opens_error⟩
        · obtain ⟨hemail, hstored, hsub, hid, hnew, hstorable, -, rfl⟩ := createUser_ok hexec
          exact ⟨_, _, _, run_authGuarded (Prog.run_ask_bind hanswer (Prog.run_ask_bind hhash
            (Prog.run_ask_bind hcreate rfl))),
              .created u password hvalid (hopt.trans hemail) (passwordArg_ok hgiven) hstored
              hsub hid hnew hstorable⟩

/-- The password is the one that the hash was made from, for all that `bcrypt` sees. -/
def Matches (w : AuthWorld) (user : User) (password : Val) : Prop :=
  ∃ p hashed, password = some (.str p) ∧ user.password = some hashed ∧ hashed ≠ "" ∧ w.compare p hashed = true

theorem run_checkPassword (env : AuthEnv) (ws : Nat → AuthWorld) (n : Nat) (db : Db)
    (user : User) (password : Val) :
    ∃ r log, (checkPassword env user password).run (fun w q db => authAnswer w db q) ws n db = ⟨r, db, log⟩ ∧
      (Opens 200 r ↔ Matches (ws n) user password) := by
  unfold checkPassword
  cases hstored : user.password.filter (· != "") with
  | none =>
    refine ⟨_, _, rfl, iff_of_false not_opens_error ?_⟩
    rintro ⟨p, hashed, -, huser, hne, -⟩
    simp [huser, hne] at hstored
  | some hashed =>
    obtain ⟨huser, hne⟩ := Option.filter_eq_some_iff.mp hstored
    rcases authAnswer_cases (ws n) db (.compare password hashed) with ⟨e, hexec,
      hanswer⟩ | ⟨isMatch, writes, hexec, hanswer⟩
    · refine ⟨_, _, Prog.run_ask_bind_error hanswer, iff_of_false ?_ ?_⟩
      · rintro ⟨user, createdAt, token, h⟩
        cases h
      · rintro ⟨p, _, rfl, -⟩
        cases hexec
    · simp only [authExec, except_map_eq_ok, Prod.mk.injEq] at hexec
      obtain ⟨p, hgiven, hmatch, rfl⟩ := hexec
      rw [Db.applyAll_nil] at hanswer
      have hgiven := passwordArg_ok hgiven
      cases isMatch with
      | false =>
        refine ⟨_, _, Prog.run_ask_bind hanswer rfl, iff_of_false not_opens_error ?_⟩
        rintro ⟨p', hashed', hgiven', huser', -, hcompare⟩
        cases hgiven.symm.trans hgiven'
        cases huser.symm.trans huser'
        rw [hmatch] at hcompare
        cases hcompare
      | true =>
        exact ⟨_, _, Prog.run_ask_bind hanswer rfl, iff_of_true (opens_session env 200 user)
          ⟨p, hashed, hgiven, huser, by simpa using hne, hmatch⟩⟩

/-- A login changes nothing, and opens the account of the address if the password matches. -/
theorem run_login (env : AuthEnv) (ws : Nat → AuthWorld) (db : Db) (body : Val) :
    ∃ response log, (login env body).run (fun w q db => authAnswer w db q) ws 0 db = ⟨.ok response, db, log⟩ ∧
      (Opens 200 (.ok response) ↔ env.validLogin body = true ∧ ∃ e user, getOpt body "email" = some (.str e) ∧
        storableText e = true ∧ db.userByEmail? e = some user ∧ Matches (ws 1) user (getOpt body "password")) := by
  rw [login, authProp]
  cases env.validLogin body with
  | false => exact ⟨_, _, rfl, iff_of_false not_opens_errors fun h => (by cases h.1)⟩
  | true =>
    simp only [Bool.not_true, Bool.false_eq_true, if_false, true_and]
    cases hget : get body "email" with
    | none =>
      refine ⟨_, _, rfl, iff_of_false not_opens_error ?_⟩
      rintro ⟨e, user, hemail, -⟩
      simp [getOpt, hget] at hemail
    | some email =>
      have hopt : getOpt body "email" = email := by rw [getOpt, hget, Option.getD_some]
      rw [Prog.mk_pure_bind, hopt]
      rcases answer_userFindUnique (ws 0) db email with ⟨hrefused, err, hanswer⟩ | ⟨e, rfl, hstorable, hanswer⟩
      · refine ⟨_, _, run_authGuarded (Prog.run_ask_bind_error hanswer), iff_of_false not_opens_error ?_⟩
        rintro ⟨e, user, he, hstorable, -⟩
        rw [hrefused e he] at hstorable
        cases hstorable
      cases hfound : db.userByEmail? e with
      | none =>
        rw [hfound] at hanswer
        refine ⟨_, _, run_authGuarded (Prog.run_ask_bind hanswer rfl), iff_of_false not_opens_error ?_⟩
        rintro ⟨e', user, heq, -, huser, -⟩
        cases heq
        cases huser.symm.trans hfound
      | some user =>
        rw [hfound] at hanswer
        obtain ⟨r, log, hrun, hopens⟩ := run_checkPassword env ws 1 db user (getOpt body "password")
        refine ⟨_, _, run_authGuarded (Prog.run_ask_bind hanswer hrun), opens_guarded_iff.trans (hopens.trans ?_)⟩
        constructor
        · exact fun hmatches => ⟨e, user, rfl, hstorable, hfound, hmatches⟩
        · rintro ⟨e', user', heq, -, huser, hmatches⟩
          cases heq
          cases huser.symm.trans hfound
          exact hmatches

theorem serve_change (env : AuthEnv) (x : AuthStep) (db : Db) : AccountChange db (x.serve env db).state := by
  obtain ⟨ws, req⟩ := x
  cases req with
  | signup body =>
    obtain ⟨response, db', log, hrun, hsignup⟩ := run_signup env ws db body
    rw [AuthStep.serve, authHandle, hrun]
    cases hsignup with
    | refused => exact .same
    | created u password _ _ _ _ hsub hid hnew hstorable =>
      refine .created u hid hnew hstorable fun g hg => ?_
      rw [hsub] at hg
      cases hg
  | login body =>
    obtain ⟨response, log, hrun, -⟩ := run_login env ws db body
    rw [AuthStep.serve, authHandle, hrun]
    exact .same
  | googleLogin body =>
    obtain ⟨response, db', log, hrun, hgoogle⟩ := run_googleLogin env ws db body
    rw [AuthStep.serve, authHandle, hrun]
    cases hgoogle with
    | refused => exact .same
    | @accounted payload email r _ hpayload hemail h =>
      cases h with
      | refused => exact .same
      | found => exact .same
      | linked u at_ hu hfree hsub =>
        exact .linked u at_ payload.sub (Table.find?_of_mem (mem_of_userByEmail? hu).1) hfree payload.sub_ne hsub
      | created u hsub hid hemail hstorable hnew hnone =>
        refine .created u hid hemail hstorable fun g hg => ?_
        rw [hsub] at hg
        cases hg
        exact ⟨payload.sub_ne, hnew⟩

end Request

/-! ### Every run -/

theorem usersInv (env : AuthEnv) (steps : List AuthStep) : UsersInv (accountsAfter env steps) := by
  induction steps using List.reverseRecOn with
  | nil =>
    have hrows : ∀ u, u ∉ (accountsAfter env []).users.rows := fun u hu => (by cases hu)
    exact ⟨fun u hu => absurd hu (hrows u), fun u hu => absurd hu (hrows u), fun u hu => absurd hu (hrows u),
      fun u hu => absurd hu (hrows u)⟩
  | append_singleton steps x ih =>
    rw [accountsAfter_snoc]
    exact ih.change (serve_change env x _)

end Slideo
