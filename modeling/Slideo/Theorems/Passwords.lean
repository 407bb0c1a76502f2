import Slideo.Lib.Hoare
import Slideo.Theorems.Accounts
import Slideo.Theorems.Content
import Mathlib.Logic.Function.Basic

/-! Passwords over whole runs. A password belongs to an address from its one sign-up on, and Google neither
    adds nor removes one. `bcrypt` reads the first 72 bytes of a password only, and the chain of `/signup`
    admits longer ones. -/

namespace Slideo
open Js Prog Interleave

/-! ### The packages -/

/-- The UTF-8 encoding of a text. -/
def utf8 (s : String) : List UInt8 := s.toByteArray.data.toList

/-- What `bcrypt` reads of a password. -/
def bcryptBytes (p : String) : List UInt8 := (utf8 p).take 72

/-- `bcrypt` as documented: hashes are not empty, and a password matches a hash if the bytes that it reads agree. -/
structure Bcrypt (worlds : Set AuthWorld) : Prop where
  compare_hash : ∀ w ∈ worlds, ∀ w' ∈ worlds, ∀ p q, w.compare p (w'.hash q) = true ↔ bcryptBytes p = bcryptBytes q
  hash_ne : ∀ w ∈ worlds, ∀ q, w.hash q ≠ ""

/-- The chains of `routes/authRoutes.ts`. -/
structure Chains (env : AuthEnv) (isEmail isLength : Val → Bool) : Prop where
  signup : ∀ body, env.validSignup body = (isEmail (getOpt body "email") && isLength (getOpt body "password"))
  login : ∀ body, env.validLogin body = (isEmail (getOpt body "email") && (getOpt body "password").isSome)

theorem utf8_inj {s t : String} (h : utf8 s = utf8 t) : s = t :=
  String.toByteArray_inj.mp (ByteArray.ext (Array.toList_inj.mp h))

/-- Nothing is cut off from a password of 72 bytes. -/
theorem bcryptBytes_inj {p q : String} (hp : (utf8 p).length ≤ 72) (hq : (utf8 q).length ≤ 72)
    (h : bcryptBytes p = bcryptBytes q) : p = q := by
  rw [bcryptBytes, bcryptBytes, List.take_of_length_le hp, List.take_of_length_le hq] at h
  exact utf8_inj h

/-! ### The password of an address -/

/-- The hash that is stored for an address. -/
def Db.passwordOf (db : Db) (e : String) : Option String := (db.userByEmail? e).bind (·.password)

section Table
variable {db : Db} {u : User} {e : String}

theorem userByEmail?_insert (hid : u.id ∉ db.users.keys) (e : String) :
    (db.apply (.insertUser u)).userByEmail? e = (db.userByEmail? e).or (if u.email = e then some u else none) := by
  have hrows : (db.apply (.insertUser u)).users.rows = db.users.rows ++ [u] := Table.insert_rows hid
  rw [Db.userByEmail?, hrows, List.find?_append, Db.userByEmail?]
  by_cases he : u.email = e <;> simp [he]

/-- A new user brings the password along. -/
theorem passwordOf_insert (hid : u.id ∉ db.users.keys) (hnew : db.userByEmail? u.email = none) :
    (db.apply (.insertUser u)).passwordOf = Function.update db.passwordOf u.email u.password := by
  funext e
  rw [Db.passwordOf, userByEmail?_insert hid]
  by_cases he : e = u.email
  · subst he
    rw [hnew, if_pos rfl, Function.update_self]
    rfl
  · rw [if_neg (Ne.symm he), Option.or_none, Function.update_of_ne he]
    rfl

/-- A link leaves the addresses and the passwords alone. -/
theorem passwordOf_link (db : Db) (id : String) (at_ : Time) (g : String) :
    (db.apply (.patchUser id at_ (.linkGoogle g))).passwordOf = db.passwordOf := by
  funext e
  have hrow : ∀ u : User, (if u.id = id then (UserPatch.linkGoogle g).apply at_ u else u).email = u.email ∧
      (if u.id = id then (UserPatch.linkGoogle g).apply at_ u else u).password = u.password := fun u => by
    split <;> exact ⟨rfl, rfl⟩
  have hfind : (db.apply (.patchUser id at_ (.linkGoogle g))).userByEmail? e =
      (db.userByEmail? e).map fun u => if u.id = id then (UserPatch.linkGoogle g).apply at_ u else u := by
    show (db.users.rows.map fun u => if u.id = id then (UserPatch.linkGoogle g).apply at_ u else u).find? _ = _
    rw [List.find?_map, Db.userByEmail?]
    refine congrArg (Option.map _) (congrArg (List.find? · _) (funext fun u => ?_))
    exact congrArg (· == e) (hrow u).1
  rw [Db.passwordOf, hfind, Db.passwordOf, Option.bind_map]
  exact congrArg (Option.bind _) (funext fun u => (hrow u).2)

end Table

/-! ### One request -/

/-- No call stores a password. -/
def passwordless : Monitor AuthQuery AuthQuery.Answer Err Unit where
  Allowed _ q := ∀ email password googleId provider, q ≠ .userCreate email (some password) googleId provider
  next _ _ _ := ()

section Google
variable {env : AuthEnv} {m : Unit}

theorem passwordless_googleAccount (sub email : String) : passwordless.Obeys m (googleAccount sub email) := by
  refine .ask_bind (fun _ _ _ _ h => by cases h) fun found => ?_
  cases found with
  | none => exact .ask fun _ _ _ _ h => by cases h
  | some user =>
    simp only [linkAccount]
    split
    · exact .ask fun _ _ _ _ h => by cases h
    · exact trivial

theorem passwordless_googleLogin (body : Val) : passwordless.Obeys m (googleLogin env body) := by
  refine .tryCatch ?_ fun _ _ => trivial
  rw [authProp]
  cases get body "idToken" with
  | none => exact trivial
  | some idToken =>
    rw [mk_pure_bind]
    split
    · exact trivial
    refine .ask_bind (fun _ _ _ _ h => by cases h) fun found => ?_
    cases found with
    | none => exact trivial
    | some payload =>
      simp only [signInWithGoogle]
      split
      · exact trivial
      · exact .bind (P := fun _ _ => True) ((passwordless_googleAccount _ _).mono fun _ _ _ _ _ => trivial)
          fun _ _ _ => trivial

theorem passwordOf_authAnswer {q : AuthQuery} (hq : passwordless.Allowed m q) (w : AuthWorld) (db : Db) :
    (authAnswer w db q).2.passwordOf = db.passwordOf := by
  rcases authAnswer_cases w db q with ⟨e, -, hanswer⟩ | ⟨a, writes, hexec, hanswer⟩
  · rw [hanswer]
  rw [hanswer]
  cases q with
  | userCreate email password googleId provider =>
    obtain ⟨-, hpassword, -, hid, hnew, -, -, rfl⟩ := createUser_ok hexec
    have hnone : a.password = none := by
      cases password with
      | none => exact hpassword
      | some password => exact absurd rfl (hq email password googleId provider)
    have hfree : db.passwordOf a.email = none := by rw [Db.passwordOf, hnew, Option.bind_none]
    show (db.apply (.insertUser a)).passwordOf = _
    rw [passwordOf_insert hid hnew, hnone, ← hfree, Function.update_eq_self]
  | userUpdate id googleId =>
    obtain ⟨v, -, -, -, rfl⟩ := linkGoogle_ok hexec
    exact passwordOf_link db id w.now googleId
  | verifyIdToken | hash | compare | userFindUnique =>
    simp only [authExec, except_map_eq_ok, Prod.mk.injEq] at hexec
    obtain ⟨_, -, -, rfl⟩ := hexec
    rfl

/-- A Google login neither adds nor removes a password. -/
theorem passwordOf_googleLogin (ws : Nat → AuthWorld) (body : Val) (db : Db) :
    ((AuthStep.mk ws (.googleLogin body)).serve env db).state.passwordOf = db.passwordOf := by
  have hwp : Wp (fun q s r s' => ∃ w, authAnswer w s q = (r, s')) (googleLogin env body)
      (fun _ s log => (∃ _ : Unit, s.passwordOf = db.passwordOf ∧ True) ∧ ∀ c ∈ log, True) db := by
    refine Wp.of_ensures (M := passwordless) (R := fun _ (s : Db) => s.passwordOf = db.passwordOf) (m := ()) ?_
      (passwordless_googleLogin body) rfl
    rintro m q s r s' hq hkept ⟨w, hanswer⟩
    have hsame := passwordOf_authAnswer hq w s
    rw [hanswer] at hsame
    exact ⟨hsame.trans hkept, trivial⟩
  obtain ⟨⟨-, hkept, -⟩, -⟩ := Wp.run (fun w _ _ => ⟨w, rfl⟩) hwp
  exact hkept

end Google

/-- A sign-up of the address with the password is answered with a session token. -/
def AuthStep.SignsUp (env : AuthEnv) (x : AuthStep) (db : Db) (e q : String) : Prop :=
  ∃ body, x.req = .signup body ∧ getOpt body "email" = some (.str e) ∧ getOpt body "password" = some (.str q) ∧
    Opens 201 (x.serve env db).result

/-- A login presents the address and the password. -/
def AuthStep.Presents (x : AuthStep) (e p : String) : Prop :=
  ∃ body, x.req = .login body ∧ getOpt body "email" = some (.str e) ∧ getOpt body "password" = some (.str p)

/-- A login is answered with a session token. -/
def AuthStep.LogsIn (env : AuthEnv) (x : AuthStep) (db : Db) : Prop :=
  (∃ body, x.req = .login body) ∧ Opens 200 (x.serve env db).result

section Step
variable {env : AuthEnv} {x : AuthStep} {db : Db} {e p q : String}

theorem not_signsUp (h : ∀ body, x.req ≠ .signup body) : ¬ x.SignsUp env db e q := by
  rintro ⟨body, hreq, -⟩
  exact h body hreq

theorem not_presents (h : ∀ body, x.req ≠ .login body) : ¬ x.Presents e p := by
  rintro ⟨body, hreq, -⟩
  exact h body hreq

/-- A request signs nobody up and keeps the passwords, or signs up an address that has no account yet. -/
theorem serve_passwords (env : AuthEnv) (x : AuthStep) (db : Db) :
    ((∀ e q, ¬ x.SignsUp env db e q) ∧ (x.serve env db).state.passwordOf = db.passwordOf) ∨
      ∃ e q, (∀ e' q', x.SignsUp env db e' q' → e' = e ∧ q' = q) ∧ x.SignsUp env db e q ∧ db.passwordOf e = none ∧
        (x.serve env db).state.passwordOf = Function.update db.passwordOf e (some ((x.ws 1).hash q)) := by
  obtain ⟨ws, req⟩ := x
  cases req with
  | login body =>
    obtain ⟨response, log, hrun, -⟩ := run_login env ws db body
    refine Or.inl ⟨fun e q => not_signsUp fun _ h => (by cases h), ?_⟩
    rw [AuthStep.serve, authHandle, hrun]
  | googleLogin body =>
    exact Or.inl ⟨fun e q => not_signsUp fun _ h => (by cases h), passwordOf_googleLogin ws body db⟩
  | signup body =>
    obtain ⟨response, db', log, hrun, hsignup⟩ := run_signup env ws db body
    have hserve : (AuthStep.mk ws (.signup body)).serve env db = ⟨.ok response, db', log⟩ := hrun
    cases hsignup with
    | refused _ hrefused =>
      refine Or.inl ⟨fun e q => ?_, by rw [hserve]⟩
      rintro ⟨_, -, -, -, hopens⟩
      rw [hserve] at hopens
      exact hrefused hopens
    | created u q hvalid hemail hgiven hhash _ hid hnew _ =>
      refine Or.inr ⟨u.email, q, fun e' q' => ?_, ⟨body, rfl, hemail, hgiven, ?_⟩, ?_, ?_⟩
      · rintro ⟨_, hreq, hemail', hgiven', -⟩
        cases hreq
        cases hemail.symm.trans hemail'
        cases hgiven.symm.trans hgiven'
        exact ⟨rfl, rfl⟩
      · rw [hserve]
        exact opens_session env 201 u
      · rw [Db.passwordOf, hnew, Option.bind_none]
      · rw [hserve, ← hhash]
        exact passwordOf_insert hid hnew

/-- Signing up takes a valid address. -/
theorem AuthStep.SignsUp.isEmail {isEmail isLength : Val → Bool} (hchains : Chains env isEmail isLength)
    (h : x.SignsUp env db e q) : isEmail (some (.str e)) = true := by
  obtain ⟨ws, req⟩ := x
  obtain ⟨body, rfl, hemail, -, hopens⟩ := h
  obtain ⟨response, db', log, hrun, hsignup⟩ := run_signup env ws db body
  have hserve : (AuthStep.mk ws (.signup body)).serve env db = ⟨.ok response, db', log⟩ := hrun
  rw [hserve] at hopens
  cases hsignup with
  | refused _ hrefused => exact absurd hopens hrefused
  | created u _ hvalid =>
    rw [hchains.signup, hemail] at hvalid
    exact ((Bool.and_eq_true _ _).mp hvalid).1

/-- A login opens an account exactly if its password matches the hash of its address. -/
theorem logsIn_iff {isEmail isLength : Val → Bool} (hchains : Chains env isEmail isLength) (inv : UsersInv db)
    (hpresents : x.Presents e p) : x.LogsIn env db ↔ isEmail (some (.str e)) = true ∧
      ∃ hashed, db.passwordOf e = some hashed ∧ hashed ≠ "" ∧ (x.ws 1).compare p hashed = true := by
  obtain ⟨ws, req⟩ := x
  obtain ⟨body, rfl, hemail, hgiven⟩ := hpresents
  obtain ⟨response, log, hrun, hopens⟩ := run_login env ws db body
  have hserve : (AuthStep.mk ws (.login body)).serve env db = ⟨.ok response, db, log⟩ := hrun
  rw [AuthStep.LogsIn, hserve, hopens, hchains.login, hemail, hgiven]
  constructor
  · rintro ⟨-, hvalid, e', user, he, -, huser, p', hashed, hp, hstored, hne, hcompare⟩
    cases he
    cases hp
    exact ⟨((Bool.and_eq_true _ _).mp hvalid).1, hashed, by rw [Db.passwordOf, huser]; exact hstored, hne, hcompare⟩
  · rintro ⟨hvalid, hashed, hstored, hne, hcompare⟩
    obtain ⟨user, huser, hstored⟩ := Option.bind_eq_some_iff.mp hstored
    obtain ⟨hmem, he⟩ := mem_of_userByEmail? huser
    refine ⟨⟨body, rfl⟩, by rw [hvalid]; rfl, e, user, rfl, ?_, huser, p, hashed, rfl, hstored, hne, hcompare⟩
    exact he ▸ inv.storable user hmem

/-- Who logs in has presented an address and a password. -/
theorem presents_of_logsIn (h : x.LogsIn env db) : ∃ e p, x.Presents e p := by
  obtain ⟨ws, req⟩ := x
  obtain ⟨⟨body, rfl⟩, hopens⟩ := h
  obtain ⟨response, log, hrun, hiff⟩ := run_login env ws db body
  have hserve : (AuthStep.mk ws (.login body)).serve env db = ⟨.ok response, db, log⟩ := hrun
  rw [hserve] at hopens
  obtain ⟨-, e, user, hemail, -, -, p, hashed, hgiven, -⟩ := hiff.mp hopens
  exact ⟨e, p, body, rfl, hemail, hgiven⟩

end Step

/-! ### Every run -/

/-- The worlds of a run. -/
def worldsOf (steps : List AuthStep) : Set AuthWorld := {w | ∃ x ∈ steps, ∃ n, w = x.ws n}

/-- Some earlier sign-up of the address with the password succeeded. -/
def SignedUp (env : AuthEnv) (past : List AuthStep) (e q : String) : Prop :=
  ∃ before x after, past = before ++ x :: after ∧ x.SignsUp env (accountsAfter env before) e q

/-- Each address with a password was signed up once, with a password of that hash. -/
structure PasswordsInv (env : AuthEnv) (past : List AuthStep) : Prop where
  signedUp : ∀ e hashed, (accountsAfter env past).passwordOf e = some hashed →
    ∃ q, SignedUp env past e q ∧ ∃ w ∈ worldsOf past, hashed = w.hash q
  stored : ∀ e q, SignedUp env past e q → ∃ w ∈ worldsOf past,
    (accountsAfter env past).passwordOf e = some (w.hash q)
  unique : ∀ e q q', SignedUp env past e q → SignedUp env past e q' → q = q'

section Runs
variable {env : AuthEnv} {steps past rest : List AuthStep} {x : AuthStep} {e p q : String}

theorem worldsOf_mono {more : List AuthStep} {w : AuthWorld} (h : w ∈ worldsOf past) :
    w ∈ worldsOf (past ++ more) := by
  obtain ⟨x, hx, n, rfl⟩ := h
  exact ⟨x, List.mem_append_left _ hx, n, rfl⟩

theorem signedUp_snoc : SignedUp env (past ++ [x]) e q ↔ SignedUp env past e q ∨
    x.SignsUp env (accountsAfter env past) e q := by
  constructor
  · rintro ⟨before, y, after, hsteps, hsigns⟩
    rcases List.eq_nil_or_concat after with rfl | ⟨after', last, rfl⟩
    · obtain ⟨rfl, hlast⟩ := List.append_inj' hsteps rfl
      cases hlast
      exact Or.inr hsigns
    · have hsplit : past ++ [x] = (before ++ y :: after') ++ [last] := by simp [hsteps]
      obtain ⟨rfl, -⟩ := List.append_inj' hsplit rfl
      exact Or.inl ⟨before, y, after', rfl, hsigns⟩
  · rintro (⟨before, y, after, rfl, hsigns⟩ | hsigns)
    · exact ⟨before, y, after ++ [x], by simp, hsigns⟩
    · exact ⟨past, x, [], rfl, hsigns⟩

/-- A request that signs nobody up keeps the invariant. -/
theorem PasswordsInv.keep (inv : PasswordsInv env past)
    (hnone : ∀ e q, ¬ x.SignsUp env (accountsAfter env past) e q)
    (hkept : (x.serve env (accountsAfter env past)).state.passwordOf = (accountsAfter env past).passwordOf) :
    PasswordsInv env (past ++ [x]) := by
  have hsigned : ∀ e q, SignedUp env (past ++ [x]) e q ↔ SignedUp env past e q := fun e q =>
    signedUp_snoc.trans (or_iff_left (hnone e q))
  constructor
  · intro e hashed h
    rw [accountsAfter_snoc, hkept] at h
    obtain ⟨q, hq, w, hw, rfl⟩ := inv.signedUp e hashed h
    exact ⟨q, (hsigned e q).mpr hq, w, worldsOf_mono hw, rfl⟩
  · intro e q h
    obtain ⟨w, hw, hstored⟩ := inv.stored e q ((hsigned e q).mp h)
    exact ⟨w, worldsOf_mono hw, by rw [accountsAfter_snoc, hkept, hstored]⟩
  · exact fun e q q' h h' => inv.unique e q q' ((hsigned e q).mp h) ((hsigned e q').mp h')

/-- A sign-up of an address without a password keeps the invariant. -/
theorem PasswordsInv.signUp (inv : PasswordsInv env past)
    (honly : ∀ e' q', x.SignsUp env (accountsAfter env past) e' q' → e' = e ∧ q' = q)
    (hsigns : x.SignsUp env (accountsAfter env past) e q) (hfree : (accountsAfter env past).passwordOf e = none)
    (hstored : (x.serve env (accountsAfter env past)).state.passwordOf =
      Function.update (accountsAfter env past).passwordOf e (some ((x.ws 1).hash q))) :
      PasswordsInv env (past ++ [x]) := by
  have hworld : x.ws 1 ∈ worldsOf (past ++ [x]) := ⟨x, List.mem_append_right _ (List.mem_singleton_self x), 1, rfl⟩
  have hnew : ∀ q', ¬ SignedUp env past e q' := fun q' h => by
    obtain ⟨w, -, hsome⟩ := inv.stored e q' h
    rw [hfree] at hsome
    cases hsome
  have hself : ∀ q', SignedUp env (past ++ [x]) e q' → q' = q := fun q' h => by
    rcases signedUp_snoc.mp h with h | h
    · exact absurd h (hnew q')
    · exact (honly e q' h).2
  have hother : ∀ e' q', e' ≠ e → (SignedUp env (past ++ [x]) e' q' ↔ SignedUp env past e' q') := fun e' q' hne =>
    signedUp_snoc.trans (or_iff_left fun h => hne (honly e' q' h).1)
  constructor
  · intro e' hashed h
    rw [accountsAfter_snoc, hstored] at h
    by_cases hne : e' = e
    · subst hne
      rw [Function.update_self] at h
      exact ⟨q, signedUp_snoc.mpr (Or.inr hsigns), x.ws 1, hworld, (Option.some.inj h).symm⟩
    · rw [Function.update_of_ne hne] at h
      obtain ⟨q', hq', w, hw, rfl⟩ := inv.signedUp e' hashed h
      exact ⟨q', (hother e' q' hne).mpr hq', w, worldsOf_mono hw, rfl⟩
  · intro e' q' h
    rw [accountsAfter_snoc, hstored]
    by_cases hne : e' = e
    · subst hne
      rw [hself q' h]
      exact ⟨x.ws 1, hworld, Function.update_self ..⟩
    · obtain ⟨w, hw, hsome⟩ := inv.stored e' q' ((hother e' q' hne).mp h)
      exact ⟨w, worldsOf_mono hw, by rw [Function.update_of_ne hne, hsome]⟩
  · intro e' q' q'' h h'
    by_cases hne : e' = e
    · subst hne
      rw [hself q' h, hself q'' h']
    · exact inv.unique e' q' q'' ((hother e' q' hne).mp h) ((hother e' q'' hne).mp h')

theorem passwordsInv (env : AuthEnv) (past : List AuthStep) : PasswordsInv env past := by
  induction past using List.reverseRecOn with
  | nil =>
    have hnone : ∀ e q, ¬ SignedUp env [] e q := by
      rintro e q ⟨before, x, after, hsteps, -⟩
      simp at hsteps
    exact ⟨fun e hashed h => (by cases h), fun e q h => absurd h (hnone e q), fun e q q' h => absurd h (hnone e q)⟩
  | append_singleton past x inv =>
    rcases serve_passwords env x (accountsAfter env past) with ⟨hnone, hkept⟩ | ⟨e,
      q, honly, hsigns, hfree, hstored⟩
    · exact inv.keep hnone hkept
    · exact inv.signUp honly hsigns hfree hstored

/-- A login succeeds exactly if its address was signed up with a password that agrees with the given one in
    the bytes that `bcrypt` reads. -/
theorem logsIn_iff_signedUp {isEmail isLength : Val → Bool} (hchains : Chains env isEmail isLength)
    (hbcrypt : Bcrypt (worldsOf steps)) (hsteps : steps = past ++ x :: rest) (hpresents : x.Presents e p) :
    x.LogsIn env (accountsAfter env past) ↔ ∃ q, SignedUp env past e q ∧ bcryptBytes p = bcryptBytes q := by
  subst hsteps
  have hworld : x.ws 1 ∈ worldsOf (past ++ x :: rest) := ⟨x, by simp, 1, rfl⟩
  have inv := passwordsInv env past
  rw [logsIn_iff hchains (usersInv env past) hpresents]
  constructor
  · rintro ⟨-, hashed, hstored, -, hcompare⟩
    obtain ⟨q, hsigned, w, hw, rfl⟩ := inv.signedUp e hashed hstored
    exact ⟨q, hsigned, (hbcrypt.compare_hash _ hworld w (worldsOf_mono hw) p q).mp hcompare⟩
  · rintro ⟨q, hsigned, hbytes⟩
    obtain ⟨w, hw, hstored⟩ := inv.stored e q hsigned
    obtain ⟨before, y, after, -, hsigns⟩ := hsigned
    exact ⟨hsigns.isEmail hchains, w.hash q, hstored, hbcrypt.hash_ne w (worldsOf_mono hw) q,
      (hbcrypt.compare_hash _ hworld w (worldsOf_mono hw) p q).mpr hbytes⟩

/-- In every run, password logins are exact if and only if no login gives another password than the one its
    address was signed up with that `bcrypt` cannot tell from it. Google logins keep all passwords, and
    nobody logs in to an account that was not signed up. -/
theorem password_login_exact_iff (env : AuthEnv) (steps : List AuthStep) {isEmail isLength : Val → Bool}
    (hchains : Chains env isEmail isLength) (hbcrypt : Bcrypt (worldsOf steps)) :
    ((∀ (past : List AuthStep) (x : AuthStep) (rest : List AuthStep), steps = past ++ x :: rest →
        ∀ e p, x.Presents e p → (x.LogsIn env (accountsAfter env past) ↔ SignedUp env past e p)) ↔
      ∀ (past : List AuthStep) (x : AuthStep) (rest : List AuthStep), steps = past ++ x :: rest →
        ∀ e p q, x.Presents e p → SignedUp env past e q → bcryptBytes p = bcryptBytes q → p = q) ∧
    ∀ (past : List AuthStep) (x : AuthStep) (rest : List AuthStep), steps = past ++ x :: rest →
      ((∃ body, x.req = .googleLogin body) →
        (x.serve env (accountsAfter env past)).state.passwordOf = (accountsAfter env past).passwordOf) ∧
      (x.LogsIn env (accountsAfter env past) → ∃ e p, x.Presents e p) ∧
      ∀ e p, x.Presents e p → (∀ q, ¬ SignedUp env past e q) → ¬ x.LogsIn env (accountsAfter env past) := by
  refine ⟨?_, fun past x rest hsteps => ⟨?_, presents_of_logsIn, fun e p hpresents hnone hlogs => ?_⟩⟩
  · constructor
    · intro hexact past x rest hsteps e p q hpresents hsigned hbytes
      have hlogs := (logsIn_iff_signedUp hchains hbcrypt hsteps hpresents).mpr ⟨q, hsigned, hbytes⟩
      exact (passwordsInv env past).unique e p q ((hexact past x rest hsteps e p hpresents).mp hlogs) hsigned
    · intro htold past x rest hsteps e p hpresents
      rw [logsIn_iff_signedUp hchains hbcrypt hsteps hpresents]
      constructor
      · rintro ⟨q, hsigned, hbytes⟩
        rwa [htold past x rest hsteps e p q hpresents hsigned hbytes]
      · exact fun hsigned => ⟨p, hsigned, rfl⟩
  · rintro ⟨body, hreq⟩
    obtain ⟨ws, req⟩ := x
    cases hreq
    exact passwordOf_googleLogin ws body _
  · obtain ⟨q, hsigned, -⟩ := (logsIn_iff_signedUp hchains hbcrypt hsteps hpresents).mp hlogs
    exact hnone q hsigned

/-- Passwords of at most 72 bytes are told apart, as far as their encodings are: half a surrogate pair, which is no
    `Char`, is encoded as U+FFFD is. -/
theorem told_of_short (hlogin : ∀ x ∈ steps, ∀ e p, x.Presents e p → (utf8 p).length ≤ 72)
    (hsignup : ∀ x ∈ steps, ∀ db e q, x.SignsUp env db e q → (utf8 q).length ≤ 72) :
    ∀ past x rest, steps = past ++ x :: rest → ∀ e p q, x.Presents e p → SignedUp env past e q →
      bcryptBytes p = bcryptBytes q → p = q := by
  rintro past x rest rfl e p q hpresents ⟨before, y, after, rfl, hsigns⟩
  exact bcryptBytes_inj (hlogin x (by simp) e p hpresents) (hsignup y (by simp) _ e q hsigns)

end Runs

/-! ### A short and a long password -/

def holdsAt : Val → Bool
  | some (.str s) => s.toList.contains '@'
  | _ => false

def holdsSix : Val → Bool
  | some (.str s) => decide (6 ≤ s.toList.length)
  | _ => false

def passwordOffice : AuthEnv where
  validSignup body := holdsAt (getOpt body "email") && holdsSix (getOpt body "password")
  validLogin body := holdsAt (getOpt body "email") && (getOpt body "password").isSome
  sign user := user.id

/-- The bytes of a password are compared as `bcrypt` does, and not hidden. -/
def plainWorld : AuthWorld where
  now := 0
  uuid := "alice"
  verifyIdToken _ := .ok (some ⟨"g7", by decide, some "alice@slideo.ai"⟩)
  hash q := "$" ++ q
  compare p hashed := decide (bcryptBytes p = bcryptBytes (String.ofList hashed.toList.tail))

def passwordBody (password : String) : Val :=
  some (.obj [("email", .str "alice@slideo.ai"), ("password", .str password)])

def signupStep (password : String) : AuthStep := ⟨fun _ => plainWorld, .signup (passwordBody password)⟩

def loginStep (password : String) : AuthStep := ⟨fun _ => plainWorld, .login (passwordBody password)⟩

def linkStep : AuthStep := ⟨fun _ => plainWorld, .googleLogin (some (.obj [("idToken", .str "token")]))⟩

theorem passwordOffice_chains : Chains passwordOffice holdsAt holdsSix := ⟨fun _ => rfl, fun _ => rfl⟩

theorem plainWorld_bcrypt {worlds : Set AuthWorld} (h : ∀ w ∈ worlds, w = plainWorld) : Bcrypt worlds where
  compare_hash w hw w' hw' p q := by
    rw [h w hw, h w' hw']
    have htail : String.ofList (("$" ++ q).toList.tail) = q := by simp
    show decide (bcryptBytes p = bcryptBytes (String.ofList (("$" ++ q).toList.tail))) = true ↔ _
    rw [htail, decide_eq_true_iff]
  hash_ne w hw q := by
    rw [h w hw]
    exact fun hempty => by simpa [plainWorld] using congrArg String.toList hempty

theorem presents_loginStep {password e p : String} :
    (loginStep password).Presents e p ↔ e = "alice@slideo.ai" ∧ p = password := by
  constructor
  · rintro ⟨body, hreq, hemail, hgiven⟩
    cases hreq
    cases hemail
    cases hgiven
    exact ⟨rfl, rfl⟩
  · rintro ⟨rfl, rfl⟩
    exact ⟨_, rfl, rfl, rfl⟩

theorem signsUp_signupStep {env : AuthEnv} {db : Db} {password e q : String}
    (h : (signupStep password).SignsUp env db e q) :
    q = password := by
  obtain ⟨body, hreq, -, hgiven, -⟩ := h
  cases hreq
  cases hgiven
  rfl

/-- The first sign-up of `alice` succeeds. -/
theorem signedUp_of_session {password : String}
    (h : ((signupStep password).serve passwordOffice .empty).result.toOption =
    some ⟨201, .session ⟨"alice", "alice@slideo.ai"⟩ 0 "alice"⟩) (after : List AuthStep) :
    SignedUp passwordOffice (signupStep password :: after) "alice@slideo.ai" password :=
  ⟨[], signupStep password, after, rfl, _, rfl, rfl, rfl, _, _, _, toOption_eq_some.mp h⟩

/-- `alice` signs up with a short password. -/
def shortRun : List AuthStep := [signupStep "secret1", linkStep, loginStep "secret1", loginStep "secret2"]

theorem shortRun_short : (∀ x ∈ shortRun, ∀ e p, x.Presents e p → (utf8 p).length ≤ 72) ∧
    ∀ x ∈ shortRun, ∀ db e q, x.SignsUp passwordOffice db e q → (utf8 q).length ≤ 72 := by
  have hone : (utf8 "secret1").length ≤ 72 := by decide +kernel
  have htwo : (utf8 "secret2").length ≤ 72 := by decide +kernel
  constructor
  · simp only [shortRun, List.forall_mem_cons]
    refine ⟨fun e p h => ?_, fun e p h => ?_, fun e p h => ?_, fun e p h => ?_, fun x hx => by cases hx⟩
    · exact absurd h (not_presents fun _ h => by cases h)
    · exact absurd h (not_presents fun _ h => by cases h)
    · exact (presents_loginStep.mp h).2 ▸ hone
    · exact (presents_loginStep.mp h).2 ▸ htwo
  · simp only [shortRun, List.forall_mem_cons]
    refine ⟨fun db e q h => ?_, fun db e q h => ?_, fun db e q h => ?_, fun db e q h => ?_, fun x hx => by cases hx⟩
    · exact signsUp_signupStep h ▸ hone
    · exact absurd h (not_signsUp fun _ h => by cases h)
    · exact absurd h (not_signsUp fun _ h => by cases h)
    · exact absurd h (not_signsUp fun _ h => by cases h)

theorem plainWorld_of_shortRun : ∀ w ∈ worldsOf shortRun, w = plainWorld := by
  rintro w ⟨x, hx, n, rfl⟩
  simp only [shortRun, List.mem_cons, List.not_mem_nil, or_false] at hx
  rcases hx with rfl | rfl | rfl | rfl <;> rfl

/-- The password of the sign-up opens the account, also after a link. -/
theorem short_passwords_exact :
    (loginStep "secret1").LogsIn passwordOffice (accountsAfter passwordOffice [signupStep "secret1", linkStep]) ∧
      ∀ past x rest, shortRun = past ++ x :: rest → ∀ e p, x.Presents e p →
        (x.LogsIn passwordOffice (accountsAfter passwordOffice past) ↔ SignedUp passwordOffice past e p) := by
  have hexact := (password_login_exact_iff passwordOffice shortRun passwordOffice_chains
    (plainWorld_bcrypt plainWorld_of_shortRun)).1.mpr (told_of_short shortRun_short.1 shortRun_short.2)
  refine ⟨?_, hexact⟩
  have hsigned : SignedUp passwordOffice [signupStep "secret1", linkStep] "alice@slideo.ai" "secret1" :=
    signedUp_of_session (by decide +kernel) _
  exact (hexact [signupStep "secret1", linkStep] _ [loginStep "secret2"] rfl _ _
    (presents_loginStep.mpr ⟨rfl, rfl⟩)).mpr hsigned

/-- A password of 73 bytes. -/
def longPassword (last : Char) : String := String.ofList (List.replicate 72 'a' ++ [last])

def longRun : List AuthStep := [signupStep (longPassword 'b'), loginStep (longPassword 'c')]

theorem plainWorld_of_longRun : ∀ w ∈ worldsOf longRun, w = plainWorld := by
  rintro w ⟨x, hx, n, rfl⟩
  simp only [longRun, List.mem_cons, List.not_mem_nil, or_false] at hx
  rcases hx with rfl | rfl <;> rfl

/-- Another password opens the account. -/
theorem long_passwords_confused :
    Chains passwordOffice holdsAt holdsSix ∧ Bcrypt (worldsOf longRun) ∧
      ∃ past x rest e p, longRun = past ++ x :: rest ∧ x.Presents e p ∧
        x.LogsIn passwordOffice (accountsAfter passwordOffice past) ∧ ¬ SignedUp passwordOffice past e p := by
  have hbcrypt := plainWorld_bcrypt plainWorld_of_longRun
  have hsigned : SignedUp passwordOffice [signupStep (longPassword 'b')] "alice@slideo.ai" (longPassword 'b') :=
    signedUp_of_session (by decide +kernel) []
  have hbytes : bcryptBytes (longPassword 'c') = bcryptBytes (longPassword 'b') := by decide +kernel
  have hne : longPassword 'c' ≠ longPassword 'b' := by decide +kernel
  have hpresents : (loginStep (longPassword 'c')).Presents "alice@slideo.ai" (longPassword 'c') :=
    presents_loginStep.mpr ⟨rfl, rfl⟩
  refine ⟨passwordOffice_chains, hbcrypt, [signupStep (longPassword 'b')],
    loginStep (longPassword 'c'), [], _, _, rfl,
    hpresents, ?_, fun hsame => hne ((passwordsInv passwordOffice _).unique _ _ _ hsame hsigned)⟩
  have hlong : longRun = [signupStep (longPassword 'b')] ++ loginStep (longPassword 'c') :: [] := rfl
  exact (logsIn_iff_signedUp passwordOffice_chains hbcrypt hlong hpresents).mpr ⟨_, hsigned, hbytes⟩

end Slideo
