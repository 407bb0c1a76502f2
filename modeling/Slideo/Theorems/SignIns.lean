import Slideo.Theorems.Registry
import Mathlib.Data.List.Pairwise

/-! Sign-ups and logins whose calls interleave in any way. They change the accounts one after another, each
    at most once, and every session token is about an account of the table, for somebody who has shown its
    credentials. -/

namespace Slideo
open Js Interleave

/-! ### The calls of a request -/

def opsOf (log : List AuthCall) : List AccountOp := log.filterMap AuthQuery.op?

/-- Where the values of a call that changes accounts come from: the posted e-mail address with the hash of the
    posted password, or a payload that Google signed. -/
def AuthRequest.Means (req : AuthRequest) (log : List AuthCall) : AuthQuery → Prop
  | .userCreate email password googleId _ =>
    (∃ body hashed, req = .signup body ∧ email = getOpt body "email" ∧
      ⟨.hash (getOpt body "password"), .ok hashed⟩ ∈ log ∧
      password = some hashed ∧ googleId = none) ∨
    ∃ body payload, req = .googleLogin body ∧ ⟨.verifyIdToken (getOpt body "idToken"), .ok (some payload)⟩ ∈ log ∧
      email = payload.email.map .str ∧ password = none ∧ googleId = some payload.sub
  | .userUpdate id googleId => ∃ body payload u, req = .googleLogin body ∧
      ⟨.verifyIdToken (getOpt body "idToken"), .ok (some payload)⟩ ∈ log ∧ googleId = payload.sub ∧
      ⟨.userFindUnique (payload.email.map .str), .ok (some u)⟩ ∈ log ∧ u.id = id ∧ u.googleId.getD "" = ""
  | _ => True

/-- A request makes no call after the one that changes an account. -/
def AuthRequest.calls (req : AuthRequest) : Monitor AuthQuery AuthQuery.Answer Err (List AuthCall) :=
  transcript fun log q => opsOf log = [] ∧ req.Means log q

/-- What the calls show of the user that a session token is for. -/
inductive Credential (log : List AuthCall) : AuthRequest → Nat → User → Prop
  | signup {body : Val} {hashed : String} {u : User} (hhash : ⟨.hash (getOpt body "password"), .ok hashed⟩ ∈ log)
      (hcreate : ⟨.userCreate (getOpt body "email") (some hashed) none "local", .ok u⟩ ∈ log) :
      Credential log (.signup body) 201 u
  | login {body : Val} {hashed : String} {u : User}
      (hfound : ⟨.userFindUnique (getOpt body "email"), .ok (some u)⟩ ∈ log)
      (hstored : u.password = some hashed) (hne : hashed ≠ "")
      (hcompare : ⟨.compare (getOpt body "password") hashed, .ok true⟩ ∈ log) (hnone : opsOf log = []) :
      Credential log (.login body) 200 u
  | linked {body : Val} {payload : GooglePayload} {u : User}
      (hverified : ⟨.verifyIdToken (getOpt body "idToken"), .ok (some payload)⟩ ∈ log)
      (hfound : ⟨.userFindUnique (payload.email.map .str), .ok (some u)⟩ ∈ log) (hnone : opsOf log = []) :
      Credential log (.googleLogin body) 200 u
  | link {body : Val} {payload : GooglePayload} {u v : User}
      (hverified : ⟨.verifyIdToken (getOpt body "idToken"), .ok (some payload)⟩ ∈ log)
      (hfound : ⟨.userFindUnique (payload.email.map .str), .ok (some u)⟩ ∈ log)
      (hlink : ⟨.userUpdate u.id payload.sub, .ok v⟩ ∈ log) : Credential log (.googleLogin body) 200 v
  | created {body : Val} {payload : GooglePayload} {u : User}
      (hverified : ⟨.verifyIdToken (getOpt body "idToken"), .ok (some payload)⟩ ∈ log)
      (hcreate : ⟨.userCreate (payload.email.map .str) none (some payload.sub) "google", .ok u⟩ ∈ log) :
      Credential log (.googleLogin body) 200 u

/-- How a request ends: without an operation and with an error, or with a token and its credential. -/
inductive Concludes (env : AuthEnv) (req : AuthRequest) (log : List AuthCall) : Except Err AuthResponse → Prop
  | refused {response : AuthResponse} (hstatus : 400 ≤ response.status)
      (hbody : ∀ u t k, response.body ≠ .session u t k)
      (hnone : opsOf log = []) : Concludes env req log (.ok response)
  | opened {status : Nat} {u : User} (h : Credential log req status u) :
      Concludes env req log (.ok (session env status u))

/-- What holds of a body before its `catch`. -/
def Tried (env : AuthEnv) (req : AuthRequest) (log : List AuthCall) : Except Err AuthResponse → Prop
  | .ok response => Concludes env req log (.ok response)
  | .error _ => opsOf log = []

section Handlers
variable {env : AuthEnv} {req : AuthRequest} {log : List AuthCall} {status : Nat} {message : String}

theorem concludes_error (hstatus : 400 ≤ status) (hnone : opsOf log = []) :
    Concludes env req log (.ok (.error status message)) := .refused hstatus (fun _ _ _ h => by cases h) hnone

@[simp] theorem status_session (u : User) : (session env status u).status = status := rfl

theorem concludes_guarded {handler : AuthHandler AuthResponse} (h : req.calls.Ensures log handler (Tried env req)) :
    req.calls.Ensures log (authGuarded message handler) (Concludes env req) :=
  h.caught (fun _ _ h => h) fun _ _ hnone => concludes_error (by decide) hnone

/-- A call that changes no account. -/
theorem tried_read_bind {q : AuthQuery} {f : q.Answer → AuthHandler AuthResponse}
    (hq : ∀ r, AuthQuery.op? ⟨q, r⟩ = none) (hmeans : req.Means log q) (hnone : opsOf log = [])
    (h : ∀ a, opsOf (log ++ [⟨q, .ok a⟩]) = [] → req.calls.Ensures (log ++ [⟨q, .ok a⟩]) (f a) (Tried env req)) :
    req.calls.Ensures log (askAuth q >>= f) (Tried env req) := by
  have hnext : ∀ r, opsOf (log ++ [⟨q, r⟩]) = [] := by
    intro r
    simp only [opsOf, List.filterMap_append, List.filterMap_cons, hq r]
    exact (List.append_nil _).trans hnone
  refine ⟨⟨hnone, hmeans⟩, fun r => ?_⟩
  cases r with
  | ok a => exact h a (hnext _)
  | error e => exact hnext _

/-- The call that changes an account is the last one. -/
theorem tried_change_bind {q : AuthQuery} {f : q.Answer → AuthHandler AuthResponse}
    (hq : ∀ e, AuthQuery.op? ⟨q, .error e⟩ = none) (hmeans : req.Means log q) (hnone : opsOf log = [])
    (h : ∀ a, req.calls.Ensures (log ++ [⟨q, .ok a⟩]) (f a) (Tried env req)) :
    req.calls.Ensures log (askAuth q >>= f) (Tried env req) := by
  refine ⟨⟨hnone, hmeans⟩, fun r => ?_⟩
  cases r with
  | ok a => exact h a
  | error e =>
    show opsOf (log ++ [⟨q, .error e⟩]) = []
    simp only [opsOf, List.filterMap_append, List.filterMap_cons, hq e]
    exact (List.append_nil _).trans hnone

theorem concludes_signup (body : Val) : (AuthRequest.signup body).calls.Ensures [] (signup env body)
    (Concludes env (.signup body)) := by
  refine concludes_guarded ?_
  split
  · exact .refused (by decide) (fun _ _ _ h => by cases h) rfl
  rw [authProp]
  cases hget : get body "email" with
  | none => exact (rfl : opsOf [] = [])
  | some email =>
    have hemail : getOpt body "email" = email := by rw [getOpt, hget, Option.getD_some]
    rw [Prog.mk_pure_bind]
    refine tried_read_bind (fun r => rfl) trivial rfl fun existingUser hnone => ?_
    split
    · exact concludes_error (by decide) hnone
    refine tried_read_bind (fun r => rfl) trivial hnone fun hashedPassword hnone => ?_
    have hhash : (⟨.hash (getOpt body "password"), .ok hashedPassword⟩ : AuthCall) ∈
      [] ++ [⟨.userFindUnique email, .ok existingUser⟩] ++ [⟨.hash (getOpt body "password"), .ok hashedPassword⟩] :=
      List.mem_append_right _ (List.mem_singleton_self _)
    refine tried_change_bind (fun e => rfl) (Or.inl ⟨body, _, rfl, hemail.symm, hhash, rfl, rfl⟩) hnone fun u => ?_
    exact .opened (.signup (List.mem_append_left _ hhash)
      (hemail ▸ List.mem_append_right _ (List.mem_singleton_self _)))

theorem concludes_login (body : Val) : (AuthRequest.login body).calls.Ensures [] (login env body)
    (Concludes env (.login body)) := by
  refine concludes_guarded ?_
  split
  · exact .refused (by decide) (fun _ _ _ h => by cases h) rfl
  rw [authProp]
  cases hget : get body "email" with
  | none => exact (rfl : opsOf [] = [])
  | some email =>
    have hemail : getOpt body "email" = email := by rw [getOpt, hget, Option.getD_some]
    rw [Prog.mk_pure_bind]
    refine tried_read_bind (fun r => rfl) trivial rfl fun found hnone => ?_
    cases found with
    | none => exact concludes_error (by decide) hnone
    | some user =>
      dsimp only
      rw [checkPassword]
      cases hstored : user.password.filter (· != "") with
      | none => exact concludes_error (by decide) hnone
      | some hashed =>
        obtain ⟨huser, hne⟩ := Option.filter_eq_some_iff.mp hstored
        refine tried_read_bind (fun r => rfl) trivial hnone fun isMatch hnone => ?_
        cases isMatch with
        | false => exact concludes_error (by decide) hnone
        | true => exact .opened (.login (by simp [hemail]) huser (by simpa using hne) (by simp) hnone)

theorem concludes_googleLogin (body : Val) :
    (AuthRequest.googleLogin body).calls.Ensures [] (googleLogin env body) (Concludes env (.googleLogin body)) := by
  refine concludes_guarded ?_
  rw [authProp]
  cases hget : get body "idToken" with
  | none => exact (rfl : opsOf [] = [])
  | some idToken =>
    obtain rfl : getOpt body "idToken" = idToken := by rw [getOpt, hget, Option.getD_some]
    rw [Prog.mk_pure_bind]
    split
    · exact concludes_error (by decide) rfl
    refine tried_read_bind (fun r => rfl) trivial rfl fun found hnone => ?_
    cases found with
    | none => exact concludes_error (by decide) hnone
    | some payload =>
      dsimp only
      rw [signInWithGoogle]
      cases hfilter : payload.email.filter (· != "") with
      | none => exact concludes_error (by decide) hnone
      | some email =>
        have hemail : payload.email.map Json.str = some (.str email) := by
          rw [(Option.filter_eq_some_iff.mp hfilter).1, Option.map_some]
        have hverified : (⟨.verifyIdToken (getOpt body "idToken"), .ok (some payload)⟩ : AuthCall) ∈
          [] ++ [⟨.verifyIdToken (getOpt body "idToken"), .ok (some payload)⟩] := List.mem_singleton_self _
        dsimp only
        rw [googleAccount, Prog.bind_assoc']
        refine tried_read_bind (fun r => rfl) trivial hnone fun found hnone => ?_
        have hverified := List.mem_append_left [(⟨.userFindUnique (some (.str email)), .ok found⟩ : AuthCall)] hverified
        cases found with
        | none =>
          refine tried_change_bind (fun e => rfl)
            (Or.inr ⟨body, payload, rfl, hverified, hemail.symm, rfl, rfl⟩) hnone fun u => ?_
          exact .opened (.created (List.mem_append_left _ hverified)
            (hemail ▸ List.mem_append_right _ (List.mem_singleton_self _)))
        | some user =>
          have hfound : (⟨.userFindUnique (payload.email.map .str), .ok (some user)⟩ : AuthCall) ∈
            [] ++ [⟨.verifyIdToken (getOpt body "idToken"), .ok (some payload)⟩] ++
              [⟨.userFindUnique (some (.str email)), .ok (some user)⟩] :=
            hemail ▸ List.mem_append_right _ (List.mem_singleton_self _)
          dsimp only
          rw [linkAccount]
          split
          · rename_i hfree
            refine tried_change_bind (fun e => rfl)
              ⟨body, payload, user, rfl, hverified, rfl, hfound, rfl, hfree⟩ hnone
              fun v => ?_
            exact .opened (.link (List.mem_append_left _ hverified) (List.mem_append_left _ hfound)
              (List.mem_append_right _ (List.mem_singleton_self _)))
          · exact .opened (.linked hverified hfound hnone)

theorem concludes_handle (req : AuthRequest) : req.calls.Ensures [] (authHandle env req) (Concludes env req) := by
  cases req with
  | signup body => exact concludes_signup body
  | login body => exact concludes_login body
  | googleLogin body => exact concludes_googleLogin body

end Handlers

/-! ### Runs -/

/-- The operations of a run, with the numbers of their requests. -/
def accountEffects (es : List AuthEvent) : List (Nat × AccountOp) := effects (fun _ a => AuthQuery.op? a) es

/-- What a request that performs an operation has to do with it. -/
def AuthRequest.AsksFor (req : AuthRequest) (log : List AuthCall) : AccountOp → Prop
  | .create _ a =>
    (∃ body hashed, req = .signup body ∧ getOpt body "email" = some (.str a.email) ∧
      ⟨.hash (getOpt body "password"), .ok hashed⟩ ∈ log ∧ a.password = some hashed ∧ a.subject = none) ∨
    ∃ body payload, req = .googleLogin body ∧ ⟨.verifyIdToken (getOpt body "idToken"), .ok (some payload)⟩ ∈ log ∧
      payload.email = some a.email ∧ a.password = none ∧ a.subject = some payload.sub
  | .link id subject => ∃ body payload, ∃ u : User, req = .googleLogin body ∧
      ⟨.verifyIdToken (getOpt body "idToken"), .ok (some payload)⟩ ∈ log ∧ payload.sub = subject ∧
      ⟨.userFindUnique (some (.str u.email)), .ok (some u)⟩ ∈ log ∧ payload.email = some u.email ∧ u.id = id ∧
      u.googleId.getD "" = ""

/-- What request `i`, which is answered with a session token for account `id`, has shown. A sign-up has created the
    account, which may have been linked since. -/
def AuthRequest.Shows (es : List AuthEvent) (i : Nat) (req : AuthRequest)
    (log : List AuthCall) (status : Nat) (id : String) (a : Account) : Prop :=
  match req with
  | .signup body => status = 201 ∧ (i, .create id { a with subject := none }) ∈ accountEffects es ∧
      getOpt body "email" = some (.str a.email) ∧
      ∃ hashed, a.password = some hashed ∧ ⟨.hash (getOpt body "password"), .ok hashed⟩ ∈ log
  | .login body => status = 200 ∧ getOpt body "email" = some (.str a.email) ∧
      ∃ hashed, a.password = some hashed ∧ hashed ≠ "" ∧ ⟨.compare (getOpt body "password") hashed, .ok true⟩ ∈ log
  | .googleLogin body => status = 200 ∧
      ∃ payload, ⟨.verifyIdToken (getOpt body "idToken"), .ok (some payload)⟩ ∈ log ∧ payload.email = some a.email

section Runs
variable {env : AuthEnv} {c₀ c c' : AuthServer} {es : List AuthEvent} {e : AuthEvent}

theorem AuthRun.performs (hstart : c₀.sessions = []) (run : AuthRun env c₀ es c) :
    registry.run c₀.shared.registry ((accountEffects es).map (·.2)) = some c.shared.registry := by
  have hperforms : ∃ R, registry.run c₀.shared.registry ((accountEffects es).map (·.2)) = some R ∧
    c.shared.registry = R := by
    refine Run.performs (R := fun R c => c.shared.registry = R) hstart rfl run fun {es c c' e R} _ step hR => ?_
    cases step with
    | spawn req => exact hR
    | stall hx hp ha => exact ha.elim
    | @act i x q k r db' p' hx hp ha =>
      have hop := (AuthAct.performs ha).1
      simp only [Event.effect?, List.getElem?_map, hx, Option.map_some, Option.bind_some]
      cases ho : AuthQuery.op? ⟨q, r⟩ with
      | none =>
        rw [ho] at hop
        exact hop.trans hR
      | some o =>
        rw [ho] at hop
        exact ⟨_, hR ▸ hop, rfl⟩
  obtain ⟨R, hR, rfl⟩ := hperforms
  exact hR

theorem AuthRun.concludes (hstart : c₀.sessions = []) (run : AuthRun env c₀ es c) :
    ∀ x ∈ c.sessions, x.tag.calls.Ensures x.log x.prog (Concludes env x.tag) := by
  intro x hx
  have hends := Run.ensures (T := fun _ => True) AuthRequest.calls (fun _ => []) run
    (fun req _ => concludes_handle req)
    (fun s hs => by rw [hstart] at hs; cases hs) x hx trivial
  rwa [AuthRequest.calls, after_transcript] at hends

/-- Every answer that a request has had is still true. -/
theorem AuthRun.confirms (hstart : c₀.sessions = []) (run : AuthRun env c₀ es c) :
    ∀ x ∈ c.sessions, ∀ a ∈ x.log, c.shared.registry.Confirms a := by
  induction run with
  | nil =>
    rw [hstart]
    exact fun x hx => by cases hx
  | snoc run step ih =>
    intro x' hx' a ha
    cases step with
    | spawn req =>
      rcases List.mem_append.mp hx' with hx' | hx'
      · exact ih x' hx' a ha
      · obtain rfl := List.mem_singleton.mp hx'
        cases ha
    | stall hx hp hact => exact hact.elim
    | @act i x q k r db' p' hx hp hact =>
      rcases List.mem_or_eq_of_mem_set hx' with hx' | rfl
      · exact (ih x' hx' a ha).keep (AuthAct.keeps hact)
      · rcases List.mem_append.mp ha with ha | ha
        · exact (ih x (List.mem_of_getElem? hx) a ha).keep (AuthAct.keeps hact)
        · obtain rfl := List.mem_singleton.mp ha
          exact (AuthAct.performs hact).2

theorem AuthRun.once (hstart : c₀.sessions = []) (run : AuthRun env c₀ es c) :
    ∀ x ∈ c.sessions, (opsOf x.log).length ≤ 1 := by
  intro x hx
  have honce := Run.monitored (P := fun _ log => (opsOf log).length ≤ 1) AuthRequest.calls (fun _ => []) hstart
    (fun req => (concludes_handle req).mono fun _ _ _ => trivial) (fun _ => Nat.zero_le 1)
    (fun req log q r _ hq => by
      show (opsOf (log ++ [⟨q, r⟩])).length ≤ 1
      rw [opsOf, List.filterMap_append, show log.filterMap AuthQuery.op? = [] from hq.1]
      exact (List.length_filterMap_le _ _).trans (le_refl 1)) run x hx
  rwa [AuthRequest.calls, after_transcript] at honce

/-- The values of every call that changes accounts come from where its request has them. -/
theorem AuthRun.means (hstart : c₀.sessions = []) (run : AuthRun env c₀ es c) :
    ∀ x ∈ c.sessions, ∀ a ∈ x.log, x.tag.Means x.log a.1 := by
  intro x hx
  have grow : ∀ (req : AuthRequest) (log : List AuthCall) (a : AuthCall) (q : AuthQuery),
    req.Means log q → req.Means (log ++ [a]) q := by
    intro req log a q h
    unfold AuthRequest.Means at h ⊢
    split at h
    · rcases h with ⟨body, hashed, hreq, he, hh, hp, hg⟩ | ⟨body, payload, hreq, hv, he, hp, hg⟩
      · exact Or.inl ⟨body, hashed, hreq, he, List.mem_append_left _ hh, hp, hg⟩
      · exact Or.inr ⟨body, payload, hreq, List.mem_append_left _ hv, he, hp, hg⟩
    · obtain ⟨body, payload, u, hreq, hv, hg, hf, hid, hfree⟩ := h
      exact ⟨body, payload, u, hreq, List.mem_append_left _ hv, hg, List.mem_append_left _ hf, hid, hfree⟩
    · trivial
  have hmeans := Run.monitored (P := fun req log => ∀ a ∈ log, req.Means log a.1) AuthRequest.calls
    (fun _ => []) hstart
    (fun req => (concludes_handle req).mono fun _ _ _ => trivial) (fun _ _ h => by cases h)
    (fun req log q r hlog hq a ha => by
      rcases List.mem_append.mp ha with ha | ha
      · exact grow req log _ _ (hlog a ha)
      · obtain rfl := List.mem_singleton.mp ha
        exact grow req log _ _ hq.2) run x hx
  rwa [AuthRequest.calls, after_transcript] at hmeans

theorem mem_accountEffects (hstart : c₀.sessions = []) (run : AuthRun env c₀ es c) {i : Nat} {x : AuthSession}
    (hx : c.sessions[i]? = some x) {o : AccountOp} : (i, o) ∈ accountEffects es ↔ o ∈ opsOf x.log := by
  rw [accountEffects, Run.effect_mem hstart run, Config.opsOf, hx]
  rfl

/-- What an operation is, by what its call was for and what its answer said. -/
theorem asksFor_of_call {req : AuthRequest} {log : List AuthCall} {R : Registry} {a : AuthCall} {o : AccountOp}
    (ho : AuthQuery.op? a = some o) (hmeans : req.Means log a.1) (htrue : R.Confirms a)
    (hlog : ∀ a ∈ log, R.Confirms a) :
    req.AsksFor log o := by
  obtain ⟨q, r⟩ := a
  cases q with
  | verifyIdToken _ | hash _ | compare _ _ | userFindUnique _ => cases ho
  | userCreate email password googleId provider =>
    cases r with
    | error e => cases ho
    | ok u =>
      cases ho
      obtain ⟨he, hpassword, hsub, -⟩ := htrue
      rcases hmeans with ⟨body, hashed, hreq, hemail, hhash, hp, hg⟩ | ⟨body, payload,
        hreq, hverified, hemail, hp, hg⟩
      · exact Or.inl ⟨body, hashed, hreq, hemail ▸ he, hhash, hpassword.trans hp, hsub.trans hg⟩
      · refine Or.inr ⟨body, payload, hreq, hverified, ?_, hpassword.trans hp, hsub.trans hg⟩
        rw [he] at hemail
        obtain ⟨e, hpayload, heq⟩ := Option.map_eq_some_iff.mp hemail.symm
        rw [hpayload]
        exact congrArg some (Json.str.inj heq)
  | userUpdate id googleId =>
    cases r with
    | error e => cases ho
    | ok v =>
      cases ho
      obtain ⟨body, payload, u, hreq, hverified, hg, hfound, hid, hfree⟩ := hmeans
      have hemail : payload.email.map Json.str = some (.str u.email) := (hlog _ hfound).1
      obtain ⟨e, hpayload, heq⟩ := Option.map_eq_some_iff.mp hemail
      rw [hemail] at hfound
      exact ⟨body, payload, u, hreq, hverified, hg.symm, hfound,
        hpayload.trans (congrArg some (Json.str.inj heq)), hid, hfree⟩

/-- What was answered with a user says that the accounts have it. -/
theorem Credential.shows {log : List AuthCall} {req : AuthRequest} {status i : Nat} {u : User} {R : Registry}
    (h : Credential log req status u) (hlog : ∀ a ∈ log, R.Confirms a)
    (hops : ∀ o ∈ opsOf log, (i, o) ∈ accountEffects es) :
    ∃ a, R u.id = some a ∧ a.email = u.email ∧ a.createdAt = u.createdAt ∧ req.Shows es i log status u.id a := by
  have shown : ∀ {payload : GooglePayload} {v : User},
    ⟨.userFindUnique (payload.email.map .str), .ok (some v)⟩ ∈ log →
      payload.email = some v.email := by
    intro payload v hfound
    obtain ⟨e, hpayload, heq⟩ := Option.map_eq_some_iff.mp (hlog _ hfound).1
    exact hpayload.trans (congrArg some (Json.str.inj heq))
  cases h with
  | signup hhash hcreate =>
    obtain ⟨hemail, hpassword, hsubject, g, hg⟩ := hlog _ hcreate
    have hcreated : (i, .create u.id u.account) ∈ accountEffects es :=
      hops _ (List.mem_filterMap.mpr ⟨_, hcreate, rfl⟩)
    rw [User.account, hsubject] at hcreated
    exact ⟨_, hg, rfl, rfl, rfl, hcreated, hemail, _, hpassword, hhash⟩
  | login hfound hstored hne hcompare hnone =>
    obtain ⟨hemail, g, hg⟩ := hlog _ hfound
    exact ⟨_, hg, rfl, rfl, rfl, hemail, _, hstored, hne, hcompare⟩
  | linked hverified hfound hnone =>
    obtain ⟨-, g, hg⟩ := hlog _ hfound
    exact ⟨_, hg, rfl, rfl, rfl, _, hverified, shown hfound⟩
  | @link body payload v u hverified hfound hlink =>
    obtain ⟨hid, -, g, hg⟩ := hlog _ hlink
    obtain ⟨-, g', hg'⟩ := hlog _ hfound
    -- the answers are about one account, so its address is the payload's
    rw [← hid, hg] at hg'
    have hemail : u.email = v.email := congrArg Account.email (Option.some.inj hg')
    exact ⟨_, hg, rfl, rfl, rfl, payload, hverified, (shown hfound).trans (congrArg some hemail.symm)⟩
  | created hverified hcreate =>
    obtain ⟨hemail, -, -, g, hg⟩ := hlog _ hcreate
    obtain ⟨e, hpayload, heq⟩ := Option.map_eq_some_iff.mp hemail
    exact ⟨_, hg, rfl, rfl, rfl, _, hverified, hpayload.trans (congrArg some (Json.str.inj heq))⟩

/-- An ended request: what it did, and the account that it signed in to. -/
theorem AuthRun.concluded (hstart : c₀.sessions = []) (run : AuthRun env c₀ es c)
    {x : AuthSession} (hx : x ∈ c.sessions) {response : AuthResponse} (hp : x.prog = .pure response) :
    Concludes env x.tag x.log (.ok response) := by
  have hends := AuthRun.concludes hstart run x hx
  rwa [hp] at hends

theorem AuthRun.distinct (hdistinct : c₀.shared.registry.Distinct)
    (hstart : c₀.sessions = []) (run : AuthRun env c₀ es c) :
    c.shared.registry.Distinct :=
  Object.run_keeps (fun _ _ _ hR ho => registry_distinct hR ho) hdistinct (AuthRun.performs hstart run)

end Runs

/-! ### Schedules -/

inductive AuthMove where
  | arrive (req : AuthRequest)
  | answer (i : Nat) (w : AuthWorld)

namespace AuthServer

def move (env : AuthEnv) (c : AuthServer) : AuthMove → List AuthEvent × AuthServer
  | .arrive req => ([.spawn req], ⟨c.shared, c.sessions ++ [fresh (authHandle env) () req]⟩)
  | .answer i w => match c.sessions[i]? with
    | none => ([], c)
    | some s => match s.prog with
      | .call q k =>
        let out := authAnswer w c.shared q
        ([.act i ⟨q, out.1⟩], ⟨out.2, c.sessions.set i ⟨s.tag, (), k out.1, s.log ++ [⟨q, out.1⟩]⟩⟩)
      | .pure _ | .throw _ => ([], c)

def play (env : AuthEnv) : AuthServer → List AuthMove → List AuthEvent × AuthServer
  | c, [] => ([], c)
  | c, m :: ms =>
    let next := move env c m
    let out := play env next.2 ms
    (next.1 ++ out.1, out.2)

/-- Every state that a schedule moves on from satisfies `P`. -/
def playable (P : AuthServer → Bool) (env : AuthEnv) : AuthServer → List AuthMove → Bool
  | _, [] => true
  | c, m :: ms => P c && playable P env (move env c m).2 ms

section Play
variable {P : AuthServer → Bool} (env : AuthEnv)

theorem move_run {c : AuthServer} (m : AuthMove) (hP : P c = true) :
    RunWhere authServer (authHandle env) () (fun c _ => P c = true) c (move env c m).1 (move env c m).2 := by
  cases m with
  | arrive req => exact .snoc .nil (.spawn c req) hP
  | answer i w =>
    cases hs : c.sessions[i]? with
    | none => simpa [move, hs] using RunWhere.nil
    | some s =>
      cases hp : s.prog with
      | pure r => simpa [move, hs, hp] using RunWhere.nil
      | throw e => simpa [move, hs, hp] using RunWhere.nil
      | call q k =>
        simp only [move, hs, hp]
        exact .snoc .nil (.act hs hp (.answered w)) hP

/-- A schedule is a run. -/
theorem play_run (ms : List AuthMove) : ∀ {c : AuthServer}, playable P env c ms = true →
    RunWhere authServer (authHandle env) () (fun c _ => P c = true) c (play env c ms).1 (play env c ms).2 := by
  induction ms with
  | nil => exact fun _ => .nil
  | cons m ms ih =>
    intro c h
    obtain ⟨hP, hrest⟩ := Bool.and_eq_true_iff.mp h
    exact (move_run env m hP).trans (ih hrest)

end Play

/-- What request `i` was answered. -/
def answer? (c : AuthServer) (i : Nat) : Option AuthResponse := (c.sessions[i]?).bind fun x => match x.prog with
  | .pure response => some response
  | .throw _ | .call _ _ => none

theorem answer?_eq_some {c : AuthServer} {i : Nat} {response : AuthResponse} :
    answer? c i = some response ↔ ∃ x, c.sessions[i]? = some x ∧ x.prog = .pure response := by
  rw [answer?, Option.bind_eq_some_iff]
  refine exists_congr fun x => and_congr_right fun _ => ?_
  cases x.prog <;> simp

end AuthServer

/-- Nobody has an account yet. -/
def noAccounts : AuthServer := ⟨.empty, []⟩

theorem subject_ne (n : String) : "g" ++ n ≠ "" := fun h => by simpa using congrArg String.toList h

/-- Passwords are stored as they are, and Google signs whatever it is shown. -/
def trustingWorld (uuid n : String) : AuthWorld where
  now := 0
  uuid := uuid
  verifyIdToken _ := .ok (some ⟨"g" ++ n, subject_ne n, some "ann@slideo.ai"⟩)
  hash := id
  compare p hashed := p == hashed

def trustingOffice : AuthEnv where
  validSignup _ := true
  validLogin _ := true
  sign user := user.id

theorem noAccounts_distinct : noAccounts.shared.registry.Distinct where
  emails _ _ _ _ h := by cases h
  subjects _ _ _ _ _ h := by cases h

/-! ### The accounts are linearizable -/

section Linear
variable {env : AuthEnv} {c₀ c : AuthServer} {es : List AuthEvent}

/-- In every run the operations of the requests, in the order in which they take effect, lead the registry from
    the accounts at the start to those of the table, and keep them distinct. A request performs at most one,
    with the values that it was given; one that is answered 201 has performed it, and one that is answered
    with an error has not. -/
theorem accounts_linearizable (hstart : c₀.sessions = [])
    (hdistinct : c₀.shared.registry.Distinct) (run : AuthRun env c₀ es c) :
    registry.run c₀.shared.registry ((accountEffects es).map (·.2)) = some c.shared.registry ∧
    c.shared.registry.Distinct ∧
    ((accountEffects es).map (·.1)).Nodup ∧
    (∀ i o, (i, o) ∈ accountEffects es → ∃ x, c.sessions[i]? = some x ∧ x.tag.AsksFor x.log o) ∧
    ∀ (i : Nat) (x : AuthSession) (response : AuthResponse), c.sessions[i]? = some x → x.prog = .pure response →
      (400 ≤ response.status → i ∉ (accountEffects es).map (·.1)) ∧
      (response.status = 201 → i ∈ (accountEffects es).map (·.1)) := by
  refine ⟨AuthRun.performs hstart run, AuthRun.distinct hdistinct hstart run,
    Run.effects_once hstart run (AuthRun.once hstart run), fun i o ho => ?_, fun i x response hx hp => ?_⟩
  · cases hx : c.sessions[i]? with
    | none =>
      rw [accountEffects, Run.effect_mem hstart run, Config.opsOf, hx] at ho
      cases ho
    | some x =>
      have hmem := List.mem_of_getElem? hx
      obtain ⟨a, ha, hop⟩ := List.mem_filterMap.mp ((mem_accountEffects hstart run hx).mp ho)
      have htrue := AuthRun.confirms hstart run x hmem
      exact ⟨x, rfl, asksFor_of_call hop (AuthRun.means hstart run x hmem a ha) (htrue a ha) htrue⟩
  · have hperformed : i ∈ (accountEffects es).map (·.1) ↔ ∃ o, o ∈ opsOf x.log := by
      rw [List.mem_map]
      constructor
      · rintro ⟨⟨j, o⟩, ho, rfl⟩
        exact ⟨o, (mem_accountEffects hstart run hx).mp ho⟩
      · rintro ⟨o, ho⟩
        exact ⟨(i, o), (mem_accountEffects hstart run hx).mpr ho, rfl⟩
    rw [hperformed]
    cases AuthRun.concluded hstart run (List.mem_of_getElem? hx) hp with
    | refused hstatus hbody hnone =>
      rw [hnone]
      refine ⟨fun _ => by simp, fun hcreated => ?_⟩
      omega
    | @opened status u h =>
      generalize x.tag = req at h
      cases h with
      | signup hhash hcreate =>
        exact ⟨fun hstatus => by simp at hstatus, fun _ => ⟨_, List.mem_filterMap.mpr ⟨_, hcreate, rfl⟩⟩⟩
      | login | linked | link | created => exact ⟨fun hstatus => by simp at hstatus,
        fun hstatus => by simp at hstatus⟩

end Linear

def annBody (password : String) : Val := some (.obj [("email", .str "ann@slideo.ai"), ("password", .str password)])

/-- `ann` signs up twice at the same time, and logs in. -/
def signUpTwice : List AuthMove :=
  let w := trustingWorld "ann" "1"
  let w' := trustingWorld "ann2" "1"
  [.arrive (.signup (annBody "secret")), .arrive (.signup (annBody "Secret")), .answer 0 w,
    .answer 1 w', .answer 0 w, .answer 1 w',
    .answer 1 w', .answer 0 w, .arrive (.login (annBody "Secret")), .answer 2 w, .answer 2 w]

theorem one_of_two_sign_ups :
    ∃ es c, AuthRun trustingOffice noAccounts es c ∧ c.sessions.all (·.prog.ended) = true ∧
      (accountEffects es).map (·.1) = [1] ∧
      registry.run noAccounts.shared.registry ((accountEffects es).map (·.2)) = some c.shared.registry := by
  have run := AuthServer.play_run (P := fun _ => true) trustingOffice signUpTwice
    (c := noAccounts) (by decide +kernel)
  obtain ⟨hrun, -⟩ := accounts_linearizable rfl noAccounts_distinct run.run
  exact ⟨_, _, run.run, by decide +kernel, by decide +kernel, hrun⟩

/-! ### Session tokens -/

section Tokens
variable {env : AuthEnv} {c₀ c : AuthServer} {es : List AuthEvent}

/-- In every run each session token is about an account of the table, for a request that has created it, or has
    shown the password or a payload with the address of the account; an address names one account, and of all
    sign-ups with one address at most one is answered 201. -/
theorem sessions_authenticated (hstart : c₀.sessions = [])
    (hdistinct : c₀.shared.registry.Distinct) (run : AuthRun env c₀ es c) :
    (∀ (i : Nat) (x : AuthSession) (status : Nat) (user : AuthUser) (createdAt : Time) (token : String),
      c.sessions[i]? = some x → x.prog = .pure ⟨status, .session user createdAt token⟩ →
      token = env.sign user ∧ ∃ a, c.shared.registry user.id = some a ∧
      a.email = user.email ∧ a.createdAt = createdAt ∧
        x.tag.Shows es i x.log status user.id a) ∧
    ∀ (i j : Nat) (x y : AuthSession) (status status' : Nat) (user user' : AuthUser) (createdAt createdAt' : Time)
      (token token' : String), c.sessions[i]? = some x → x.prog = .pure ⟨status, .session user createdAt token⟩ →
      c.sessions[j]? = some y → y.prog = .pure ⟨status', .session user' createdAt' token'⟩ →
      user.email = user'.email →
      user.id = user'.id ∧ createdAt = createdAt' ∧ (status = 201 → status' = 201 → i = j) := by
  have opened : ∀ (x : AuthSession) (status : Nat) (user : AuthUser) (createdAt : Time) (token : String),
    x ∈ c.sessions →
      x.prog = .pure ⟨status, .session user createdAt token⟩ → ∃ u : User, Credential x.log x.tag status u ∧
        user = ⟨u.id, u.email⟩ ∧ createdAt = u.createdAt ∧ token = env.sign user := by
    intro x status user createdAt token hx hp
    have hconcludes := AuthRun.concluded hstart run hx hp
    generalize hresponse : (⟨status, .session user createdAt token⟩ : AuthResponse) = response at hconcludes
    cases hconcludes with
    | refused hstatus hbody hnone =>
      subst hresponse
      exact absurd rfl (hbody user createdAt token)
    | opened h =>
      cases hresponse
      exact ⟨_, h, rfl, rfl, rfl⟩
  refine ⟨fun i x status user createdAt token hx hp => ?_,
    fun i j x y status status' user user' createdAt createdAt' token token' hx hpx hy hpy hemail => ?_⟩
  · have hmem := List.mem_of_getElem? hx
    obtain ⟨u, hcred, rfl, rfl, rfl⟩ := opened x status user createdAt token hmem hp
    exact ⟨rfl, hcred.shows (AuthRun.confirms hstart run x hmem) fun o => (mem_accountEffects hstart run hx).mpr⟩
  · obtain ⟨u, hcred, rfl, rfl, -⟩ := opened x status user createdAt token (List.mem_of_getElem? hx) hpx
    obtain ⟨u', hcred', rfl, rfl, -⟩ := opened y status' user' createdAt' token' (List.mem_of_getElem? hy) hpy
    obtain ⟨a, ha, haemail, hacreated, -⟩ := hcred.shows (AuthRun.confirms hstart run x (List.mem_of_getElem? hx))
      fun o => (mem_accountEffects hstart run hx).mpr
    obtain ⟨b, hb, hbemail, hbcreated, -⟩ := hcred'.shows (AuthRun.confirms hstart run y (List.mem_of_getElem? hy))
      fun o => (mem_accountEffects hstart run hy).mpr
    have hid : u.id = u'.id := (AuthRun.distinct hdistinct hstart run).emails _ _ a b ha hb
      (haemail.trans (Eq.trans hemail hbemail.symm))
    obtain rfl : a = b := Option.some.inj (ha.symm.trans (hid ▸ hb))
    refine ⟨hid, hacreated.symm.trans hbcreated, fun hstatus hstatus' => ?_⟩
    subst hstatus hstatus'
    -- both have created the account, which happens once
    have created : ∀ {i : Nat} {x : AuthSession} {u : User},
      c.sessions[i]? = some x → Credential x.log x.tag 201 u →
        (i, .create u.id u.account) ∈ accountEffects es := by
      intro i x u hx hcred
      generalize x.tag = req at hcred
      cases hcred with
      | signup hhash hcreate =>
        exact (mem_accountEffects hstart run hx).mpr (List.mem_filterMap.mpr ⟨_, hcreate, rfl⟩)
    have honce := List.pairwise_map.mp (registry_creates_once (AuthRun.performs hstart run))
    have : Std.Symm fun x y : Nat × AccountOp => ¬ x.2.Clash y.2 := ⟨by
      rintro x y hclash ⟨id, a, b, ho, ho'⟩
      exact hclash ⟨id, b, a, ho', ho⟩⟩
    by_contra hij
    exact honce.forall (created hx hcred) (created hy hcred') (fun h => hij (congrArg Prod.fst h))
      ⟨u.id, u.account, u'.account, rfl, by rw [hid]⟩

end Tokens

theorem ann_signs_in :
    ∃ es c x y a, AuthRun trustingOffice noAccounts es c ∧ c.shared.registry "ann2" = some a ∧
      c.sessions[1]? = some x ∧ x.prog = .pure ⟨201, .session ⟨"ann2", "ann@slideo.ai"⟩ 0 "ann2"⟩ ∧
      x.tag.Shows es 1 x.log 201 "ann2" a ∧
      c.sessions[2]? = some y ∧ y.prog = .pure ⟨200, .session ⟨"ann2", "ann@slideo.ai"⟩ 0 "ann2"⟩ ∧
      y.tag.Shows es 2 y.log 200 "ann2" a := by
  have run := AuthServer.play_run (P := fun _ => true) trustingOffice signUpTwice
    (c := noAccounts) (by decide +kernel)
  have hcreated : AuthServer.answer? (AuthServer.play trustingOffice noAccounts signUpTwice).2 1 =
      some ⟨201, .session ⟨"ann2", "ann@slideo.ai"⟩ 0 "ann2"⟩ := by decide +kernel
  have hanswer : AuthServer.answer? (AuthServer.play trustingOffice noAccounts signUpTwice).2 2 =
      some ⟨200, .session ⟨"ann2", "ann@slideo.ai"⟩ 0 "ann2"⟩ := by decide +kernel
  obtain ⟨x, hx, hpx⟩ := AuthServer.answer?_eq_some.mp hcreated
  obtain ⟨y, hy, hpy⟩ := AuthServer.answer?_eq_some.mp hanswer
  obtain ⟨htokens, -⟩ := sessions_authenticated rfl noAccounts_distinct run.run
  obtain ⟨-, a, ha, -, -, hshown⟩ := htokens 1 x _ _ _ _ hx hpx
  obtain ⟨-, b, hb, -, -, hshown'⟩ := htokens 2 y _ _ _ _ hy hpy
  obtain rfl : a = b := Option.some.inj (ha.symm.trans hb)
  exact ⟨_, _, x, y, a, run.run, ha, hx, hpx, hshown, hy, hpy, hshown'⟩

end Slideo
