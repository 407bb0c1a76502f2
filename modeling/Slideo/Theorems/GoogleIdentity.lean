import Slideo.Theorems.Accounts

/-! Google identities and accounts. A login looks its account up by e-mail address, links an account that has
    no Google subject yet, and does not compare the subject of one that has. So a user belongs to one
    subject, and a subject to one user, exactly as long as no linked account is met by another subject. -/

namespace Slideo
open Js

/-! ### Every run -/

/-- A login of the subject is answered with a session token for the user. -/
def AuthStep.SignsIn (env : AuthEnv) (x : AuthStep) (db : Db) (sub id : String) : Prop :=
  (∃ payload, x.payload? = some payload ∧ payload.sub = sub) ∧
    ∃ user createdAt token, (x.serve env db).result = .ok ⟨200, .session user createdAt token⟩ ∧ user.id = id

/-- Whoever gets a session token by a Google login is then linked to its subject. -/
def AuthStep.Binds (env : AuthEnv) (x : AuthStep) (db : Db) : Prop :=
  ∀ sub id, x.SignsIn env db sub id → ∃ u, (x.serve env db).state.users.find? id = some u ∧ u.googleId = some sub

/-- The account with the e-mail address of the payload is not linked to another subject. -/
def AuthStep.OwnAccount (x : AuthStep) (db : Db) : Prop :=
  ∀ payload email u, x.payload? = some payload → payload.email = some email → email ≠ "" →
    db.userByEmail? email = some u → u.googleId = none ∨ u.googleId = some payload.sub

section Runs
variable {env : AuthEnv} {x : AuthStep} {db : Db}

/-- Only Google logins have a payload. -/
theorem serve_of_payload (env : AuthEnv) {payload : GooglePayload} (h : x.payload? = some payload) (db : Db) :
    ∃ response, (x.serve env db).result = .ok response ∧
    GoogleAnswer env x.payload? db response (x.serve env db).state := by
  obtain ⟨ws, req⟩ := x
  cases req with
  | signup body => cases h
  | login body => cases h
  | googleLogin body =>
    obtain ⟨response, db', log, hrun, hgoogle⟩ := run_googleLogin env ws db body
    rw [AuthStep.serve, authHandle, hrun]
    exact ⟨response, rfl, hgoogle⟩

theorem mem_of_serve {payload : GooglePayload} {r : Except Err User} {db' : Db} {email : String}
    (h : Accounted db payload.sub email r db') {u : User} (hr : r = .ok u)
    (hown : ∀ v, db.userByEmail? email = some v →
      v.googleId = none ∨ v.googleId = some payload.sub) :
    ∃ v, db'.users.find? u.id = some v ∧ v.googleId = some payload.sub := by
  cases h with
  | refused => cases hr
  | found v hv hlinked =>
    cases hr
    rcases hown _ hv with hnone | hsub
    · rw [hnone] at hlinked
      exact absurd rfl hlinked
    · exact ⟨_, Table.find?_of_mem (mem_of_userByEmail? hv).1, hsub⟩
  | linked v at_ hv hfree _ =>
    cases hr
    exact ⟨_, find?_patchUser_self (Table.find?_of_mem (mem_of_userByEmail? hv).1), rfl⟩
  | created v hsub hid _ _ _ _ =>
    cases hr
    have hrows : (db.apply (.insertUser u)).users.rows = db.users.rows ++ [u] := Table.insert_rows hid
    have hmem : u ∈ (db.apply (.insertUser u)).users.rows := by
      rw [hrows]
      exact List.mem_append_right _ (List.mem_singleton_self _)
    exact ⟨u, Table.find?_of_mem hmem, hsub⟩

theorem ownAccount_of_binds (inv : UsersInv db) (hbinds : x.Binds env db) : x.OwnAccount db := by
  intro payload email u hpayload hemail hne hu
  obtain ⟨response, hresult, hgoogle⟩ := serve_of_payload env hpayload db
  have hfilter : payload.email.filter (· != "") = some email := by simp [hemail, hne]
  obtain ⟨hmem, hu'⟩ := mem_of_userByEmail? hu
  by_contra hother
  push Not at hother
  obtain ⟨g, hg⟩ := Option.ne_none_iff_exists'.mp hother.1
  have hlinked : u.googleId.getD "" ≠ "" := by
    rw [hg]
    exact fun h => inv.named u hmem (hg.trans (congrArg some h))
  generalize hstate : (x.serve env db).state = db' at hgoogle
  cases hgoogle with
  | refused status message _ hnone =>
    rw [hnone payload hpayload] at hfilter
    cases hfilter
  | @accounted payload' email' r _ hpayload' hemail' h =>
    rw [hpayload] at hpayload'
    cases hpayload'
    rw [hfilter] at hemail'
    cases hemail'
    cases h with
    | refused e hfree => exact hlinked (hfree u hu (hu' ▸ inv.storable u hmem))
    | found v hv _ =>
      rw [hu] at hv
      cases hv
      obtain ⟨v, hv, hsub⟩ := hbinds payload.sub u.id ⟨⟨payload, hpayload, rfl⟩, _, _, _, hresult, rfl⟩
      rw [hstate, Table.find?_of_mem hmem] at hv
      cases hv
      exact hother.2 hsub
    | linked v at_ hv hfree _ =>
      rw [hu] at hv
      cases hv
      exact hlinked hfree
    | created v _ _ _ _ _ hnone =>
      rw [hu] at hnone
      cases hnone

theorem binds_of_ownAccount (hown : x.OwnAccount db) : x.Binds env db := by
  rintro sub id ⟨⟨payload, hpayload, rfl⟩, user, createdAt, token, hresult, rfl⟩
  obtain ⟨response, hresponse, hgoogle⟩ := serve_of_payload env hpayload db
  rw [hresult] at hresponse
  generalize (x.serve env db).state = db' at hgoogle ⊢
  cases hgoogle with
  | refused status message _ _ => cases hresponse
  | @accounted payload' email r _ hpayload' hemail h =>
    rw [hpayload] at hpayload'
    cases hpayload'
    cases r with
    | error e => cases hresponse
    | ok u =>
      cases hresponse
      refine mem_of_serve h rfl fun v hv => ?_
      obtain ⟨hemail, hne⟩ := Option.filter_eq_some_iff.mp hemail
      exact hown payload email v hpayload hemail (by simpa using hne) hv

/-- One login binds exactly if its account is not another subject's. -/
theorem binds_iff (inv : UsersInv db) : x.Binds env db ↔ x.OwnAccount db :=
  ⟨ownAccount_of_binds inv, binds_of_ownAccount⟩

/-- Somewhere in the run, the subject got a session token for the user. -/
def SignedIn (env : AuthEnv) (steps : List AuthStep) (sub id : String) : Prop :=
  ∃ past x rest, steps = past ++ x :: rest ∧ x.SignsIn env (accountsAfter env past) sub id

/-- If no account was met by another subject, everyone who signed in is still linked. -/
theorem SignedIn.linked {steps : List AuthStep} {sub id : String}
    (hown : ∀ past x rest, steps = past ++ x :: rest → x.OwnAccount (accountsAfter env past))
    (h : SignedIn env steps sub id) : ∃ u, (accountsAfter env steps).users.find? id = some u ∧
    u.googleId = some sub := by
  induction steps using List.reverseRecOn with
  | nil =>
    obtain ⟨past, x, rest, hsteps, -⟩ := h
    simp at hsteps
  | append_singleton steps y ih =>
    obtain ⟨past, x, rest, hsteps, hsigns⟩ := h
    rw [accountsAfter_snoc]
    rcases List.eq_nil_or_concat rest with rfl | ⟨rest', last, rfl⟩
    · obtain ⟨rfl, hlast⟩ := List.append_inj' hsteps rfl
      cases hlast
      exact (binds_iff (usersInv env steps)).mpr (hown steps y [] rfl) sub id hsigns
    · have hsplit : steps ++ [y] = (past ++ x :: rest') ++ [last] := by simp [hsteps]
      obtain ⟨rfl, hlast⟩ := List.append_inj' hsplit rfl
      cases hlast
      have hbefore : SignedIn env (past ++ x :: rest') sub id := ⟨past, x, rest', rfl, hsigns⟩
      obtain ⟨u, hu, hsub⟩ := ih (fun past' x' rest'' hsteps' =>
        hown past' x' (rest'' ++ [y]) (by simp [hsteps'])) hbefore
      obtain ⟨⟨payload, -, hpayload⟩, -⟩ := hsigns
      exact (serve_change env y _).keeps hu hsub (hpayload ▸ payload.sub_ne)

end Runs

/-- In every run of sign-ups and logins, each Google login binds its account to its subject exactly if no
    login meets an account that is linked to another subject; and then every user is signed in by one
    subject only, and every subject into one account only. -/
theorem google_identity_iff (env : AuthEnv) (steps : List AuthStep) :
    ((∀ past x rest, steps = past ++ x :: rest → x.Binds env (accountsAfter env past)) ↔
      ∀ past x rest, steps = past ++ x :: rest → x.OwnAccount (accountsAfter env past)) ∧
    ((∀ past x rest, steps = past ++ x :: rest → x.OwnAccount (accountsAfter env past)) →
      (∀ sub sub' id, SignedIn env steps sub id → SignedIn env steps sub' id → sub = sub') ∧
      ∀ sub id id', SignedIn env steps sub id → SignedIn env steps sub id' → id = id') := by
  refine ⟨forall_congr' fun past => forall_congr' fun x => forall_congr' fun rest => forall_congr' fun _ =>
    binds_iff (usersInv env past), fun hown => ⟨?_, ?_⟩⟩
  · intro sub sub' id h h'
    obtain ⟨u, hu, hsub⟩ := h.linked hown
    obtain ⟨u', hu', hsub'⟩ := h'.linked hown
    rw [hu] at hu'
    cases hu'
    exact Option.some.inj (hsub.symm.trans hsub')
  · intro sub id id' h h'
    obtain ⟨u, hu, hsub⟩ := h.linked hown
    obtain ⟨u', hu', hsub'⟩ := h'.linked hown
    have hsame := (usersInv env steps).subjects u (Table.mem_of_find? hu) u' (Table.mem_of_find? hu') sub hsub hsub'
    rw [← Table.key_of_find? hu, ← Table.key_of_find? hu', hsame]

/-! ### Two subjects with one address -/

def signInOffice : AuthEnv where
  validSignup _ := true
  validLogin _ := true
  sign user := user.id

/-- A Google login; its account would get the id `uuid`. -/
def googleStep (uuid : String) (payload : GooglePayload) : AuthStep where
  ws _ := ⟨0, uuid, fun _ => .ok (some payload), id, fun _ _ => false⟩
  req := .googleLogin (some (.obj [("idToken", .str "token")]))

def aliceStep : AuthStep := googleStep "alice" ⟨"g1", by decide, some "alice@slideo.ai"⟩

def bobStep : AuthStep := googleStep "bob" ⟨"g2", by decide, some "bob@slideo.ai"⟩

/-- The subject of `bob` with the address of `alice`. -/
def reissuedStep : AuthStep := googleStep "new" ⟨"g2", by decide, some "alice@slideo.ai"⟩

theorem signsIn_of {env : AuthEnv} {x : AuthStep} {db : Db} {payload : GooglePayload}
    {user : AuthUser} {createdAt : Time} {token : String} (hpayload : x.payload? = some payload)
    (h : (x.serve env db).result.toOption = some ⟨200, .session user createdAt token⟩) :
    x.SignsIn env db payload.sub user.id := by
  refine ⟨⟨payload, hpayload, rfl⟩, user, createdAt, token, ?_, rfl⟩
  cases hresult : (x.serve env db).result with
  | error e => rw [hresult] at h; cases h
  | ok response =>
    rw [hresult] at h
    cases h
    rfl

theorem linked_account_changes_hands :
    ∃ past x rest, [aliceStep, bobStep, reissuedStep] = past ++ x :: rest ∧
      ¬ x.Binds signInOffice (accountsAfter signInOffice past) ∧
      SignedIn signInOffice [aliceStep, bobStep, reissuedStep] "g1" "alice" ∧
      SignedIn signInOffice [aliceStep, bobStep, reissuedStep] "g2" "alice" ∧
      SignedIn signInOffice [aliceStep, bobStep, reissuedStep] "g2" "bob" := by
  have halice : (aliceStep.serve signInOffice (accountsAfter signInOffice [])).result.toOption =
      some ⟨200, .session ⟨"alice", "alice@slideo.ai"⟩ 0 "alice"⟩ := by decide +kernel
  have hbob : (bobStep.serve signInOffice (accountsAfter signInOffice [aliceStep])).result.toOption =
      some ⟨200, .session ⟨"bob", "bob@slideo.ai"⟩ 0 "bob"⟩ := by decide +kernel
  have hreissued : (reissuedStep.serve signInOffice
    (accountsAfter signInOffice [aliceStep, bobStep])).result.toOption =
      some ⟨200, .session ⟨"alice", "alice@slideo.ai"⟩ 0 "alice"⟩ := by decide +kernel
  have hlinked : ((reissuedStep.serve signInOffice
    (accountsAfter signInOffice [aliceStep, bobStep])).state.users.find?
      "alice").map (·.googleId) = some (some "g1") := by decide +kernel
  have hsigns : reissuedStep.SignsIn signInOffice (accountsAfter signInOffice [aliceStep, bobStep]) "g2" "alice" :=
    signsIn_of rfl hreissued
  refine ⟨[aliceStep, bobStep], reissuedStep, [], rfl, fun hbinds => ?_, ⟨[], _, _, rfl, signsIn_of rfl halice⟩,
    ⟨[aliceStep, bobStep], _, [], rfl, hsigns⟩, ⟨[aliceStep], _, _, rfl, signsIn_of rfl hbob⟩⟩
  obtain ⟨u, hu, hsub⟩ := hbinds _ _ hsigns
  rw [hu, Option.map_some, hsub] at hlinked
  exact absurd hlinked (by decide)

end Slideo
