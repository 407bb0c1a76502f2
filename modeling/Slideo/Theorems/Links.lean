import Slideo.Theorems.SignIns

/-! Google subjects under concurrency. A Google login links an account that it has found unlinked, by a second
    statement; if another one links it in between, the first link is overwritten. Apart from that a link is
    for good. -/

namespace Slideo
open Js Interleave

def Account.unlinked (a : Account) : Bool := a.subject.getD "" == ""

/-- An unfinished Google login has found the account without a subject. -/
def Linking (x : AuthSession) (id : String) : Prop :=
  x.prog.ended = false ∧ (∃ body, x.tag = .googleLogin body) ∧
    ∃ email, ∃ u : User, ⟨.userFindUnique email, .ok (some u)⟩ ∈ x.log ∧ u.id = id ∧ u.account.unlinked = true

/-- No account is about to be linked twice. -/
def Apart (c : AuthServer) : Prop := ∀ (i j : Nat) (x y : AuthSession) (id : String), c.sessions[i]? = some x →
  c.sessions[j]? = some y → Linking x id → Linking y id → i = j

abbrev ApartRun (env : AuthEnv) : AuthServer → List AuthEvent → AuthServer → Prop :=
  RunWhere authServer (authHandle env) () fun c _ => Apart c

/-- What is about to be linked is still unlinked. -/
def Unhurried (c : AuthServer) : Prop :=
  ∀ x ∈ c.sessions, ∀ id, Linking x id → ∀ a, c.shared.registry id = some a → a.unlinked = true

section Links
variable {env : AuthEnv} {c₀ c c' : AuthServer} {es : List AuthEvent} {db db' : Db} {i : Nat}
  {x : AuthSession} {q : AuthQuery}
  {k : Except Err q.Answer → AuthHandler AuthResponse} {r : Except Err q.Answer} {id g : String}

theorem AuthAct.found {email : Val} {r : Except Err (AuthQuery.userFindUnique email).Answer} {u : User}
    (h : AuthAct db (.userFindUnique email) r db') (hr : r = .ok (some u)) :
    db'.registry u.id = some u.account := by
  cases h with
  | failed => cases hr
  | answered w =>
    rcases answer_userFindUnique w db email with ⟨-, e, hanswer⟩ | ⟨e, -, -, hanswer⟩
    · rw [hanswer] at hr
      cases hr
    · rw [hanswer] at hr ⊢
      exact registry_of_mem (mem_of_userByEmail? (Except.ok.inj hr)).1

/-- A link belongs to a login that has found the account unlinked, and that has nothing left to do. -/
theorem AuthRun.links (hstart : c₀.sessions = []) (run : AuthRun env c₀ es c)
    (hx : x ∈ c.sessions) (hp : x.prog = .call q k) (hop : AuthQuery.op? ⟨q, r⟩ = some (.link id g)) :
    Linking x id ∧ (k r).ended = true := by
  have hends := AuthRun.concludes hstart run x hx
  rw [hp] at hends
  obtain ⟨⟨hnone, hmeans⟩, hrest⟩ := hends
  constructor
  · cases q with
    | verifyIdToken _ | hash _ | compare _ _ | userFindUnique _ => cases hop
    | userCreate _ _ _ _ =>
      cases r with
      | error e => cases hop
      | ok u => cases hop
    | userUpdate id' g' =>
      cases r with
      | error e => cases hop
      | ok u =>
        cases hop
        obtain ⟨body, payload, v, hreq, -, -, hfound, hid, hfree⟩ := hmeans
        exact ⟨by rw [hp]; rfl, ⟨body, hreq⟩, _, v, hfound,
          hid, by simpa [Account.unlinked, User.account] using hfree⟩
  · have hlast := hrest r
    cases hkr : k r with
    | pure response => rfl
    | throw e => rfl
    | call q' k' =>
      rw [hkr] at hlast
      have hnone' : opsOf (x.log ++ [⟨q, r⟩]) = [] := hlast.1.1
      rw [opsOf, List.filterMap_append, List.append_eq_nil_iff] at hnone'
      rw [List.filterMap_cons, hop] at hnone'
      cases hnone'.2

theorem Unhurried.step (hstart : c₀.sessions = []) (run : AuthRun env c₀ es c) (h : Unhurried c) (hapart : Apart c)
    {e : AuthEvent} (step : Interleave.Step authServer (authHandle env) () c e c') : Unhurried c' := by
  intro y' hy' id hlinking a ha
  cases step with
  | spawn req =>
    rcases List.mem_append.mp hy' with hy' | hy'
    · exact h y' hy' id hlinking a ha
    · obtain rfl := List.mem_singleton.mp hy'
      obtain ⟨-, -, email, u, hlog, -⟩ := hlinking
      cases hlog
  | stall hx hp hact => exact hact.elim
  | @act i x q k r db' p' hx hp hact =>
    have hmem := List.mem_of_getElem? hx
    -- the session that is about to link is an old one, unless it has just found the account
    have hold : (y' = ⟨x.tag, p', k r, x.log ++ [⟨q, r⟩]⟩ ∧ (k r).ended = false ∧
      AuthQuery.op? ⟨q, r⟩ = none ∧ a.unlinked = true) ∨
        ∃ (j : Nat) (y : AuthSession), c.sessions[j]? = some y ∧ Linking y id ∧ (j = i → (k r).ended = false) := by
      obtain ⟨j, hj⟩ := List.mem_iff_getElem?.mp hy'
      by_cases hij : i = j
      · subst hij
        rw [List.getElem?_set_self (List.getElem?_eq_some_iff.mp hx).1] at hj
        obtain rfl := Option.some.inj hj
        obtain ⟨hprog, htag, email, u, hlog, rfl, hfree⟩ := hlinking
        rcases List.mem_append.mp hlog with hlog | hlog
        · exact Or.inr ⟨i, x, hx, ⟨by rw [hp]; rfl, htag, email, u, hlog, rfl, hfree⟩, fun _ => hprog⟩
        · cases List.mem_singleton.mp hlog
          refine Or.inl ⟨rfl, hprog, rfl, ?_⟩
          obtain rfl : u.account = a := Option.some.inj ((AuthAct.found hact rfl).symm.trans ha)
          exact hfree
      · rw [List.getElem?_set_ne hij] at hj
        exact Or.inr ⟨j, y', hj, hlinking, fun h => absurd h.symm hij⟩
    rcases hold with ⟨-, -, -, hfree⟩ | ⟨j, y, hy, hlinking, hlater⟩
    · exact hfree
    have hstill := h y (List.mem_of_getElem? hy) id hlinking
    have hthere : c.shared.registry id ≠ none := by
      obtain ⟨-, -, email, u, hlog, rfl, -⟩ := hlinking
      obtain ⟨-, g, hg⟩ := AuthRun.confirms hstart run y (List.mem_of_getElem? hy) _ hlog
      rw [hg]
      simp
    have hop := (AuthAct.performs hact).1
    cases ho : AuthQuery.op? ⟨q, r⟩ with
    | none =>
      rw [ho] at hop
      exact hstill a ((congrFun hop id).symm.trans ha)
    | some o =>
      rw [ho] at hop
      cases o with
      | create id' b =>
        obtain ⟨⟨hnew, -, -⟩, heq⟩ := registry_create.mp hop
        have hne : id ≠ id' := fun heq => hthere (heq ▸ hnew)
        exact hstill a (by rw [← ha, show db'.registry = _ from heq, Function.update_of_ne hne])
      | link id' g =>
        obtain ⟨b, -, -, heq⟩ := registry_link.mp hop
        obtain ⟨hlinks, hended⟩ := AuthRun.links hstart run hmem hp ho
        have hne : id ≠ id' := by
          rintro rfl
          obtain rfl := hapart j i y x id hy hx hlinking hlinks
          rw [hlater rfl] at hended
          cases hended
        exact hstill a (by rw [← ha, show db'.registry = _ from heq, Function.update_of_ne hne])

theorem ApartRun.unhurried (hstart : c₀.sessions = []) (run : ApartRun env c₀ es c) : Unhurried c := by
  induction run with
  | nil =>
    intro x hx
    rw [hstart] at hx
    cases hx
  | snoc run step hapart ih => exact Unhurried.step hstart run.run ih hapart step

/-- As long as no account is about to be linked twice, a subject that is linked to an account stays. -/
theorem subject_kept {c₁ c₂ : AuthServer} {es₁ es₂ : List AuthEvent}
    (hstart : c₀.sessions = []) (run₁ : ApartRun env c₀ es₁ c₁) (run₂ : ApartRun env c₁ es₂ c₂) {a : Account}
    (ha : c₁.shared.registry id = some a) (hlinked : a.unlinked = false) :
    c₂.shared.registry id = some a := by
  induction run₂ with
  | nil => exact ha
  | @snoc es c c' e run₂ step hapart ih =>
    have run := run₁.trans run₂
    cases step with
    | spawn req => exact ih
    | stall hx hp hact => exact hact.elim
    | @act i x q k r db' p' hx hp hact =>
      have hmem := List.mem_of_getElem? hx
      have hop := (AuthAct.performs hact).1
      cases ho : AuthQuery.op? ⟨q, r⟩ with
      | none =>
        rw [ho] at hop
        exact (congrFun hop id).trans ih
      | some o =>
        rw [ho] at hop
        cases o with
        | create id' b =>
          obtain ⟨⟨hnew, -, -⟩, heq⟩ := registry_create.mp hop
          have hne : id ≠ id' := by
            rintro rfl
            cases hnew.symm.trans ih
          exact (congrFun heq id).trans ((Function.update_of_ne hne ..).trans ih)
        | link id' g =>
          obtain ⟨b, -, -, heq⟩ := registry_link.mp hop
          obtain ⟨hlinks, -⟩ := AuthRun.links hstart run.run hmem hp ho
          have hne : id ≠ id' := by
            rintro rfl
            have hfree := ApartRun.unhurried hstart run x hmem id hlinks a ih
            rw [hlinked] at hfree
            cases hfree
          exact (congrFun heq id).trans ((Function.update_of_ne hne ..).trans ih)

end Links

/-! ### Two subjects for one address -/

def AuthRequest.isGoogle : AuthRequest → Bool
  | .googleLogin _ => true
  | .signup _ | .login _ => false

/-- At most one Google login is unfinished. -/
def oneLogin (c : AuthServer) : Bool :=
  decide (c.sessions.Pairwise fun x y => (!x.prog.ended && x.tag.isGoogle &&
    (!y.prog.ended && y.tag.isGoogle)) = false)

theorem apart_of_oneLogin {c : AuthServer} (h : oneLogin c = true) : Apart c := by
  have hbusy : ∀ {x : AuthSession} {id : String}, Linking x id → (!x.prog.ended && x.tag.isGoogle) = true := by
    rintro x id ⟨hprog, ⟨body, htag⟩, -⟩
    rw [hprog, htag]
    rfl
  have hpair := List.pairwise_iff_getElem.mp (of_decide_eq_true h)
  intro i j x y id hx hy hlinking hlinking'
  obtain ⟨hi, rfl⟩ := List.getElem?_eq_some_iff.mp hx
  obtain ⟨hj, rfl⟩ := List.getElem?_eq_some_iff.mp hy
  by_contra hij
  rcases Nat.lt_or_gt_of_ne hij with hlt | hlt
  · have hnot := hpair i j hi hj hlt
    rw [hbusy hlinking, hbusy hlinking'] at hnot
    cases hnot
  · have hnot := hpair j i hj hi hlt
    rw [hbusy hlinking, hbusy hlinking'] at hnot
    cases hnot

theorem ApartRun.of_oneLogin {env : AuthEnv} {c c' : AuthServer} {es : List AuthEvent}
    (run : RunWhere authServer (authHandle env) () (fun c _ => oneLogin c = true) c es c') :
    ApartRun env c es c' := by
  induction run with
  | nil => exact .nil
  | snoc _ step hone ih => exact .snoc ih step (apart_of_oneLogin hone)

def tokenBody : Val := some (.obj [("idToken", .str "token")])

/-- `ann` signs in with one subject. -/
def googleFirst : List AuthMove :=
  let w := trustingWorld "ann" "1"
  [.arrive (.googleLogin tokenBody), .answer 0 w, .answer 0 w, .answer 0 w]

/-- Then with another one, while she signs up and logs in. -/
def googleSecond : List AuthMove :=
  let w := trustingWorld "ann2" "2"
  [.arrive (.googleLogin tokenBody), .arrive (.signup (annBody "secret")), .answer 1 w, .answer 2 w, .answer 1 w]

theorem first_subject_stays :
    ∃ es c es' c' a, ApartRun trustingOffice noAccounts es c ∧
    ApartRun trustingOffice c es' c' ∧ a.subject = some "g1" ∧
      AuthServer.answer? c' 1 = some ⟨200, .session ⟨"ann", "ann@slideo.ai"⟩ 0 "ann"⟩ ∧
      c'.shared.registry "ann" = some a := by
  have run := ApartRun.of_oneLogin (AuthServer.play_run trustingOffice googleFirst
    (c := noAccounts) (by decide +kernel))
  have run' := ApartRun.of_oneLogin (AuthServer.play_run trustingOffice googleSecond
    (c := (AuthServer.play trustingOffice noAccounts googleFirst).2) (by decide +kernel))
  have hrow : (((AuthServer.play trustingOffice noAccounts googleFirst).2.shared.users.find? "ann").map (·.googleId)) =
      some (some "g1") := by decide +kernel
  obtain ⟨u, hu, hsub⟩ := Option.map_eq_some_iff.mp hrow
  have hregistry : (AuthServer.play trustingOffice noAccounts googleFirst).2.shared.registry "ann" =
    some u.account := by
    rw [Db.registry, hu, Option.map_some]
  exact ⟨_, _, _, _, _, run, run', hsub, by decide +kernel,
    subject_kept rfl run run' hregistry (by simp [Account.unlinked, User.account, hsub])⟩

/-- `ann` has a password, and signs in with two subjects at the same time. -/
def googleTwice : List AuthMove :=
  let w := trustingWorld "ann" "1"
  let w' := trustingWorld "ann" "2"
  [.arrive (.signup (annBody "secret")), .answer 0 w, .answer 0 w, .answer 0 w, .arrive (.googleLogin tokenBody),
    .arrive (.googleLogin tokenBody), .answer 1 w, .answer 2 w', .answer 1 w,
      .answer 2 w', .answer 1 w, .answer 2 w']

/-- Without the condition the first link is overwritten, although its login was answered. -/
theorem linked_over :
    ∃ es c, AuthRun trustingOffice noAccounts es c ∧
      AuthServer.answer? c 1 = some ⟨200, .session ⟨"ann", "ann@slideo.ai"⟩ 0 "ann"⟩ ∧
      (accountEffects es).map (·.1) = [0, 1, 2] ∧
      (c.shared.users.find? "ann").map (·.googleId) = some (some "g2") := by
  have run := AuthServer.play_run (P := fun _ => true) trustingOffice googleTwice
    (c := noAccounts) (by decide +kernel)
  exact ⟨_, _, run.run, by decide +kernel, by decide +kernel, by decide +kernel⟩

end Slideo
