import Slideo.Lib.Atomic
import Slideo.Theorems.Accounts

/-! The accounts as one object with two operations, and the calls that perform them: an account is created, or a
    Google subject is linked to it. -/

namespace Slideo
open Js Interleave

/-! ### The registry -/

/-- An account as its holder knows it; `password` is the hash. -/
structure Account where
  email : String
  password : Option String
  subject : Option String
  createdAt : Time

abbrev Registry := String → Option Account

inductive AccountOp where
  | create (id : String) (account : Account)
  | link (id subject : String)

/-- Nobody but `id` has the Google subject. -/
def Registry.Free (R : Registry) (subject id : String) : Prop := ∀ x a, R x = some a →
    a.subject = some subject → x = id

open Classical in
/-- An account gets a new id, and an e-mail address and a subject that nobody has. A subject that nobody else
    has is linked to an account that exists. -/
noncomputable def registry : Object Registry AccountOp where
  apply R
    | .create id a =>
      if R id = none ∧ (∀ x b, R x = some b → b.email ≠ a.email) ∧ ∀ g, a.subject = some g → R.Free g id then
        some (Function.update R id (some a))
      else none
    | .link id g => (R id).bind fun a => if R.Free g id then some
      (Function.update R id (some { a with subject := some g })) else none

/-- No two accounts share an e-mail address or a subject. -/
structure Registry.Distinct (R : Registry) : Prop where
  emails : ∀ x y a b, R x = some a → R y = some b → a.email = b.email → x = y
  subjects : ∀ x y a b g, R x = some a → R y = some b → a.subject = some g → b.subject = some g → x = y

/-- An account stays what it is, but for the subject that is linked to it. -/
def Registry.Keeps (R R' : Registry) : Prop := ∀ id a, R id = some a → ∃ g, R' id = some { a with subject := g }

section Object
variable {R R' : Registry} {id g : String} {a : Account} {o : AccountOp}

theorem registry_create : registry.apply R (.create id a) = some R' ↔
    (R id = none ∧ (∀ x b, R x = some b → b.email ≠ a.email) ∧ ∀ g, a.subject = some g → R.Free g id) ∧
      R' = Function.update R id (some a) := by
  simp only [registry]
  split
  · rename_i h
    exact ⟨fun heq => ⟨h, (Option.some.inj heq).symm⟩, fun heq => congrArg some heq.2.symm⟩
  · rename_i h
    exact ⟨fun heq => (by cases heq), fun heq => absurd heq.1 h⟩

theorem registry_link : registry.apply R (.link id g) = some R' ↔
    ∃ a, R id = some a ∧ R.Free g id ∧ R' = Function.update R id (some { a with subject := some g }) := by
  simp only [registry, Option.bind_eq_some_iff]
  refine exists_congr fun a => and_congr_right fun _ => ?_
  split
  · rename_i h
    simp [h, eq_comm]
  · rename_i h
    simp [h]

theorem Registry.Keeps.refl (R : Registry) : R.Keeps R := fun _ a ha => ⟨a.subject, ha⟩

theorem registry_keeps (h : registry.apply R o = some R') : R.Keeps R' := by
  intro x b hb
  cases o with
  | create id a =>
    obtain ⟨⟨hnew, -, -⟩, rfl⟩ := registry_create.mp h
    refine ⟨b.subject, ?_⟩
    rw [Function.update_of_ne, hb]
    rintro rfl
    rw [hnew] at hb
    cases hb
  | link id g =>
    obtain ⟨a, ha, -, rfl⟩ := registry_link.mp h
    by_cases hid : x = id
    · subst hid
      obtain rfl : a = b := Option.some.inj (ha.symm.trans hb)
      exact ⟨some g, Function.update_self ..⟩
    · exact ⟨b.subject, by rw [Function.update_of_ne hid, hb]⟩

/-- The operations keep e-mail addresses and subjects apart. -/
theorem registry_distinct (hR : R.Distinct) (h : registry.apply R o = some R') : R'.Distinct := by
  cases o with
  | create id a =>
    obtain ⟨⟨-, hemail, hfree⟩, rfl⟩ := registry_create.mp h
    constructor
    case emails =>
      intro x y b b' hx hy heq
      by_cases hxid : x = id <;> by_cases hyid : y = id
      · rw [hxid, hyid]
      · rw [hxid, Function.update_self] at hx
        rw [Function.update_of_ne hyid] at hy
        cases hx
        exact absurd heq.symm (hemail y b' hy)
      · rw [hyid, Function.update_self] at hy
        rw [Function.update_of_ne hxid] at hx
        cases hy
        exact absurd heq (hemail x b hx)
      · rw [Function.update_of_ne hxid] at hx
        rw [Function.update_of_ne hyid] at hy
        exact hR.emails x y b b' hx hy heq
    case subjects =>
      intro x y b b' g hx hy hb hb'
      by_cases hxid : x = id <;> by_cases hyid : y = id
      · rw [hxid, hyid]
      · rw [hxid, Function.update_self] at hx
        rw [Function.update_of_ne hyid] at hy
        cases hx
        exact hxid.trans (hfree g hb y b' hy hb').symm
      · rw [hyid, Function.update_self] at hy
        rw [Function.update_of_ne hxid] at hx
        cases hy
        exact (hfree g hb' x b hx hb).trans hyid.symm
      · rw [Function.update_of_ne hxid] at hx
        rw [Function.update_of_ne hyid] at hy
        exact hR.subjects x y b b' g hx hy hb hb'
  | link id g =>
    obtain ⟨a, ha, hfree, rfl⟩ := registry_link.mp h
    -- every row of the new registry has the address of its old row
    have hold : ∀ x b, Function.update R id (some { a with subject := some g }) x = some b →
        ∃ b', R x = some b' ∧ b'.email = b.email ∧ (b.subject = b'.subject ∨ x = id ∧ b.subject = some g) := by
      intro x b hb
      by_cases hid : x = id
      · rw [hid, Function.update_self] at hb
        cases hb
        exact ⟨a, hid ▸ ha, rfl, Or.inr ⟨hid, rfl⟩⟩
      · rw [Function.update_of_ne hid] at hb
        exact ⟨b, hb, rfl, Or.inl rfl⟩
    constructor
    case emails =>
      intro x y b b' hx hy heq
      obtain ⟨c, hc, hcemail, -⟩ := hold x b hx
      obtain ⟨c', hc', hcemail', -⟩ := hold y b' hy
      exact hR.emails x y c c' hc hc' (hcemail.trans (heq.trans hcemail'.symm))
    case subjects =>
      intro x y b b' g' hx hy hb hb'
      obtain ⟨c, hc, -, hsub⟩ := hold x b hx
      obtain ⟨c', hc', -, hsub'⟩ := hold y b' hy
      rcases hsub with hsub | ⟨hxid, hsub⟩ <;> rcases hsub' with hsub' | ⟨hyid, hsub'⟩
      · exact hR.subjects x y c c' g' hc hc' (hsub.symm.trans hb) (hsub'.symm.trans hb')
      · obtain rfl : g = g' := Option.some.inj (hsub'.symm.trans hb')
        exact (hfree x c hc (hsub.symm.trans hb)).trans hyid.symm
      · obtain rfl : g = g' := Option.some.inj (hsub.symm.trans hb)
        exact hxid.trans (hfree y c' hc' (hsub'.symm.trans hb')).symm
      · rw [hxid, hyid]

/-- Both operations create the same account. -/
def AccountOp.Clash (o o' : AccountOp) : Prop := ∃ id a b, o = .create id a ∧ o' = .create id b

/-- No account is created twice. -/
theorem registry_creates_once {ops : List AccountOp} (h : registry.run R ops = some R') :
    ops.Pairwise fun o o' => ¬ o.Clash o' := by
  refine Object.run_pairwise (fun R o T ops R' ho hrest o' ho' hclash => ?_) h
  obtain ⟨id, a, b, rfl, rfl⟩ := hclash
  obtain ⟨-, rfl⟩ := registry_create.mp ho
  have hthere : (Function.update R id (some a) id).isSome = true := by rw [Function.update_self]; rfl
  have hlater : ∀ o ∈ ops, ¬ ∃ b, o = .create id b := by
    refine Object.run_avoids (P := fun R => (R id).isSome = true) (fun R o R' hR ho => ?_) hthere hrest
    obtain ⟨c, hc⟩ := Option.isSome_iff_exists.mp hR
    obtain ⟨g, hg⟩ := registry_keeps ho id c hc
    refine ⟨by rw [hg]; rfl, ?_⟩
    rintro ⟨b, rfl⟩
    rw [(registry_create.mp ho).1.1] at hR
    cases hR
  exact hlater _ ho' ⟨b, rfl⟩

end Object

/-! ### The table of users -/

def User.account (u : User) : Account := ⟨u.email, u.password, u.googleId, u.createdAt⟩

def Db.registry (db : Db) : Registry := fun id => (db.users.find? id).map User.account

section Table
variable {db : Db} {u : User}

theorem registry_of_mem (hu : u ∈ db.users.rows) : db.registry u.id = some u.account := by
  rw [Db.registry, Table.find?_of_mem hu, Option.map_some]

theorem registry_eq_some {id : String} {a : Account} :
    db.registry id = some a ↔ ∃ u ∈ db.users.rows, u.id = id ∧ u.account = a := by
  rw [Db.registry, Option.map_eq_some_iff]
  refine exists_congr fun u => ?_
  rw [Table.find?_eq_some, and_assoc]

theorem registry_insert (hid : u.id ∉ db.users.keys) :
    (db.apply (.insertUser u)).registry = Function.update db.registry u.id (some u.account) := by
  funext x
  show ((db.users.insert u).find? x).map _ = _
  rw [Table.find?, Table.insert_rows hid, List.find?_append, ← Table.find?]
  by_cases hx : x = u.id
  · subst hx
    rw [Table.find?_eq_none.mpr hid, Function.update_self]
    simp
  · rw [Function.update_of_ne hx, Db.registry]
    simp [Ne.symm hx]

theorem registry_patch {id : String} (hu : db.users.find? id = some u) (g : String) (at_ : Time) :
    (db.apply (.patchUser id at_ (.linkGoogle g))).registry =
      Function.update db.registry id (some { u.account with subject := some g }) := by
  funext x
  rw [Db.registry, find?_patchUser]
  by_cases hx : x = id
  · subst hx
    rw [hu, Function.update_self, Option.map_some, Option.map_some, if_pos (Table.key_of_find? hu)]
    rfl
  · rw [Function.update_of_ne hx, Db.registry]
    cases hfind : db.users.find? x with
    | none => rfl
    | some v =>
      have hv : v.id ≠ id := by
        rw [Table.key_of_find? hfind]
        exact hx
      rw [Option.map_some, if_neg hv]

end Table

/-! ### What a call does to the registry -/

abbrev AuthCall := Answered AuthQuery AuthQuery.Answer Err

/-- The operation of an answered call. -/
def AuthQuery.op? : AuthCall → Option AccountOp
  | ⟨.userCreate _ _ _ _, .ok u⟩ => some (.create u.id u.account)
  | ⟨.userUpdate id googleId, .ok _⟩ => some (.link id googleId)
  | _ => none

/-- The account of a user, whatever has been linked to it since. -/
def Registry.Has (R : Registry) (u : User) : Prop := ∃ g, R u.id = some { u.account with subject := g }

/-- What the accounts confirm of an answer. -/
def Registry.Confirms (R : Registry) : AuthCall → Prop
  | ⟨.userFindUnique email, .ok (some u)⟩ => email = some (.str u.email) ∧ R.Has u
  | ⟨.userCreate email password googleId _, .ok u⟩ =>
    email = some (.str u.email) ∧ u.password = password ∧ u.googleId = googleId ∧ R.Has u
  | ⟨.userUpdate id googleId, .ok u⟩ => u.id = id ∧ u.googleId = some googleId ∧ R.Has u
  | _ => True

theorem Registry.Has.keep {R R' : Registry} {u : User} (h : R.Has u) (hkeep : R.Keeps R') : R'.Has u := by
  obtain ⟨g, hg⟩ := h
  obtain ⟨g', hg'⟩ := hkeep _ _ hg
  exact ⟨g', hg'⟩

theorem Registry.Confirms.keep {R R' : Registry} {a : AuthCall} (h : R.Confirms a)
    (hkeep : R.Keeps R') : R'.Confirms a := by
  unfold Registry.Confirms at h ⊢
  split at h
  · exact ⟨h.1, h.2.keep hkeep⟩
  · exact ⟨h.1, h.2.1, h.2.2.1, h.2.2.2.keep hkeep⟩
  · exact ⟨h.1, h.2.1, h.2.2.keep hkeep⟩
  · trivial

theorem has_of_mem {db : Db} {u : User} (hu : u ∈ db.users.rows) : db.registry.Has u :=
  ⟨u.googleId, registry_of_mem hu⟩

section Calls
variable {db db' : Db} {q : AuthQuery} {r : Except Err q.Answer}

/-- A call performs its operation, and its answer is true when it is given. -/
theorem AuthAct.performs (h : AuthAct db q r db') :
    ((AuthQuery.op? ⟨q, r⟩).elim (db'.registry = db.registry) fun o =>
    registry.apply db.registry o = some db'.registry) ∧ db'.registry.Confirms ⟨q, r⟩ := by
  cases h with
  | failed => cases q <;> exact ⟨rfl, trivial⟩
  | answered w =>
    rcases authAnswer_cases w db q with ⟨e, -, hanswer⟩ | ⟨a, writes, hexec, hanswer⟩
    · rw [hanswer]
      cases q <;> exact ⟨rfl, trivial⟩
    rw [hanswer]
    cases q with
    | verifyIdToken idToken =>
      simp only [authExec, except_map_eq_ok, Prod.mk.injEq] at hexec
      obtain ⟨_, _, _, rfl⟩ := hexec
      exact ⟨rfl, trivial⟩
    | hash password =>
      simp only [authExec, except_map_eq_ok, Prod.mk.injEq] at hexec
      obtain ⟨_, _, _, rfl⟩ := hexec
      exact ⟨rfl, trivial⟩
    | compare password hashed =>
      simp only [authExec, except_map_eq_ok, Prod.mk.injEq] at hexec
      obtain ⟨_, _, _, rfl⟩ := hexec
      exact ⟨rfl, trivial⟩
    | userFindUnique email =>
      simp only [authExec, except_map_eq_ok, Prod.mk.injEq] at hexec
      obtain ⟨e, he, rfl, rfl⟩ := hexec
      refine ⟨rfl, ?_⟩
      cases hfound : db.userByEmail? e with
      | none => trivial
      | some u =>
        obtain ⟨hu, rfl⟩ := mem_of_userByEmail? hfound
        exact ⟨(textArg_ok he).1, has_of_mem hu⟩
    | userCreate email password googleId provider =>
      obtain ⟨he, hpassword, hsub, hid, hemail, -, hnew, rfl⟩ := createUser_ok hexec
      have hrow : a ∈ (db.apply (.insertUser a)).users.rows := by
        show a ∈ (db.users.insert a).rows
        rw [Table.insert_rows hid]
        exact List.mem_append_right _ (List.mem_singleton_self a)
      refine ⟨?_, he, hpassword, hsub, has_of_mem hrow⟩
      refine registry_create.mpr ⟨⟨?_, fun x b hb heq => ?_, fun g hg x b hb hbg => ?_⟩, registry_insert hid⟩
      · rw [Db.registry, Table.find?_eq_none.mpr hid, Option.map_none]
      · obtain ⟨v, hv, -, rfl⟩ := registry_eq_some.mp hb
        exact userByEmail?_none.mp hemail v hv heq
      · obtain ⟨v, hv, -, rfl⟩ := registry_eq_some.mp hb
        rw [← hsub, show a.googleId = some g from hg, Option.bind_some] at hnew
        exact absurd hbg (userByGoogleId?_none.mp hnew v hv)
    | userUpdate id googleId =>
      obtain ⟨v, hv, rfl, hfree, rfl⟩ := linkGoogle_ok hexec
      obtain rfl : v.id = id := Table.key_of_find? hv
      have hregistry := registry_patch hv googleId w.now
      refine ⟨registry_link.mpr ⟨v.account, ?_, fun x b hb hbg => ?_, hregistry⟩, rfl, rfl, some googleId, ?_⟩
      · rw [Db.registry, hv, Option.map_some]
      · obtain ⟨v', hv', rfl, rfl⟩ := registry_eq_some.mp hb
        exact hfree v' hv' hbg
      · exact (congrFun hregistry v.id).trans (Function.update_self ..)

theorem AuthAct.keeps (h : AuthAct db q r db') : db.registry.Keeps db'.registry := by
  have hop := h.performs.1
  cases ho : AuthQuery.op? ⟨q, r⟩ with
  | none =>
    rw [ho] at hop
    rw [show db'.registry = db.registry from hop]
    exact .refl _
  | some o =>
    rw [ho] at hop
    exact registry_keeps hop

end Calls

end Slideo
