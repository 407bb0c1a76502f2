import Slideo.Theorems.Records

/-! The usage of a user is exact in every interleaving: between two resets it grows by one for each
    `POST /presentations` that has succeeded. -/

namespace Slideo
open Js Interleave

/-! ### What counts -/

/-- The operation counts a deck of `user`. -/
def RecordOp.counts (user : String) : RecordOp → Bool
  | .count id => id == user
  | .reset _ _ | .edit _ _ | .upload _ => false

/-- The session has answered a `POST /presentations` of `user` below 400. -/
def posted (env : Env) (user : String) (x : ServerSession) : Bool :=
  x.tag.endpoint.countsDecks && x.tag.userId? env == some user &&
    match x.prog with
    | .pure response => decide (response.status < 400)
    | .throw _ | .call _ _ => false

theorem meters_of_run {user : String} {ops : List RecordOp} (hreset : ∀ now, .reset user now ∉ ops) :
    ∀ {s s' : Records} {m : Meter}, records.run s ops = some s' → s.meters user = some m →
      s'.meters user = some { m with created := m.created + ops.countP (·.counts user) } := by
  induction ops with
  | nil =>
    intro s s' m h hm
    cases h
    exact hm
  | cons o ops ih =>
    intro s s' m h hm
    obtain ⟨t, ht, hrest⟩ := Object.run_cons h
    have hlater : ∀ now, .reset user now ∉ ops := fun now hmem => hreset now (List.mem_cons_of_mem o hmem)
    rw [List.countP_cons]
    cases o with
    | reset id now =>
      obtain ⟨m', -, rfl⟩ := Option.map_eq_some_iff.mp ht
      have hne : user ≠ id := fun heq => hreset now (heq ▸ List.mem_cons_self)
      exact ih hlater hrest ((Function.update_of_ne hne ..).trans hm)
    | count id =>
      obtain ⟨m', hm', rfl⟩ := Option.map_eq_some_iff.mp ht
      by_cases hid : id = user
      · subst hid
        obtain rfl := Option.some.inj (hm'.symm.trans hm)
        rw [ih hlater hrest (Function.update_self ..)]
        simp [RecordOp.counts, Nat.add_assoc, Nat.add_comm 1]
      · rw [ih hlater hrest ((Function.update_of_ne (Ne.symm hid) ..).trans hm)]
        simp [RecordOp.counts, hid]
    | edit id patch =>
      obtain ⟨t', -, rfl⟩ := Option.map_eq_some_iff.mp ht
      exact ih hlater hrest hm
    | upload file =>
      have happly : (if s.uploads file.id = none then
          some { s with uploads := Function.update s.uploads file.id (some file) } else none) = some t := ht
      split at happly
      · cases happly
        exact ih hlater hrest hm
      · cases happly

section Usage
variable {env : Env} {c₀ c : Server} {es : List ServerEvent} {user : String} {x : ServerSession}

/-- An ended request has counted a deck of `user` exactly if it is a `POST /presentations` that has answered
    below 400. -/
theorem counts_iff_posted (h₀ : c₀.Idle) (run : ServerRun env c₀ es c) (hx : x ∈ c.sessions)
    (hended : x.tag.endpoint.countsDecks = true → x.prog.ended = true) :
    (recordOps x.log).any (·.counts user) = posted env user x := by
  have hasks := (ServerRun.bookkept h₀ run x hx).asks (ServerRun.rows h₀ run x hx)
  rw [Bool.eq_iff_iff, List.any_eq_true]
  constructor
  · rintro ⟨o, ho, hcounts⟩
    have hbooked : o ∈ bookings x.log := List.mem_filter.mpr ⟨ho, by cases o <;> first | rfl | cases hcounts⟩
    cases o with
    | reset _ _ | edit _ _ | upload _ => cases hcounts
    | count id =>
      obtain rfl : id = user := beq_iff_eq.mp hcounts
      obtain ⟨user', body, -, -, -, huser, rfl, hreq, -⟩ := hasks _ ho
      have hdecks : x.tag.endpoint.countsDecks = true := by rw [hreq]; rfl
      have hbooks : x.tag.endpoint.books = true := by rw [hreq]; rfl
      have hid : x.tag.userId? env = some user'.id := by rw [Request.userId?, huser, Option.map_some]
      have hprog := hended hdecks
      rw [posted, hdecks, hid, beq_self_eq_true]
      cases hp : x.prog with
      | pure response =>
        exact decide_eq_true ((booked_iff_low h₀ run hx hp hbooks).mpr (List.ne_nil_of_mem hbooked))
      | throw err =>
        have hends := ServerRun.booked h₀ run x hx
        rw [hp] at hends
        obtain ⟨response, heq, -⟩ := (hends hbooks).mp (List.ne_nil_of_mem hbooked)
        cases heq
      | call q k =>
        rw [hp] at hprog
        cases hprog
  · intro hposted
    simp only [posted, Bool.and_eq_true, beq_iff_eq] at hposted
    obtain ⟨⟨hdecks, hid⟩, hlow⟩ := hposted
    have hbooks : x.tag.endpoint.books = true := by
      cases he : x.tag.endpoint <;> rw [he] at hdecks <;> first | rfl | cases hdecks
    cases hp : x.prog with
    | throw _ | call _ _ =>
      rw [hp] at hlow
      cases hlow
    | pure response =>
      rw [hp] at hlow
      have hone := (booked_iff_low h₀ run hx hp hbooks).mp (of_decide_eq_true hlow)
      obtain ⟨o, ho⟩ := List.exists_mem_of_ne_nil _ hone
      obtain ⟨hmem, hreset⟩ := List.mem_filter.mp ho
      refine ⟨o, hmem, ?_⟩
      have hasked := hasks o hmem
      cases o with
      | reset _ _ => cases hreset
      | count id =>
        obtain ⟨user', -, -, -, -, huser, rfl, -⟩ := hasked
        rw [Request.userId?, huser, Option.map_some] at hid
        exact beq_iff_eq.mpr (Option.some.inj hid)
      | edit _ _ =>
        obtain ⟨_, _, -, hreq, -⟩ := hasked
        rw [hreq] at hdecks
        cases hdecks
      | upload _ =>
        obtain ⟨_, -, -, hreq, -⟩ := hasked
        rw [hreq] at hdecks
        cases hdecks

/-- As long as no request begins a new month for a user, the usage of the user grows by the answered
    `POST /presentations`, once all of these have ended, and the plan and the last reset stay. -/
theorem usage_exact {row : User} (h₀ : c₀.Idle) (run : ServerRun env c₀ es c)
    (hrow : c₀.shared.db.users.find? user = some row) (hreset : ∀ i now, (i, .reset user now) ∉ recordEffects es)
    (hended : ∀ x ∈ c.sessions, x.tag.endpoint.countsDecks = true → x.prog.ended = true) :
    ∃ row', c.shared.db.users.find? user = some row' ∧ row'.plan = row.plan ∧
    row'.lastUsageReset = row.lastUsageReset ∧
      row'.presentationsCreatedThisMonth = row.presentationsCreatedThisMonth +
        c.sessions.countP (posted env user) := by
  have hmeter : c₀.shared.db.records.meters user = some row.meter := by
    rw [show c₀.shared.db.records.meters user = (c₀.shared.db.users.find? user).map User.meter from rfl, hrow,
      Option.map_some]
  have hnone : ∀ now, .reset user now ∉ (recordEffects es).map (·.2) := by
    intro now hmem
    obtain ⟨⟨i, o⟩, hio, rfl⟩ := List.mem_map.mp hmem
    exact hreset i now hio
  have hcount : ((recordEffects es).map (·.2)).countP (·.counts user) = c.sessions.countP (posted env user) := by
    have honce : ∀ {es : List ServerEvent} {c : Server}, ServerRun env c₀ es c →
        ∀ x ∈ c.sessions, (recordOps x.log).countP (·.counts user) ≤ 1 := fun run x hx =>
      le_trans (List.countP_mono_left fun o _ ho => by cases o <;> first | rfl | cases ho)
        ((ServerRun.bookkept h₀ run x hx).once false)
    rw [List.countP_map]
    refine (Run.countP_effects h₀.sessions (RecordOp.counts user) run honce).trans
      (List.countP_congr fun x hx => ?_)
    rw [← counts_iff_posted h₀ run hx (hended x hx)]
    exact Iff.rfl
  have hafter := meters_of_run hnone (ServerRun.records h₀ run).1 hmeter
  obtain ⟨row', hrow', hmeter'⟩ := Option.map_eq_some_iff.mp hafter
  obtain ⟨hplan, hcreated, hlast⟩ := Meter.mk.inj hmeter'
  exact ⟨row', hrow', hplan, hlast, hcreated.trans (congrArg _ hcount)⟩

end Usage

/-- `alice` posts two decks at the same time. -/
def simultaneousPosts : List Move :=
  let post := aliceRequest (.createPresentation (some (.obj [("topic", .str "Roadmap"), ("slides", .arr [])])))
  [.arrive post, .arrive post, .answer 0, .answer 1, .answer 0, .answer 1, .answer 0,
    .answer 1, .answer 1, .answer 0]

theorem simultaneous_posts_counted :
    ∃ es c row, ServerRun office newOffice es c ∧ c.shared.db.users.find? "alice" = some row ∧
      row.presentationsCreatedThisMonth = 2 := by
  have hplay : newOffice.playable (fun _ _ => true) office 0 0 simultaneousPosts = true := by decide +kernel
  obtain ⟨run, -⟩ := Server.play_run office (show Unissued 0 newOffice.shared.issued from fun _ _ _ h => h) hplay
  have hnone : (recordEffects (newOffice.events office 0 0 simultaneousPosts)).all (!·.2.isReset) = true := by
    decide +kernel
  have hended : (newOffice.play office 0 0 simultaneousPosts).sessions.all (·.prog.ended) = true := by
    decide +kernel
  have hposted : (newOffice.play office 0 0 simultaneousPosts).sessions.countP (posted office "alice") = 2 := by
    decide +kernel
  obtain ⟨row, hrow, -, -, hcreated⟩ := usage_exact newOffice_idle run.run
    (show officeDb.users.find? "alice" = some _ from rfl)
    (fun i now h => by cases List.all_eq_true.mp hnone _ h) fun x hx _ => List.all_eq_true.mp hended x hx
  exact ⟨_, _, row, run.run, hrow, hcreated.trans (by rw [hposted]; rfl)⟩

end Slideo
