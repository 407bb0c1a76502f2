import Slideo.Theorems.AtomicStore

/-! The decks are linearizable. In every interleaving of any requests, those that change a deck do so one
    after another, each at one moment between its arrival and its answer, as operations of their owners on
    the shelf; a deck that was removed is gone for good. -/

namespace Slideo
open Js Interleave

/-! ### Owners -/

section Owners
variable {env : Env} {req : Request} {st st' : Store} {others : List Conn} {c : Conn} {m m' : Course} {q : Query}
  {r : Except Err q.Answer} {rights : Rights} {id : String} {s : Shelf}

/-- A request has locked only presentations that it knows to be its user's own. -/
theorem ownId_of_claims {u : Option String} (h : SessionInv u st rights c)
    (hclaim : c.claims id) : OwnId u st.db id := by
  obtain ⟨y, hy, hlock⟩ := hclaim
  have hpending := h.pending y hy
  cases y with
  | patchPresentation x at_ title =>
    obtain rfl : x = id := hlock
    exact (h.owned x hpending).2
  | deletePresentation x =>
    obtain rfl : x = id := hlock
    exact (h.owned x hpending).2
  | _ => exact hlock.elim

theorem Shows.same (hs : Shows s st) (hsame : DecksKept st.db st'.db)
    (hissued : st.issued ⊆ st'.issued) : Shows s st' := by
  obtain ⟨hp, hslides, htokens⟩ := hsame
  refine ⟨fun id => ?_, fun x hx => hissued (hs.used hx), fun x hx => hs.given x (hp ▸ hx)⟩
  rw [hs.decks, Db.entry?, Db.entry?, hp, Db.slidesOf, Db.slidesOf, hslides, Db.tokensOf, Db.tokensOf, htokens]

/-- What a call does to the decks is the operation of its request on the shelf. -/
theorem Did.performs (h : Did env req st st' others c m m' ⟨q, r⟩)
    (hinv : SessionInv (req.scope env).user st rights c) (hq : (ownership (req.scope env)).Allowed rights q)
    (hissued : st.issued ⊆ st'.issued) (hs : Shows s st) :
    (req.effect? env ⟨q, r⟩).elim (Shows s st') fun o => ∃ s', shelf.apply s o = some s' ∧ Shows s' st' := by
  cases h with
  | nothing heffect hsame _ =>
    rw [heffect]
    exact hs.same hsame hissued
  | change ch user huser heffect hdoes hnew hlock _ _ _ _ =>
    rw [heffect]
    refine hdoes.performs hs hissued hnew fun p hp hid => ?_
    have hown : OwnId (req.scope env).user st.db ch.id := by
      rcases hlock with ⟨p, rows, rfl⟩ | ⟨t, token, email, permission, expiresAt, rfl, hshare⟩ | hclaim
      · -- a new deck is nobody's yet
        exact fun p' hp' hid => absurd (Table.mem_keys.mpr ⟨p', hp', hid⟩) hdoes.1
      · subst hshare
        exact (hinv.owned _ hq).2
      · exact ownId_of_claims hinv hclaim
    exact (Option.some.inj (huser.symm.trans (hown p hp hid))).symm

end Owners

/-! ### New decks and new links -/

abbrev Call := Answered Query Query.Answer Err

/-- A deck that was stored for a user belongs to that user. -/
def OwnDeck : Call → Prop
  | ⟨.presentationCreate userId _ _, .ok deck⟩ => deck.row.userId = userId
  | _ => True

/-- A link follows the body of its request: the recipient and the permission are the body's, the token was drawn,
    and the hours of the body count from an instant of the clock. -/
structure Grant.Follows (g : Grant) (body : Val) (log : List Call) : Prop where
  recipient : ∃ email, get body "recipientEmail" = some email ∧ textArg email = .ok g.recipientEmail
  permission : ((getOpt body "permission").getD (.str "view")).toStr = some g.permission
  token : ⟨.randomUUID, .ok g.token⟩ ∈ log
  expiry : ∃ now hours, ⟨.clock, .ok now⟩ ∈ log ∧
    toNumber (some ((getOpt body "expiryHours").getD (.num 24))) = some hours ∧
      expiryTime now hours = some g.expiresAt

/-- A share token that is stored follows the body of the request. -/
def LinksFollow (req : Request) (log : List Call) : Query → Prop
  | .shareTokenCreate id token email permission expiresAt => ∃ body, req.endpoint = .createShareLink id body ∧
      ∀ e t, textArg email = .ok e → expiresAt = some t → Grant.Follows ⟨token, e, permission, t⟩ body log
  | _ => True

/-- The monitor of the links of a request. -/
def linking (req : Request) : Monitor Query Query.Answer Err (List Call) :=
  transcript (LinksFollow req)

section Links
variable {env : Env} {req : Request} {user : AuthUser} {id : String} {body : Val} {log log' : List Call}
  {c₀ c : Server} {es : List ServerEvent}

theorem Grant.Follows.mono {g : Grant} (h : g.Follows body log)
    (hsub : ∀ a ∈ log, a ∈ log') : g.Follows body log' := by
  obtain ⟨now, hours, hclock, hhours, hexpiry⟩ := h.expiry
  exact ⟨h.recipient, h.permission, hsub _ h.token, now, hours, hsub _ hclock, hhours, hexpiry⟩

theorem LinksFollow.mono {q : Query} (h : LinksFollow req log q)
    (hsub : ∀ a ∈ log, a ∈ log') : LinksFollow req log' q := by
  cases q with
  | shareTokenCreate id token email permission expiresAt =>
    obtain ⟨body, hreq, hfollows⟩ := h
    exact ⟨body, hreq, fun e t he ht => (hfollows e t he ht).mono hsub⟩
  | _ => trivial

theorem links_createShareLink (hreq : req.endpoint = .createShareLink id body) :
    (linking req).Obeys log (createShareLink env user id body) := by
  refine obeys_guarded (obeys_ofOption_bind fun email hemail => ?_)
  show (linking req).Obeys log (if _ then _ else _)
  split
  · trivial
  refine Monitor.Obeys.ask_bind trivial fun found => ?_
  cases found with
  | none => trivial
  | some p =>
    refine Monitor.Obeys.ask_bind trivial fun token => Monitor.Obeys.ask_bind trivial fun now => ?_
    refine obeys_ofOption_bind fun hours hhours => obeys_ofOption_bind fun permission hpermission => ?_
    refine Monitor.Obeys.ask_bind ⟨body, hreq, fun e t he ht => ?_⟩ fun _ => trivial
    exact ⟨⟨email, hemail, he⟩, hpermission, List.mem_append_left _
      (List.mem_append_right _ (List.mem_singleton_self _)),
      now, hours, List.mem_append_right _ (List.mem_singleton_self _), hhours, ht⟩

theorem linksFollow_of_plain {q : Query} (hq : q.plain = true) : LinksFollow req log q := by
  cases q <;> trivial

/-- Only a share request stores a token. -/
theorem links_handle (env : Env) (req : Request) : (linking req).Obeys [] (handle env req) := by
  by_cases hshares : req.endpoint.shares = true
  · obtain ⟨id, body, hreq⟩ : ∃ id body, req.endpoint = .createShareLink id body := by
      cases he : req.endpoint <;> rw [he] at hshares <;> first | exact ⟨_, _, rfl⟩ | cases hshares
    rw [handle, hreq]
    exact obeys_authenticated_of fun _ _ => links_createShareLink hreq
  · have hlimits : ∀ (user : AuthUser) log, (linking req).Obeys log (checkLimits env user) := fun user log =>
      obeys_limits (fun _ => trivial) (fun _ => trivial) fun _ _ _ => trivial
    refine Lenient.handle ⟨fun log q hq => linksFollow_of_plain hq, fun _ user log _ => hlimits user log,
      fun _ _ user log topic slides _ _ => ?_, fun _ _ _ _ _ _ _ _ _ => trivial, fun _ _ _ _ _ _ _ _ => trivial,
      fun _ _ _ _ _ => trivial, fun h => absurd h hshares⟩ []
    refine obeys_ofOption_bind fun data _ => Monitor.Obeys.ask_bind trivial fun deck => ?_
    exact Monitor.Obeys.ask_bind trivial fun _ => trivial

/-- Every link that a request has stored follows its body. -/
theorem ServerRun.links (h₀ : c₀.Idle) (run : ServerRun env c₀ es c) :
    ∀ x ∈ c.sessions, ∀ a ∈ x.log, LinksFollow x.tag x.log a.1 := by
  intro x hx
  have hlinks := Run.monitored (P := fun req log => ∀ a ∈ log, LinksFollow req log a.1) linking
    (fun _ => []) h₀.sessions
    (links_handle env) (fun _ _ h => by cases h) (fun req log q r h hq a ha => ?_) run x hx
  · rwa [linking, after_transcript] at hlinks
  · have hsub : ∀ b ∈ log, b ∈ log ++ [(⟨q, r⟩ : Call)] := fun b hb => List.mem_append_left _ hb
    rcases List.mem_append.mp ha with ha | ha
    · exact (h a ha).mono hsub
    · rw [List.mem_singleton.mp ha]
      exact LinksFollow.mono hq hsub

/-- Every deck that a request has stored belongs to the user it was stored for. -/
theorem ServerRun.ownDecks (h₀ : c₀.Idle) (run : ServerRun env c₀ es c) :
    ∀ x ∈ c.sessions, ∀ a ∈ x.log, OwnDeck a := by
  refine Run.called (P := fun _ a => OwnDeck a) h₀.sessions run fun {es c i x q k r st' p'} run hx hp hact => ?_
  cases q with
  | presentationCreate userId title data =>
    cases r with
    | error e => trivial
    | ok deck =>
      have hends := ServerRun.ends h₀ run x (List.mem_of_getElem? hx)
      rw [hp] at hends
      have hheld := ((ServerRun.coherent h₀ run).sessions i x hx).held
      generalize courseOf env x = m at hends hheld
      cases hends.1 with
      | quiet hquiet _ => cases hquiet
      | create _ _ =>
        obtain ⟨w, ws, -, hexec, -⟩ := Act.outside_ok hact trivial rfl hheld
        exact (presentations_createDeck hexec).2.1
  | _ => trivial

end Links

/-! ### Every step performs its operation -/

/-- The shelf that a store shows. -/
def Store.shelf (st : Store) : Shelf := ⟨st.db.entry?, { x | x ∈ st.db.presentations.keys }⟩

theorem Store.Sound.shows {st : Store} (h : st.Sound) : Shows st.shelf st :=
  ⟨fun _ => rfl, h.presentations, fun _ h => h⟩

/-- The operations of a run, with the numbers of their requests. -/
def deckEffects (env : Env) (es : List ServerEvent) : List (Nat × DeckOp) := effects (Request.effect? env) es

section Runs
variable {env : Env} {c₀ c c' : Server} {es es' : List ServerEvent} {e : ServerEvent} {s : Shelf}

theorem ServerStep.performs (h₀ : c₀.Idle) (run : ServerRun env c₀ es c) (step : ServerStep env c e c')
    (hs : Shows s c.shared) : (e.effect? (Request.effect? env) (c.sessions.map (·.tag))).elim
      (Shows s c'.shared) fun o =>
      ∃ s', shelf.apply s o.2 = some s' ∧ Shows s' c'.shared := by
  cases step with
  | spawn req => exact hs
  | stall hx hp ha => exact hs
  | @act i x q k r st' p' hx hp ha =>
    have hstep := (ServerRun.coherent h₀ run).call (ServerRun.ends h₀ run) hx hp ha
    have hmem := List.mem_of_getElem? hx
    have hq := obeys_of_run h₀.initial run x hmem
    rw [hp] at hq
    have hdid := hstep.did.performs ((ServerRun.inv h₀.initial run).sessions x hmem) hq.1 hstep.issued hs
    simp only [Event.effect?, List.getElem?_map, hx, Option.map_some, Option.bind_some]
    cases heffect : x.tag.effect? env ⟨q, r⟩ with
    | none =>
      rw [heffect] at hdid
      exact hdid
    | some o =>
      rw [heffect] at hdid
      exact hdid

theorem ServerRun.shows (h₀ : c₀.Idle) (run : ServerRun env c₀ es c) :
    ∃ s, shelf.run c₀.shared.shelf ((deckEffects env es).map (·.2)) = some s ∧ Shows s c.shared :=
  Run.performs (X := shelf) (R := fun s c => Shows s c.shared) h₀.sessions h₀.sound.shows run fun run step hs =>
    ServerStep.performs h₀ run step hs

/-- A request performs one operation if its course is done, and none otherwise. -/
theorem performed_iff (h₀ : c₀.Idle) (run : ServerRun env c₀ es c) {i : Nat} {x : ServerSession}
    (hx : c.sessions[i]? = some x) : i ∈ (deckEffects env es).map (·.1) ↔ courseOf env x = .done := by
  have honce := ((ServerRun.coherent h₀ run).sessions i x hx).once
  have hops : c.opsOf (Request.effect? env) i = x.log.filterMap (x.tag.effect? env) := by rw [Config.opsOf, hx]; rfl
  have hmem : i ∈ (deckEffects env es).map (·.1) ↔ x.log.filterMap (x.tag.effect? env) ≠ [] := by
    rw [← hops, List.mem_map]
    constructor
    · rintro ⟨⟨j, o⟩, hjo, rfl⟩ hnil
      rw [deckEffects, Run.effect_mem h₀.sessions run, hnil] at hjo
      cases hjo
    · intro hne
      obtain ⟨o, ho⟩ := List.exists_mem_of_ne_nil _ hne
      exact ⟨(i, o), (Run.effect_mem h₀.sessions run).mpr ho, rfl⟩
  rw [hmem, ← List.length_pos_iff]
  show 0 < performed env x ↔ _
  rw [honce]
  split <;> simp_all

/-- What a request asks for, by the calls that it has made. -/
def Request.AsksFor (env : Env) (req : Request) (log : List Call) : DeckOp → Prop
  | .create _ owner _ => req.endpoint.storesDecks = true ∧ req.userId? env = some owner
  | .save id owner save => ∃ user body, req.endpoint = .updatePresentation id body ∧ req.user? env = some user ∧
      user.id = owner ∧ Slideo.save? user body = some save
  | .remove id owner => req.endpoint = .deletePresentation id ∧ req.userId? env = some owner
  | .share id owner g => ∃ body, req.endpoint = .createShareLink id body ∧
    req.userId? env = some owner ∧ g.Follows body log

theorem asksFor_of_allows {req : Request} {log : List Call} {m : Course} {q : Query}
    {r : Except Err q.Answer} {o : DeckOp} (hq : Allows env req m q) (hcreated : OwnDeck ⟨q, r⟩)
    (hlinks : LinksFollow req log q) (ho : req.effect? env ⟨q, r⟩ = some o) : req.AsksFor env log o := by
  cases r with
  | error err =>
    rw [effect?_error] at ho
    cases ho
  | ok a =>
    have hcommit : q = .commit → req.AsksFor env log o := by
      rintro rfl
      simp only [Request.effect?] at ho
      split at ho
      · rename_i id body hreq
        obtain ⟨user, huser, ho⟩ := Option.bind_eq_some_iff.mp ho
        obtain ⟨save, hsave, ho⟩ := Option.bind_eq_some_iff.mp ho
        cases ho
        exact ⟨user, body, hreq, huser, rfl, hsave⟩
      · rename_i id hreq
        obtain ⟨owner, howner, rfl⟩ := Option.map_eq_some_iff.mp ho
        exact ⟨hreq, howner⟩
      · cases ho
    cases hq with
    | quiet hquiet _ =>
      rw [effect?_quiet hquiet] at ho
      cases ho
    | create hstores huser =>
      cases ho
      have howner : a.row.userId = _ := hcreated
      exact ⟨hstores, huser.trans (congrArg some howner.symm)⟩
    | share _ _ =>
      obtain ⟨owner, howner, ho⟩ := Option.bind_eq_some_iff.mp ho
      obtain ⟨email, hemail, ho⟩ := Option.bind_eq_some_iff.mp ho
      obtain ⟨at_, rfl, ho⟩ := Option.bind_eq_some_iff.mp ho
      cases ho
      obtain ⟨body, hreq, hfollows⟩ := hlinks
      exact ⟨body, hreq, howner, hfollows email at_ (toOption_eq_some.mp hemail) rfl⟩
    | commitCleared _ _ _ | commitFilled | commitDropped _ => exact hcommit rfl
    | begin _ | title _ _ _ _ | clear _ | fill _ _ _ | sweep _ | drop _ | rollback _ => cases ho

/-- Every operation is what its request asks for. -/
theorem asksFor_of_mem (h₀ : c₀.Idle) (run : ServerRun env c₀ es c) {i : Nat} {o : DeckOp}
    (h : (i, o) ∈ deckEffects env es) :
    ∃ x, c.sessions[i]? = some x ∧ x.tag.AsksFor env x.log o := by
  rw [deckEffects, Run.effect_mem h₀.sessions run] at h
  cases hx : c.sessions[i]? with
  | none =>
    rw [Config.opsOf, hx] at h
    cases h
  | some x =>
    rw [Config.opsOf, hx] at h
    obtain ⟨a, ha, ho⟩ := List.mem_filterMap.mp h
    have hmem := List.mem_of_getElem? hx
    have hallowed := Run.logged (P := fun req a => ∃ m, Allows env req m a.1)
      (fun req => Slideo.course env req) (fun _ => .idle)
      h₀.sessions (fun req => (ends_handle env req).mono fun _ _ _ => trivial) (fun req m q r hq => ⟨m, hq⟩) run
    obtain ⟨m, hq⟩ := hallowed x hmem a ha
    exact ⟨x, rfl, asksFor_of_allows hq (ServerRun.ownDecks h₀ run x hmem a ha)
      (ServerRun.links h₀ run x hmem a ha) ho⟩

end Runs

/-! ### The decks are linearizable -/

section Linear
variable {env : Env} {c₀ c c' : Server} {es es' : List ServerEvent} {id : String} {response : Response}

/-- In every run the operations of the requests, in the order in which they take effect, lead the shelf from
    the decks at the start to the decks of the database. A request performs at most one, and what it asks
    for. One that changes decks and has answered below 400 has performed it; one that has answered otherwise
    has not, unless it was about to count a new deck. -/
theorem decks_linearizable (h₀ : c₀.Idle) (run : ServerRun env c₀ es c) :
    (∃ s, shelf.run c₀.shared.shelf ((deckEffects env es).map (·.2)) = some s ∧
      ∀ id, s.decks id = c.shared.db.entry? id) ∧
    ((deckEffects env es).map (·.1)).Nodup ∧
    (∀ i o, (i, o) ∈ deckEffects env es → ∃ x, c.sessions[i]? = some x ∧ x.tag.AsksFor env x.log o) ∧
    ∀ (i : Nat) (x : ServerSession) (response : Response), c.sessions[i]? = some x → x.prog = .pure response →
      (response.status < 400 → x.tag.endpoint.changesDecks = true → i ∈ (deckEffects env es).map (·.1)) ∧
      (i ∈ (deckEffects env es).map (·.1) → x.tag.endpoint.countsDecks = true ∨ response.status < 400) := by
  refine ⟨?_, ?_, fun i o h => asksFor_of_mem h₀ run h, fun i x response hx hp => ?_⟩
  · obtain ⟨s, hs, hshows⟩ := ServerRun.shows h₀ run
    exact ⟨s, hs, hshows.decks⟩
  · refine Run.effects_once h₀.sessions run fun x hx => ?_
    obtain ⟨i, hi⟩ := List.mem_iff_getElem?.mp hx
    have honce := ((ServerRun.coherent h₀ run).sessions i x hi).once
    unfold performed at honce
    rw [honce]
    split <;> omega
  · have hends := ServerRun.ends h₀ run x (List.mem_of_getElem? hx)
    rw [hp] at hends
    rw [performed_iff h₀ run hx]
    refine ⟨fun hlow hchanges => hends.changed response rfl hlow hchanges, fun hdone => ?_⟩
    rcases hends.answered hdone with hcounts | ⟨response', hresponse, hlow⟩
    · exact Or.inl hcounts
    · cases hresponse
      exact Or.inr hlow

end Linear

/-- The office before anything happened. -/
def newOffice : Server := ⟨⟨officeDb, ∅⟩, []⟩

theorem newOffice_idle : newOffice.Idle where
  sessions := rfl
  sound := ⟨⟨fun _ h => (by cases h), fun _ h => by cases h⟩, fun _ h => (by cases h), fun _ h => by cases h⟩

/-- `alice` creates a deck, then saves and deletes it at the same time. -/
def saveAndDelete : List Move :=
  [.arrive (aliceRequest (.createPresentation (some (.obj [("topic", .str "Roadmap"), ("slides", .arr [])])))),
    .answer 0, .answer 0, .answer 0, .answer 0,
    .arrive (aliceRequest (.updatePresentation (issue 3 0)
      (some (.obj [("title", .str "Plan"), ("slides", .arr [])])))),
    .arrive (aliceRequest (.deletePresentation (issue 3 0))),
    .answer 1, .answer 2, .answer 1, .answer 2, .answer 2, .answer 1, .answer 1, .answer 1, .answer 2, .answer 2]

theorem save_before_delete :
    ∃ es c s, ServerRun office newOffice es c ∧ c.sessions.all (·.prog.ended) = true ∧
      (deckEffects office es).map (·.1) = [0, 1, 2] ∧
      shelf.run newOffice.shared.shelf ((deckEffects office es).map (·.2)) = some s ∧
      ∀ id, s.decks id = c.shared.db.entry? id := by
  have hplay : newOffice.playable (fun _ _ => true) office 0 0 saveAndDelete = true := by decide +kernel
  have hissued : Unissued 0 newOffice.shared.issued := fun _ _ _ h => h
  obtain ⟨run, -⟩ := Server.play_run office hissued hplay
  obtain ⟨⟨s, hs, hdecks⟩, -, -, -⟩ := decks_linearizable newOffice_idle run.run
  exact ⟨_, _, s, run.run, by decide +kernel, by decide +kernel, hs, hdecks⟩

/-! ### References -/

/-- In every state of every run each slide and each share token belongs to a presentation that exists, each
    stored id was issued, and no presentation is locked by two transactions. -/
theorem references_sound {env : Env} {c₀ c : Server} {es : List ServerEvent}
    (h₀ : c₀.Idle) (run : ServerRun env c₀ es c) :
    (∀ s ∈ c.shared.db.slides.rows, s.presentationId ∈ c.shared.db.presentations.keys) ∧
    (∀ t ∈ c.shared.db.shareTokens.rows, t.presentationId ∈ c.shared.db.presentations.keys) ∧
    (∀ x ∈ c.shared.db.presentations.keys, x ∈ c.shared.issued) ∧
    (∀ x ∈ c.shared.db.slides.keys, x ∈ c.shared.issued) ∧
    ∀ (i j : Nat) (x y : ServerSession) (id : String), c.sessions[i]? = some x → c.sessions[j]? = some y →
      x.priv.claims id → y.priv.claims id → i = j := by
  obtain ⟨hsound, -, hapart⟩ := ServerRun.coherent h₀ run
  refine ⟨hsound.linked.slides, hsound.linked.shareTokens, hsound.presentations, hsound.slides,
    fun i j x y id hx hy hclaim hclaim' => ?_⟩
  by_contra hij
  exact (hapart i j x y hij hx hy).rows id hclaim hclaim'

/-- `alice` creates a deck and shares it while she saves it. -/
def shareWhileSaving : List Move :=
  [.arrive (aliceRequest (.createPresentation
    (some (.obj [("topic", .str "Roadmap"), ("slides", .arr [.obj []])])))),
    .answer 0, .answer 0, .answer 0, .answer 0,
    .arrive (aliceRequest (.updatePresentation (issue 3 0)
      (some (.obj [("title", .str "Plan"), ("slides", .arr [])])))),
    .arrive (aliceRequest (.createShareLink (issue 3 0) (some (.obj [("recipientEmail", .str "bob@slideo.ai")])))),
    .answer 1, .answer 1, .answer 1, .answer 2, .answer 2, .answer 2, .answer 2]

theorem shared_while_saving :
    ∃ es c, ServerRun office newOffice es c ∧ c.shared.db.slides.rows.length = 1 ∧
    c.shared.db.shareTokens.rows.length = 1 ∧
      (∀ s ∈ c.shared.db.slides.rows, s.presentationId ∈ c.shared.db.presentations.keys) ∧
      ∀ t ∈ c.shared.db.shareTokens.rows, t.presentationId ∈ c.shared.db.presentations.keys := by
  have hplay : newOffice.playable (fun _ _ => true) office 0 0 shareWhileSaving = true := by decide +kernel
  obtain ⟨run, -⟩ := Server.play_run office (show Unissued 0 newOffice.shared.issued from fun _ _ _ h => h) hplay
  obtain ⟨hslides, htokens, -⟩ := references_sound newOffice_idle run.run
  exact ⟨_, _, run.run, by decide +kernel, by decide +kernel, hslides, htokens⟩

end Slideo
