import Slideo.Theorems.Effects
import Slideo.Theorems.WriteIsolation

/-! Share links. Each token row was made by a `createShareLink` request of the owner that has answered with it,
    and keeps its presentation from being deleted; so the two public readers of share links grant exactly what
    was shared, until it expires. -/

namespace Slideo
open Js Interleave

/-! ### What a request has shared -/

/-- The part of a share token that its readers go by. -/
structure Link where
  presentationId : String
  token : String
  permission : String
  expiresAt : Time

def ShareToken.link (t : ShareToken) : Link := ⟨t.presentationId, t.token, t.permission, t.expiresAt⟩

/-- The tokens that a request has drawn, and the link it has made. -/
structure Drafts where
  drawn : Set String
  made : Option Link

def Drafts.none : Drafts := ⟨∅, .none⟩

/-- The calls of a `createShareLink`: statements, of which the last one makes a link under a token it drew. -/
def sharing : Monitor Query Query.Answer Err Drafts where
  Allowed m q := q.IsStatement ∧ m.made = .none ∧ match q with
    | .shareTokenCreate _ token _ _ _ => token ∈ m.drawn
    | _ => True
  next m
    | .randomUUID, .ok token => { m with drawn := { x | x ∈ m.drawn ∨ x = token } }
    | .shareTokenCreate id token _ permission expiresAt, .ok _ =>
      { m with made := some ⟨id, token, permission, expiresAt.getD 0⟩ }
    | _, _ => m

/-- The request of `user` answers that it shares presentation `p` under token `k`. -/
def Returns (env : Env) (req : Request) (response : Response) (user : AuthUser) (p k : String) (expiresAt : Time)
    (permission : Json) : Prop :=
  req.user? env = some user ∧
    (∃ body, req.endpoint = .createShareLink p body ∧ permission = (getOpt body "permission").getD (.str "view")) ∧
    ∃ url, response = ⟨201, .shareLink url k expiresAt (some permission)⟩

/-- A request answers with a link exactly when it has made it. -/
def Announces (env : Env) (req : Request) (m : Drafts) (r : Except Err Response) : Prop :=
  match m.made with
  | .none => ∀ response user p k expiresAt permission, r = .ok response →
    ¬ Returns env req response user p k expiresAt permission
  | some link => ∃ response user permission, r = .ok response ∧ permission.toStr = some link.permission ∧
      Returns env req response user link.presentationId link.token link.expiresAt permission

section Discipline
variable {env : Env} {req : Request} {user : AuthUser} {id : String} {body : Val} {m : Drafts}

theorem announces_of_status {response : Response} (hm : m.made = none) (h : response.status ≠ 201) :
    Announces env req m (.ok response) := by
  rw [Announces, hm]
  rintro _ user p k expiresAt permission hr ⟨-, -, url, rfl⟩
  cases hr
  exact h rfl

/-- Whatever is thrown before the link is made is answered with an error. -/
theorem sharing_guarded {onError : Err → Response} {body : Handler Response}
    (herror : ∀ e, (onError e).status = 500) (h : sharing.Ensures m body fun m r => match r with
      | .ok response => Announces env req m (.ok response)
      | .error _ => m.made = none) : sharing.Ensures m (guarded onError body) (Announces env req) :=
  h.caught (fun _ _ h => h) fun _ e hr => announces_of_status hr (by rw [herror]; decide)

theorem sharing_createShareLink (huser : req.user? env = some user)
    (hreq : req.endpoint = .createShareLink id body) :
    sharing.Ensures .none (createShareLink env user id body) (Announces env req) := by
  refine sharing_guarded (fun _ => rfl) ?_
  unfold prop
  cases Js.get body "recipientEmail" with
  | none => exact rfl
  | some recipientEmail =>
    show Monitor.Ensures _ _ (if _ then _ else _) _
    split
    · show Announces env req .none (.ok _)
      exact announces_of_status rfl (show 400 ≠ 201 by decide)
    refine ⟨⟨trivial, rfl, trivial⟩, fun r => ?_⟩
    rcases r with e | _ | p
    · exact rfl
    · show Announces env req .none (.ok _)
      exact announces_of_status rfl (show 404 ≠ 201 by decide)
    refine ⟨⟨trivial, rfl, trivial⟩, fun r => ?_⟩
    rcases r with e | token
    · exact rfl
    refine ⟨⟨trivial, rfl, trivial⟩, fun r => ?_⟩
    rcases r with e | now
    · exact rfl
    show Monitor.Ensures _ _ (ofOption (toNumber (some ((getOpt body "expiryHours").getD (.num 24)))) >>= _) _
    cases toNumber (some ((getOpt body "expiryHours").getD (.num 24))) with
    | none => exact rfl
    | some hours =>
      show Monitor.Ensures _ _ (ofOption ((getOpt body "permission").getD (.str "view")).toStr >>= _) _
      cases hpermission : ((getOpt body "permission").getD (.str "view")).toStr with
      | none => exact rfl
      | some permission =>
        refine ⟨⟨trivial, rfl, Or.inr rfl⟩, fun r => ?_⟩
        rcases r with e | _
        · exact rfl
        · exact ⟨_, user, _, rfl, hpermission, huser, ⟨body, hreq, rfl⟩, _, rfl⟩

theorem sharing_handle (hreq : req.endpoint = .createShareLink id body) :
    sharing.Ensures .none (handle env req) (Announces env req) := by
  rw [handle, hreq]
  show sharing.Ensures _ (authenticated env req (createShareLink env · id body)) _
  unfold authenticated
  cases hauth : authenticate env req.authorization with
  | ok user => exact sharing_createShareLink (by rw [Request.user?, hauth]) hreq
  | error response =>
    -- nothing is returned to a request without a user
    rintro _ user p k expiresAt permission - ⟨huser, -⟩
    rw [Request.user?, hauth] at huser
    cases huser

end Discipline

/-! ### The readers -/

section Readers
variable {env : Env} {ws : Nat → World} {req : Request} {db : Db} {p k : String}

theorem serve_resolveShareToken (hreq : req.endpoint = .resolveShareToken k) :
    (serve env ws req db).result = .ok (match db.shareToken? k with
      | none => .error 404 "Share link not found or has already been used"
      | some t => if t.expiresAt < (ws 1).now then .error 410 "This share link has expired"
        else ⟨200, .resolved t.presentationId
          (shownTitle db t.presentationId) t.permission t.recipientEmail t.expiresAt⟩) := by
  rw [serve, handle, hreq]
  exact result_resolveShareToken

theorem serve_getSharedPresentation (hreq : req.endpoint = .getSharedPresentation p (some (.str k))) :
    (serve env ws req db).result = .ok (if k = "" then .error 401 "Share token required"
      else match db.shareToken? k with
      | none => .error 404 "Invalid share token"
      | some t => if t.presentationId ≠ p then .error 404 "Invalid share token"
        else if t.expiresAt < (ws 1).now then .error 410 "This share link has expired"
        else match db.deck? p with
        | none => .error 404 "Presentation not found"
        | some deck => ⟨200, .shared ⟨deck.row, byIndex deck.slides⟩ t.permission⟩) := by
  rw [serve, handle, hreq]
  by_cases hk : k = ""
  · subst hk
    rfl
  · rw [if_neg hk]
    exact result_getSharedPresentation (by simpa [truthy] using hk) rfl

end Readers

/-! ### Token rows -/

section Writes
variable {p : String}

theorem apply_shareTokens {db : Db} {y : Write} (h : ∀ t, y ≠ .insertShareToken t) :
    (db.apply y).shareTokens = db.shareTokens := by
  cases y with
  | insertShareToken t => exact absurd rfl (h t)
  | _ => rfl

/-- Only a new token changes the share tokens. -/
theorem applyAll_shareTokens {ws : List Write} : ∀ {db : Db}, (∀ t, .insertShareToken t ∉ ws) →
    (db.applyAll ws).shareTokens = db.shareTokens := by
  induction ws with
  | nil => exact fun _ => rfl
  | cons y ws ih =>
    intro db h
    rw [Db.applyAll_cons, ih fun t ht => h t (List.mem_cons_of_mem y ht)]
    exact apply_shareTokens fun t hy => h t (hy ▸ List.mem_cons_self)

theorem mem_keys_apply {db : Db} {y : Write} (hp : p ∈ db.presentations.keys) (hy : y ≠ .deletePresentation p) :
    p ∈ (db.apply y).presentations.keys := by
  cases y with
  | insertPresentation x =>
    obtain ⟨r, hr, rfl⟩ := Table.mem_keys.mp hp
    exact Table.mem_keys.mpr ⟨r, Table.mem_insert_of_mem hr, rfl⟩
  | patchPresentation id at_ title =>
    rw [Db.apply, Table.modify_keys]
    exact hp
  | deletePresentation id =>
    obtain ⟨r, hr, rfl⟩ := Table.mem_keys.mp hp
    have hne : r.id ≠ id := fun h => hy (by rw [h])
    exact Table.mem_keys.mpr ⟨r, Table.mem_delete.mpr ⟨hr, beq_eq_false_iff_ne.mpr hne⟩, rfl⟩
  | _ => exact hp

/-- A presentation stays unless it is deleted. -/
theorem mem_keys_applyAll {ws : List Write} : ∀ {db : Db}, p ∈ db.presentations.keys → .deletePresentation p ∉ ws →
    p ∈ (db.applyAll ws).presentations.keys := by
  induction ws with
  | nil => exact fun hp _ => hp
  | cons y ws ih =>
    intro db hp hws
    refine ih (mem_keys_apply hp fun hy => hws (hy ▸ List.mem_cons_self)) fun h => hws (List.mem_cons_of_mem y h)

theorem tokensOf_eq_nil {db : Db} : db.tokensOf p = [] ↔ ∀ t ∈ db.shareTokens.rows, t.presentationId ≠ p := by
  rw [Db.tokensOf, List.filter_eq_nil_iff]
  simp

theorem tokensOf_congr {db db' : Db} (h : db'.shareTokens = db.shareTokens) : db'.tokensOf p = db.tokensOf p := by
  rw [Db.tokensOf, h]
  rfl

/-- Only `shareTokenCreate` makes tokens. -/
theorem not_insertShareToken {w : World} {q : Query} (hq : ∀ id token email permission expiresAt,
      q ≠ .shareTokenCreate id token email permission expiresAt) (t : ShareToken) :
      ¬ Issues w q (.insertShareToken t) := by
  intro h
  obtain ⟨id, token, email, permission, expiresAt, rfl⟩ := h.source
  exact hq id token email permission expiresAt rfl

/-- Only `presentationDelete` deletes, and only what is not shared. -/
theorem unshared_of_delete {w : World} {snap db : Db} {q : Query} {a : q.Answer} {ws : List Write}
    (h : exec w snap db q = .ok (a, ws)) (hp : .deletePresentation p ∈ ws) : db.tokensOf p = [] := by
  obtain rfl : q = .presentationDelete p := (exec_issues h _ hp).source
  exact (deletePresentationRow_ok h).2.2.2.1

end Writes

/-- The open transaction makes no tokens, and deletes nothing that is shared. -/
structure Unsharing (db : Db) (c : Conn) : Prop where
  quiet : ∀ t, .insertShareToken t ∉ c.tx.getD []
  restrict : ∀ p, .deletePresentation p ∈ c.tx.getD [] → db.tokensOf p = []

section Calls
variable {s s' : Store} {others : List Conn} {c c' : Conn} {q : Query} {r : Except Err q.Answer}

theorem Unsharing.of_none {db : Db} (h : c.tx = none) : Unsharing db c := by
  constructor <;> rw [h] <;> exact fun _ h => by cases h

theorem Unsharing.congr {db db' : Db} (h : Unsharing db c) (hc : c'.tx = c.tx)
    (hdb : db'.shareTokens = db.shareTokens) :
    Unsharing db' c' := by
  constructor
  · rw [hc]
    exact h.quiet
  · rw [hc]
    exact fun p hp => (tokensOf_congr hdb).trans (h.restrict p hp)

theorem Unsharing.view {db : Db} (h : Unsharing db c) :
    (c.view db).shareTokens = db.shareTokens := applyAll_shareTokens h.quiet

/-- A shared presentation stays. -/
theorem shared_stays {db : Db} {ws : List Write} (hws : ∀ p, .deletePresentation p ∈ ws → db.tokensOf p = [])
    {t : ShareToken} (ht : t ∈ db.shareTokens.rows) (hp : t.presentationId ∈ db.presentations.keys) :
    t.presentationId ∈ (db.applyAll ws).presentations.keys :=
  mem_keys_applyAll hp fun h => tokensOf_eq_nil.mp (hws _ h) t ht rfl

/-- A call that makes no token keeps the tokens, and what they refer to. -/
theorem Act.keepsTokens (h : Act s others c q r s' c') (hheld : Unsharing s.db c)
    (hq : ∀ id token email permission expiresAt, q ≠ .shareTokenCreate id token email permission expiresAt) :
    s'.db.shareTokens = s.db.shareTokens ∧ Unsharing s'.db c' ∧
      ∀ t ∈ s.db.shareTokens.rows, t.presentationId ∈ s.db.presentations.keys →
      t.presentationId ∈ s'.db.presentations.keys := by
  have hstatement : q.IsStatement → s'.db.shareTokens = s.db.shareTokens ∧ Unsharing s'.db c' ∧
      ∀ t ∈ s.db.shareTokens.rows, t.presentationId ∈ s.db.presentations.keys →
        t.presentationId ∈ s'.db.presentations.keys := by
    intro hstatement
    cases htx : c.tx with
    | none =>
      obtain ⟨htx', ⟨e, -, hdb⟩ | ⟨w, snap, a, ws, hexec, -, -, hdb⟩⟩ := h.outside hstatement htx
      · rw [hdb]
        exact ⟨rfl, .of_none htx', fun _ _ hp => hp⟩
      · rw [hdb]
        refine ⟨applyAll_shareTokens fun t ht => ?_, .of_none htx', fun t ht hp => ?_⟩
        · exact not_insertShareToken hq t (exec_issues hexec _ ht)
        · exact shared_stays (fun p hdel => unshared_of_delete hexec hdel) ht hp
    | some ws =>
      obtain ⟨hdb, ⟨e, -, rfl⟩ | ⟨w, a, ws', hexec, -, rfl, -⟩⟩ := h.inside hstatement htx
      · rw [hdb]
        exact ⟨rfl, hheld.congr htx.symm rfl, fun _ _ hp => hp⟩
      · rw [hdb]
        have hquiet := hheld.quiet
        have hrestrict := hheld.restrict
        rw [htx] at hquiet hrestrict
        refine ⟨rfl, ⟨fun t ht => ?_, fun p hdel => ?_⟩, fun _ _ hp => hp⟩
        · rcases List.mem_append.mp ht with ht | ht
          · exact hquiet t ht
          · exact not_insertShareToken hq t (exec_issues hexec _ ht)
        · rcases List.mem_append.mp hdel with hdel | hdel
          · exact hrestrict p hdel
          · rw [← tokensOf_congr hheld.view]
            exact unshared_of_delete hexec hdel
  cases q with
  | begin | rollback =>
    rcases h.inv with ⟨w, -, -, -, rfl, rfl⟩ | ⟨-, rfl, rfl⟩
    · exact ⟨rfl, ⟨fun _ h => (by cases h), fun _ h => (by cases h)⟩, fun _ _ hp => hp⟩
    · first | exact ⟨rfl, hheld.congr rfl rfl, fun _ _ hp => hp⟩ | exact ⟨rfl, .of_none rfl, fun _ _ hp => hp⟩
  | commit =>
    rcases h.inv with ⟨w, -, -, -, rfl, rfl⟩ | ⟨-, rfl, rfl⟩
    · exact ⟨hheld.view, .of_none rfl, fun t ht hp => shared_stays hheld.restrict ht hp⟩
    · exact ⟨rfl, .of_none rfl, fun _ _ hp => hp⟩
  | shareTokenCreate id token email permission expiresAt =>
    exact absurd rfl (hq id token email permission expiresAt)
  | _ => exact hstatement trivial

/-- A token is made for a presentation that nobody is deleting. -/
theorem Act.makesToken {id token permission : String} {email : Val} {expiresAt : Option Time}
    {r : Except Err (Query.Answer (.shareTokenCreate id token email permission expiresAt))}
    (h : Act s others c (.shareTokenCreate id token email permission expiresAt) r s' c') (htx : c.tx = none) :
    c'.tx = none ∧ ((∃ e, r = .error e ∧ s'.db = s.db) ∨ ∃ t, r = .ok () ∧
      s'.db = s.db.apply (.insertShareToken t) ∧
      t.link = ⟨id, token, permission, expiresAt.getD 0⟩ ∧
      id ∈ s.db.presentations.keys ∧ t.id ∉ s.db.shareTokens.keys ∧
      s.db.shareToken? token = none ∧ ∀ d ∈ others, .deletePresentation id ∉ d.tx.getD []) := by
  refine ⟨(h.outside trivial htx).1, ?_⟩
  rcases h.inv with ⟨w, -, hunblocked, rfl, rfl, rfl⟩ | ⟨rfl, rfl, rfl⟩
  · have hview : c.view s.db = s.db := by rw [Conn.view, htx]; rfl
    have hstart : c.start s.db (.shareTokenCreate id token email permission expiresAt) = s.db := hview
    unfold Unblocked newWrites at hunblocked
    rw [perform_eq (q := .shareTokenCreate id token email permission expiresAt) trivial]
    rw [hstart, hview] at hunblocked ⊢
    cases hexec : exec w s.db s.db (.shareTokenCreate id token email permission expiresAt) with
    | error e => exact Or.inl ⟨e, rfl, rfl⟩
    | ok out =>
      obtain ⟨u, ws⟩ := out
      obtain ⟨e, t, -, rfl, hid, hkey, htoken, rfl⟩ := createShareToken_ok hexec
      rw [hexec] at hunblocked
      rw [htx]
      refine Or.inr ⟨_, rfl, rfl, rfl, hid, hkey, htoken, fun d hd hdel => ?_⟩
      have hconflict := hunblocked d hd _ hdel _ List.mem_cons_self
      simp [Write.conflicts] at hconflict
  · exact Or.inl ⟨_, rfl, rfl⟩

end Calls

/-! ### Every run -/

def drafts (s : ServerSession) : Drafts := sharing.after .none s.log

/-- What is known of a request. -/
structure Sharer (env : Env) (db : Db) (s : ServerSession) : Prop where
  drawn : ∀ k ∈ (drafts s).drawn, k ≠ ""
  owned : ∀ link, (drafts s).made = some link →
    link.presentationId ∈ ((ownership (s.tag.scope env)).after .none s.log).owned
  alone : s.tag.endpoint.shares = true → s.priv.tx = none
  held : Unsharing db s.priv

/-- The token rows are what the requests have shared. The empty string is never issued as a token. -/
structure SharesInv (env : Env) (c : Server) : Prop where
  issued : "" ∈ c.shared.issued
  sessions : ∀ s ∈ c.sessions, Sharer env c.shared.db s
  rows : ∀ t ∈ c.shared.db.shareTokens.rows, ∃ s ∈ c.sessions,
    s.tag.endpoint.shares = true ∧ (drafts s).made = some t.link
  links : ∀ s ∈ c.sessions, ∀ link, (drafts s).made = some link → ∃ t ∈ c.shared.db.shareTokens.rows, t.link = link
  unique : ∀ t ∈ c.shared.db.shareTokens.rows, ∀ t' ∈ c.shared.db.shareTokens.rows, t.token = t'.token → t = t'
  named : ∀ t ∈ c.shared.db.shareTokens.rows, t.token ≠ ""
  linked : ∀ t ∈ c.shared.db.shareTokens.rows, t.presentationId ∈ c.shared.db.presentations.keys

/-- What is left of every request keeps to the disciplines. -/
structure Disciplined (env : Env) (c : Server) : Prop where
  routing : ∀ s ∈ c.sessions, (routing (s.tag.userId? env) s.tag.endpoint).Obeys
    ((routing (s.tag.userId? env) s.tag.endpoint).after ∅ s.log) s.prog
  ownership : ∀ s ∈ c.sessions, (ownership (s.tag.scope env)).Obeys
    ((ownership (s.tag.scope env)).after .none s.log) s.prog
  sharing : ∀ s ∈ c.sessions, s.tag.endpoint.shares = true → sharing.Ensures (drafts s) s.prog (Announces env s.tag)

section Runs
variable {env : Env} {c₀ c c' : Server} {e : ServerEvent} {es : List ServerEvent}

theorem shares_iff {endpoint : Endpoint} : endpoint.shares = true ↔
    ∃ p body, endpoint = .createShareLink p body := by
  cases endpoint <;> simp [Endpoint.shares]

theorem disciplined_of_run (h₀ : c₀.Initial) (run : ServerRun env c₀ es c) : Disciplined env c := by
  have hnone : ∀ {P : ServerSession → Prop}, ∀ s ∈ c₀.sessions, P s := by
    intro P s hs
    rw [h₀.sessions] at hs
    cases hs
  refine ⟨?_, obeys_of_run h₀ run, ?_⟩
  · exact Run.obeys (fun req => routing (req.userId? env) req.endpoint) (fun _ => ∅) run
      (fun req => routing_handle req ∅) hnone
  · refine Run.ensures (T := fun req => req.endpoint.shares = true) (fun _ => sharing)
      (fun _ => .none) run (fun req hreq => ?_) hnone
    obtain ⟨p, body, hreq⟩ := shares_iff.mp hreq
    exact sharing_handle hreq

/-- A request that has made its link makes no more calls. -/
theorem Disciplined.unmade {s : ServerSession} {q : Query}
    {k : Except Err q.Answer → Handler Response} (h : Disciplined env c) (hs : s ∈ c.sessions)
    (hp : s.prog = .call q k) (hshares : s.tag.endpoint.shares = true) : (drafts s).made = none := by
  have hensures := h.sharing s hs hshares
  rw [hp] at hensures
  exact hensures.1.2.1

theorem Sharer.congr {db db' : Db} {s : ServerSession} (h : Sharer env db s)
    (hdb : db'.shareTokens = db.shareTokens) :
    Sharer env db' s :=
  ⟨h.drawn, h.owned, h.alone, h.held.congr rfl hdb⟩

theorem drafts_append {s : ServerSession} {q : Query} {r : Except Err q.Answer}
    {k : Except Err q.Answer → Handler Response} {π' : Conn} :
    drafts ⟨s.tag, π', k r, s.log ++ [⟨q, r⟩]⟩ = sharing.next (drafts s) q r := Monitor.after_append _ _ _

theorem sharing_next_made {m : Drafts} {q : Query} {r : Except Err q.Answer}
    (hq : ∀ id token email permission expiresAt, q ≠ .shareTokenCreate id token email permission expiresAt) :
    (sharing.next m q r).made = m.made := by
  cases q with
  | shareTokenCreate id token email permission expiresAt =>
    exact absurd rfl (hq id token email permission expiresAt)
  | randomUUID => cases r <;> rfl
  | _ => rfl

/-- A token that is drawn was not issued before. -/
theorem Act.drawn {s s' : Store} {others : List Conn} {c c' : Conn} {k : String}
    (h : Act s others c .randomUUID (.ok k) s' c') :
    k ∉ s.issued := by
  rcases h.inv with ⟨w, hfresh, -, hr, -, -⟩ | ⟨hr, -, -⟩
  · rw [perform_eq (q := .randomUUID) trivial] at hr
    have hk : k = w.uuid 0 := by
      obtain ⟨tx, snapshot⟩ := c
      cases tx <;> exact Except.ok.inj hr
    rw [hk]
    exact hfresh.2 0
  · cases hr

/-- A request after one of its calls. -/
theorem Sharer.act {st st' : Store} {others : List Conn} {s : ServerSession} {q : Query} {r : Except Err q.Answer}
    {k : Except Err q.Answer → Handler Response} {π' : Conn} (h : Sharer env st.db s)
    (ha : Act st others s.priv q r st' π') (hissued : "" ∈ st.issued)
    (howner : (ownership (s.tag.scope env)).Allowed ((ownership (s.tag.scope env)).after .none s.log) q)
    (hshares : s.tag.endpoint.shares = true → q.IsStatement) (hheld : Unsharing st'.db π') :
    Sharer env st'.db ⟨s.tag, π', k r, s.log ++ [⟨q, r⟩]⟩ := by
  refine ⟨?_, ?_, fun hs => (ha.outside (hshares hs) (h.alone hs)).1, hheld⟩
  · rw [drafts_append]
    cases q with
    | randomUUID =>
      rcases r with e | token
      · exact h.drawn
      · rintro x (hx | rfl)
        · exact h.drawn x hx
        · rintro rfl
          exact ha.drawn hissued
    | shareTokenCreate _ _ _ _ _ => cases r <;> exact h.drawn
    | _ => exact h.drawn
  · rw [drafts_append, Monitor.after_append]
    intro link hlink
    refine next_owned_subset r ?_
    cases q with
    | shareTokenCreate id token email permission expiresAt =>
      rcases r with e | _
      · exact h.owned link hlink
      · cases hlink
        exact howner
    | randomUUID => cases r <;> exact h.owned link hlink
    | _ => exact h.owned link hlink

/-- The requests that have made a token are none that takes a step. -/
theorem SharesInv.rows_set (inv : SharesInv env c) (hd : Disciplined env c)
    {i : Nat} {s : ServerSession} {q : Query} {k : Except Err q.Answer → Handler Response}
    (hs : c.sessions[i]? = some s) (hp : s.prog = .call q k) (y : ServerSession) :
    ∀ t ∈ c.shared.db.shareTokens.rows, ∃ x ∈ c.sessions.set i y, x.tag.endpoint.shares = true ∧
    (drafts x).made = some t.link := by
  intro t ht
  obtain ⟨x, hx, hshares, hmade⟩ := inv.rows t ht
  refine ⟨x, mem_set_of_ne hs hx ?_, hshares, hmade⟩
  rintro rfl
  rw [hd.unmade hx hp hshares] at hmade
  cases hmade

/-- A step that makes no token. -/
theorem SharesInv.keep (inv : SharesInv env c) (hd : Disciplined env c) {i : Nat} {s y : ServerSession} {q : Query}
    {k : Except Err q.Answer → Handler Response} {st : Store}
    (hs : c.sessions[i]? = some s) (hp : s.prog = .call q k) (hissued : c.shared.issued ⊆ st.issued)
    (htokens : st.db.shareTokens = c.shared.db.shareTokens)
    (hstay : ∀ t ∈ c.shared.db.shareTokens.rows, t.presentationId ∈ c.shared.db.presentations.keys →
      t.presentationId ∈ st.db.presentations.keys) (hy : Sharer env st.db y)
      (hmade : (drafts y).made = (drafts s).made) :
    SharesInv env ⟨st, c.sessions.set i y⟩ := by
  refine ⟨hissued inv.issued, fun x hx => ?_, ?_, fun x hx link hlink => ?_, ?_, ?_, ?_⟩ <;> simp only [htokens]
  · rcases List.mem_or_eq_of_mem_set hx with hx | rfl
    · exact (inv.sessions x hx).congr htokens
    · exact hy
  · exact inv.rows_set hd hs hp y
  · rcases List.mem_or_eq_of_mem_set hx with hx | rfl
    · exact inv.links x hx link hlink
    · exact inv.links s (List.mem_of_getElem? hs) link (hmade ▸ hlink)
  · exact inv.unique
  · exact inv.named
  · exact fun t ht => hstay t ht (inv.linked t ht)

/-- A step that makes a token. -/
theorem SharesInv.make (inv : SharesInv env c) (hd : Disciplined env c) {i : Nat} {s y : ServerSession} {q : Query}
    {k : Except Err q.Answer → Handler Response} {st : Store} {t : ShareToken} (hs : c.sessions[i]? = some s)
    (hp : s.prog = .call q k) (hissued : c.shared.issued ⊆ st.issued)
    (hdb : st.db = c.shared.db.apply (.insertShareToken t)) (hkey : t.id ∉ c.shared.db.shareTokens.keys)
    (htoken : c.shared.db.shareToken? t.token = none) (hname : t.token ≠ "")
    (hlinked : t.presentationId ∈ c.shared.db.presentations.keys)
    (hothers : ∀ d ∈ c.others i, .deletePresentation t.presentationId ∉ d.tx.getD []) (htx : s.priv.tx = none)
    (hy : Sharer env st.db y) (hshares : y.tag.endpoint.shares = true) (hmade : (drafts y).made = some t.link) :
    SharesInv env ⟨st, c.sessions.set i y⟩ := by
  have hrows : st.db.shareTokens.rows = c.shared.db.shareTokens.rows ++ [t] := by
    rw [hdb]
    exact Table.insert_rows hkey
  have hmem : ∀ {x}, x ∈ st.db.shareTokens.rows ↔ x ∈ c.shared.db.shareTokens.rows ∨ x = t := by
    intro x
    rw [hrows, List.mem_append, List.mem_singleton]
  have hnew : ∀ x ∈ c.shared.db.shareTokens.rows, x.token ≠ t.token := by
    intro x hx hsame
    exact absurd (beq_iff_eq.mpr hsame) (List.find?_eq_none.mp htoken x hx)
  have hkeys : st.db.presentations = c.shared.db.presentations := by rw [hdb]; rfl
  have hself : y ∈ c.sessions.set i y := by
    obtain ⟨hi, -⟩ := List.getElem?_eq_some_iff.mp hs
    exact List.mem_set hi y
  refine ⟨hissued inv.issued, fun x hx => ?_, fun x hx => ?_, fun x hx link hlink =>
    ?_, fun x hx x' hx' hsame => ?_, fun x hx => ?_, fun x hx => ?_⟩
  · rcases List.mem_or_eq_of_mem_set hx with hx | rfl
    · have hsharer := inv.sessions x hx
      refine ⟨hsharer.drawn, hsharer.owned, hsharer.alone, hsharer.held.quiet, fun p hdel =>
        tokensOf_eq_nil.mpr fun t' ht' => ?_⟩
      rcases hmem.mp ht' with ht' | rfl
      · exact tokensOf_eq_nil.mp (hsharer.held.restrict p hdel) t' ht'
      · rintro rfl
        by_cases hxs : x = s
        · rw [hxs, htx] at hdel
          cases hdel
        · exact hothers _ (mem_others_of_ne hs hx hxs) hdel
    · exact hy
  · rcases hmem.mp hx with hx | rfl
    · exact inv.rows_set hd hs hp y x hx
    · exact ⟨y, hself, hshares, hmade⟩
  · rcases List.mem_or_eq_of_mem_set hx with hx | rfl
    · obtain ⟨t', ht', hlink⟩ := inv.links x hx link hlink
      exact ⟨t', hmem.mpr (Or.inl ht'), hlink⟩
    · rw [hmade] at hlink
      exact ⟨t, hmem.mpr (Or.inr rfl), Option.some.inj hlink⟩
  · rcases hmem.mp hx with hx | rfl <;> rcases hmem.mp hx' with hx' | rfl
    · exact inv.unique x hx x' hx' hsame
    · exact absurd hsame (hnew x hx)
    · exact absurd hsame.symm (hnew x' hx')
    · rfl
  · rcases hmem.mp hx with hx | rfl
    · exact inv.named x hx
    · exact hname
  · show x.presentationId ∈ st.db.presentations.keys
    rw [hkeys]
    rcases hmem.mp hx with hx | rfl
    · exact inv.linked x hx
    · exact hlinked

theorem SharesInv.step (inv : SharesInv env c) (hd : Disciplined env c)
    (hissued : c.shared.issued ⊆ c'.shared.issued) (h : ServerStep env c e c') :
    SharesInv env c' ∧ ∀ t ∈ c.shared.db.shareTokens.rows, t ∈ c'.shared.db.shareTokens.rows := by
  cases h with
  | spawn req =>
    refine ⟨⟨inv.issued, fun s hs => ?_, fun t ht => ?_, fun s hs link hlink => ?_, inv.unique,
      inv.named, inv.linked⟩, fun _ h => h⟩
    · rcases List.mem_append.mp hs with hs | hs
      · exact inv.sessions s hs
      · rw [List.mem_singleton.mp hs]
        exact ⟨fun _ h => h.elim, fun _ h => (by cases h), fun _ => rfl, .of_none rfl⟩
    · obtain ⟨s, hs, hmade⟩ := inv.rows t ht
      exact ⟨s, List.mem_append_left _ hs, hmade⟩
    · rcases List.mem_append.mp hs with hs | hs
      · exact inv.links s hs link hlink
      · rw [List.mem_singleton.mp hs] at hlink
        cases hlink
  | @act i s q k r σ' π' hs hp ha =>
    have hmem := List.mem_of_getElem? hs
    have hsharer := inv.sessions s hmem
    have hrouting := hd.routing s hmem
    have howner := hd.ownership s hmem
    have hsharing := hd.sharing s hmem
    rw [hp] at hrouting howner hsharing
    have hstatement : s.tag.endpoint.shares = true → q.IsStatement := fun hshares => (hsharing hshares).1.1
    by_cases hmakes : ∃ id token email permission expiresAt,
      q = .shareTokenCreate id token email permission expiresAt
    · obtain ⟨id, token, email, permission, expiresAt, rfl⟩ := hmakes
      have hshares : s.tag.endpoint.shares = true := hrouting.1
      obtain ⟨htx, hresult⟩ := ha.makesToken (hsharer.alone hshares)
      have hy := @Sharer.act _ _ _ _ _ _ _ k _ hsharer ha inv.issued howner.1 hstatement (.of_none htx)
      rcases hresult with ⟨e, rfl, hdb⟩ | ⟨t, rfl, hdb, hlink, hid, hkey, htoken, hothers⟩
      · exact ⟨inv.keep hd hs hp hissued (by rw [hdb])
          (by rw [hdb]; exact fun _ _ h => h) hy (by rw [drafts_append]; rfl), by rw [hdb]; exact fun _ h => h⟩
      · obtain rfl : t.presentationId = id := congrArg Link.presentationId hlink
        obtain rfl : t.token = token := congrArg Link.token hlink
        have hname := hsharer.drawn t.token (hsharing hshares).1.2.2
        refine ⟨inv.make hd hs hp hissued hdb hkey htoken hname hid hothers
          (hsharer.alone hshares) hy hshares ?_, ?_⟩
        · rw [drafts_append]
          exact congrArg some hlink.symm
        · rw [hdb]
          exact fun _ h => Table.mem_insert_of_mem h
    · have hnone : ∀ id token email permission expiresAt,
        q ≠ .shareTokenCreate id token email permission expiresAt :=
        fun id token email permission expiresAt hq => hmakes ⟨id, token, email, permission, expiresAt, hq⟩
      obtain ⟨htokens, hheld, hstay⟩ := ha.keepsTokens hsharer.held hnone
      have hy := @Sharer.act _ _ _ _ _ _ _ k _ hsharer ha inv.issued howner.1 hstatement hheld
      refine ⟨inv.keep hd hs hp hissued htokens hstay hy ?_, by rw [htokens]; exact fun _ h => h⟩
      rw [drafts_append]
      exact sharing_next_made hnone
  | @stall i s q k π' hs hp ha =>
    obtain ⟨-, -, rfl⟩ := ha
    have hsharer := inv.sessions s (List.mem_of_getElem? hs)
    have hy : Sharer env c.shared.db { s with priv := { s.priv with snapshot := some c.shared.db } } :=
      ⟨hsharer.drawn, hsharer.owned, hsharer.alone, hsharer.held.congr rfl rfl⟩
    exact ⟨inv.keep hd hs hp hissued rfl (fun _ _ h => h) hy rfl, fun _ h => h⟩

theorem sharesInv_of_initial (h₀ : c₀.Initial) (hnone : c₀.shared.db.shareTokens.rows = [])
    (hempty : "" ∈ c₀.shared.issued) :
    SharesInv env c₀ := by
  have hsessions : ∀ {P : ServerSession → Prop}, ∀ s ∈ c₀.sessions, P s := by
    intro P s hs
    rw [h₀.sessions] at hs
    cases hs
  have hrows : ∀ {P : ShareToken → Prop}, ∀ t ∈ c₀.shared.db.shareTokens.rows, P t := by
    intro P t ht
    rw [hnone] at ht
    cases ht
  exact ⟨hempty, hsessions, hrows, hsessions, hrows, hrows, hrows⟩

/-- The invariant holds in every run, and tokens stay. -/
theorem sharesInv_of_run (h₀ : c₀.Initial) {es' : List ServerEvent}
    (run : ServerRun env c₀ es c) (run' : ServerRun env c es' c') (inv : SharesInv env c) :
    SharesInv env c' ∧ ∀ t ∈ c.shared.db.shareTokens.rows, t ∈ c'.shared.db.shareTokens.rows := by
  induction run' with
  | nil => exact ⟨inv, fun _ h => h⟩
  | snoc run' step ih =>
    have run₁ := run.trans run'
    obtain ⟨hev, -⟩ := (ServerRun.inv h₀ run₁).step (obeys_of_run h₀ run₁) step
    obtain ⟨inv', hstay⟩ := ih.1.step (disciplined_of_run h₀ run₁) hev.issued step
    exact ⟨inv', fun t ht => hstay t (ih.2 t ht)⟩

end Runs

/-! ### What is granted -/

/-- At time `t` a link for `p` under `k` is in force: `p` exists, and a request of its owner has answered with `k`
    and with an expiry that is not over. -/
def Granted (env : Env) (c : Server) (p k : String) (t : Time) : Prop :=
  ∃ row, c.shared.db.presentations.find? p = some row ∧ ∃ s ∈ c.sessions, ∃ response user expiresAt permission,
    s.prog = .pure response ∧ Returns env s.tag response user p k expiresAt permission ∧
      user.id = row.userId ∧ t ≤ expiresAt

section Granted
variable {env : Env} {c₀ c : Server} {es : List ServerEvent} {p k : String} {now : Time}

/-- A token finds its row. -/
theorem SharesInv.shareToken? (inv : SharesInv env c) {t : ShareToken} (ht : t ∈ c.shared.db.shareTokens.rows) :
    c.shared.db.shareToken? t.token = some t := by
  have hsome : (c.shared.db.shareToken? t.token).isSome := List.find?_isSome.mpr ⟨t, ht, beq_self_eq_true _⟩
  obtain ⟨t', ht'⟩ := Option.isSome_iff_exists.mp hsome
  obtain ⟨hmem, htoken⟩ := shareToken?_eq_some ht'
  rw [ht', inv.unique t' hmem t ht htoken]

/-- The request that has made a token row has answered with it, to the owner. -/
theorem returned_of_row (h₀ : c₀.Initial) (run : ServerRun env c₀ es c) (inv : SharesInv env c) {t : ShareToken}
    (ht : t ∈ c.shared.db.shareTokens.rows) :
    ∃ row, c.shared.db.presentations.find? t.presentationId = some row ∧
    ∃ s ∈ c.sessions, ∃ response user permission,
      s.prog = .pure response ∧ Returns env s.tag response user t.presentationId t.token t.expiresAt permission ∧
      user.id = row.userId ∧ permission.toStr = some t.permission := by
  obtain ⟨row, hrow, hid⟩ := Table.mem_keys.mp (inv.linked t ht)
  have hfind : c.shared.db.presentations.find? t.presentationId = some row := Table.find?_eq_some.mpr ⟨hrow, hid⟩
  obtain ⟨s, hs, hshares, hmade⟩ := inv.rows t ht
  have hensures := (disciplined_of_run h₀ run).sharing s hs hshares
  have howned := ((ServerRun.inv h₀ run).sessions s hs).owned _ ((inv.sessions s hs).owned _ hmade)
  cases hprog : s.prog with
  | call q f =>
    rw [hprog] at hensures
    have hnone := hensures.1.2.1
    rw [hmade] at hnone
    cases hnone
  | throw e =>
    rw [hprog] at hensures
    replace hensures : Announces env s.tag (drafts s) (.error e) := hensures
    rw [Announces, hmade] at hensures
    obtain ⟨_, _, _, hr, -⟩ := hensures
    cases hr
  | pure response =>
    rw [hprog] at hensures
    replace hensures : Announces env s.tag (drafts s) (.ok response) := hensures
    rw [Announces, hmade] at hensures
    obtain ⟨_, user, permission, hr, hpermission, hreturns⟩ := hensures
    cases hr
    refine ⟨row, hfind, s, hs, response, user, permission, hprog, hreturns, ?_, hpermission⟩
    have huser : (s.tag.scope env).user = some user.id := by rw [Request.scope, hreturns.1]; rfl
    exact Option.some.inj (huser.symm.trans (howned.2 row hrow hid))

/-- A request that has answered with a link has made its token row. -/
theorem row_of_returned (h₀ : c₀.Initial) (run : ServerRun env c₀ es c) (inv : SharesInv env c) {s : ServerSession}
    {response : Response} {user : AuthUser} {expiresAt : Time} {permission : Json} (hs : s ∈ c.sessions)
    (hprog : s.prog = .pure response) (h : Returns env s.tag response user p k expiresAt permission) :
    ∃ t, c.shared.db.shareToken? k = some t ∧ t.presentationId = p ∧ t.expiresAt = expiresAt := by
  obtain ⟨-, ⟨body, hreq, -⟩, url, rfl⟩ := id h
  have hensures := (disciplined_of_run h₀ run).sharing s hs (shares_iff.mpr ⟨p, body, hreq⟩)
  rw [hprog] at hensures
  replace hensures : Announces env s.tag (drafts s) (.ok _) := hensures
  unfold Announces at hensures
  cases hmade : (drafts s).made with
  | none =>
    rw [hmade] at hensures
    exact absurd h (hensures _ _ _ _ _ _ rfl)
  | some link =>
    rw [hmade] at hensures
    obtain ⟨_, _, _, hr, -, -, ⟨body', hreq', -⟩, url', hresponse⟩ := hensures
    cases hr
    cases hresponse
    rw [hreq] at hreq'
    cases hreq'
    obtain ⟨t, ht, rfl⟩ := inv.links s hs link hmade
    exact ⟨t, inv.shareToken? ht, rfl, rfl⟩

theorem granted_iff (h₀ : c₀.Initial) (run : ServerRun env c₀ es c) (inv : SharesInv env c) :
    Granted env c p k now ↔ ∃ t, c.shared.db.shareToken? k = some t ∧ t.presentationId = p ∧ now ≤ t.expiresAt := by
  constructor
  · rintro ⟨row, -, s, hs, response, user, expiresAt, permission, hprog, hreturns, -, hnow⟩
    obtain ⟨t, ht, hp, rfl⟩ := row_of_returned h₀ run inv hs hprog hreturns
    exact ⟨t, ht, hp, hnow⟩
  · rintro ⟨t, ht, rfl, hnow⟩
    obtain ⟨hmem, rfl⟩ := shareToken?_eq_some ht
    obtain ⟨row, hrow, s, hs, response, user, permission, hprog, hreturns, howner, -⟩ :=
      returned_of_row h₀ run inv hmem
    exact ⟨row, hrow, s, hs, response, user, t.expiresAt, permission, hprog, hreturns, howner, hnow⟩

end Granted

section Readers
variable {env : Env} {ws : Nat → World} {req : Request} {db : Db} {p k : String}

theorem token_of_resolved {id title permission email : String} {expiresAt : Time}
    (hreq : req.endpoint = .resolveShareToken k)
    (h : (serve env ws req db).result = .ok ⟨200, .resolved id title permission email expiresAt⟩) :
    ∃ t, db.shareToken? k = some t ∧ t.presentationId = id ∧
    (ws 1).now ≤ t.expiresAt ∧ t.permission = permission := by
  rw [serve_resolveShareToken hreq] at h
  cases ht : db.shareToken? k with
  | none =>
    rw [ht] at h
    cases h
  | some t =>
    rw [ht] at h
    replace h : (if _ then _ else _ : Response) = _ := Except.ok.inj h
    split at h
    · cases h
    · rename_i hnow
      cases h
      exact ⟨t, rfl, rfl, not_lt.mp hnow, rfl⟩

theorem resolved_of_token {t : ShareToken} (hreq : req.endpoint = .resolveShareToken k)
    (ht : db.shareToken? k = some t) (hnow : (ws 1).now ≤ t.expiresAt) : (serve env ws req db).result =
      .ok ⟨200, .resolved t.presentationId (shownTitle db t.presentationId) t.permission
        t.recipientEmail t.expiresAt⟩ := by
  rw [serve_resolveShareToken hreq, ht]
  exact congrArg Except.ok (if_neg (not_lt.mpr hnow))

theorem token_of_shared {deck : Deck} {permission : String}
    (hreq : req.endpoint = .getSharedPresentation p (some (.str k)))
    (h : (serve env ws req db).result = .ok ⟨200, .shared deck permission⟩) :
    ∃ t, db.shareToken? k = some t ∧ t.presentationId = p ∧
    (ws 1).now ≤ t.expiresAt ∧ t.permission = permission := by
  rw [serve_getSharedPresentation hreq] at h
  replace h := Except.ok.inj h
  split at h
  · cases h
  cases ht : db.shareToken? k with
  | none =>
    rw [ht] at h
    cases h
  | some t =>
    rw [ht] at h
    replace h : (if _ then _ else _ : Response) = _ := h
    split at h
    · cases h
    rename_i hp
    split at h
    · cases h
    rename_i hnow
    cases hdeck : db.deck? p with
    | none =>
      rw [hdeck] at h
      cases h
    | some found =>
      rw [hdeck] at h
      cases h
      exact ⟨t, rfl, not_not.mp hp, not_lt.mp hnow, rfl⟩

theorem shared_of_token {t : ShareToken} {deck : Deck}
    (hreq : req.endpoint = .getSharedPresentation p (some (.str k))) (hk : k ≠ "")
    (ht : db.shareToken? k = some t) (hp : t.presentationId = p) (hnow : (ws 1).now ≤ t.expiresAt)
    (hdeck : db.deck? p = some deck) :
    (serve env ws req db).result = .ok ⟨200, .shared ⟨deck.row, byIndex deck.slides⟩ t.permission⟩ := by
  rw [serve_getSharedPresentation hreq, if_neg hk, ht, hdeck]
  show Except.ok (if _ then _ else if _ then _ else _) = _
  rw [if_neg (not_not.mpr hp), if_neg (not_lt.mpr hnow)]

/-- Either reader refuses a token as expired only when it is. -/
theorem token_of_expired {message : String} (h : (∃ p, req.endpoint = .getSharedPresentation p (some (.str k))) ∨
      req.endpoint = .resolveShareToken k) (hresult : (serve env ws req db).result = .ok (.error 410 message)) :
    ∃ t, db.shareToken? k = some t ∧ t.expiresAt < (ws 1).now := by
  cases ht : db.shareToken? k with
  | none =>
    rcases h with ⟨p, hreq⟩ | hreq
    · rw [serve_getSharedPresentation hreq, ht] at hresult
      replace hresult : (if _ then _ else _ : Response) = _ := Except.ok.inj hresult
      split at hresult <;> cases hresult
    · rw [serve_resolveShareToken hreq, ht] at hresult
      cases hresult
  | some t =>
    refine ⟨t, rfl, not_le.mp fun hnow => ?_⟩
    rcases h with ⟨p, hreq⟩ | hreq
    · by_cases hk : k = ""
      · rw [serve_getSharedPresentation hreq, if_pos hk] at hresult
        cases hresult
      by_cases hp : t.presentationId = p
      · cases hdeck : db.deck? p with
        | none =>
          rw [serve_getSharedPresentation hreq, if_neg hk, ht, hdeck] at hresult
          replace hresult : (if _ then _ else if _ then _ else _ : Response) = _ := Except.ok.inj hresult
          rw [if_neg (not_not.mpr hp), if_neg (not_lt.mpr hnow)] at hresult
          cases hresult
        | some deck =>
          rw [shared_of_token hreq hk ht hp hnow hdeck] at hresult
          cases hresult
      · rw [serve_getSharedPresentation hreq, if_neg hk, ht] at hresult
        replace hresult : (if _ then _ else _ : Response) = _ := Except.ok.inj hresult
        rw [if_pos hp] at hresult
        cases hresult
    · rw [resolved_of_token hreq ht hnow] at hresult
      cases hresult

/-- An expired token is refused by both. -/
theorem refused_of_expired {t : ShareToken} (h : (∃ p, req.endpoint = .getSharedPresentation p (some (.str k))) ∨
      req.endpoint = .resolveShareToken k) (ht : db.shareToken? k = some t) (hnow : t.expiresAt < (ws 1).now) :
    ∃ response, (serve env ws req db).result = .ok response ∧ response.status ≠ 200 := by
  rcases h with ⟨p, hreq⟩ | hreq
  · refine ⟨_, serve_getSharedPresentation hreq, ?_⟩
    split
    · exact show 401 ≠ 200 by decide
    rw [ht]
    show (if _ then _ else if _ then _ else _ : Response).status ≠ 200
    rw [if_pos hnow]
    split
    · exact show 404 ≠ 200 by decide
    · exact show 410 ≠ 200 by decide
  · refine ⟨_, serve_resolveShareToken hreq, ?_⟩
    rw [ht]
    show (if _ then _ else _ : Response).status ≠ 200
    rw [if_pos hnow]
    exact show 410 ≠ 200 by decide

end Readers

/-- In every run that starts without share tokens, the two readers grant exactly what was shared: they answer 200
    with a presentation as long as a link for it is in force, with the permission given at its creation; and a token
    that either refuses as expired is refused by both from then on. -/
theorem share_links_exact {env : Env} {c₀ c : Server} {es : List ServerEvent}
    {p k : String} {shared resolve : Request} (h₀ : c₀.Initial) (hnone : c₀.shared.db.shareTokens.rows = [])
    (hempty : "" ∈ c₀.shared.issued) (run : ServerRun env c₀ es c)
    (hshared : shared.endpoint = .getSharedPresentation p (some (.str k)))
    (hresolve : resolve.endpoint = .resolveShareToken k) (ws : Nat → World) :
    ((∃ deck permission, c.shared.db.deck? p = some deck ∧ (byIndex deck.slides).Perm deck.slides ∧
        (serve env ws shared c.shared.db).result = .ok ⟨200, .shared ⟨deck.row, byIndex deck.slides⟩ permission⟩) ↔
      Granted env c p k (ws 1).now) ∧
    ((∃ title permission email expiresAt,
        (serve env ws resolve c.shared.db).result = .ok ⟨200, .resolved p title permission email expiresAt⟩) ↔
      Granted env c p k (ws 1).now) ∧
    (∀ ws' deck permission id title permission' email expiresAt,
      (serve env ws shared c.shared.db).result = .ok ⟨200, .shared deck permission⟩ →
      (serve env ws' resolve c.shared.db).result = .ok ⟨200, .resolved id title permission' email expiresAt⟩ →
      permission = permission' ∧ ∃ s ∈ c.sessions, ∃ response user expiresAt given, s.prog = .pure response ∧
        Returns env s.tag response user p k expiresAt given ∧ given.toStr = some permission) ∧
    (∀ es' c' ws' message, ServerRun env c es' c' → (ws 1).now ≤ (ws' 1).now →
      ((serve env ws shared c.shared.db).result = .ok (.error 410 message) ∨
        (serve env ws resolve c.shared.db).result = .ok (.error 410 message)) →
      (∃ response, (serve env ws' shared c'.shared.db).result = .ok response ∧ response.status ≠ 200) ∧
      ∃ response, (serve env ws' resolve c'.shared.db).result = .ok response ∧ response.status ≠ 200) := by
  obtain ⟨inv, -⟩ := sharesInv_of_run h₀ .nil run (sharesInv_of_initial h₀ hnone hempty)
  rw [granted_iff h₀ run inv]
  refine ⟨⟨?_, ?_⟩, ⟨?_, ?_⟩, ?_, ?_⟩
  · rintro ⟨deck, permission, -, -, hresult⟩
    obtain ⟨t, ht, hp, hnow, -⟩ := token_of_shared hshared hresult
    exact ⟨t, ht, hp, hnow⟩
  · rintro ⟨t, ht, rfl, hnow⟩
    obtain ⟨hmem, rfl⟩ := shareToken?_eq_some ht
    obtain ⟨row, hrow, -⟩ := returned_of_row h₀ run inv hmem
    have hdeck : c.shared.db.deck? t.presentationId = some ⟨row, c.shared.db.slidesOf t.presentationId⟩ := by
      rw [Db.deck?, hrow]
      rfl
    exact ⟨_, _, hdeck, byIndex_perm _, shared_of_token hshared (inv.named t hmem) ht rfl hnow hdeck⟩
  · rintro ⟨title, permission, email, expiresAt, hresult⟩
    obtain ⟨t, ht, hp, hnow, -⟩ := token_of_resolved hresolve hresult
    exact ⟨t, ht, hp, hnow⟩
  · rintro ⟨t, ht, rfl, hnow⟩
    exact ⟨_, _, _, _, resolved_of_token hresolve ht hnow⟩
  · intro ws' deck permission id title permission' email expiresAt hresult hresult'
    obtain ⟨t, ht, rfl, -, rfl⟩ := token_of_shared hshared hresult
    obtain ⟨_, ht', -, -, rfl⟩ := token_of_resolved hresolve hresult'
    rw [ht] at ht'
    cases ht'
    obtain ⟨hmem, rfl⟩ := shareToken?_eq_some ht
    obtain ⟨row, -, s, hs, response, user, given, hprog, hreturns, -, hgiven⟩ := returned_of_row h₀ run inv hmem
    exact ⟨rfl, s, hs, response, user, t.expiresAt, given, hprog, hreturns, hgiven⟩
  · intro es' c' ws' message run' hlater hexpired
    obtain ⟨t, ht, hnow⟩ : ∃ t, c.shared.db.shareToken? k = some t ∧ t.expiresAt < (ws 1).now := by
      rcases hexpired with hresult | hresult
      · exact token_of_expired (Or.inl ⟨p, hshared⟩) hresult
      · exact token_of_expired (Or.inr hresolve) hresult
    obtain ⟨hmem, rfl⟩ := shareToken?_eq_some ht
    obtain ⟨inv', hstay⟩ := sharesInv_of_run h₀ run run' inv
    have ht' := inv'.shareToken? (hstay t hmem)
    have hnow' := lt_of_lt_of_le hnow hlater
    exact ⟨refused_of_expired (Or.inl ⟨p, hshared⟩) ht' hnow', refused_of_expired (Or.inr hresolve) ht' hnow'⟩

/-- The office, where the empty string is no id. -/
def sharingOffice : Server := ⟨⟨officeDb, {""}⟩, []⟩

/-- `alice` creates a presentation, numbers its two slides against their order, and shares it. -/
def sharingMoves : List Move :=
  [.arrive (aliceRequest (.createPresentation (some (.obj [("topic", .str "Roadmap"),
      ("slides", .arr [.obj [("index", .num 1)], .obj [("index", .num 0)]])])))),
    .answer 0, .answer 0, .answer 0, .answer 0,
    .arrive (aliceRequest (.createShareLink (issue 3 0) (some (.obj [("recipientEmail", .str "bob@slideo.ai")])))),
    .answer 1, .answer 1, .answer 1, .answer 1]

theorem shared_link_opens :
    ∃ es c deck slides permission, ServerRun office sharingOffice es c ∧ c.shared.db.deck? (issue 3 0) = some deck ∧
      (serve office (world 0) ⟨none, .getSharedPresentation (issue 3 0) (some (.str (issue 7 0)))⟩
        c.shared.db).result =
        .ok ⟨200, .shared ⟨deck.row, slides⟩ permission⟩ ∧
      slides.Perm deck.slides ∧ deck.slides.map (·.index) = [1, 0] ∧ slides.map (·.index) = [0, 1] := by
  have init : sharingOffice.Initial := ⟨rfl, fun p hp => by cases hp⟩
  have hplay : sharingOffice.playable (fun _ _ => true) office 0 0 sharingMoves = true := by decide +kernel
  have hissued : Unissued 0 sharingOffice.shared.issued := by
    intro m k _ h
    have hlength := congrArg (fun s : String => s.toList.length) (Set.mem_singleton_iff.mp h)
    simp [issue] at hlength
  obtain ⟨run, -⟩ := Server.play_run office hissued hplay
  have htoken : (sharingOffice.play office 0 0 sharingMoves).shared.db.shareToken? (issue 7 0) =
      some ⟨issue 9 0, issue 3 0, issue 7 0, "bob@slideo.ai", "view", 86400000, false, 0⟩ := by decide +kernel
  have hslides : ((sharingOffice.play office 0 0 sharingMoves).shared.db.deck? (issue 3 0)).map
      (fun d => (d.slides.map (·.index), (byIndex d.slides).map (·.index))) = some ([1, 0], [0, 1]) := by
        decide +kernel
  have hresolved := @resolved_of_token office (world 0) ⟨none, .resolveShareToken (issue 7 0)⟩ _ _ _ rfl htoken
    (by decide)
  obtain ⟨hshared, hresolve, -⟩ := @share_links_exact office _ _ _ (issue 3 0) (issue 7 0)
    ⟨none, .getSharedPresentation (issue 3 0) (some (.str (issue 7 0)))⟩ ⟨none, .resolveShareToken (issue 7 0)⟩
    init rfl rfl run.run rfl rfl (world 0)
  obtain ⟨deck, permission, hdeck, hperm, hresult⟩ := hshared.mpr (hresolve.mp ⟨_, _, _, _, hresolved⟩)
  rw [hdeck] at hslides
  obtain ⟨hstored, hshown⟩ := Prod.mk.inj (Option.some.inj hslides)
  exact ⟨_, _, deck, _, permission, run.run, hdeck, hresult, hperm, hstored, hshown⟩

end Slideo
