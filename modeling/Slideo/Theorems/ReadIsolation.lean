import Slideo.Schedule
import Slideo.Theorems.Agreement

/-! What a response shows. Over two databases that differ only in what is hidden from a request, every
    endpoint answers the same, except `exportToPptx`, which never asks whose presentation it exports. -/

namespace Slideo
open Js Interleave

/-! ### What a request may see -/

/-- The request is its owner's, or carries a share token of the presentation that is valid at `now`. -/
def Request.sees (env : Env) (now : Time) (req : Request) (db : Db) (p : Presentation) : Bool :=
  (req.user? env).any (·.id == p.userId) ||
    (db.tokensOf p.id).any fun t => req.endpoint.token? == some t.token && decide (now ≤ t.expiresAt)

/-- The id names a presentation that the request may not see. -/
def Request.hides (env : Env) (now : Time) (req : Request) (db : Db) (id : String) : Bool :=
  (db.presentations.find? id).any fun p => !req.sees env now db p

section Hides
variable {env : Env} {now : Time} {req : Request} {db : Db}

theorem hides_iff {id : String} : req.hides env now db id = true ↔
    ∃ p ∈ db.presentations.rows, p.id = id ∧ req.sees env now db p = false := by
  rw [Request.hides, Option.any_eq_true]
  constructor
  · rintro ⟨p, hp, hsees⟩
    exact ⟨p, Table.mem_of_find? hp, Table.key_of_find? hp, by simpa using hsees⟩
  · rintro ⟨p, hp, rfl, hsees⟩
    exact ⟨p, Table.find?_of_mem hp, by simp [hsees]⟩

theorem not_owner_of_hides {p : Presentation} (hp : p ∈ db.presentations.rows)
    (hid : req.hides env now db p.id = true) : (req.user? env).map (·.id) ≠ some p.userId := by
  obtain ⟨p', hp', hkey, hsees⟩ := hides_iff.mp hid
  obtain rfl := Table.eq_of_key hp' hp hkey
  intro howner
  obtain ⟨user, huser, hid⟩ := Option.map_eq_some_iff.mp howner
  simp [Request.sees, huser, hid] at hsees

/-- A valid token of the request opens its presentation. -/
theorem not_hides_of_token {t : ShareToken} (ht : t ∈ db.shareTokens.rows)
    (hcarried : req.endpoint.token? = some t.token) (hvalid : now ≤ t.expiresAt) :
    req.hides env now db t.presentationId = false := by
  rw [← Bool.not_eq_true, hides_iff]
  rintro ⟨p, hp, hid, hsees⟩
  have hmem : t ∈ db.tokensOf p.id := List.mem_filter.mpr ⟨ht, by rw [hid]; exact beq_self_eq_true _⟩
  have hany : (db.tokensOf p.id).any (fun t =>
    req.endpoint.token? == some t.token && decide (now ≤ t.expiresAt)) = true :=
    List.any_eq_true.mpr ⟨t, hmem, by simp [hcarried, hvalid]⟩
  rw [Request.sees, hany, Bool.or_true] at hsees
  cases hsees

end Hides

/-! ### Endpoints whose target is hidden -/

section Forbidden
variable {ws : Nat → World} {n : Nat} {db : Db} {user : AuthUser} {id : String} {p : Presentation}

theorem result_find {α : Type} {f : Option Deck → Handler α} (hp : db.presentations.find? id = some p) :
    ((ask (.presentationFindUnique id) >>= f).run answer ws n (db, {})).result =
      ((f (some ⟨p, db.slidesOf id⟩)).run answer ws (n + 1) (db, {})).result := by
  rw [result_deck, Db.deck?, hp, Option.map_some]

theorem getPresentationById_forbidden (hp : db.presentations.find? id = some p) (hne : p.userId ≠ user.id) :
    ((getPresentationById user id).run answer ws 0 (db, {})).result =
      .ok (if user.id = "" then .error 401 "Unauthorized" else .error 403 "Forbidden") := by
  unfold getPresentationById
  rw [result_guarded]
  split
  · rfl
  · rw [result_find hp]
    simp only [hne, ne_eq, not_false_eq_true, if_true]
    rfl

theorem deletePresentation_forbidden (hp : db.presentations.find? id = some p) (hne : p.userId ≠ user.id) :
    ((deletePresentation user id).run answer ws 0 (db, {})).result =
      .ok (if user.id = "" then .error 401 "Unauthorized" else .error 403 "Forbidden") := by
  unfold deletePresentation
  rw [result_guarded]
  split
  · rfl
  · rw [result_find hp]
    simp only [hne, ne_eq, not_false_eq_true, if_true]
    rfl

/-- The answer to a save of someone else's presentation. -/
def updateForbidden (user : AuthUser) (body : Val) : Response :=
  match get body "title", get body "slides" with
  | some _, some _ => if user.id = "" then .error 401 "Unauthorized" else .error 403 "Forbidden"
  | _, _ => .error 500 "Failed to update presentation"

theorem updatePresentation_forbidden {body : Val}
    (hp : db.presentations.find? id = some p) (hne : p.userId ≠ user.id) :
    ((updatePresentation user id body).run answer ws 0 (db, {})).result = .ok (updateForbidden user body) := by
  unfold updatePresentation updateForbidden prop
  rw [result_guarded]
  cases get body "title" with
  | none => rfl
  | some title =>
    cases get body "slides" with
    | none => rfl
    | some slides =>
      show Except.ok (caught _ (Prog.run answer ws (if user.id = "" then _ else _) 0 (db, {})).result) = _
      simp only
      split
      · rfl
      · rw [result_find hp]
        simp only [hne, ne_eq, not_false_eq_true, if_true]
        rfl

end Forbidden

/-! ### The share endpoints -/

section Share
variable {env : Env} {ws : Nat → World} {req : Request} {db db' : Db}

theorem resolveShareToken_same {token : String} (h : DiffersOnlyIn (req.hides env (ws 1).now db) db db')
    (hreq : req.endpoint = .resolveShareToken token) :
    ((resolveShareToken token).run answer ws 0 (db', {})).result =
      ((resolveShareToken token).run answer ws 0 (db, {})).result := by
  rw [result_resolveShareToken, result_resolveShareToken, resolvedAt, resolvedAt, Db.shareToken?, h.shareTokens,
    ← Db.shareToken?]
  cases ht : db.shareToken? token with
  | none => rfl
  | some t =>
    by_cases hexp : t.expiresAt < (ws 1).now
    · simp only [hexp, if_true]
    · obtain ⟨hmem, htoken⟩ := shareToken?_eq_some ht
      have hcarried : req.endpoint.token? = some t.token := by rw [hreq, Endpoint.token?, htoken]
      have hvis : req.hides env (ws 1).now db t.presentationId = false :=
        not_hides_of_token hmem hcarried (not_lt.mp hexp)
      simp only [shownTitle, h.find?_eq hvis]

theorem getSharedPresentation_same {id : String} {token : Val}
    (h : DiffersOnlyIn (req.hides env (ws 1).now db) db db')
    (hreq : req.endpoint = .getSharedPresentation id token) :
    ((getSharedPresentation id token).run answer ws 0 (db', {})).result =
      ((getSharedPresentation id token).run answer ws 0 (db, {})).result := by
  cases htruthy : truthy token with
  | false =>
    unfold getSharedPresentation
    rw [result_guarded, result_guarded, htruthy]
    rfl
  | true =>
    cases hstr : toStr token with
    | none =>
      unfold getSharedPresentation
      rw [result_guarded, result_guarded, htruthy, hstr]
      rfl
    | some text =>
      rw [result_getSharedPresentation htruthy hstr, result_getSharedPresentation htruthy hstr, sharedAt, sharedAt,
        Db.shareToken?, h.shareTokens, ← Db.shareToken?]
      cases ht : db.shareToken? text with
      | none => rfl
      | some t =>
        simp only
        split
        · rfl
        rename_i hid
        split
        · rfl
        rename_i hexp
        obtain ⟨hmem, htoken⟩ := shareToken?_eq_some ht
        have hcarried : req.endpoint.token? = some t.token := by rw [hreq, Endpoint.token?, hstr, htoken]
        have hvis : req.hides env (ws 1).now db t.presentationId = false :=
          not_hides_of_token hmem hcarried (not_lt.mp hexp)
        rw [not_not.mp hid] at hvis
        rw [h.deck?_eq hvis]

end Share

/-! ### Every endpoint -/

section Isolation
variable {env : Env} {ws : Nat → World} {req : Request} {db db' : Db}

/-- The ids that the request can draw. -/
def drawnBy (ws : Nat → World) : Set String := { x | ∃ n k, x = (ws n).uuid k }

theorem agree_of_differs {now : Time} (h : DiffersOnlyIn (req.hides env now db) db db')
    (hdb : ∀ x ∈ drawnBy ws, x ∉ db.slides.keys) (hdb' : ∀ x ∈ drawnBy ws, x ∉ db'.slides.keys) :
    Agree (req.scope env).user (drawnBy ws) (req.hides env now db) db db' where
  toDiffersOnlyIn := h
  owner _ hp hH := not_owner_of_hides hp hH
  hidden x hx := by
    obtain ⟨p, hp, rfl, -⟩ := hides_iff.mp hx
    exact Table.mem_keys.mpr ⟨p, hp, rfl⟩
  fresh s hs _ hdrawn := hdb _ hdrawn (Table.mem_keys.mpr ⟨s, hs, rfl⟩)
  fresh' s hs _ hdrawn := hdb' _ hdrawn (Table.mem_keys.mpr ⟨s, hs, rfl⟩)

/-- A request that looks up nothing hidden, and no token, cannot tell the databases apart. -/
theorem serve_same {now : Time} (h : Agree (req.scope env).user (drawnBy ws) (req.hides env now db) db db')
    (htarget : ∀ id, req.endpoint.target? = some id → req.hides env now db id = false)
    (htoken : req.endpoint.token? = none) : (serve env ws req db').result = (serve env ws req db).result := by
  refine Monitor.Obeys.lockstep (R := Twins (req.scope env) (drawnBy ws) (req.hides env now db))
    (fun {m q n s s'} hq hR => hR.call (fun k => ⟨n, k, rfl⟩) hq) (obeys_handle req) ?_
  exact ⟨rfl, rfl, h, h, htarget, htoken, fun x hx => hx.elim⟩

theorem result_anonymous {handler : AuthUser → Handler Response} (huser : req.user? env = none) :
    ((authenticated env req handler).run answer ws 0 (db', {})).result =
      ((authenticated env req handler).run answer ws 0 (db, {})).result := by
  unfold authenticated
  unfold Request.user? at huser
  cases hauth : authenticate env req.authorization with
  | ok user =>
    rw [hauth] at huser
    cases huser
  | error response => rfl

/-- The row on both sides, when the target is hidden; it is not the user's. -/
theorem hidden_rows {now : Time} {id : String} {user : AuthUser} (h : DiffersOnlyIn (req.hides env now db) db db')
    (hid : req.hides env now db id = true) (huser : req.user? env = some user) :
    ∃ p p', db.presentations.find? id = some p ∧ db'.presentations.find? id = some p' ∧ p.userId ≠ user.id ∧
      p'.userId ≠ user.id := by
  obtain ⟨p, hp, rfl, -⟩ := hides_iff.mp hid
  have hfind := Table.find?_of_mem hp
  have hrel := h.find? p.id
  rw [hfind] at hrel
  have howner := not_owner_of_hides hp hid
  rw [huser] at howner
  have hne : p.userId ≠ user.id := fun heq => howner (congrArg some heq.symm)
  cases hp' : db'.presentations.find? p.id with
  | none =>
    rw [hp'] at hrel
    cases hrel
  | some p' =>
    rw [hp'] at hrel
    cases hrel with
    | some hsame => exact ⟨p, p', hfind, rfl, hne, by rw [hsame.1]; exact hne⟩

/-- A route behind `authenticate` whose handler answers the same whoever else's presentation it finds. -/
theorem hidden_same {now : Time} {id : String} {handler : AuthUser → Handler Response} {r : AuthUser → Response}
    (h : DiffersOnlyIn (req.hides env now db) db db') (hid : req.hides env now db id = true)
    (hanswer : ∀ {db : Db} {user : AuthUser} {p : Presentation}, db.presentations.find? id = some p →
      p.userId ≠ user.id → ((handler user).run answer ws 0 (db, {})).result = .ok (r user)) :
    ((authenticated env req handler).run answer ws 0 (db', {})).result =
      ((authenticated env req handler).run answer ws 0 (db, {})).result := by
  cases huser : req.user? env with
  | none => exact result_anonymous huser
  | some user =>
    obtain ⟨p, p', hp, hp', hne, hne'⟩ := hidden_rows h hid huser
    rw [authenticated_of_user huser, hanswer hp hne, hanswer hp' hne']

/-- Whatever the database holds that is hidden from the request, the response is the same. -/
def ResponseIsolated (env : Env) (ws : Nat → World) (req : Request) (db : Db) : Prop :=
  ∀ db', DiffersOnlyIn (req.hides env (ws 1).now db) db db' → (∀ x ∈ drawnBy ws, x ∉ db'.slides.keys) →
    (serve env ws req db').result = (serve env ws req db).result

theorem isolated_of_not_export (hdb : ∀ x ∈ drawnBy ws, x ∉ db.slides.keys)
    (hexport : ∀ id user, req.endpoint = .exportToPptx id → req.user? env = some user →
      req.hides env (ws 1).now db id = false) : ResponseIsolated env ws req db := by
  intro db' h hdb'
  have hagree := agree_of_differs h hdb hdb'
  by_cases htarget : ∀ id, req.endpoint.target? = some id → req.hides env (ws 1).now db id = false
  · cases hreq : req.endpoint with
    | resolveShareToken token =>
      unfold serve handle
      rw [hreq]
      exact resolveShareToken_same h hreq
    | getSharedPresentation id token =>
      unfold serve handle
      rw [hreq]
      exact getSharedPresentation_same h hreq
    | _ => exact serve_same hagree htarget (by rw [hreq]; rfl)
  · obtain ⟨id, hrest⟩ := not_forall.mp htarget
    obtain ⟨hid, hhidden⟩ := Classical.not_imp.mp hrest
    have hhidden : req.hides env (ws 1).now db id = true := by simpa using hhidden
    unfold serve handle
    cases hreq : req.endpoint with
    | getPresentationById id' =>
      rw [hreq] at hid
      cases hid
      exact hidden_same h hhidden fun hp hne => getPresentationById_forbidden hp hne
    | updatePresentation id' body =>
      rw [hreq] at hid
      cases hid
      exact hidden_same h hhidden fun hp hne => updatePresentation_forbidden hp hne
    | deletePresentation id' =>
      rw [hreq] at hid
      cases hid
      exact hidden_same h hhidden fun hp hne => deletePresentation_forbidden hp hne
    | exportToPptx id' =>
      rw [hreq] at hid
      cases hid
      cases huser : req.user? env with
      | none => exact result_anonymous huser
      | some user =>
        rw [hexport id user hreq huser] at hhidden
        cases hhidden
    | getSharedPresentation id' token => exact getSharedPresentation_same h hreq
    | _ =>
      rw [hreq] at hid
      cases hid

/-! ### The export -/

def Presentation.retitle (p : Presentation) : Presentation := { p with title := p.title ++ "x" }

theorem Presentation.retitle_id (p : Presentation) : p.retitle.id = p.id := rfl

/-- The database with another title for a presentation, and none of its slides. -/
def Db.retitled (db : Db) (id : String) : Db :=
  { db with
    presentations := db.presentations.modify id Presentation.retitle Presentation.retitle_id
    slides := db.slides.delete (·.presentationId == id) }

theorem differs_retitled {H : String → Bool} {id : String} (hid : H id = true) :
    DiffersOnlyIn H db (db.retitled id) where
  presentations := by
    refine List.forall₂_map_right_iff.mpr (List.forall₂_same.mpr fun p _ => ?_)
    by_cases hp : p.id = id
    · rw [if_pos hp]
      refine ⟨rfl, fun hH => ?_⟩
      rw [hp, hid] at hH
      cases hH
    · rw [if_neg hp]
      exact ⟨rfl, fun _ => rfl⟩
  slides := by
    simp only [Db.retitled, Table.delete, List.filter_filter]
    refine List.filter_congr fun s _ => ?_
    by_cases hs : s.presentationId = id
    · simp [hs, hid]
    · simp [hs]
  users := rfl
  shareTokens := rfl
  importedPpts := rfl
  templates := rfl
  templateSlides := rfl

theorem exportToPptx_result {id : String} {p : Presentation} (hp : db.presentations.find? id = some p) :
    ((exportToPptx id).run answer ws 0 (db, {})).result = .ok (match renderDeck ⟨p, db.slidesOf id⟩ with
      | some doc => ⟨200, .pptx (exportFileName p.title) doc⟩
      | none => ⟨500, .message "Failed to export presentation"⟩) := by
  unfold exportToPptx
  rw [result_guarded, result_find hp]
  simp only
  cases renderDeck ⟨p, db.slidesOf id⟩ <;> rfl

/-- An export shows the title. -/
theorem export_differs {id : String} {p : Presentation} (hp : db.presentations.find? id = some p) :
    ((exportToPptx id).run answer ws 0 (db.retitled id, {})).result ≠
      ((exportToPptx id).run answer ws 0 (db, {})).result := by
  have hkey := Table.key_of_find? hp
  have hp' : (db.retitled id).presentations.find? id = some p.retitle := by
    refine Table.find?_eq_some.mpr ⟨(Table.mem_modify Presentation.retitle_id).mpr
      ⟨p, Table.mem_of_find? hp, ?_⟩, hkey⟩
    rw [if_pos hkey]
  have hslides : (db.retitled id).slidesOf id = [] := by
    refine List.filter_eq_nil_iff.mpr fun s hs => ?_
    have hother := (Table.mem_delete.mp hs).2
    simpa using hother
  rw [exportToPptx_result hp, exportToPptx_result hp', hslides]
  intro heq
  cases hdoc : renderDeck ⟨p, db.slidesOf id⟩ with
  | none =>
    rw [hdoc] at heq
    cases heq
  | some doc =>
    have htitle : doc.title = p.title := by
      obtain ⟨slides, -, hslides⟩ := Option.bind_eq_some_iff.mp hdoc
      cases hslides
      rfl
    rw [hdoc] at heq
    have hdoc' : (⟨p.title ++ "x", []⟩ : Pptx) = doc := by
      have hbody := congrArg (fun r => r.body) (Except.ok.inj heq)
      exact (Body.pptx.inj hbody).2
    have hlen := congrArg (fun d : Pptx => d.title.length) hdoc'
    simp [htitle, String.length_append] at hlen

/-- A response shows nothing hidden exactly when it is not the export of a presentation that the user
    neither owns nor has a token for. -/
theorem response_isolated_iff (hdb : ∀ x ∈ drawnBy ws, x ∉ db.slides.keys) :
    ResponseIsolated env ws req db ↔ ∀ id user, req.endpoint = .exportToPptx id → req.user? env = some user →
      req.hides env (ws 1).now db id = false := by
  constructor
  · intro hiso id user hreq huser
    by_contra hhidden
    have hhidden : req.hides env (ws 1).now db id = true := by simpa using hhidden
    have hserve : ∀ db : Db, serve env ws req db = (exportToPptx id).run answer ws 0 (db, {}) := fun db =>
      serve_of_user huser (by rw [handle, hreq])
    obtain ⟨p, hp, rfl, -⟩ := hides_iff.mp hhidden
    have hfresh : ∀ x ∈ drawnBy ws, x ∉ (db.retitled p.id).slides.keys := by
      intro x hx hkey
      obtain ⟨s, hs, rfl⟩ := Table.mem_keys.mp hkey
      exact hdb _ hx (Table.mem_keys.mpr ⟨s, (Table.mem_delete.mp hs).1, rfl⟩)
    have heq := hiso (db.retitled p.id) (differs_retitled hhidden) hfresh
    rw [hserve, hserve] at heq
    exact export_differs (Table.find?_of_mem hp) heq
  · exact isolated_of_not_export hdb

end Isolation

/-- `bob` asks for a presentation by its id. -/
def bobRequest (endpoint : Endpoint) : Request := ⟨some "Bearer bob", endpoint⟩

/-- `bob` reads nothing of the presentation of `alice` by its id. -/
theorem bob_sees_nothing_by_id :
    ResponseIsolated office (fun n => world 0 (10 + n)) (bobRequest (.getPresentationById (issue 2 0)))
      (createdDb "Q1") := by
  refine (response_isolated_iff ?_).mpr fun id user hreq _ => by cases hreq
  have hempty : (createdDb "Q1").slides.rows = [] := by decide +kernel
  intro x _ hx
  rw [Table.mem_keys, hempty] at hx
  obtain ⟨s, hs, -⟩ := hx
  cases hs

def Response.fileName? (r : Response) : Option String :=
  match r.body with
  | .pptx fileName _ => some fileName
  | _ => none

/-- `bob` exports the presentation of `alice`, and reads its title. -/
theorem bob_exports_alices_deck :
    ∃ db db', Reaches office officeDb db ∧ Reaches office officeDb db' ∧
      DiffersOnlyIn ((bobRequest (.exportToPptx (issue 2 0))).hides office 0 db) db db' ∧
      (serve office (fun n => world 0 (10 + n)) (bobRequest (.exportToPptx (issue 2 0))) db').result ≠
        (serve office (fun n => world 0 (10 + n)) (bobRequest (.exportToPptx (issue 2 0))) db).result := by
  refine ⟨createdDb "Q1", createdDb "Q2", .request .start _ _, .request .start _ _, ?_, fun heq => ?_⟩
  · have hrows : (createdDb "Q1").presentations.rows = [⟨issue 2 0, "alice", "Q1", 0, 0⟩] := by decide +kernel
    have hrows' : (createdDb "Q2").presentations.rows = [⟨issue 2 0, "alice", "Q2", 0, 0⟩] := by decide +kernel
    have hhidden : (bobRequest (.exportToPptx (issue 2 0))).hides office 0 (createdDb "Q1") (issue 2 0) = true := by
      decide +kernel
    refine ⟨?_, by decide +kernel, by decide +kernel, by decide +kernel, by decide +kernel, by decide +kernel,
      by decide +kernel⟩
    rw [hrows, hrows']
    refine .cons ⟨rfl, fun hH => ?_⟩ .nil
    rw [show (⟨issue 2 0, "alice", "Q1", 0, 0⟩ : Presentation).id = issue 2 0 from rfl, hhidden] at hH
    cases hH
  · have hname : (serve office (fun n => world 0 (10 + n)) (bobRequest (.exportToPptx (issue 2 0)))
        (createdDb "Q1")).result.toOption.bind Response.fileName? = some "Q1.pptx" := by decide +kernel
    have hname' : (serve office (fun n => world 0 (10 + n)) (bobRequest (.exportToPptx (issue 2 0)))
        (createdDb "Q2")).result.toOption.bind Response.fileName? = some "Q2.pptx" := by decide +kernel
    rw [heq, hname] at hname'
    exact absurd hname' (by decide)

end Slideo
