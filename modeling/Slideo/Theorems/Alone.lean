import Slideo.Theorems.Statements

/-! One request alone: how its calls are answered on its own connection. -/

namespace Slideo
open Js

section Answer
variable {w : World} {db : Db} {ws : List Write} {q : Query}

theorem start_alone (tx : Option (List Write)) : Conn.start { tx } db q = Conn.view { tx } db := by
  unfold Conn.start
  split <;> rfl

/-- Outside a transaction a statement commits at once. -/
theorem answer_ok {a : q.Answer} (hq : q.IsStatement) (h : exec w db db q = .ok (a, ws)) :
    answer w q (db, {}) = (.ok a, (db.applyAll ws, {})) := by
  have h' : exec w (Conn.start {} db q) (Conn.view {} db) q = .ok (a, ws) := by
    rw [start_alone]
    exact h
  rw [answer, perform_eq hq]
  simp only [h']

theorem answer_read {a : q.Answer} (hq : q.IsStatement) (h : exec w db db q = .ok (a, [])) :
    answer w q (db, {}) = (.ok a, (db, {})) :=
  answer_ok hq h

theorem answer_error {e : Err} (hq : q.IsStatement) (h : exec w db db q = .error e) :
    answer w q (db, {}) = (.error e, (db, {})) := by
  have h' : exec w (Conn.start {} db q) (Conn.view {} db) q = .error e := by
    rw [start_alone]
    exact h
  rw [answer, perform_eq hq]
  simp only [h']

theorem exec_of_answer {a : q.Answer} (hq : q.IsStatement) (h : (answer w q (db, {})).1 = .ok a) :
    ∃ ws, exec w db db q = .ok (a, ws) := by
  cases hexec : exec w db db q with
  | error e =>
    rw [answer_error hq hexec] at h
    cases h
  | ok out =>
    obtain ⟨a', ws⟩ := out
    rw [answer_ok hq hexec] at h
    cases h
    exact ⟨ws, rfl⟩

/-- In a transaction a statement sees the changes so far, and adds its own. -/
theorem answer_tx_ok {a : q.Answer} {ws' : List Write} (hq : q.IsStatement)
    (h : exec w (db.applyAll ws) (db.applyAll ws) q = .ok (a, ws')) :
    answer w q (db, { tx := some ws }) = (.ok a, (db, { tx := some (ws ++ ws') })) := by
  have h' : exec w (Conn.start { tx := some ws } db q) (Conn.view { tx := some ws } db) q = .ok (a, ws') := by
    rw [start_alone]
    exact h
  rw [answer, perform_eq hq]
  simp only [h']

theorem answer_tx_error {e : Err} (hq : q.IsStatement)
    (h : exec w (db.applyAll ws) (db.applyAll ws) q = .error e) :
    answer w q (db, { tx := some ws }) = (.error e, (db, { tx := some ws })) := by
  have h' : exec w (Conn.start { tx := some ws } db q) (Conn.view { tx := some ws } db) q = .error e := by
    rw [start_alone]
    exact h
  rw [answer, perform_eq hq]
  simp only [h']

end Answer

/-- A request of a known user reaches its handler. -/
theorem authenticated_of_user {env : Env} {req : Request} {user : AuthUser} {handler : AuthUser → Handler Response}
    (h : req.user? env = some user) : authenticated env req handler = handler user := by
  unfold Request.user? at h
  unfold authenticated
  split at h
  · rename_i found hfound
    cases h
    rfl
  · cases h

/-- A request behind `authenticate` is its handler, for its user. -/
theorem serve_of_user {env : Env} {ws : Nat → World} {req : Request} {db : Db} {user : AuthUser}
    {handler : AuthUser → Handler Response} (huser : req.user? env = some user)
    (hhandle : handle env req = authenticated env req handler) :
    serve env ws req db = (handler user).run answer ws 0 (db, {}) := by
  rw [serve, hhandle, authenticated_of_user huser]

theorem serve_postPresentations {env : Env} {ws : Nat → World} {req : Request}
    {db : Db} {user : AuthUser} {body : Val} (huser : req.user? env = some user)
    (hreq : req.endpoint = .createPresentation body) :
    serve env ws req db = (postPresentations env body user).run answer ws 0 (db, {}) :=
  serve_of_user huser (by rw [handle, hreq])

theorem serve_updatePresentation {env : Env} {ws : Nat → World} {req : Request}
    {db : Db} {user : AuthUser} {id : String} {body : Val} (huser : req.user? env = some user)
    (hreq : req.endpoint = .updatePresentation id body) :
    serve env ws req db = (updatePresentation user id body).run answer ws 0 (db, {}) :=
  serve_of_user huser (by rw [handle, hreq])

/-- The answer of a handler whose `try` ends with `r`. -/
def caught (onError : Err → Response) : Except Err Response → Response
  | .ok response => response
  | .error e => onError e

/-- A handler with its `catch` always answers. -/
theorem run_guarded {ws : Nat → World} {n : Nat} {s s' : Db × Conn}
    {onError : Err → Response} {body : Handler Response} {r : Except Err Response}
    {log : List (Answered Query Query.Answer Err)} (h : body.run answer ws n s = ⟨r, s', log⟩) :
    (guarded onError body).run answer ws n s = ⟨.ok (caught onError r), s', log⟩ := by
  cases r with
  | ok response => exact Prog.run_tryCatch_ok h _
  | error e => simpa [guarded, caught] using Prog.run_tryCatch_error (f := fun e => .pure (onError e)) h rfl

/-! ### Handlers that only read -/

section Readers
variable {ws : Nat → World} {n : Nat} {db : Db} {id token : String}

theorem result_guarded {onError : Err → Response} {body : Handler Response} {s : Db × Conn} :
    ((guarded onError body).run answer ws n s).result = .ok (caught onError (body.run answer ws n s).result) := by
  exact congrArg (·.result) (run_guarded (show body.run answer ws n s = ⟨_, _, _⟩ from rfl))

theorem result_read {α : Type} {q : Query} {a : q.Answer} {f : q.Answer → Handler α} (hq : q.IsStatement)
    (h : exec (ws n) db db q = .ok (a, [])) :
    ((ask q >>= f).run answer ws n (db, {})).result = ((f a).run answer ws (n + 1) (db, {})).result := by
  have hrun := Prog.run_ask_bind (answer_read hq h) (show (f a).run answer ws (n + 1) (db, {}) = ⟨_, _, _⟩ from rfl)
  exact congrArg (·.result) hrun

theorem result_deck {α : Type} {f : Option Deck → Handler α} :
    ((ask (.presentationFindUnique id) >>= f).run answer ws n (db, {})).result =
      ((f (db.deck? id)).run answer ws (n + 1) (db, {})).result :=
  result_read (q := .presentationFindUnique id) trivial rfl

theorem result_token {α : Type} {f : Option (ShareToken × Option Presentation) → Handler α} :
    ((ask (.shareTokenFindUnique token) >>= f).run answer ws n (db, {})).result =
      ((f ((db.shareToken? token).map fun t => (t, db.presentations.find? t.presentationId))).run answer ws (n + 1)
        (db, {})).result :=
  result_read (q := .shareTokenFindUnique token) trivial rfl

theorem result_clock {α : Type} {f : Time → Handler α} :
    ((ask .clock >>= f).run answer ws n (db, {})).result = ((f (ws n).now).run answer ws (n + 1) (db, {})).result :=
  result_read (q := .clock) trivial rfl

/-- The title that is shown for a link. -/
def shownTitle (db : Db) (id : String) : String :=
  let title := ((db.presentations.find? id).map (·.title)).getD ""
  if title = "" then "Untitled" else title

/-- What a link resolves to at `now`. -/
def resolvedAt (db : Db) (token : String) (now : Time) : Response :=
  match db.shareToken? token with
  | none => .error 404 "Share link not found or has already been used"
  | some t => if t.expiresAt < now then .error 410 "This share link has expired"
    else ⟨200, .resolved t.presentationId (shownTitle db t.presentationId)
      t.permission t.recipientEmail t.expiresAt⟩

/-- What a link to the presentation shows at `now`. -/
def sharedAt (db : Db) (id token : String) (now : Time) : Response :=
  match db.shareToken? token with
  | none => .error 404 "Invalid share token"
  | some t => if t.presentationId ≠ id then .error 404 "Invalid share token"
    else if t.expiresAt < now then .error 410 "This share link has expired"
    else match db.deck? id with
    | none => .error 404 "Presentation not found"
    | some deck => ⟨200, .shared ⟨deck.row, byIndex deck.slides⟩ t.permission⟩

theorem result_resolveShareToken :
    ((resolveShareToken token).run answer ws 0 (db, {})).result = .ok (resolvedAt db token (ws 1).now) := by
  unfold resolveShareToken resolvedAt
  rw [result_guarded, result_token]
  cases db.shareToken? token with
  | none => rfl
  | some t =>
    show Except.ok (caught _ (Prog.run answer ws (ask .clock >>= _) 1 (db, {})).result) = _
    rw [result_clock]
    simp only
    split <;> rfl

theorem result_getSharedPresentation {carried : Val} (htruthy : truthy carried = true)
    (hcarried : toStr carried = some token) :
    ((getSharedPresentation id carried).run answer ws 0 (db, {})).result = .ok
      (sharedAt db id token (ws 1).now) := by
  unfold getSharedPresentation sharedAt
  rw [result_guarded, htruthy, if_neg (by decide), hcarried]
  show Except.ok (caught _ (Prog.run answer ws (ask (.shareTokenFindUnique token) >>= _) 0 (db, {})).result) = _
  rw [result_token]
  cases db.shareToken? token with
  | none => rfl
  | some t =>
    show Except.ok (caught _ (Prog.run answer ws (if t.presentationId ≠ id then _ else _) 1 (db, {})).result) = _
    simp only
    split
    · rfl
    rw [result_clock]
    split
    · rfl
    rw [result_deck]
    cases db.deck? id <;> rfl

end Readers

/-! ### Transactions -/

section Transaction
variable {ws : Nat → World} {n : Nat} {db : Db} {α : Type} {body : Handler α} {writes : List Write}
  {log : List (Answered Query Query.Answer Err)}

theorem run_transaction_ok {a : α}
    (h : body.run answer ws (n + 1) (db, { tx := some [] }) = ⟨.ok a, (db, { tx := some writes }), log⟩) :
    (transaction body).run answer ws n (db, {}) =
      ⟨.ok a, (db.applyAll writes, {}), ⟨.begin, .ok ()⟩ :: log ++ [⟨.commit, .ok ()⟩]⟩ := by
  have hcommit : (ask .commit >>= fun _ => pure a : Handler α).run answer ws (n + 1 + log.length)
      (db, { tx := some writes }) = ⟨.ok a, (db.applyAll writes, {}), [⟨.commit, .ok ()⟩]⟩ :=
    Prog.run_ask_bind rfl rfl
  exact Prog.run_ask_bind rfl (Prog.run_bind_ok (Prog.run_tryCatch_ok h _) hcommit)

theorem run_transaction_error {e : Err}
    (h : body.run answer ws (n + 1) (db, { tx := some [] }) = ⟨.error e, (db, { tx := some writes }), log⟩) :
    (transaction body).run answer ws n (db, {}) =
      ⟨.error e, (db, {}), ⟨.begin, .ok ()⟩ :: log ++ [⟨.rollback, .ok ()⟩]⟩ := by
  have hcatch : (Prog.tryCatch body fun e => do ask .rollback; .throw e).run answer ws
    (n + 1) (db, { tx := some [] }) =
      ⟨.error e, (db, {}), log ++ [⟨.rollback, .ok ()⟩]⟩ := by
    exact Prog.run_tryCatch_error h (Prog.run_ask_bind rfl rfl)
  exact Prog.run_ask_bind rfl (Prog.run_bind_error hcatch _)

end Transaction

/-! ### Deleting the slides of a presentation -/

theorem applyAll_deleteSlides {id : String} {ss : List Slide} : ∀ {db : Db},
    db.applyAll (ss.map (.deleteSlide id ·.id)) =
      { db with slides := db.slides.delete fun s => s.presentationId == id && ss.any (·.id == s.id) } := by
  induction ss with
  | nil =>
    intro db
    have hrows :
        (db.slides.delete fun s => s.presentationId == id && ([] : List Slide).any (·.id == s.id)) = db.slides :=
      Table.ext (by simp [Table.delete])
    rw [hrows]
    rfl
  | cons s ss ih =>
    intro db
    rw [List.map_cons, Db.applyAll_cons, ih]
    have hrows : ((db.apply (.deleteSlide id s.id)).slides.delete fun x =>
      x.presentationId == id && ss.any (·.id == x.id)) =
        db.slides.delete fun x => x.presentationId == id && (s :: ss).any (·.id == x.id) := by
      apply Table.ext
      simp only [Db.apply, Table.delete, List.filter_filter]
      refine List.filter_congr fun x _ => ?_
      rw [List.any_cons, BEq.comm (a := s.id)]
      cases x.presentationId == id <;> cases x.id == s.id <;> cases ss.any (·.id == x.id) <;> rfl
    rw [hrows]
    rfl

/-- Without other writers `slideDeleteMany` drops every slide of the presentation. -/
theorem applyAll_slideDeleteMany {db : Db} {id : String} :
    db.applyAll ((db.slidesOf id).map (.deleteSlide id ·.id)) =
      { db with slides := db.slides.delete (·.presentationId == id) } := by
  rw [applyAll_deleteSlides]
  have hrows : (db.slides.delete fun s => s.presentationId == id && (db.slidesOf id).any (·.id == s.id)) =
      db.slides.delete (·.presentationId == id) := by
    apply Table.ext
    simp only [Table.delete]
    refine List.filter_congr fun s hs => ?_
    by_cases h : s.presentationId = id
    · have hany : (db.slidesOf id).any (·.id == s.id) = true :=
        List.any_eq_true.mpr ⟨s, List.mem_filter.mpr ⟨hs, by simpa using h⟩, by simp⟩
      simp [hany]
    · simp [h]
  rw [hrows]

theorem exec_slideDeleteMany (w : World) (db : Db) (id : String) :
    exec w db db (.slideDeleteMany id) = .ok ((), (db.slidesOf id).map (.deleteSlide id ·.id)) := by
  have hall : (db.slidesOf id).filter (·.id ∈ db.slides.keys) = db.slidesOf id := by
    refine List.filter_eq_self.mpr fun s hs => ?_
    exact decide_eq_true (Table.mem_keys.mpr ⟨s, (List.mem_filter.mp hs).1, rfl⟩)
  show Except.ok _ = _
  rw [hall]

theorem slidesOf_cleared {db : Db} {id x : String} :
    ({ db with slides := db.slides.delete (·.presentationId == id) } : Db).slidesOf x =
      if x = id then [] else db.slidesOf x := by
  simp only [Db.slidesOf, Table.delete, List.filter_filter]
  by_cases hx : x = id
  · rw [if_pos hx]
    refine List.filter_eq_nil_iff.mpr fun s _ => ?_
    simp [hx]
  · rw [if_neg hx]
    refine List.filter_congr fun s _ => ?_
    by_cases hs : s.presentationId = x
    · simp [hs, hx]
    · simp [hs]

end Slideo
