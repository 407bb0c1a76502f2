import Slideo.Lib.Hoare
import Slideo.Theorems.Ownership
import Slideo.Theorems.Quota

/-! Requests that fail. Each handler but one makes all its changes in one statement or one transaction, so a
    failure before the end leaves the store as it was. `createPresentation` counts its presentation by a
    statement of its own after it has stored it: when that one fails, the presentation stays. -/

namespace Slideo
open Js
open Prog (Wp Post)

/-! ### Calls that may fail -/

/-- How a call of a request alone may end. -/
inductive Outcome (q : Query) (s : Db × Conn) : Except Err q.Answer → Db × Conn → Prop
  | answered (w : World) : Outcome q s (answer w q s).1 (answer w q s).2
  | failed : Outcome q s (.error .unavailable) (s.1, s.2.afterFailure q)

theorem outcome_answerOrFail (w : World × Bool) (q : Query) (s : Db × Conn) :
    Outcome q s (answerOrFail w q s).1 (answerOrFail w q s).2 := by
  unfold answerOrFail
  split
  · exact .failed
  · exact .answered w.1

section Outcomes
variable {q : Query} {r : Except Err q.Answer} {db : Db} {s' : Db × Conn}

/-- A statement outside a transaction fails and changes nothing, or commits its changes at once. -/
theorem Outcome.outside (h : Outcome q (db, {}) r s') (hq : q.IsStatement) :
    (∃ e, r = .error e ∧ s' = (db, {}) ∧ (e = .unavailable ∨ ∃ w, exec w db db q = .error e)) ∨
      ∃ w a ws, exec w db db q = .ok (a, ws) ∧ r = .ok a ∧ s' = (db.applyAll ws, {}) := by
  cases h with
  | failed =>
    refine Or.inl ⟨_, rfl, ?_, Or.inl rfl⟩
    cases q <;> rfl
  | answered w =>
    cases hexec : exec w db db q with
    | error e =>
      rw [answer_error hq hexec]
      exact Or.inl ⟨e, rfl, rfl, Or.inr ⟨w, hexec⟩⟩
    | ok out =>
      rw [answer_ok hq hexec]
      exact Or.inr ⟨w, out.1, out.2, hexec, rfl, rfl⟩

/-- A statement that reads leaves the store alone. -/
theorem Outcome.read (h : Outcome q (db, {}) r s') (hq : q.IsStatement)
    (hreads : ∀ w y, ¬ Issues w q y) : s' = (db, {}) := by
  rcases h.outside hq with ⟨e, -, rfl, -⟩ | ⟨w, a, ws, hexec, -, rfl⟩
  · rfl
  · have hnone : ws = [] := List.eq_nil_iff_forall_not_mem.mpr fun y hy => hreads w y (exec_issues hexec y hy)
    rw [hnone]
    rfl

/-- A statement of an open transaction leaves the store alone. -/
theorem Outcome.inside {ws : List Write} (h : Outcome q (db, { tx := some ws }) r s') (hq : q.IsStatement) :
    ∃ ws', s' = (db, { tx := some ws' }) := by
  cases h with
  | failed =>
    refine ⟨ws, ?_⟩
    cases q <;> first | rfl | exact hq.elim
  | answered w =>
    rw [answer, perform_eq hq]
    cases exec w (Conn.start { tx := some ws } db q) (Conn.view { tx := some ws } db) q with
    | error e => exact ⟨ws, rfl⟩
    | ok out => exact ⟨_, rfl⟩

theorem Outcome.begin {r : Except Err (Query.Answer .begin)} (h : Outcome .begin (db, {}) r s') :
    (∃ e, r = .error e ∧ s' = (db, {})) ∨ s' = (db, { tx := some [] }) := by
  cases h with
  | failed => exact Or.inl ⟨_, rfl, rfl⟩
  | answered w => exact Or.inr rfl

theorem Outcome.commit {r : Except Err (Query.Answer .commit)} {ws : List Write}
    (h : Outcome .commit (db, { tx := some ws }) r s') :
    (∃ e, r = .error e ∧ s' = (db, {})) ∨ ∃ a, r = .ok a := by
  cases h with
  | failed => exact Or.inl ⟨_, rfl, rfl⟩
  | answered w => exact Or.inr ⟨(), rfl⟩

theorem Outcome.rollback {r : Except Err (Query.Answer .rollback)} {ws : List Write}
    (h : Outcome .rollback (db, { tx := some ws }) r s') :
    s' = (db, {}) := by
  cases h with
  | failed => rfl
  | answered w => rfl

end Outcomes

/-! ### What a handler leaves behind -/

/-- The increment of a usage counter, and it fails. -/
def uncounted : Answered Query Query.Answer Err → Bool
  | ⟨.userUpdate _ .incrementUsage, .error .unavailable⟩ => true
  | _ => false

/-- The status of an answer; an exception that nothing catches is answered with 500. -/
def statusOf : Except Err Response → Nat
  | .ok response => response.status
  | .error _ => 500

/-- The store is as before when the answer is an error; if the presentation was not counted, the answer is
    an error and the store is not as before. -/
def Settled (db : Db) : Post Query Query.Answer Err (Db × Conn) Response := fun r s log =>
  if log.any uncounted then 400 ≤ statusOf r ∧ s.1.presentations ≠ db.presentations
  else 400 ≤ statusOf r → s = (db, {})

section Rules
variable {db : Db} {α : Type}

theorem settled_pure (response : Response) : Wp Outcome (pure response : Handler Response) (Settled db) (db, {}) :=
  fun _ => rfl

theorem settled_throw (e : Err) : Settled db (.error e) (db, {}) [] := fun _ => rfl

theorem settled_quiet {r : Except Err Response} {log : List (Answered Query Query.Answer Err)}
    (hlog : log.any uncounted = false) : Settled db r (db, {}) log := by
  rw [Settled, hlog]
  exact fun _ => rfl

theorem settled_cons {c : Answered Query Query.Answer Err} {r : Except Err Response} {s : Db × Conn}
    {log : List (Answered Query Query.Answer Err)} (hc : uncounted c = false) :
    Settled db r s (c :: log) ↔ Settled db r s log := by
  rw [Settled, Settled, List.any_cons, hc, Bool.false_or]

theorem settled_append {r : Except Err Response} {s : Db × Conn} {log log' : List (Answered Query Query.Answer Err)}
    (hlog : log.any uncounted = false) : Settled db r s (log ++ log') ↔ Settled db r s log' := by
  rw [Settled, Settled, List.any_append, hlog, Bool.false_or]

theorem settled_guarded {onError : Err → Response} {body : Handler Response} {s : Db × Conn}
    (herror : ∀ e, 400 ≤ (onError e).status) (h : Wp Outcome body (Settled db) s) :
    Wp Outcome (guarded onError body) (Settled db) s := by
  refine h.caught fun e s' log hr => ?_
  unfold Settled at hr ⊢
  split
  · rename_i hlost
    rw [if_pos hlost] at hr
    exact ⟨herror e, hr.2⟩
  · rename_i hlost
    rw [if_neg hlost] at hr
    exact fun _ => hr (show 400 ≤ 500 by decide)

/-- A value that may be missing throws a `TypeError`. -/
theorem wp_ofOption_bind {σ β : Type} {step : (q : Query) → σ → Except Err q.Answer → σ → Prop} {o : Option α}
    {f : α → Handler β} {P : Post Query Query.Answer Err σ β} {s : σ} (hnone : P (.error .typeError) s [])
    (h : ∀ a, o = some a → Wp step (f a) P s) : Wp step (ofOption o >>= f) P s := by
  cases o with
  | none => exact hnone
  | some a => exact h a rfl

theorem settled_ofOption_bind {o : Option α} {f : α → Handler Response}
    (h : ∀ a, o = some a → Wp Outcome (f a) (Settled db) (db, {})) :
    Wp Outcome (ofOption o >>= f) (Settled db) (db, {}) :=
  wp_ofOption_bind (settled_throw _) h

/-- A part that leaves the store alone, and the rest. -/
theorem settled_quiet_bind {p : Handler α} {f : α → Handler Response}
    (hp : Wp Outcome p (fun _ s log => s = (db, {}) ∧ log.any uncounted = false) (db, {}))
    (hf : ∀ a, Wp Outcome (f a) (Settled db) (db, {})) : Wp Outcome (p >>= f) (Settled db) (db, {}) := by
  refine Wp.bind (hp.mono fun r s log hr => ?_)
  obtain ⟨rfl, hlog⟩ := hr
  cases r with
  | error e => exact settled_quiet hlog
  | ok a => exact (hf a).mono fun r' s' log' hr' => (settled_append hlog).mpr hr'

theorem settled_of_success {status : Nat} {body : Body} (h : status < 400) (s : Db × Conn) :
    Wp Outcome (pure ⟨status, body⟩ : Handler Response) (Settled db) s :=
  fun hstatus => absurd h (not_lt.mpr hstatus)

section Calls
variable {q : Query} {f : q.Answer → Handler Response}

/-- A statement that only reads, and the rest. -/
theorem settled_read_bind (hq : q.IsStatement) (hreads : ∀ w y, ¬ Issues w q y)
    (hcount : ∀ r, uncounted ⟨q, r⟩ = false) (hf : ∀ a, Wp Outcome (f a) (Settled db) (db, {})) :
    Wp Outcome (ask q >>= f) (Settled db) (db, {}) := by
  refine Wp.ask_bind (fun e s' h => ?_) fun a s' h => ?_
  · rw [h.read hq hreads, settled_cons (hcount _)]
    exact settled_throw e
  · rw [h.read hq hreads]
    exact (hf a).mono fun r s log hr => (settled_cons (hcount _)).mpr hr

/-- The one statement that writes, behind which the request succeeds. -/
theorem settled_write_bind (hq : q.IsStatement) (hcount : ∀ r, uncounted ⟨q, r⟩ = false)
    (hf : ∀ a s', Wp Outcome (f a) (Settled db) s') : Wp Outcome (ask q >>= f) (Settled db) (db, {}) := by
  refine Wp.ask_bind (fun e s' h => ?_) fun a s' h => ?_
  · rcases h.outside hq with ⟨_, -, rfl, -⟩ | ⟨_, _, _, -, hr, -⟩
    · rw [settled_cons (hcount _)]
      exact settled_throw e
    · cases hr
  · exact (hf a s').mono fun r s log hr => (settled_cons (hcount _)).mpr hr

end Calls

/-- The statements of a transaction leave the store alone until it commits. -/
def StaysInside (db : Db) : Post Query Query.Answer Err (Db × Conn) α := fun _ s log =>
  (∃ ws, s = (db, { tx := some ws })) ∧ log.any uncounted = false

theorem inside_ask {q : Query} {ws : List Write} (hq : q.IsStatement) (hcount : ∀ r, uncounted ⟨q, r⟩ = false) :
    Wp Outcome (ask q) (StaysInside db) (db, { tx := some ws }) := by
  intro r s' h
  have hstays : StaysInside db r s' [⟨q, r⟩] := by
    refine ⟨h.inside hq, ?_⟩
    rw [List.any_cons, hcount]
    rfl
  cases r <;> exact hstays

theorem inside_bind {β : Type} {p : Handler α} {f : α → Handler β} {ws : List Write}
    (hp : Wp Outcome p (StaysInside db) (db, { tx := some ws }))
    (hf : ∀ a ws', Wp Outcome (f a) (StaysInside db) (db, { tx := some ws' })) :
    Wp Outcome (p >>= f) (StaysInside db) (db, { tx := some ws }) := by
  refine Wp.bind (hp.mono fun r s log hr => ?_)
  obtain ⟨⟨ws', rfl⟩, hlog⟩ := hr
  cases r with
  | error e => exact ⟨⟨ws', rfl⟩, hlog⟩
  | ok a =>
    refine (hf a ws').mono fun r' s' log' hr' => ⟨hr'.1, ?_⟩
    rw [List.any_append, hlog, hr'.2]
    rfl

/-- A transaction that ends the request: it commits, or nothing has happened. -/
theorem settled_transaction_bind {body : Handler α} {f : α → Handler Response}
    (hbody : Wp Outcome body (StaysInside db) (db, { tx := some [] }))
    (hf : ∀ a s', Wp Outcome (f a) (Settled db) s') :
    Wp Outcome (transaction body >>= f) (Settled db) (db, {}) := by
  unfold transaction
  rw [Prog.bind_assoc']
  refine Wp.ask_bind (fun e s' h => ?_) fun _ s' h => ?_
  · rcases h.begin with ⟨_, -, rfl⟩ | rfl
    · exact (settled_cons rfl).mpr (settled_throw e)
    · cases h
  rcases h.begin with ⟨_, hr, -⟩ | rfl
  · cases hr
  rw [Prog.bind_assoc']
  refine Wp.bind (Wp.tryCatch (hbody.mono fun r s log hr => ?_))
  obtain ⟨⟨ws, rfl⟩, hlog⟩ := hr
  cases r with
  | error e =>
    intro r' s' h'
    rw [h'.rollback]
    have hrolled : ∀ e', Settled db (.error e') (db, {}) (⟨.begin, .ok ()⟩ :: (log ++ [⟨.rollback, r'⟩])) := fun e' =>
      settled_quiet (by simp [uncounted, hlog])
    cases r' <;> exact hrolled _
  | ok a =>
    show Wp Outcome ((ask .commit >>= fun _ => pure a) >>= f) _ _
    rw [Prog.bind_assoc']
    refine Wp.ask_bind (fun e s' h' => ?_) fun _ s' _ => (hf a s').mono fun r s log' hr => ?_
    · rcases h'.commit with ⟨_, -, rfl⟩ | ⟨_, hr⟩
      · exact settled_quiet (by simp [uncounted, hlog])
      · cases hr
    · rw [settled_cons rfl, settled_append hlog, settled_cons rfl]
      exact hr

end Rules

/-! ### The handlers -/

section Handlers
variable {db : Db} {user : AuthUser}

theorem inside_insertSlides {id : String} {slides : Val} {ws : List Write} :
    Wp Outcome (insertSlides id slides) (StaysInside db) (db, { tx := some ws }) := by
  unfold insertSlides
  cases slidesToInsert slides with
  | none => exact ⟨⟨ws, rfl⟩, rfl⟩
  | some toInsert =>
    cases toInsert with
    | none => exact ⟨⟨ws, rfl⟩, rfl⟩
    | some data => exact inside_ask trivial fun _ => rfl

theorem settled_updatePresentation {id : String} {body : Val} :
    Wp Outcome (updatePresentation user id body) (Settled db) (db, {}) := by
  refine settled_guarded (fun _ => show 400 ≤ 500 by decide) ?_
  refine settled_ofOption_bind fun title _ => settled_ofOption_bind fun slides _ => ?_
  split
  · exact settled_pure _
  refine settled_read_bind trivial (fun _ _ h => h) (fun _ => rfl) fun found => ?_
  cases found with
  | none => exact settled_pure _
  | some deck =>
    show Wp Outcome (if _ then _ else _) _ _
    split
    · exact settled_pure _
    refine settled_transaction_bind ?_ fun _ s' => settled_of_success (by decide) s'
    refine inside_bind (inside_ask trivial fun _ => rfl) fun pres ws => ?_
    refine inside_bind (inside_ask trivial fun _ => rfl) fun _ ws => ?_
    exact inside_bind inside_insertSlides fun _ ws' => ⟨⟨ws', rfl⟩, rfl⟩

theorem settled_deletePresentation {id : String} :
    Wp Outcome (deletePresentation user id) (Settled db) (db, {}) := by
  refine settled_guarded (fun _ => show 400 ≤ 500 by decide) ?_
  split
  · exact settled_pure _
  refine settled_read_bind trivial (fun _ _ h => h) (fun _ => rfl) fun found => ?_
  cases found with
  | none => exact settled_pure _
  | some deck =>
    show Wp Outcome (if _ then _ else _) _ _
    split
    · exact settled_pure _
    refine settled_transaction_bind ?_ fun _ s' => settled_of_success (by decide) s'
    exact inside_bind (inside_ask trivial fun _ => rfl) fun _ ws => inside_ask trivial fun _ => rfl

theorem settled_createShareLink {env : Env} {id : String} {body : Val} :
    Wp Outcome (createShareLink env user id body) (Settled db) (db, {}) := by
  refine settled_guarded (fun _ => show 400 ≤ 500 by decide) ?_
  refine settled_ofOption_bind fun recipientEmail _ => ?_
  show Wp Outcome (if _ then _ else _) _ _
  split
  · exact settled_pure _
  refine settled_read_bind trivial (fun _ _ h => h) (fun _ => rfl) fun found => ?_
  cases found with
  | none => exact settled_pure _
  | some p =>
    refine settled_read_bind trivial (fun _ _ h => h) (fun _ => rfl) fun token => ?_
    refine settled_read_bind trivial (fun _ _ h => h) (fun _ => rfl) fun now => ?_
    refine settled_ofOption_bind fun hours _ => settled_ofOption_bind fun permission _ => ?_
    exact settled_write_bind trivial (fun _ => rfl) fun _ s' => settled_of_success (by decide) s'

theorem settled_useTemplate {body : Val} : Wp Outcome (useTemplate user body) (Settled db) (db, {}) := by
  refine settled_guarded (fun _ => show 400 ≤ 500 by decide) ?_
  refine settled_ofOption_bind fun templateId _ => ?_
  show Wp Outcome (if _ then _ else _) _ _
  split
  · exact settled_pure _
  refine settled_read_bind trivial (fun _ _ h => h) (fun _ => rfl) fun found => ?_
  rcases found with _ | ⟨template, slides⟩
  · exact settled_pure _
  · exact settled_write_bind trivial (fun _ => rfl) fun _ s' => settled_of_success (by decide) s'

theorem settled_convertPptToPresentation {id : String} :
    Wp Outcome (convertPptToPresentation user id) (Settled db) (db, {}) := by
  refine settled_guarded (fun _ => show 400 ≤ 500 by decide) ?_
  split
  · exact settled_pure _
  refine settled_read_bind trivial (fun _ _ h => h) (fun _ => rfl) fun found => ?_
  cases found with
  | none => exact settled_pure _
  | some importedPpt =>
    refine settled_read_bind trivial (fun _ _ h => h) (fun _ => rfl) fun entries => ?_
    exact settled_write_bind trivial (fun _ => rfl) fun _ s' => settled_of_success (by decide) s'

/-- Calls that only read. -/
def reading : Interleave.Monitor Query Query.Answer Err Unit where
  Allowed _ q := q.IsStatement ∧ (∀ w y, ¬ Issues w q y) ∧ ∀ r, uncounted ⟨q, r⟩ = false
  next m _ _ := m

/-- A program that only reads leaves the store alone. -/
theorem quiet_of_reading {α : Type} {p : Handler α} {P : Unit → Except Err α → Prop} (h : reading.Ensures () p P) :
    Wp Outcome p (fun _ s log => s = (db, {}) ∧ log.any uncounted = false) (db, {}) := by
  have hcall : ∀ {m q s r s'}, reading.Allowed m q → s = (db, {}) → Outcome q s r s' →
      s' = (db, {}) ∧ uncounted ⟨q, r⟩ = false := by
    rintro m q s r s' ⟨hq, hreads, hcount⟩ rfl houtcome
    exact ⟨houtcome.read hq hreads, hcount r⟩
  refine (Wp.of_ensures (R := fun _ s => s = (db, {})) (G := fun c => uncounted c = false) hcall h rfl).mono
    fun r s log hr => ?_
  obtain ⟨⟨_, hs, -⟩, hlog⟩ := hr
  exact ⟨hs, List.any_eq_false.mpr fun c hc => by rw [hlog c hc]; exact Bool.false_ne_true⟩

theorem quiet_findRequiredLayouts {templateId : Val} : Wp Outcome (findRequiredLayouts templateId)
    (fun _ s log => s = (db, {}) ∧ log.any uncounted = false) (db, {}) :=
  quiet_of_reading (ensures_findRequiredLayouts (fun _ => ⟨trivial, fun _ _ h => h, fun _ => rfl⟩) fun _ _ => rfl)

theorem quiet_finalSlides {body topic : Val} {layouts : Option (List String)} :
    Wp Outcome (finalSlides body topic layouts)
    (fun _ s log => s = (db, {}) ∧ log.any uncounted = false) (db, {}) :=
  quiet_of_reading (ensures_finalSlides (fun _ => ⟨trivial, fun _ _ h => h, fun _ => rfl⟩) fun _ _ => rfl)

/-- The presentation is there before it is counted. -/
theorem settled_saveDeck {topic : Val} {slides : List Json} :
    Wp Outcome (saveDeck user topic slides) (Settled db) (db, {}) := by
  refine settled_ofOption_bind fun data _ => ?_
  refine Wp.ask_bind (fun e s' h => ?_) fun deck s' h => ?_
  · rcases h.outside trivial with ⟨_, -, rfl, -⟩ | ⟨_, _, _, -, hr, -⟩
    · exact (settled_cons rfl).mpr (settled_throw e)
    · cases hr
  rcases h.outside trivial with ⟨_, hr, -, -⟩ | ⟨w, a, ws, hexec, -, rfl⟩
  · cases hr
  have hstored : (db.applyAll ws).presentations ≠ db.presentations := by
    intro hsame
    obtain ⟨-, -, hrows⟩ := presentations_createDeck hexec
    rw [hsame] at hrows
    have hlength := congrArg List.length hrows
    simp at hlength
  have huser : user.id ∈ (db.applyAll ws).users.keys := by
    obtain ⟨t, bodies, -, -, huser, -, -, -, -, rfl⟩ := createDeck_ok hexec
    rw [Db.applyAll_cons, applyAll_insertSlides]
    exact huser
  refine Wp.ask_bind (fun e s' h' => ?_) fun _ s' _ => ?_
  · rcases h'.outside trivial with ⟨_, hr, rfl, rfl | ⟨w', hexec'⟩⟩ | ⟨_, _, _, -, hr, -⟩
    · cases hr
      exact ⟨show 400 ≤ 500 by decide, hstored⟩
    -- the user is there, so the increment fails only when the database does
    · simp [exec, updateUserRow, require, huser, bind, Except.bind, pure, Except.pure] at hexec'
    · cases hr
  · exact settled_of_success (by decide) s'

theorem settled_createPresentation {body : Val} :
    Wp Outcome (createPresentation user body) (Settled db) (db, {}) := by
  refine settled_guarded (fun _ => show 400 ≤ 500 by decide) ?_
  split
  · exact settled_pure _
  refine settled_ofOption_bind fun topic _ => ?_
  split
  · exact settled_pure _
  refine settled_quiet_bind quiet_findRequiredLayouts fun layouts => ?_
  exact settled_quiet_bind quiet_finalSlides fun slides => settled_saveDeck

end Handlers

/-! ### The limiter in front -/

/-- The store is as before, but for the reset of the usage of an earlier month. -/
def UpToReset (env : Env) (db db' : Db) : Prop :=
  db' = db ∨ ∃ row at_ now, db.users.find? row.id = some row ∧ monthChanged env now row.lastUsageReset ∧
    db' = db.apply (.patchUser row.id at_ (.resetUsage now))

section Limiter
variable {env : Env} {db : Db} {user : AuthUser}

theorem upToReset_resetUsage {now : Time} {row : User} (hrow : db.users.find? row.id = some row) :
    Wp Outcome (resetUsage env now row) (fun _ s log => (∃ db', s = (db', {}) ∧ UpToReset env db db') ∧
      log.any uncounted = false) (db, {}) := by
  unfold resetUsage
  split
  · rename_i hmonth
    refine Wp.ask_bind (fun e s' h => ?_) fun _ s' h => ?_
    · rcases h.outside trivial with ⟨_, -, rfl, -⟩ | ⟨_, _, _, -, hr, -⟩
      · exact ⟨⟨db, rfl, Or.inl rfl⟩, rfl⟩
      · cases hr
    · rcases h.outside trivial with ⟨_, hr, -, -⟩ | ⟨w, a, ws, hexec, -, rfl⟩
      · cases hr
      · obtain ⟨-, -, rfl⟩ := updateUserRow_ok hexec
        exact ⟨⟨_, rfl, Or.inr ⟨row, _, now, hrow, hmonth, rfl⟩⟩, rfl⟩
  · exact ⟨⟨db, rfl, Or.inl rfl⟩, rfl⟩

theorem upToReset_checkLimits : Wp Outcome (checkLimits env user) (fun _ s log =>
    (∃ db', s = (db', {}) ∧ UpToReset env db db') ∧ log.any uncounted = false) (db, {}) := by
  refine Wp.tryCatch (Wp.mono (P := fun _ s log => (∃ db', s = (db', {}) ∧ UpToReset env db db') ∧
    log.any uncounted = false) ?_ fun r s log hr => ?_)
  · refine Wp.ask_bind (fun e s' h => ?_) fun found s' h => ?_
    · exact ⟨⟨db, h.read trivial fun _ _ h => h, Or.inl rfl⟩, rfl⟩
    rcases h.outside trivial with ⟨_, hr, -, -⟩ | ⟨w, a, ws, hexec, hr, rfl⟩
    · cases hr
    cases hexec
    cases hr
    cases hrow : db.users.find? user.id with
    | none => exact ⟨⟨db, rfl, Or.inl rfl⟩, rfl⟩
    | some row =>
      refine Wp.ask_bind (fun e s' h => ?_) fun now s' h => ?_
      · exact ⟨⟨db, h.read trivial fun _ _ h => h, Or.inl rfl⟩, rfl⟩
      rw [h.read trivial fun _ _ h => h]
      have hid : row.id = user.id := Table.key_of_find? hrow
      refine Wp.bind ((upToReset_resetUsage (hid ▸ hrow)).mono fun r s log hr => ?_)
      cases r with
      | error e => exact ⟨hr.1, hr.2⟩
      | ok seen =>
        show Wp Outcome (if _ then _ else _) _ _
        split
        · exact ⟨hr.1, by simpa [uncounted] using hr.2⟩
        · exact ⟨hr.1, by simpa [uncounted] using hr.2⟩
  · cases r with
    | ok a => exact hr
    | error e => exact ⟨hr.1, by simpa using hr.2⟩

theorem UpToReset.presentations {db' : Db} (h : UpToReset env db db') : db'.presentations = db.presentations := by
  rcases h with rfl | ⟨row, at_, now, -, -, rfl⟩
  · rfl
  · rfl

/-- As `Settled`, behind the limiter. -/
def SettledUpToReset (env : Env) (db : Db) : Post Query Query.Answer Err (Db × Conn) Response := fun r s log =>
  if log.any uncounted then 400 ≤ statusOf r ∧ s.1.presentations ≠ db.presentations
  else 400 ≤ statusOf r → UpToReset env db s.1

theorem SettledUpToReset.of_settled {db' : Db} {r : Except Err Response} {s : Db × Conn}
    {log' : List (Answered Query Query.Answer Err)} (log : List (Answered Query Query.Answer Err))
    (hdb : UpToReset env db db') (hlog : log.any uncounted = false) (h : Settled db' r s log') :
    SettledUpToReset env db r s (log ++ log') := by
  unfold Settled at h
  rw [SettledUpToReset, List.any_append, hlog, Bool.false_or]
  split
  · rename_i hlost
    rw [if_pos hlost] at h
    exact ⟨h.1, hdb.presentations ▸ h.2⟩
  · rename_i hlost
    rw [if_neg hlost] at h
    intro hstatus
    rw [h hstatus]
    exact hdb

theorem settled_postPresentations {body : Val} :
    Wp Outcome (postPresentations env body user) (SettledUpToReset env db) (db, {}) := by
  refine Wp.bind (upToReset_checkLimits.mono fun r s log hr => ?_)
  obtain ⟨⟨db', rfl, hdb⟩, hlog⟩ := hr
  rcases r with e | response | row
  · show SettledUpToReset env db (.error e) (db', {}) log
    unfold SettledUpToReset
    rw [hlog]
    exact fun _ => hdb
  · exact (settled_pure response).mono fun _ _ _ h => .of_settled log hdb hlog h
  · dsimp only
    split
    · exact settled_createPresentation.mono fun _ _ _ h => .of_settled log hdb hlog h
    · exact (settled_pure _).mono fun _ _ _ h => .of_settled log hdb hlog h

end Limiter

/-- The requests that change presentations. -/
def Endpoint.mutates : Endpoint → Bool
  | .createPresentation _ | .updatePresentation _ _ | .deletePresentation _ | .useTemplate _
  | .convertPptToPresentation _ | .createShareLink _ _ => true
  | _ => false

theorem settled_handle {env : Env} {req : Request} (hreq : req.endpoint.mutates = true) (db : Db) :
    Wp Outcome (handle env req) (SettledUpToReset env db) (db, {}) := by
  have settled : ∀ {p : Handler Response}, Wp Outcome p (Settled db) (db, {}) →
      Wp Outcome p (SettledUpToReset env db) (db, {}) := fun h =>
    h.mono fun _ _ _ hr => .of_settled [] (Or.inl rfl) rfl hr
  have authenticated : ∀ {handler : AuthUser → Handler Response},
      (∀ user, Wp Outcome (handler user) (SettledUpToReset env db) (db, {})) →
      Wp Outcome (authenticated env req handler) (SettledUpToReset env db) (db, {}) := by
    intro handler h
    unfold authenticated
    split
    · exact h _
    · exact settled (settled_pure _)
  unfold handle
  cases hendpoint : req.endpoint with
  | createPresentation body => exact authenticated fun _ => settled_postPresentations
  | updatePresentation id body => exact authenticated fun _ => settled settled_updatePresentation
  | deletePresentation id => exact authenticated fun _ => settled settled_deletePresentation
  | useTemplate body => exact authenticated fun _ => settled settled_useTemplate
  | convertPptToPresentation id => exact authenticated fun _ => settled settled_convertPptToPresentation
  | createShareLink id body => exact authenticated fun _ => settled settled_createShareLink
  | _ =>
    rw [hendpoint] at hreq
    cases hreq

/-- Presentations, slides and share tokens are as before, and so is the usage of every user, unless it was of
    an earlier month and has been reset. -/
structure StoreIntact (env : Env) (db db' : Db) : Prop where
  presentations : db'.presentations = db.presentations
  slides : db'.slides = db.slides
  shareTokens : db'.shareTokens = db.shareTokens
  users : db'.users.keys = db.users.keys
  usage : ∀ id row, db.users.find? id = some row → ∃ row', db'.users.find? id = some row' ∧
    ((row'.presentationsCreatedThisMonth = row.presentationsCreatedThisMonth ∧
      row'.lastUsageReset = row.lastUsageReset) ∨
      (monthChanged env row'.lastUsageReset row.lastUsageReset ∧ row'.presentationsCreatedThisMonth = 0))

theorem UpToReset.intact {env : Env} {db db' : Db} (h : UpToReset env db db') : StoreIntact env db db' := by
  rcases h with rfl | ⟨row₀, at_, now, hrow₀, hmonth, rfl⟩
  · exact ⟨rfl, rfl, rfl, rfl, fun id row hrow => ⟨row, hrow, Or.inl ⟨rfl, rfl⟩⟩⟩
  have hkeys : (db.apply (.patchUser row₀.id at_ (.resetUsage now))).users.keys = db.users.keys := by simp [Db.apply]
  refine ⟨rfl, rfl, rfl, hkeys, fun id row hrow => ?_⟩
  have hfind := find?_patchUser db row₀.id id at_ (.resetUsage now)
  rw [hrow, Option.map_some] at hfind
  refine ⟨_, hfind, ?_⟩
  by_cases hid : row.id = row₀.id
  · rw [← hid, Table.key_of_find? hrow, hrow] at hrow₀
    cases hrow₀
    rw [if_pos rfl]
    exact Or.inr ⟨hmonth, rfl⟩
  · rw [if_neg hid]
    exact Or.inl ⟨rfl, rfl⟩

theorem answer_userUpdate_ne {w : World} {id : String} {patch : UserPatch} {s : Db × Conn} :
    (answer w (.userUpdate id patch) s).1 ≠ .error .unavailable := by
  obtain ⟨db, c⟩ := s
  rw [answer, perform_eq (q := .userUpdate id patch) trivial]
  simp only [exec, updateUserRow, require]
  split
  · rename_i e hexec
    split at hexec <;> cases hexec
    exact fun h => (by cases h)
  · split <;> exact fun h => (by cases h)

/-- An increment fails exactly if it is chosen to. -/
theorem uncounted_iff {env : Env} {ws : Nat → World} {fails : Nat → Bool} {req : Request} {db : Db} :
    (serveFailing env ws fails req db).log.any uncounted = false ↔
      ∀ n id r, fails n = true → (serveFailing env ws fails req db).log[n]? ≠ some
        ⟨.userUpdate id .incrementUsage, r⟩ := by
  rw [List.any_eq_false]
  constructor
  · intro hcounted n id r hfails hlog
    obtain ⟨s, hanswer⟩ := Prog.answer_of_log hlog
    have hr : r = .error .unavailable := by simpa [answerOrFail, hfails, Query.toDatabase] using hanswer
    subst hr
    exact hcounted _ (List.mem_of_getElem? hlog) rfl
  · intro hspared c hc hlost
    obtain ⟨n, hlog⟩ := List.mem_iff_getElem?.mp hc
    obtain ⟨s, hanswer⟩ := Prog.answer_of_log hlog
    obtain ⟨q, r⟩ := c
    unfold uncounted at hlost
    split at hlost
    · rename_i id hc
      cases hc
      cases hfails : fails n with
      | true => exact hspared n id _ hfails hlog
      | false =>
        simp only [answerOrFail, Nat.zero_add, hfails, Bool.false_and, Bool.false_eq_true, if_false] at hanswer
        exact answer_userUpdate_ne hanswer.symm
    · cases hlost

/-- Whichever calls to the database fail, a request that is answered with an error leaves the store intact,
    exactly unless one of the calls that fail is the increment that counts a stored presentation. -/
theorem failed_requests_intact_iff {env : Env} {ws : Nat → World} {fails : Nat → Bool} {req : Request} {db : Db}
    (hreq : req.endpoint.mutates = true) :
    (400 ≤ statusOf (serveFailing env ws fails req db).result →
        StoreIntact env db (serveFailing env ws fails req db).state.1) ↔
      ∀ n id r, fails n = true → (serveFailing env ws fails req db).log[n]? ≠ some
        ⟨.userUpdate id .incrementUsage, r⟩ := by
  have hsettled : SettledUpToReset env db (serveFailing env ws fails req db).result
      (serveFailing env ws fails req db).state (serveFailing env ws fails req db).log :=
    Wp.run outcome_answerOrFail (settled_handle hreq db)
  rw [← uncounted_iff]
  unfold SettledUpToReset at hsettled
  constructor
  · intro hintact
    by_contra hlost
    rw [if_pos (Bool.not_eq_false _ ▸ hlost)] at hsettled
    exact hsettled.2 (hintact hsettled.1).presentations
  · intro hcounted hstatus
    rw [hcounted] at hsettled
    exact (hsettled hstatus).intact

/-- The call of `presentation.create`. -/
def Query.createsDeck : Query → Bool
  | .presentationCreate _ _ _ => true
  | _ => false

/-- The presentation of `alice` cannot be stored. -/
theorem failed_create_intact :
    statusOf (serveFailing office (world 0) (· == 2) alicesPost officeDb).result = 500 ∧
      StoreIntact office officeDb (serveFailing office (world 0) (· == 2) alicesPost officeDb).state.1 := by
  have hstatus : statusOf (serveFailing office (world 0) (· == 2) alicesPost officeDb).result = 500 := by decide +kernel
  have hcall : ((serveFailing office (world 0) (· == 2) alicesPost officeDb).log[2]?).all (·.1.createsDeck) = true := by
    decide +kernel
  refine ⟨hstatus, (failed_requests_intact_iff rfl).mpr (fun n id r hfails hlog => ?_) (by rw [hstatus]; decide)⟩
  rw [beq_iff_eq.mp hfails] at hlog
  rw [hlog] at hcall
  cases hcall

/-- The presentation of `alice` is stored and cannot be counted. -/
theorem uncounted_deck_stays :
    alicesPost.endpoint.mutates = true ∧ 400 ≤
      statusOf (serveFailing office (world 0) (· == 3) alicesPost officeDb).result ∧
      ¬ StoreIntact office officeDb (serveFailing office (world 0) (· == 3) alicesPost officeDb).state.1 := by
  refine ⟨rfl, by decide +kernel, fun hintact => ?_⟩
  have hstored : (serveFailing office (world 0) (· == 3) alicesPost officeDb).state.1.presentations ≠
      officeDb.presentations := by decide +kernel
  exact hstored hintact.presentations

end Slideo
