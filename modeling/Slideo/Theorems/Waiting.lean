import Slideo.Theorems.Linear
import Slideo.Theorems.Budgets
import Slideo.Theorems.Homes
import Mathlib.Data.Set.Finite.Basic

/-! Who waits for whom. A transaction that others wait for and that waits itself is a `PUT` about to clear the
    slides of its deck, or a `DELETE` about to remove its deck; two of them can only wait for each other if
    they are one of each, about the same deck. Otherwise every state can be brought to an end in which all
    requests are answered, without a failure. -/

namespace Slideo
open Js Interleave

/-! ### Waiting -/

/-- The pending call of request `i` has to wait for request `j`. -/
def Server.Waits (c : Server) (i j : Nat) : Prop :=
  ∃ (x y : ServerSession) (q : Query) (k : Except Err q.Answer → Handler Response) (w : World), i ≠ j ∧
    c.sessions[i]? = some x ∧ c.sessions[j]? = some y ∧ x.prog = .call q k ∧ Fresh c.shared w ∧
    ∃ a ∈ y.priv.tx.getD [], ∃ b ∈ newWrites w c.shared.db x.priv q, a.conflicts b = true

/-- A transaction that others wait for, and that may have to wait itself. -/
inductive Between (st : Store) (x : ServerSession) : Query → Prop
  | save {id : String} {body : Val} {at_ : Time} {title : Option String}
      (hreq : x.tag.endpoint = .updatePresentation id body)
      (hpending : x.priv.tx = some [.patchPresentation id at_ title]) (hthere : id ∈ st.db.presentations.keys) :
      Between st x (.slideDeleteMany id)
  | remove {id : String} {ss : List Slide} (hreq : x.tag.endpoint = .deletePresentation id)
      (hpending : x.priv.tx = some (ss.map (.deleteSlide id ·.id))) : Between st x (.presentationDelete id)

section Waiting
variable {env : Env} {c₀ c : Server} {es : List ServerEvent} {x y : ServerSession} {q : Query}
  {st : Store} {others : List Conn}

theorem newWrites_commit {w : World} {db : Db} {p : Conn} : newWrites w db p .commit = [] := rfl

theorem newWrites_rollback {w : World} {db : Db} {p : Conn} : newWrites w db p .rollback = [] := rfl

/-- A transaction that holds something back and whose next call meets a conflict. -/
theorem between_of_conflict {m : Course} {w : World} {d : Conn} {a b : Write} (hq : Allows env x.tag m q)
    (hheld : Held env st x.tag x.priv m) (hholds : x.priv.tx.getD [] ≠ []) (hapart : x.priv.Apart d)
    (ha : a ∈ d.tx.getD []) (hb : b ∈ newWrites w st.db x.priv q)
    (hconflict : a.conflicts b = true) : Between st x q := by
  have closed : x.priv.tx = none → False := fun h => hholds (by rw [h]; rfl)
  have empty : x.priv.tx = some [] → False := fun h => hholds (by rw [h]; rfl)
  have hissues := newWrites_issues b hb
  cases hq with
  | quiet _ hm =>
    cases m with
    | idle | done | lost => exact (closed hheld).elim
    | _ => cases hm
  | create _ _ | share _ _ | begin _ => exact (closed hheld).elim
  | title _ _ _ _ | sweep _ => exact (empty hheld).elim
  | clear hreq =>
    obtain ⟨id, t, hs⟩ := hheld
    obtain ⟨user, body, hreq', -⟩ := hs.asks
    obtain ⟨at_, htx⟩ := hs.pending
    rw [hreq] at hreq'
    cases hreq'
    exact .save hreq htx hs.there
  | fill hreq _ _ =>
    -- only a removal of the same deck could be in the way, and that would hold the row
    obtain ⟨id, t, ss, hs, -⟩ := hheld
    obtain ⟨user, body, hreq', -⟩ := hs.asks
    rw [hreq] at hreq'
    cases hreq'
    obtain ⟨s, rfl, hid⟩ := hissues
    cases a with
    | deletePresentation id' =>
      exact (hapart.rows s.presentationId (hid ▸ hs.claims) ⟨_, ha, (beq_iff_eq.mp hconflict).symm⟩).elim
    | _ => cases hconflict
  | commitCleared _ _ _ | commitFilled | commitDropped _ =>
    rw [newWrites_commit] at hb
    cases hb
  | rollback _ =>
    rw [newWrites_rollback] at hb
    cases hb
  | drop hreq =>
    obtain ⟨id, ss, hreq', htx⟩ := hheld
    rw [hreq] at hreq'
    cases hreq'
    exact .remove hreq htx

/-- A request that is waited for and waits. -/
theorem between_of_waits (h₀ : c₀.Idle) (run : ServerRun env c₀ es c) {i j k : Nat}
    (hij : c.Waits i j) (hjk : c.Waits j k) :
    ∃ (y z : ServerSession) (q : Query) (f : Except Err q.Answer → Handler Response) (w : World),
      c.sessions[j]? = some y ∧
      c.sessions[k]? = some z ∧ y.prog = .call q f ∧ Fresh c.shared w ∧ Between c.shared y q ∧
      ∃ a ∈ z.priv.tx.getD [], ∃ b ∈ newWrites w c.shared.db y.priv q, a.conflicts b = true := by
  obtain ⟨x, y, -, -, -, -, -, hy, -, -, a, ha, -⟩ := hij
  obtain ⟨y', z, q, f, w, hne, hy', hz, hp, hw, b, hb, b', hb', hconflict⟩ := hjk
  obtain rfl : y = y' := Option.some.inj (hy.symm.trans hy')
  have hcoherent := ServerRun.coherent h₀ run
  have hends := ServerRun.ends h₀ run y (List.mem_of_getElem? hy)
  rw [hp] at hends
  have hbetween := between_of_conflict hends.1 (hcoherent.sessions j y hy).held (List.ne_nil_of_mem ha)
    (hcoherent.apart j k y z hne hy hz) hb hb' hconflict
  exact ⟨y, z, q, f, w, hy, hz, hp, hw, hbetween, b, hb, b', hb', hconflict⟩

end Waiting

/-! ### Crossed requests -/

/-- Request `i` saves and request `j` deletes the same deck, both of one user, and neither has ended. -/
def Crossed (env : Env) (c : Server) (i j : Nat) : Prop :=
  ∃ (x y : ServerSession) (id : String) (body : Val), c.sessions[i]? = some x ∧ c.sessions[j]? = some y ∧
    x.tag.endpoint = .updatePresentation id body ∧ y.tag.endpoint = .deletePresentation id ∧
    x.tag.userId? env = y.tag.userId? env ∧ x.prog.ended = false ∧ y.prog.ended = false

section Crossed
variable {env : Env} {c₀ c : Server} {es : List ServerEvent}

theorem ended_call {x : ServerSession} {q : Query}
    {f : Except Err q.Answer → Handler Response} (h : x.prog = .call q f) :
    x.prog.ended = false := by
  rw [h]
  rfl

/-- The save holds the row and the deletion the slides of one deck, which belongs to both users. -/
theorem crossed_of_between (h₀ : c₀.Idle) (run : ServerRun env c₀ es c) {i j : Nat}
    {x y : ServerSession} {q q' : Query} {f : Except Err q.Answer → Handler Response}
    {f' : Except Err q'.Answer → Handler Response} {id : String} {body : Val} {at_ : Time}
    {title : Option String} {ss : List Slide} (hx : c.sessions[i]? = some x) (hy : c.sessions[j]? = some y)
    (hp : x.prog = .call q f) (hp' : y.prog = .call q' f') (hreq : x.tag.endpoint = .updatePresentation id body)
    (hreq' : y.tag.endpoint = .deletePresentation id) (htx : x.priv.tx = some [.patchPresentation id at_ title])
    (htx' : y.priv.tx = some (ss.map (.deleteSlide id ·.id))) (hss : ss ≠ [])
    (hthere : id ∈ c.shared.db.presentations.keys) :
    Crossed env c i j := by
  have inv := ServerRun.inv h₀.initial run
  obtain ⟨p, hmem, rfl⟩ := Table.mem_keys.mp hthere
  have hinv := inv.sessions x (List.mem_of_getElem? hx)
  have hinv' := inv.sessions y (List.mem_of_getElem? hy)
  have howner := (hinv.owned p.id (hinv.pending (.patchPresentation p.id at_ title)
    (by rw [htx]; exact List.mem_singleton_self _))).2 p hmem rfl
  obtain ⟨s, ss', rfl⟩ := List.exists_cons_of_ne_nil hss
  have howner' := (hinv'.owned p.id (hinv'.pending (.deleteSlide p.id s.id)
    (by rw [htx']; exact List.mem_cons_self))).2 p hmem rfl
  exact ⟨x, y, p.id, body, hx, hy, hreq, hreq', howner.trans howner'.symm, ended_call hp, ended_call hp'⟩

/-- Of three requests that wait one for the other, the last waiting for a fourth, the middle ones are a save
    and a deletion of one deck. -/
theorem crossed_of_waits (h₀ : c₀.Idle) (run : ServerRun env c₀ es c) {i j k l : Nat} (hij : c.Waits i j)
    (hjk : c.Waits j k) (hkl : c.Waits k l) : Crossed env c j k ∨ Crossed env c k j := by
  obtain ⟨y, z, q, f, w, hy, hz, hp, hw, hbetween, a, ha, b, hb, hconflict⟩ := between_of_waits h₀ run hij hjk
  obtain ⟨z', -, q', f', -, hz', -, hp', -, hbetween', -⟩ := between_of_waits h₀ run hjk hkl
  obtain rfl : z = z' := Option.some.inj (hz.symm.trans hz')
  obtain ⟨home, hhome⟩ := ServerRun.homed h₀.sessions h₀.sound.slides run
  have hissues := newWrites_issues b hb
  cases hbetween with
  | @save id body at_ title hreq htx hthere =>
    obtain ⟨sid, rfl⟩ := hissues
    cases hbetween' with
    | save hreq' htx' hthere' =>
      rw [htx'] at ha
      obtain rfl := List.mem_singleton.mp ha
      cases hconflict
    | @remove id' ss hreq' htx' =>
      -- both delete the same slide, which is at home in one deck
      have hpending := (hhome.sessions z (List.mem_of_getElem? hz)).pending a ha
      rw [htx'] at ha
      obtain ⟨s, hs, rfl⟩ := List.mem_map.mp ha
      obtain rfl : s.id = sid := beq_iff_eq.mp hconflict
      have hnew := newWrites_homed hw hhome.db (hhome.sessions y (List.mem_of_getElem? hy)) _ hb
      obtain rfl : id' = id := hpending.2.symm.trans (((drawnHome_extends hw).same _ hpending.1).symm.trans hnew.2)
      exact Or.inl (crossed_of_between h₀ run hy hz hp hp' hreq hreq' htx htx' (List.ne_nil_of_mem hs) hthere)
  | @remove id ss hreq htx =>
    obtain rfl : b = .deletePresentation id := hissues
    cases hbetween' with
    | @save id' body at_ title hreq' htx' hthere' =>
      rw [htx'] at ha
      obtain rfl := List.mem_singleton.mp ha
      obtain rfl : id' = id := beq_iff_eq.mp hconflict
      have hss : ss ≠ [] := by
        rintro rfl
        obtain ⟨-, y', -, -, -, -, -, hy', -, -, a', ha', -⟩ := hij
        obtain rfl : y = y' := Option.some.inj (hy.symm.trans hy')
        rw [htx] at ha'
        cases ha'
      exact Or.inr (crossed_of_between h₀ run hz hy hp' hp hreq' hreq htx' htx hss hthere')
    | remove hreq' htx' =>
      rw [htx'] at ha
      obtain ⟨s, hs, rfl⟩ := List.mem_map.mp ha
      cases hconflict

end Crossed

/-! ### Completion -/

/-- The server while every call is answered at its turn. -/
def calm : Semantics Query Query.Answer Err Store Conn where
  act s others c q r s' c' := ∃ w, Fresh s w ∧ Unblocked w s.db others c q ∧ r = (perform w s.db c q).1 ∧
    s' = ⟨(perform w s.db c q).2.1, s.issued ∪ Set.range w.uuid⟩ ∧ c' = (perform w s.db c q).2.2
  stall _ _ _ _ := False

abbrev CalmRun (env : Env) : Server → List ServerEvent → Server → Prop := Run calm (handle env) {}

section Completion
variable {env : Env} {c₀ c c' : Server} {es : List ServerEvent}

theorem CalmRun.serverRun (run : CalmRun env c es c') : ServerRun env c es c' :=
  Run.mono (fun s others p q r s' p' ha => by
    obtain ⟨w, hw, hun, rfl, rfl, rfl⟩ := ha
    exact .answered w hw hun) (fun _ _ _ _ h => False.elim h) run

/-- New ids that leave infinitely many for later. -/
theorem exists_fresh {st : Store} (h : st.issuedᶜ.Infinite) :
    ∃ w, Fresh st w ∧ (st.issued ∪ Set.range w.uuid)ᶜ.Infinite := by
  let f := h.natEmbedding
  have hinj : ∀ {m n}, (f m : String) = f n → m = n := fun heq => f.injective (Subtype.ext heq)
  refine ⟨{ world 0 0 with uuid := fun k => f (2 * k) }, ⟨fun m n heq => ?_, fun n => (f (2 * n)).2⟩, ?_⟩
  · have := hinj heq
    omega
  · refine Set.infinite_of_injective_forall_mem
      (f := fun n : Nat => (f (2 * n + 1) : String)) (fun m n heq => ?_) fun n => ?_
    · have := hinj heq
      omega
    · rintro (hmem | ⟨k, hk⟩)
      · exact (f (2 * n + 1)).2 hmem
      · have := hinj hk
        omega

/-- A call that no other request is in the way of, or one that is. -/
theorem unblocked_or_waits {i : Nat} {x : ServerSession} {q : Query}
    {f : Except Err q.Answer → Handler Response} {w : World} (hw : Fresh c.shared w)
    (hx : c.sessions[i]? = some x) (hp : x.prog = .call q f) :
    Unblocked w c.shared.db (c.others i) x.priv q ∨ ∃ j, c.Waits i j := by
  by_cases hun : Unblocked w c.shared.db (c.others i) x.priv q
  · exact Or.inl hun
  · unfold Unblocked at hun
    push Not at hun
    obtain ⟨d, hd, a, ha, b, hb, hconflict⟩ := hun
    obtain ⟨j, y, hji, hy, rfl⟩ := exists_of_others hd
    exact Or.inr ⟨j, x, y, q, f, w, hji.symm, hx, hy, hp, hw, a, ha, b, hb, Bool.eq_true_of_not_eq_false hconflict⟩

/-- A request that others wait for has not ended. -/
theorem call_of_waits (h₀ : c₀.Idle) (run : ServerRun env c₀ es c) {i j : Nat} (h : c.Waits i j) :
    ∃ (y : ServerSession) (q : Query) (f : Except Err q.Answer → Handler Response),
      c.sessions[j]? = some y ∧ y.prog = .call q f := by
  obtain ⟨-, y, -, -, -, -, -, hy, -, -, a, ha, -⟩ := h
  have hends := ServerRun.ends h₀ run y (List.mem_of_getElem? hy)
  have hheld := ((ServerRun.coherent h₀ run).sessions j y hy).held
  have hopen : (courseOf env y).inTx = false → False := by
    intro hm
    have htx : y.priv.tx = none := by
      cases hcourse : courseOf env y <;> rw [hcourse] at hheld hm <;> first | exact hheld | cases hm
    rw [htx] at ha
    cases ha
  cases hp : y.prog with
  | pure r =>
    rw [hp] at hends
    exact (hopen hends.closed).elim
  | throw e =>
    rw [hp] at hends
    exact (hopen hends.closed).elim
  | call q f => exact ⟨y, q, f, hy, hp⟩

/-- Unless a save and a deletion of one deck cross, some pending call can be answered. -/
theorem exists_unblocked (h₀ : c₀.Idle) (run : ServerRun env c₀ es c) {w : World} (hw : Fresh c.shared w)
    (hcrossed : ∀ i j, ¬ Crossed env c i j) (hpending : ∃ x ∈ c.sessions, x.prog.ended = false) :
    ∃ (i : Nat) (x : ServerSession) (q : Query) (f : Except Err q.Answer → Handler Response),
      c.sessions[i]? = some x ∧
      x.prog = .call q f ∧ Unblocked w c.shared.db (c.others i) x.priv q := by
  obtain ⟨x, hmem, hx⟩ := hpending
  obtain ⟨i, hi⟩ := List.mem_iff_getElem?.mp hmem
  obtain ⟨q, f, hp⟩ : ∃ q f, x.prog = .call q f := by
    cases hprog : x.prog with
    | pure r =>
      rw [hprog] at hx
      cases hx
    | throw e =>
      rw [hprog] at hx
      cases hx
    | call q f => exact ⟨q, f, rfl⟩
  -- follow the requests that stand in the way
  rcases unblocked_or_waits hw hi hp with hun | ⟨j, hij⟩
  · exact ⟨i, x, q, f, hi, hp, hun⟩
  obtain ⟨y, q, f, hj, hp⟩ := call_of_waits h₀ run hij
  rcases unblocked_or_waits hw hj hp with hun | ⟨k, hjk⟩
  · exact ⟨j, y, q, f, hj, hp, hun⟩
  obtain ⟨z, q, f, hk, hp⟩ := call_of_waits h₀ run hjk
  rcases unblocked_or_waits hw hk hp with hun | ⟨l, hkl⟩
  · exact ⟨k, z, q, f, hk, hp, hun⟩
  rcases crossed_of_waits h₀ run hij hjk hkl with h | h
  · exact (hcrossed _ _ h).elim
  · exact (hcrossed _ _ h).elim

/-- The step that answers such a call. -/
theorem calm_step (h₀ : c₀.Idle) (run : ServerRun env c₀ es c) (hids : c.shared.issuedᶜ.Infinite)
    (hcrossed : ∀ i j, ¬ Crossed env c i j) (hpending : ∃ x ∈ c.sessions, x.prog.ended = false) :
    ∃ (i : Nat) (x : ServerSession) (q : Query) (f : Except Err q.Answer →
      Handler Response) (r : Except Err q.Answer)
      (st' : Store) (p' : Conn), c.sessions[i]? = some x ∧ x.prog = .call q f ∧
      calm.act c.shared (c.others i) x.priv q r st' p' ∧
      (∃ es, ServerRun env c₀ es ⟨st', c.sessions.set i ⟨x.tag, p', f r, x.log ++ [⟨q, r⟩]⟩⟩) ∧
      st'.issuedᶜ.Infinite ∧
      ∀ j k, ¬ Crossed env ⟨st', c.sessions.set i ⟨x.tag, p', f r, x.log ++ [⟨q, r⟩]⟩⟩ j k := by
  obtain ⟨w, hw, hleft⟩ := exists_fresh hids
  obtain ⟨i, x, q, f, hx, hp, hun⟩ := exists_unblocked h₀ run hw hcrossed hpending
  refine ⟨i, x, q, f, _, _, _, hx, hp, ⟨w, hw, hun, rfl, rfl, rfl⟩,
    ⟨_, .snoc run (.act hx hp (.answered w hw hun))⟩, hleft, ?_⟩
  -- the sessions that are still pending were so before
  have hbefore : ∀ {l : Nat} {y : ServerSession}, (c.sessions.set i ⟨x.tag, (perform w c.shared.db x.priv q).2.2,
      f (perform w c.shared.db x.priv q).1, x.log ++ [⟨q, (perform w c.shared.db x.priv q).1⟩]⟩)[l]? = some y →
      y.prog.ended = false → ∃ y', c.sessions[l]? = some y' ∧ y'.tag = y.tag ∧ y'.prog.ended = false := by
    intro l y hy hpend
    by_cases hil : i = l
    · subst hil
      rw [List.getElem?_set_self (List.getElem?_eq_some_iff.mp hx).1] at hy
      cases hy
      exact ⟨x, hx, rfl, ended_call hp⟩
    · rw [List.getElem?_set_ne hil] at hy
      exact ⟨y, hy, rfl, hpend⟩
  rintro j k ⟨y, z, id, body, hy, hz, hreq, hreq', huser, hpend, hpend'⟩
  obtain ⟨y', hy', htag, hpend⟩ := hbefore hy hpend
  obtain ⟨z', hz', htag', hpend'⟩ := hbefore hz hpend'
  exact hcrossed j k ⟨y', z', id, body, hy', hz', htag ▸ hreq, htag' ▸ hreq', htag ▸ htag' ▸ huser, hpend, hpend'⟩

/-- From every state of every run in which no save and deletion of one deck cross, and as long as there are
    new ids, the calls can be answered one after another, without any failure, until every request has its
    response, after seven calls at most. -/
theorem runs_complete (h₀ : c₀.Idle) (run : ServerRun env c₀ es c) (hids : c.shared.issuedᶜ.Infinite)
    (hcrossed : ∀ i j, ¬ Crossed env c i j) :
    ∃ es' c', CalmRun env c es' c' ∧ c'.sessions.map (·.tag) = c.sessions.map (·.tag) ∧
      ∀ x ∈ c'.sessions, x.log.length ≤ 7 ∧ ∃ response, x.prog = .pure response := by
  have hnone : ∀ x ∈ c₀.sessions, False := fun x hx => by
    rw [h₀.sessions] at hx
    cases hx
  have hwithin : ∀ {c es}, ServerRun env c₀ es c → ∀ x ∈ c.sessions, x.log.length ≤ 7 ∧
    Within (7 - x.log.length) x.prog :=
    fun run => Run.within h₀.sessions (within_handle env) run
  have hcompletes : ∃ es' c', CalmRun env c es' c' ∧
      ((∃ es, ServerRun env c₀ es c') ∧ c'.shared.issuedᶜ.Infinite ∧ ∀ i j, ¬ Crossed env c' i j) ∧
      c'.sessions.map (·.tag) = c.sessions.map (·.tag) ∧ ∀ x ∈ c'.sessions, x.prog.ended = true :=
    completes (I := fun c => (∃ es, ServerRun env c₀ es c) ∧ c.shared.issuedᶜ.Infinite ∧ ∀ i j, ¬ Crossed env c i j)
      (fun c hI x hx => hI.1.elim fun es run => (hwithin run x hx).2)
      (fun c hI hpending => hI.1.elim fun es run => calm_step h₀ run hI.2.1 hI.2.2 hpending)
        ⟨⟨es, run⟩, hids, hcrossed⟩
  obtain ⟨es', c', run', ⟨⟨es'', run''⟩, -, -⟩, htags, hended⟩ := hcompletes
  refine ⟨es', c', run', htags, fun x hx => ⟨(hwithin run'' x hx).1, ?_⟩⟩
  have hresponds : anything.Ensures _ x.prog fun _ r => ∃ a, r = .ok a :=
    Run.ensures (T := fun _ => True) (fun _ => anything)
    (fun _ => ()) run'' (fun req _ => responds_handle env req) (fun x hx => (hnone x hx).elim) x hx trivial
  cases hp : x.prog with
  | pure response => exact ⟨response, rfl⟩
  | throw e =>
    rw [hp] at hresponds
    obtain ⟨a, ha⟩ := hresponds
    cases ha
  | call q f =>
    have := hended x hx
    rw [hp] at this
    cases this

end Completion

/-! ### Saves that cross, and a save and a deletion that do -/

section Examples
variable {env : Env} {c : Server}

theorem infinite_of_unissued {n : Nat} {issued : Set String} (h : Unissued n issued) : issuedᶜ.Infinite :=
  Set.infinite_of_injective_forall_mem (f := issue n) (fun _ _ heq => (issue_inj heq).2) fun k => h n k le_rfl

def Endpoint.deletes : Endpoint → Bool
  | .deletePresentation _ => true
  | _ => false

theorem not_crossed_of_all (h : c.sessions.all (!·.tag.endpoint.deletes) = true)
    (i j : Nat) : ¬ Crossed env c i j := by
  rintro ⟨x, y, id, body, -, hy, -, hreq, -⟩
  have hkept := List.all_eq_true.mp h y (List.mem_of_getElem? hy)
  rw [hreq] at hkept
  cases hkept

/-- `alice` saves her new deck twice at the same time. -/
def twoSaves : List Move :=
  [.arrive (aliceRequest (.createPresentation
    (some (.obj [("topic", .str "Roadmap"), ("slides", .arr [.obj []])])))),
    .answer 0, .answer 0, .answer 0, .answer 0,
    .arrive (aliceRequest (.updatePresentation (issue 3 0)
      (some (.obj [("title", .str "Plan"), ("slides", .arr [])])))),
    .arrive (aliceRequest (.updatePresentation (issue 3 0)
      (some (.obj [("title", .str "Draft"), ("slides", .arr [])])))),
    .answer 1, .answer 2, .answer 1, .answer 2, .answer 1]

theorem two_saves_complete :
    ∃ es c es' c', ServerRun office newOffice es c ∧
    c.sessions.countP (!·.prog.ended) = 2 ∧ CalmRun office c es' c' ∧
      ∀ x ∈ c'.sessions, x.log.length ≤ 7 ∧ ∃ response, x.prog = .pure response := by
  have hplay : newOffice.playable (fun _ _ => true) office 0 0 twoSaves = true := by decide +kernel
  obtain ⟨run, hn⟩ := Server.play_run office (show Unissued 0 newOffice.shared.issued from fun _ _ _ h => h) hplay
  have hall : (newOffice.play office 0 0 twoSaves).sessions.all (!·.tag.endpoint.deletes) = true := by
    decide +kernel
  obtain ⟨es', c', run', -, hresponses⟩ := runs_complete newOffice_idle run.run
    (infinite_of_unissued hn) (not_crossed_of_all hall)
  exact ⟨_, _, es', c', run.run, by decide +kernel, run', hresponses⟩

def Query.deletes : Query → Bool
  | .slideDeleteMany _ | .presentationDelete _ => true
  | _ => false

/-- The pending call of request `i` deletes something and has to wait, or there is none. -/
def Server.blocked (c : Server) (i : Nat) : Bool :=
  match c.sessions[i]? with
  | none => true
  | some x => match x.prog with
    | .call q _ => q.deletes && !c.unblocked i (world 0 0)
    | .pure _ | .throw _ => true

theorem newWrites_deletes {q : Query} (hq : q.deletes = true) (w w' : World) (db : Db) (p : Conn) :
    newWrites w db p q = newWrites w' db p q := by
  cases q <;> first | cases hq; done | rfl

theorem not_answered_of_blocked {i : Nat} (h : c.blocked i = true)
    (a : Answered Query Query.Answer Err) (c' : Server) :
    ¬ Step calm (handle env) {} c (.act i a) c' := by
  intro step
  cases step with
  | @act _ x q f r st' p' hx hp ha =>
    obtain ⟨w, hw, hun, -⟩ := ha
    simp only [Server.blocked, hx, hp] at h
    obtain ⟨hq, hblocked⟩ := Bool.and_eq_true_iff.mp h
    have hfree : c.unblocked i (world 0 0) = true := by
      simp only [Server.unblocked, hx, hp, List.all_eq_true]
      intro d hd a ha b hb
      rw [newWrites_deletes hq _ w] at hb
      rw [hun d hd a ha b hb]
      rfl
    rw [hfree] at hblocked
    cases hblocked

/-- The save holds the row of the deck and wants its slides, the deletion holds the slides and wants the row. -/
def saveAgainstDelete : List Move :=
  [.arrive (aliceRequest (.createPresentation
    (some (.obj [("topic", .str "Roadmap"), ("slides", .arr [.obj []])])))),
    .answer 0, .answer 0, .answer 0, .answer 0,
    .arrive (aliceRequest (.updatePresentation (issue 3 0)
      (some (.obj [("title", .str "Plan"), ("slides", .arr [])])))),
    .arrive (aliceRequest (.deletePresentation (issue 3 0))),
    .answer 1, .answer 2, .answer 1, .answer 2, .answer 1, .answer 2]

/-- The condition of `runs_complete` is needed: here nothing can be answered any more. -/
theorem save_against_delete_stuck :
    ∃ es c, ServerRun office newOffice es c ∧ c.sessions.countP (!·.prog.ended) = 2 ∧
      ∀ i a c', ¬ Step calm (handle office) {} c (.act i a) c' := by
  have hplay : newOffice.playable (fun _ _ => true) office 0 0 saveAgainstDelete = true := by decide +kernel
  obtain ⟨run, -⟩ := Server.play_run office (show Unissued 0 newOffice.shared.issued from fun _ _ _ h => h) hplay
  have hblocked : (List.range 3).all (newOffice.play office 0 0 saveAgainstDelete).blocked = true := by
    decide +kernel
  have hlength : (newOffice.play office 0 0 saveAgainstDelete).sessions.length = 3 := by decide +kernel
  refine ⟨_, _, run.run, by decide +kernel, fun i => not_answered_of_blocked ?_⟩
  by_cases hi : i < 3
  · exact List.all_eq_true.mp hblocked i (List.mem_range.mpr hi)
  · rw [Server.blocked, List.getElem?_eq_none (hlength ▸ not_lt.mp hi)]

end Examples

end Slideo
