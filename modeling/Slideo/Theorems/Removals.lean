import Slideo.Theorems.Linear

/-! What was removed is gone for good. Once a `DELETE` has answered below 400, nothing of the deck comes back,
    whatever requests were under way: no later operation is about it, and no request that arrives later and
    names it succeeds. -/

namespace Slideo
open Js Interleave

/-! ### Sightings -/

/-- The deck that a request names. -/
def Endpoint.deck? : Endpoint → Option String
  | .createShareLink presentationId _ => some presentationId
  | e => e.target?

/-- Whether a request has seen deck `id`. -/
def sighting (id : String) : Monitor Query Query.Answer Err Bool where
  Allowed _ _ := True
  next m
    | .presentationFindUnique x, .ok (some _) | .presentationFindFirst x _, .ok (some _) => m || x == id
    | _, _ => m

/-- A request that names the deck and succeeds has seen it. -/
def Sees (id : String) (e : Endpoint) (m : Bool) (r : Except Err Response) : Prop :=
  e.deck? = some id → ∀ response, r = .ok response → response.status < 400 → m = true

section Rules
variable {id : String} {e : Endpoint} {α : Type} {m : Bool}

theorem sighting_next_true (q : Query) (r : Except Err q.Answer) : (sighting id).next true q r = true := by
  cases q with
  | presentationFindUnique x | presentationFindFirst x userId => rcases r with e | _ | _ <;> rfl
  | _ => rfl

/-- What was seen stays seen. -/
theorem sighting_kept {Post : Bool → Except Err α → Prop} (hpost : ∀ r, Post true r) (p : Handler α) :
    (sighting id).Ensures true p Post := by
  induction p with
  | pure a => exact hpost _
  | throw err => exact hpost _
  | call q k ih =>
    refine ⟨trivial, fun r => ?_⟩
    rw [sighting_next_true]
    exact ih r

theorem sees_of_seen (p : Handler Response) : (sighting id).Ensures true p (Sees id e) :=
  sighting_kept (fun _ _ _ _ _ => rfl) p

/-- Requests about other decks, or none, need not see this one. -/
theorem sees_other (h : e.deck? ≠ some id) (p : Handler Response) : ∀ {m : Bool},
    (sighting id).Ensures m p (Sees id e) := by
  induction p with
  | pure a => exact fun hid => absurd hid h
  | throw err => exact fun hid => absurd hid h
  | call q k ih => exact ⟨trivial, fun r => ih r⟩

theorem sees_failed {response : Response} (hstatus : 400 ≤ response.status) :
    (sighting id).Ensures m (pure response) (Sees id e) := by
  intro _ response' h hlow
  cases h
  exact absurd hlow (not_lt.mpr hstatus)

theorem sees_threw {err : Err} : Sees id e m (.error err) := fun _ _ h => by cases h

theorem sees_guarded {onError : Err → Response} {body : Handler Response}
    (h : (sighting id).Ensures m body (Sees id e)) (hstatus : ∀ err, 400 ≤ (onError err).status) :
    (sighting id).Ensures m (guarded onError body) (Sees id e) :=
  ensures_guarded h fun _ err _ => sees_failed (hstatus err)

theorem sees_ofOption_bind {o : Option α} {f : α → Handler Response}
    (h : ∀ a, (sighting id).Ensures m (f a) (Sees id e)) :
    (sighting id).Ensures m (ofOption o >>= f) (Sees id e) :=
  ensures_ofOption_bind sees_threw fun a _ => h a

/-- A call that looks up no deck. -/
theorem sees_ask_bind {q : Query} {f : q.Answer → Handler Response} (hq : ∀ r, (sighting id).next m q r = m)
    (h : ∀ a, (sighting id).Ensures m (f a) (Sees id e)) : (sighting id).Ensures m (ask q >>= f) (Sees id e) :=
  Monitor.Ensures.ask_bind trivial (fun a => (hq (.ok a)).symm ▸ h a) fun _ => sees_threw

/-- A lookup of the deck, which is refused unless it is found. -/
theorem sees_find_bind {f : Option Deck → Handler Response} (h : (sighting id).Ensures m (f none) (Sees id e)) :
    (sighting id).Ensures m (ask (.presentationFindUnique id) >>= f) (Sees id e) := by
  refine ⟨trivial, fun r => ?_⟩
  rcases r with err | _ | deck
  · exact sees_threw
  · exact h
  · have hseen : (sighting id).next m (.presentationFindUnique id) (.ok (some deck)) = true := by simp [sighting]
    rw [hseen]
    exact sees_of_seen _

end Rules

section Handlers
variable {env : Env} {user : AuthUser} {id : String} {e : Endpoint}

theorem sees_getPresentationById : (sighting id).Ensures false (getPresentationById user id) (Sees id e) := by
  refine sees_guarded ?_ fun _ => by decide
  split
  · exact sees_failed (by decide)
  · exact sees_find_bind (sees_failed (by decide))

theorem sees_updatePresentation {body : Val} :
    (sighting id).Ensures false (updatePresentation user id body) (Sees id e) := by
  refine sees_guarded (sees_ofOption_bind fun title => sees_ofOption_bind fun slides => ?_) fun _ => by decide
  split
  · exact sees_failed (by decide)
  · exact sees_find_bind (sees_failed (by decide))

theorem sees_deletePresentation : (sighting id).Ensures false (deletePresentation user id) (Sees id e) := by
  refine sees_guarded ?_ fun _ => by decide
  split
  · exact sees_failed (by decide)
  · exact sees_find_bind (sees_failed (by decide))

theorem sees_exportToPptx : (sighting id).Ensures false (exportToPptx id) (Sees id e) :=
  sees_guarded (sees_find_bind (sees_failed (by decide))) fun _ => by decide

theorem sees_createShareLink {body : Val} : (sighting id).Ensures false
    (createShareLink env user id body) (Sees id e) := by
  refine sees_guarded (sees_ofOption_bind fun recipientEmail => ?_) fun _ => (show 400 ≤ 500 by decide)
  show (sighting id).Ensures false (if _ then _ else _) _
  split
  · exact sees_failed (by decide)
  refine ⟨trivial, fun r => ?_⟩
  rcases r with err | _ | p
  · exact sees_threw
  · exact sees_failed (by decide)
  · have hseen : (sighting id).next false (.presentationFindFirst id user.id) (.ok (some p)) = true := by
      simp [sighting]
    rw [hseen]
    exact sees_of_seen _

theorem sees_getSharedPresentation {token : Val} :
    (sighting id).Ensures false (getSharedPresentation id token) (Sees id e) := by
  refine sees_guarded ?_ fun _ => (show 400 ≤ 500 by decide)
  split
  · exact sees_failed (by decide)
  refine sees_ofOption_bind fun token => sees_ask_bind (fun _ => rfl) fun found => ?_
  rcases found with _ | ⟨shareToken, presentation⟩
  · exact sees_failed (by decide)
  show (sighting id).Ensures false (if _ then _ else _) _
  split
  · exact sees_failed (by decide)
  refine sees_ask_bind (fun _ => rfl) fun now => ?_
  split
  · exact sees_failed (by decide)
  · exact sees_find_bind (sees_failed (by decide))

theorem sees_authenticated {req : Request} {handler : AuthUser → Handler Response}
    (h : ∀ user, (sighting id).Ensures false (handler user) (Sees id e)) :
    (sighting id).Ensures false (authenticated env req handler) (Sees id e) := by
  unfold authenticated
  split
  · exact h _
  · rename_i response hrefused
    exact sees_failed (le_of_le_of_eq (show 400 ≤ 401 by decide) (authenticate_error hrefused).symm)

/-- A request that names a deck and succeeds has seen it. -/
theorem sees_handle (env : Env) (req : Request) :
    (sighting id).Ensures false (handle env req) (Sees id req.endpoint) := by
  by_cases hid : req.endpoint.deck? = some id
  · unfold handle
    cases hreq : req.endpoint <;> rw [hreq] at hid <;> cases hid
    · exact sees_authenticated fun _ => sees_getPresentationById
    · exact sees_authenticated fun _ => sees_updatePresentation
    · exact sees_authenticated fun _ => sees_deletePresentation
    · exact sees_authenticated fun _ => sees_exportToPptx
    · exact sees_authenticated fun _ => sees_createShareLink
    · exact sees_getSharedPresentation
  · exact sees_other hid _

end Handlers

/-! ### Gone for good -/

/-- A shelf knows the ids of its decks. -/
theorem shelf_given {s s' : Shelf} {o : DeckOp} (hgiven : ∀ id, (s.decks id).isSome = true → id ∈ s.used)
    (h : shelf.apply s o = some s') : ∀ id, (s'.decks id).isSome = true → id ∈ s'.used := by
  intro id hid
  rcases shelf_inv h with ⟨owner, content, -, -, hused, hdecks⟩ | ⟨hsome, hused, e', hdecks⟩
  all_goals
    rw [hdecks] at hid
    rw [hused]
    by_cases hne : id = o.id
  · exact hne ▸ Set.mem_insert _ _
  · rw [Function.update_of_ne hne] at hid
    exact Set.mem_insert_of_mem _ (hgiven id hid)
  · exact hne ▸ hgiven _ hsome
  · rw [Function.update_of_ne hne] at hid
    exact hgiven id hid

theorem Store.shelf_known (st : Store) : ∀ id, (st.shelf.decks id).isSome = true → id ∈ st.shelf.used := by
  intro id hid
  by_contra hnone
  have hentry : st.db.entry? id = none := by rw [Db.entry?, Table.find?_eq_none.mpr hnone]; rfl
  rw [show st.shelf.decks id = none from hentry] at hid
  cases hid

/-- After its removal a deck is gone. -/
theorem shelf_removed {s s' : Shelf} {id owner : String} (hgiven : ∀ id, (s.decks id).isSome = true → id ∈ s.used)
    (h : shelf.apply s (.remove id owner) = some s') : id ∈ s'.used ∧ s'.decks id = none := by
  obtain ⟨e, e', he, -, hf, rfl⟩ := Shelf.onDeck_eq_some.mp h
  refine ⟨hgiven id (by rw [he]; rfl), ?_⟩
  split at hf
  · cases hf
    exact Function.update_self ..
  · cases hf

section Runs
variable {env : Env} {c₀ c c' : Server} {es es' : List ServerEvent} {id : String} {i : Nat} {x : ServerSession}
  {response : Response} {s : Shelf}

/-- The shelf of a run in which deck `id` was removed. -/
theorem gone_of_removed (h₀ : c₀.Idle) (run : ServerRun env c₀ es c) (hx : c.sessions[i]? = some x)
    (hreq : x.tag.endpoint = .deletePresentation id) (hp : x.prog = .pure response) (hok : response.status < 400)
    (hs : shelf.run c₀.shared.shelf ((deckEffects env es).map (·.2)) = some s) :
    id ∈ s.used ∧ s.decks id = none := by
  have hends := ServerRun.ends h₀ run x (List.mem_of_getElem? hx)
  rw [hp] at hends
  have hdone := hends.changed response rfl hok (by rw [hreq]; rfl)
  obtain ⟨⟨j, o⟩, ho, rfl⟩ := List.mem_map.mp ((performed_iff h₀ run hx).mpr hdone)
  obtain ⟨y, hy, hasks⟩ := asksFor_of_mem h₀ run ho
  obtain rfl : x = y := Option.some.inj (hx.symm.trans hy)
  -- the only operation that the request asks for is the removal
  obtain ⟨owner, rfl⟩ : ∃ owner, o = .remove id owner := by
    cases o with
    | create _ _ _ =>
      obtain ⟨hstores, -⟩ := hasks
      rw [hreq] at hstores
      cases hstores
    | save _ _ _ =>
      obtain ⟨_, _, h, -⟩ := hasks
      rw [hreq] at h
      cases h
    | remove id' owner =>
      obtain ⟨h, -⟩ := hasks
      rw [hreq] at h
      cases h
      exact ⟨owner, rfl⟩
    | share _ _ _ =>
      obtain ⟨_, h, -⟩ := hasks
      rw [hreq] at h
      cases h
  obtain ⟨t, t', later, ht, hremove, hlater⟩ := Object.run_at
    (P := fun s => ∀ id, (s.decks id).isSome = true → id ∈ s.used) (fun _ _ _ h ho => shelf_given h ho)
    (List.mem_map_of_mem (f := (·.2)) ho) c₀.shared.shelf_known hs
  exact Object.run_keeps (fun _ _ _ hgone ho => (shelf_gone hgone ho).1) (shelf_removed ht hremove) hlater

theorem not_mem_of_entry? {db : Db} (h : db.entry? id = none) : id ∉ db.presentations.keys := by
  refine Table.find?_eq_none.mp ?_
  rw [Db.entry?] at h
  exact Option.map_eq_none_iff.mp h

/-- A deck that is not there is not seen. -/
theorem unseen_of_act {st st' : Store} {others : List Conn} {a : Scope} {rights : Rights} {p p' : Conn} {q : Query}
    {r : Except Err q.Answer} (h : Act st others p q r st' p') (hinv : SessionInv a.user st rights p)
    (hnone : id ∉ st.db.presentations.keys) : (sighting id).next false q r = false := by
  -- the pending changes of the request bring no deck
  have hview : id ∉ (p.view st.db).presentations.keys := by
    intro hkey
    have hcommit : Evolves a.user st ⟨p.view st.db, st.issued⟩ := hinv.commit fun _ h => h
    rcases hcommit.fresh id hkey with h | h
    · exact hnone h
    · exact h.1 h.2
  have hfind : (p.view st.db).presentations.find? id = none := Table.find?_eq_none.mpr hview
  cases q with
  | presentationFindUnique y =>
    rcases r with err | _ | deck
    · rfl
    · rfl
    by_cases hy : y = id
    · subst hy
      obtain ⟨w, ws, -, hexec, -⟩ := h.ok_inv trivial
      have hstart : p.start st.db (.presentationFindUnique y) = p.view st.db := by
        simp [Conn.start, Query.locksRows]
      rw [hstart] at hexec
      simp only [exec, Db.deck?, hfind, Option.map_none] at hexec
      cases hexec
    · simp [sighting, hy]
  | presentationFindFirst y userId =>
    rcases r with err | _ | found
    · rfl
    · rfl
    by_cases hy : y = id
    · subst hy
      obtain ⟨w, ws, -, hexec, -⟩ := h.ok_inv trivial
      have hstart : p.start st.db (.presentationFindFirst y userId) = p.view st.db := by
        simp [Conn.start, Query.locksRows]
      rw [hstart] at hexec
      simp only [exec, hfind, Option.filter_none] at hexec
      cases hexec
    · simp [sighting, hy]
  | _ => rfl

/-- Requests that arrive while deck `id` is not there do not see it. -/
theorem unseen_of_run (h₀ : c₀.Idle) (run : ServerRun env c₀ es c) (run' : ServerRun env c es' c')
    (hnone : ∀ es' c', ServerRun env c es' c' → id ∉ c'.shared.db.presentations.keys) :
    c.sessions.length ≤ c'.sessions.length ∧ ∀ (j : Nat) (y : ServerSession), c.sessions.length ≤ j →
      c'.sessions[j]? = some y → (sighting id).after false y.log = false := by
  induction run' with
  | nil => exact ⟨le_rfl, fun j y hj hy => absurd (List.getElem?_eq_some_iff.mp hy).1 (not_lt.mpr hj)⟩
  | @snoc es' c₁ c₂ e run' step ih =>
    obtain ⟨hlength, ih⟩ := ih
    cases step with
    | spawn req =>
      refine ⟨by simpa using Nat.le_succ_of_le hlength, fun j y hj hy => ?_⟩
      rw [List.getElem?_append] at hy
      split at hy
      · exact ih j y hj hy
      · rw [List.mem_singleton.mp (List.mem_of_getElem? hy)]
        rfl
    | @act i z q k r st' p' hz hp ha =>
      refine ⟨by simpa using hlength, fun j y hj hy => ?_⟩
      by_cases hji : j = i
      · subst hji
        rw [List.getElem?_set_self (List.getElem?_eq_some_iff.mp hz).1] at hy
        cases hy
        rw [Monitor.after_append, ih j z hj hz]
        exact unseen_of_act ha ((ServerRun.inv h₀.initial (run.trans run')).sessions z
          (List.mem_of_getElem? hz)) (hnone _ _ run')
      · rw [List.getElem?_set_ne (Ne.symm hji)] at hy
        exact ih j y hj hy
    | @stall i z q k p' hz hp ha =>
      refine ⟨by simpa using hlength, fun j y hj hy => ?_⟩
      by_cases hji : j = i
      · subst hji
        rw [List.getElem?_set_self (List.getElem?_eq_some_iff.mp hz).1] at hy
        cases hy
        exact ih j z hj hz
      · rw [List.getElem?_set_ne (Ne.symm hji)] at hy
        exact ih j y hj hy

/-- Once a `DELETE` of a deck has answered below 400, in every later state of every run there is no row, no
    slide and no share token of it; no later operation is about it; and no request about it that arrives
    later succeeds. -/
theorem removed_for_good (h₀ : c₀.Idle) (run : ServerRun env c₀ es c) (hx : c.sessions[i]? = some x)
    (hreq : x.tag.endpoint = .deletePresentation id) (hp : x.prog = .pure response) (hok : response.status < 400)
    (run' : ServerRun env c es' c') :
    (c'.shared.db.entry? id = none ∧ c'.shared.db.slidesOf id = [] ∧ c'.shared.db.tokensOf id = []) ∧
    (∃ later, deckEffects env (es ++ es') = deckEffects env es ++ later ∧ ∀ o ∈ later, o.2.id ≠ id) ∧
    ∀ (j : Nat) (y : ServerSession) (response' : Response), c.sessions.length ≤ j → c'.sessions[j]? = some y →
      y.tag.endpoint.deck? = some id → y.prog = .pure response' → 400 ≤ response'.status := by
  obtain ⟨s, hs, -⟩ := ServerRun.shows h₀ run
  have hgone := gone_of_removed h₀ run hx hreq hp hok hs
  -- from there on the shelf avoids the deck
  have hlater : ∀ es' c', ServerRun env c es' c' →
      (∃ later, deckEffects env (es ++ es') = deckEffects env es ++ later ∧ ∀ o ∈ later, o.2.id ≠ id) ∧
        c'.shared.db.entry? id = none := by
    intro es' c' run'
    have heffects : deckEffects env (es ++ es') = deckEffects env es ++ _ := effects_append h₀.sessions run es'
    obtain ⟨s', hs', hshows⟩ := ServerRun.shows h₀ (run.trans run')
    rw [heffects, List.map_append, Object.run_append, hs, Option.bind_some] at hs'
    refine ⟨⟨_, heffects, fun o ho => ?_⟩, ?_⟩
    · have hkeep : ∀ (s : Shelf) (o : DeckOp) (s' : Shelf),
        (id ∈ s.used ∧ s.decks id = none) → shelf.apply s o = some s' →
          (id ∈ s'.used ∧ s'.decks id = none) ∧ ¬ o.id = id := fun _ _ _ => shelf_gone
      exact Object.run_avoids hkeep hgone hs' o.2 (List.mem_map_of_mem ho)
    · rw [← hshows.decks]
      exact (Object.run_keeps (fun _ _ _ hgone ho => (shelf_gone hgone ho).1) hgone hs').2
  have hnone : ∀ es' c', ServerRun env c es' c' → id ∉ c'.shared.db.presentations.keys := fun es' c' run' =>
    not_mem_of_entry? (hlater es' c' run').2
  have hlinked := (ServerRun.coherent h₀ (run.trans run')).sound.linked
  refine ⟨⟨(hlater es' c' run').2, ?_, ?_⟩, (hlater es' c' run').1, fun j y response' hj hy hdeck hpure => ?_⟩
  · refine List.filter_eq_nil_iff.mpr fun s hmem hid => hnone es' c' run' ?_
    rw [← beq_iff_eq.mp hid]
    exact hlinked.slides s hmem
  · refine List.filter_eq_nil_iff.mpr fun t hmem hid => hnone es' c' run' ?_
    rw [← beq_iff_eq.mp hid]
    exact hlinked.shareTokens t hmem
  · have hunseen := (unseen_of_run h₀ run run' hnone).2 j y hj hy
    have hsees : (sighting id).Ensures _ y.prog (Sees id y.tag.endpoint) :=
      Run.ensures (T := fun _ => True) (fun _ => sighting id)
      (fun _ => false) (run.trans run') (fun req _ => sees_handle env req)
      (fun x hx => by rw [h₀.sessions] at hx; cases hx) y (List.mem_of_getElem? hy) trivial
    rw [hpure, hunseen] at hsees
    by_contra hlow
    cases hsees hdeck response' rfl (not_le.mp hlow)

end Runs

/-- A request that has removed deck `id`. -/
def hasRemoved (id : String) (x : ServerSession) : Bool :=
  match x.tag.endpoint, x.prog with
  | .deletePresentation x, .pure response => x == id && decide (response.status < 400)
  | _, _ => false

theorem hasRemoved_iff {id : String} {x : ServerSession} : hasRemoved id x = true ↔
    x.tag.endpoint = .deletePresentation id ∧ ∃ response, x.prog = .pure response ∧ response.status < 400 := by
  unfold hasRemoved
  split
  · rename_i hreq hp
    simp [hreq, hp]
  · rename_i hother
    refine iff_of_false Bool.false_ne_true ?_
    rintro ⟨hreq, response, hp, -⟩
    exact hother _ _ hreq hp

/-- After the deletion `bob` opens a deck of his own, and `alice` asks for the one she deleted. -/
def afterDelete : List Move :=
  [.arrive (aliceRequest (.getPresentationById (issue 3 0))), .answer 3,
    .arrive ⟨some "Bearer bob", .createPresentation (some (.obj [("topic", .str "Notes"), ("slides", .arr [])]))⟩,
    .answer 4, .answer 4, .answer 4, .answer 4]

theorem deleted_roadmap_is_gone :
    ∃ es c es' c', ServerRun office newOffice es c ∧ ServerRun office c es' c' ∧
    c'.shared.db.presentations.rows.length = 1 ∧
      c'.shared.db.entry? (issue 3 0) = none ∧
      ∀ (j : Nat) (y : ServerSession) (response : Response), c.sessions.length ≤ j → c'.sessions[j]? = some y →
        y.tag.endpoint.deck? = some (issue 3 0) → y.prog = .pure response → 400 ≤ response.status := by
  have hplay : newOffice.playable (fun _ _ => true) office 0 0 saveAndDelete = true := by decide +kernel
  obtain ⟨run, hn⟩ := Server.play_run office (show Unissued 0 newOffice.shared.issued from fun _ _ _ h => h) hplay
  have hplay' : (newOffice.play office 0 0 saveAndDelete).playable
    (fun _ _ => true) office 0 17 afterDelete = true := by
    decide +kernel
  obtain ⟨run', -⟩ := Server.play_run office hn hplay'
  have hremoved : ((newOffice.play office 0 0 saveAndDelete).sessions[2]?).any (hasRemoved (issue 3 0)) = true := by
    decide +kernel
  obtain ⟨x, hx, hremoved⟩ := (Option.any_eq_true _ _).mp hremoved
  obtain ⟨hreq, response, hp, hok⟩ := hasRemoved_iff.mp hremoved
  obtain ⟨⟨hentry, -, -⟩, -, hrefused⟩ := removed_for_good newOffice_idle run.run hx hreq hp hok run'.run
  exact ⟨_, _, _, _, run.run, run'.run, by decide +kernel, hentry, hrefused⟩

end Slideo
