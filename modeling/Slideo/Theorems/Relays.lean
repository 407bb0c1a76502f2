import Slideo.Theorems.Membership
import Slideo.Theorems.Presence

/-! What a client hears. In every run the slide updates and the cursor moves that reach a socket are those
    that the history sends it: each once, in the order in which the server has handled them, and under the
    name that their sender connected with. -/

namespace Slideo
open Collab

/-! ### The history of a socket -/

/-- The user that a connection of the socket `s` was accepted as. -/
def acceptedAs (env : Env) (s : String) : String × SocketEvent → Option AuthUser
  | (t, .connect token) => if t = s then Collab.authenticate env token else none
  | _ => none

/-- The user of a socket that is still connected. -/
def connectedUser? (env : Env) (es : List (String × SocketEvent)) (s : String) : Option AuthUser :=
  if (s, .disconnect) ∈ es then none else es.findSome? (acceptedAs env s)

/-- A connected socket is in the room of its own id until it leaves it, and in the others once it has joined
    them. -/
def standsIn (es : List (String × SocketEvent)) (s p : String) : Bool :=
  if p = s then lastPresence es s p != some (.leaveRoom p) else lastPresence es s p == some (.joinRoom p)

section History
variable {env : Env} {es : List (String × SocketEvent)} {e : SocketEvent} {s t p : String}

theorem connectedUser?_snoc_of_ne (ht : t ≠ s) :
    connectedUser? env (es ++ [(t, e)]) s = connectedUser? env es s := by
  have haccepted : acceptedAs env s (t, e) = none := by
    cases e <;> simp [acceptedAs, ht]
  rw [connectedUser?, connectedUser?, List.findSome?_append, List.findSome?_singleton, haccepted, Option.or_none]
  simp only [mem_snoc_of_ne ht]

/-- What a connected socket does leaves it connected, unless it disconnects. -/
theorem connectedUser?_snoc (hdisc : e ≠ .disconnect) (hconnect : ∀ token, e ≠ .connect token) :
    connectedUser? env (es ++ [(s, e)]) s = connectedUser? env es s := by
  have haccepted : acceptedAs env s (s, e) = none := by
    cases e with
    | connect token => exact absurd rfl (hconnect token)
    | _ => rfl
  have hmem : (s, SocketEvent.disconnect) ∈ es ++ [(s, e)] ↔ (s, .disconnect) ∈ es := by
    simp [Ne.symm hdisc]
  rw [connectedUser?, connectedUser?, List.findSome?_append, List.findSome?_singleton, haccepted, Option.or_none]
  simp only [hmem]

theorem connectedUser?_disconnect : connectedUser? env (es ++ [(s, .disconnect)]) s = none := by
  rw [connectedUser?, if_pos (List.mem_append_right _ (List.mem_singleton_self _))]

theorem connectedUser?_connect {token : Option String} (hnew : ∀ e ∈ es, e.1 ≠ s) :
    connectedUser? env (es ++ [(s, .connect token)]) s = Collab.authenticate env token := by
  have hunseen : es.findSome? (acceptedAs env s) = none := by
    refine List.findSome?_eq_none_iff.mpr fun ⟨t, e⟩ he => ?_
    have hne := hnew _ he
    cases e <;> simp_all [acceptedAs]
  have hmem : (s, SocketEvent.disconnect) ∉ es ++ [(s, .connect token)] := by
    intro hmem
    rcases List.mem_append.mp hmem with hmem | hmem
    · exact hnew _ hmem rfl
    · cases List.mem_singleton.mp hmem
  rw [connectedUser?, if_neg hmem, List.findSome?_append, hunseen, List.findSome?_singleton]
  simp [acceptedAs]

theorem standsIn_snoc (h : (t, e) ≠ (s, .joinRoom p) ∧ (t, e) ≠ (s, .leaveRoom p)) :
    standsIn (es ++ [(t, e)]) s p = standsIn es s p := by
  rw [standsIn, standsIn, lastPresence_snoc, if_neg (not_or.mpr h)]

theorem standsIn_join : standsIn (es ++ [(s, .joinRoom p)]) s p = true := by
  rw [standsIn, lastPresence_snoc, if_pos (Or.inl rfl)]
  split <;> simp

theorem standsIn_leave : standsIn (es ++ [(s, .leaveRoom p)]) s p = false := by
  rw [standsIn, lastPresence_snoc, if_pos (Or.inr rfl)]
  split <;> simp

theorem standsIn_connect {token : Option String} (hnew : ∀ e ∈ es, e.1 ≠ s) :
    standsIn (es ++ [(s, .connect token)]) s p = decide (p = s) := by
  rw [standsIn_snoc (by simp), standsIn, lastPresence_of_unseen hnew]
  by_cases hp : p = s <;> simp [hp]

end History

/-! ### socket.io agrees with the history -/

/-- A socket is connected as its user, and in the rooms where it stands. -/
structure Standing (env : Env) (es : List (String × SocketEvent)) (c : Collab) (s : String) : Prop where
  user : (c.peers.get? s).map (·.user) = connectedUser? env es s
  joined : ∀ peer p, c.peers.get? s = some peer → (p ∈ peer.joined ↔ standsIn es s p = true)

section Standing
variable {env : Env} {es : List (String × SocketEvent)} {c : Collab} {s t p : String} {e : SocketEvent}

theorem Standing.foreign (h : Standing env es c s) (ht : t ≠ s) :
    Standing env (es ++ [(t, e)]) (c.handle env t e).1 s := by
  have hpeer : (c.handle env t e).1.peers.get? s = c.peers.get? s :=
    (Collab.handle_of_ne (x := s) (Ne.symm ht)).2
  refine ⟨?_, fun peer p hget => ?_⟩
  · rw [hpeer, connectedUser?_snoc_of_ne ht]
    exact h.user
  · rw [standsIn_snoc ⟨fun heq => ht (congrArg Prod.fst heq), fun heq => ht (congrArg Prod.fst heq)⟩]
    exact h.joined peer p (hpeer ▸ hget)

/-- An event that changes only the rooms of a connected socket. -/
theorem Standing.rooms {peer : Peer} (joined : List String) (h : Standing env es c s)
    (hpeer : c.peers.get? s = some peer) (hdisc : e ≠ .disconnect) (hconnect : ∀ token, e ≠ .connect token)
    (hget : (c.handle env s e).1.peers.get? s = some { peer with joined := joined })
    (hjoined : ∀ p, p ∈ joined ↔ standsIn (es ++ [(s, e)]) s p = true) :
    Standing env (es ++ [(s, e)]) (c.handle env s e).1 s := by
  refine ⟨?_, fun peer' p hget' => ?_⟩
  · have huser := h.user
    rw [hpeer, Option.map_some] at huser
    rw [hget, Option.map_some, connectedUser?_snoc hdisc hconnect]
    exact huser
  · rw [hget] at hget'
    cases hget'
    exact hjoined p

theorem Standing.step (h : Standing env es c s) (possible : Possible es c t e) :
    Standing env (es ++ [(t, e)]) (c.handle env t e).1 s := by
  by_cases ht : t = s
  swap
  · exact h.foreign ht
  subst ht
  cases e with
  | connect token =>
    have hnone : c.peers.get? t = none := by
      have hunseen : connectedUser? env es t = none := by
        rw [connectedUser?, if_neg fun hmem => possible _ hmem rfl]
        refine List.findSome?_eq_none_iff.mpr fun ⟨u, e⟩ he => ?_
        have hne := possible _ he
        cases e <;> simp_all [acceptedAs]
      exact Option.map_eq_none_iff.mp (h.user.trans hunseen)
    have hget : (c.handle env t (.connect token)).1.peers.get? t =
      (Collab.authenticate env token).map fun user => ⟨user, [t]⟩ := by
      rw [Collab.handle, Collab.get?_connect, if_pos rfl, hnone, Option.or_none]
    refine ⟨?_, fun peer p hpeer => ?_⟩
    · rw [hget, connectedUser?_connect possible, Option.map_map]
      exact Option.map_id' ..
    · rw [hget] at hpeer
      obtain ⟨user, -, rfl⟩ := Option.map_eq_some_iff.mp hpeer
      rw [standsIn_connect possible]
      simp
  | joinRoom q =>
    obtain ⟨peer, hpeer⟩ := possible
    refine Standing.rooms (peer.joined.insert q) h hpeer (by simp) (by simp) ?_ fun p => ?_
    · simp [Collab.handle, hpeer, Collab.joinRoom, OrderedMap.get?_set]
    · by_cases hp : p = q
      · subst hp
        rw [standsIn_join]
        simp
      · rw [standsIn_snoc (by simp [Ne.symm hp]), ← h.joined peer p hpeer]
        simp [hp]
  | slideUpdate event =>
    obtain ⟨peer, hpeer⟩ := possible
    refine Standing.rooms peer.joined h hpeer (by simp) (by simp) ?_ fun p => ?_
    · simp [Collab.handle, hpeer, Collab.slideUpdate]
    · rw [standsIn_snoc (by simp)]
      exact h.joined peer p hpeer
  | cursorMove data =>
    obtain ⟨peer, hpeer⟩ := possible
    refine Standing.rooms peer.joined h hpeer (by simp) (by simp) ?_ fun p => ?_
    · simp [Collab.handle, hpeer, Collab.cursorMove]
    · rw [standsIn_snoc (by simp)]
      exact h.joined peer p hpeer
  | leaveRoom q =>
    obtain ⟨peer, hpeer⟩ := possible
    refine Standing.rooms (peer.joined.filter (· != q)) h hpeer (by simp) (by simp) ?_ fun p => ?_
    · simp [Collab.handle, hpeer, Collab.leaveRoom, OrderedMap.get?_set]
    · by_cases hp : p = q
      · subst hp
        rw [standsIn_leave]
        simp
      · rw [standsIn_snoc (by simp [Ne.symm hp]), ← h.joined peer p hpeer]
        simp [hp]
  | disconnect =>
    obtain ⟨peer, hpeer⟩ := possible
    have hget : (c.handle env t .disconnect).1.peers.get? t = none := by
      simp [Collab.handle, hpeer, Collab.disconnect, OrderedMap.get?_delete]
    refine ⟨?_, fun peer' p hpeer' => ?_⟩
    · rw [hget, connectedUser?_disconnect]
      rfl
    · rw [hget] at hpeer'
      cases hpeer'

theorem CollabRun.standing {P : Collab → Prop} {sent : List (String × Message)}
    (run : CollabRun env P es c sent) (s : String) :
    Standing env es c s := by
  induction run with
  | start => exact ⟨rfl, fun peer p h => by cases h⟩
  | snoc _ possible _ ih => exact ih.step possible

end Standing

/-! ### What a client hears -/

/-- A message that passes on what a client has sent. -/
def Message.isRelay : Message → Bool
  | .slideUpdate _ _ _ | .cursorMove _ _ _ _ => true
  | .roomState _ | .userJoined _ _ | .userLeft _ => false

/-- The room that hears an event, and what it hears. -/
def relay? (env : Env) (past : List (String × SocketEvent)) (s : String) : SocketEvent → Option (String × Message)
  | .slideUpdate event => (connectedUser? env past s).map fun user =>
    (event.presentationId, .slideUpdate event s user.email)
  | .cursorMove data => some (data.presentationId, .cursorMove s data.x data.y data.activeSlideId)
  | _ => none

/-- The socket `t` hears what others say in a room where it stands. -/
def hears (env : Env) (past : List (String × SocketEvent)) (s t p : String) : Bool :=
  s != t && (connectedUser? env past t).isSome && standsIn past t p

def heardAt (env : Env) (t : String) (past : List (String × SocketEvent))
    (e : String × SocketEvent) : List Message :=
  match relay? env past e.1 e.2 with
  | some (p, m) => if hears env past e.1 t p then [m] else []
  | none => []

/-- All that the socket `t` hears of the events after `past`. -/
def heard (env : Env) (t : String) : List (String × SocketEvent) → List (String × SocketEvent) → List Message
  | _, [] => []
  | past, e :: es => heardAt env t past e ++ heard env t (past ++ [e]) es

section Hearing
variable {env : Env} {P : Collab → Prop} {es past : List (String × SocketEvent)} {c : Collab}
  {sent : List (String × Message)} {s t p : String} {e : SocketEvent} {m : Message}

theorem heard_snoc (e : String × SocketEvent) : heard env t past (es ++ [e]) = heard env t past es ++
    heardAt env t (past ++ es) e := by
  induction es generalizing past with
  | nil => simp [heard]
  | cons x es ih => simp [heard, ih]

theorem hears_iff (h : Standing env es c t) : hears env es s t p = true ↔ s ≠ t ∧ c.isJoined t p := by
  rw [hears, ← h.user, Bool.and_eq_true, Bool.and_eq_true, bne_iff_ne, and_assoc, Option.isSome_map]
  refine and_congr_right fun _ => ?_
  constructor
  · rintro ⟨hconnected, hstands⟩
    obtain ⟨peer, hpeer⟩ := Option.isSome_iff_exists.mp hconnected
    exact ⟨peer, hpeer, (h.joined peer p hpeer).mpr hstands⟩
  · rintro ⟨peer, hpeer, hjoined⟩
    exact ⟨by rw [hpeer]; rfl, (h.joined peer p hpeer).mp hjoined⟩

/-- What a broadcast brings to a socket. -/
theorem inbox_broadcast (h : Standing env es c t) :
    inbox (c.emitTo s p m) t = if hears env es s t p then [m] else [] := by
  split
  · rename_i hhears
    obtain ⟨hne, hjoined⟩ := (hears_iff h).mp hhears
    exact inbox_emitTo_joined (Ne.symm hne) hjoined
  · rename_i hhears
    by_cases hst : t = s
    · rw [hst]
      exact inbox_emitTo_self
    · exact inbox_emitTo_of_not_joined fun hjoined => hhears ((hears_iff h).mpr ⟨Ne.symm hst, hjoined⟩)

/-- Messages about who is in a room are no relays. -/
theorem inbox_unheard {ms : List (String × Message)} (h : ∀ m ∈ ms, m.2.isRelay = false) :
    (inbox ms t).filter Message.isRelay = [] := by
  refine List.filter_eq_nil_iff.mpr fun m hm => ?_
  obtain ⟨⟨u, m'⟩, hmem, heq⟩ := List.mem_filterMap.mp hm
  split at heq
  · cases heq
    exact Bool.eq_false_iff.mp (h _ hmem)
  · cases heq

/-- One event brings a socket what it hears of it. -/
theorem relays_of_event (hs : Standing env es c s) (ht : Standing env es c t) (possible : Possible es c s e) :
    (inbox (c.handle env s e).2 t).filter Message.isRelay = heardAt env t es (s, e) := by
  have silent : ∀ {ms : List (String × Message)}, relay? env es s e = none → (∀ m ∈ ms, m.2.isRelay = false) →
      (inbox ms t).filter Message.isRelay = heardAt env t es (s, e) := by
    intro ms hnone hms
    rw [inbox_unheard hms, heardAt, hnone]
  have spoken : ∀ {p : String} {m : Message}, relay? env es s e = some (p, m) → m.isRelay = true →
      (inbox (c.emitTo s p m) t).filter Message.isRelay = heardAt env t es (s, e) := by
    intro p m hsome hrelay
    have hheard : heardAt env t es (s, e) = if hears env es s t p then [m] else [] := by
      rw [heardAt, hsome]
    rw [inbox_broadcast ht, hheard]
    split
    · rw [List.filter_cons_of_pos hrelay, List.filter_nil]
    · rfl
  have emitted : ∀ {c' : Collab} {p : String} {m : Message}, m.isRelay = false →
    ∀ x ∈ c'.emitTo s p m, x.2.isRelay = false := by
    intro c' p m hm x hx
    obtain ⟨y, -, rfl⟩ := List.mem_map.mp hx
    exact hm
  cases e with
  | connect token => exact silent rfl fun m hm => by cases hm
  | joinRoom p =>
    obtain ⟨peer, hpeer⟩ := possible
    simp only [Collab.handle, hpeer, Collab.joinRoom]
    refine silent rfl fun m hm => ?_
    rcases List.mem_cons.mp hm with rfl | hm
    · rfl
    · exact emitted rfl m hm
  | slideUpdate event =>
    obtain ⟨peer, hpeer⟩ := possible
    simp only [Collab.handle, hpeer, Collab.slideUpdate]
    refine spoken ?_ rfl
    rw [relay?, ← hs.user, hpeer]
    rfl
  | cursorMove data =>
    obtain ⟨peer, hpeer⟩ := possible
    simp only [Collab.handle, hpeer, Collab.cursorMove]
    exact spoken rfl rfl
  | leaveRoom p =>
    obtain ⟨peer, hpeer⟩ := possible
    simp only [Collab.handle, hpeer, Collab.leaveRoom]
    exact silent rfl (emitted rfl)
  | disconnect =>
    obtain ⟨peer, hpeer⟩ := possible
    simp only [Collab.handle, hpeer, Collab.disconnect]
    refine silent rfl fun m hm => ?_
    obtain ⟨x, -, hm⟩ := List.mem_flatMap.mp hm
    split at hm
    · exact emitted rfl m hm
    · cases hm

/-- In every run a socket receives exactly the slide updates and cursor moves that others have sent to the
    rooms where it stood at that time: each once, in the order in which the server has handled them, with the
    id of the sender and the address that the sender connected with. -/
theorem relays_exact (run : CollabRun env P es c sent) (t : String) :
    (inbox sent t).filter Message.isRelay = heard env t [] es := by
  induction run with
  | start => rfl
  | @snoc es c sent s e run possible state ih =>
    rw [inbox_append, List.filter_append, ih, heard_snoc, List.nil_append,
      relays_of_event (run.standing s) (run.standing t) possible]

end Hearing

theorem bob_hears_alice :
    ∃ c sent, CollabRun office (fun _ => True) meeting c sent ∧
      (inbox sent "s2").filter Message.isRelay =
        [.cursorMove "s1" (some (.num 3)) (some (.num 4)) (some (.str "intro"))] := by
  have hplay : Collab.playable office (fun _ => true) [] .empty meeting = true := by decide +kernel
  have run := (Collab.play_run .start hplay).mono (Q := fun _ => True) fun _ _ => trivial
  exact ⟨_, _, run, (relays_exact run "s2").trans (by decide +kernel)⟩

end Slideo
