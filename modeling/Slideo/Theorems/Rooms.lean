import Slideo.Collab
import Slideo.Schedule

/-! The map of rooms is a function of the history. A socket has an entry in a room from its last `join-room`
    until it leaves the room or disconnects, which is when socket.io has it in the room too; the entry
    shows whom the socket belongs to and where its cursor was last. -/

namespace Slideo

/-! ### What each event does -/

namespace Collab
section Effects
variable {env : Env} {c : Collab} {s t p x : String} {peer : Peer}

theorem collaborator?_set {rooms : OrderedMap Room} {peers peers' : OrderedMap Peer} {room : Room} :
    collaborator? ⟨peers, rooms.set p room⟩ x t = if x =
      p then room.get? t else collaborator? ⟨peers', rooms⟩ x t := by
  simp only [collaborator?, OrderedMap.get?_set]
  split
  · rfl
  · rfl

theorem collaborator?_joinRoom : (c.joinRoom s peer p).1.collaborator? x t =
    if x = p ∧ t = s then
      some ⟨peer.user.id, peer.user.email, getColor ((c.rooms.get? p).getD .empty).size, none, none⟩
    else c.collaborator? x t := by
  rw [joinRoom, collaborator?_set]
  by_cases hx : x = p
  · rw [if_pos hx, OrderedMap.get?_set, collaborator?, hx]
    by_cases ht : t = s
    · rw [if_pos ht, if_pos ⟨rfl, ht⟩]
    · rw [if_neg ht, if_neg fun h => ht h.2]
      cases c.rooms.get? p <;> rfl
  · rw [if_neg hx, if_neg fun h => hx h.1]

theorem collaborator?_cursorMove {data : CursorMove} : (c.cursorMove s data).1.collaborator? x t =
    if x = data.presentationId ∧ t = s then
      (c.collaborator? x t).map fun info => {
        info with cursor := some ⟨data.x, data.y⟩, activeSlideId := data.activeSlideId }
    else c.collaborator? x t := by
  have same : c.collaborator? data.presentationId s = none → (c.cursorMove s data).1.rooms = c.rooms →
      (c.cursorMove s data).1.collaborator? x t = if x = data.presentationId ∧ t = s then
        (c.collaborator? x t).map fun info =>
          { info with cursor := some ⟨data.x, data.y⟩, activeSlideId := data.activeSlideId }
      else c.collaborator? x t := by
    intro hnone hrooms
    rw [show (c.cursorMove s data).1.collaborator? x t =
      c.collaborator? x t from by rw [collaborator?, hrooms, collaborator?]]
    split
    · rename_i h
      rw [h.1, h.2, hnone]
      rfl
    · rfl
  cases hroom : c.rooms.get? data.presentationId with
  | none => exact same (by simp [collaborator?, hroom]) (by simp [cursorMove, hroom])
  | some room =>
    cases hinfo : room.get? s with
    | none => exact same (by simp [collaborator?, hroom, hinfo]) (by simp [cursorMove, hroom, hinfo])
    | some info =>
      simp only [cursorMove, hroom, hinfo]
      rw [collaborator?_set]
      by_cases hx : x = data.presentationId
      · rw [if_pos hx, OrderedMap.get?_set, collaborator?, hx, hroom, Option.bind_some]
        by_cases ht : t = s
        · rw [if_pos ht, if_pos ⟨rfl, ht⟩, ht, hinfo]
          rfl
        · rw [if_neg ht, if_neg fun h => ht h.2]
      · rw [if_neg hx, if_neg fun h => hx h.1]

theorem collaborator?_leaveRoom : (c.leaveRoom s peer p).1.collaborator? x t = if x = p ∧
    t = s then none else c.collaborator? x t := by
  cases hroom : c.rooms.get? p with
  | none =>
    simp only [leaveRoom, hroom]
    split
    · rename_i h
      simp [collaborator?, h.1, hroom]
    · rfl
  | some room =>
    simp only [leaveRoom, hroom]
    rw [collaborator?_set]
    by_cases hx : x = p
    · rw [if_pos hx, OrderedMap.get?_delete, collaborator?, hx, hroom, Option.bind_some]
      by_cases ht : t = s
      · rw [if_pos ht, if_pos ⟨rfl, ht⟩]
      · rw [if_neg ht, if_neg fun h => ht h.2]
    · rw [if_neg hx, if_neg fun h => hx h.1]

theorem collaborator?_disconnect : (c.disconnect s).1.collaborator? x t = if t =
    s then none else c.collaborator? x t := by
  simp only [disconnect, collaborator?, OrderedMap.get?_map]
  cases c.rooms.get? x with
  | none => simp
  | some room =>
    simp only [Option.map_some, Option.bind_some]
    cases hs : room.has s with
    | true => rw [if_pos rfl, OrderedMap.get?_delete]
    | false =>
      rw [if_neg Bool.false_ne_true]
      split
      · rename_i ht
        rw [ht]
        exact Option.not_isSome_iff_eq_none.mp (by rw [← OrderedMap.has, hs]; exact Bool.false_ne_true)
      · rfl

theorem get?_connect {token : Option String} : (c.connect env s token).peers.get? t =
    if t = s then ((authenticate env token).map fun user => ⟨user, [s]⟩).or
      (c.peers.get? t) else c.peers.get? t := by
  unfold connect
  cases authenticate env token with
  | none => simp
  | some user =>
    rw [OrderedMap.get?_set]
    split
    · rfl
    · rfl

theorem collaborator?_connect {token : Option String} :
    (c.connect env s token).collaborator? x t = c.collaborator? x t := by
  unfold connect
  split
  · rfl
  · rfl

/-- Events of a socket leave the entries and the peers of others alone. -/
theorem handle_of_ne {e : SocketEvent} (ht : t ≠ s) : (c.handle env s e).1.collaborator? x t = c.collaborator? x t ∧
    (c.handle env s e).1.peers.get? t = c.peers.get? t := by
  cases e with
  | connect token =>
    refine ⟨collaborator?_connect, ?_⟩
    rw [handle, get?_connect, if_neg ht]
  | joinRoom q =>
    cases hs : c.peers.get? s with
    | none => simp [handle, hs]
    | some peer =>
      simp only [handle, hs]
      rw [collaborator?_joinRoom, if_neg fun h => ht h.2, joinRoom, OrderedMap.get?_set, if_neg ht]
      exact ⟨rfl, rfl⟩
  | slideUpdate event => cases hs : c.peers.get? s <;> simp [handle, hs, slideUpdate]
  | cursorMove data =>
    cases hs : c.peers.get? s with
    | none => simp [handle, hs]
    | some peer =>
      simp only [handle, hs]
      rw [collaborator?_cursorMove, if_neg fun h => ht h.2]
      exact ⟨rfl, rfl⟩
  | leaveRoom q =>
    cases hs : c.peers.get? s with
    | none => simp [handle, hs]
    | some peer =>
      simp only [handle, hs]
      rw [collaborator?_leaveRoom, if_neg fun h => ht h.2, leaveRoom, OrderedMap.get?_set, if_neg ht]
      exact ⟨rfl, rfl⟩
  | disconnect =>
    cases hs : c.peers.get? s with
    | none => simp [handle, hs]
    | some peer =>
      simp only [handle, hs]
      rw [collaborator?_disconnect, if_neg ht, disconnect, OrderedMap.get?_delete, if_neg ht]
      exact ⟨rfl, rfl⟩

end Effects
end Collab

/-! ### History -/

section History
variable (es : List (String × SocketEvent)) (s p : String)

/-- The most recent event of the socket among `join-room(p)` and `leave-room(p)`. -/
def lastPresence : Option SocketEvent :=
  (es.reverse.find? fun e => e == (s, .joinRoom p) || e == (s, .leaveRoom p)).map Prod.snd

/-- The data of the event, if it is a move of the socket in the room. -/
def moveIn : String × SocketEvent → Option CursorMove
  | (t, .cursorMove data) => if t = s ∧ data.presentationId = p then some data else none
  | _ => none

/-- The last `cursor-move` of the socket for the room since its last join of it. -/
def lastMove : Option CursorMove := (es.reverse.takeWhile (· != (s, .joinRoom p))).findSome? (moveIn s p)

/-- The socket was accepted and has not disconnected. -/
def StillConnected (env : Env) : Prop :=
  (∃ token user, (s, .connect token) ∈ es ∧ Collab.authenticate env token = some user) ∧ (s, .disconnect) ∉ es

variable {es s p} {e : String × SocketEvent}

theorem lastPresence_snoc : lastPresence (es ++ [e]) s p =
    if e = (s, .joinRoom p) ∨ e = (s, .leaveRoom p) then some e.2 else lastPresence es s p := by
  rw [lastPresence, List.reverse_append, List.reverse_singleton, List.singleton_append, List.find?_cons]
  by_cases h : e = (s, .joinRoom p) ∨ e = (s, .leaveRoom p)
  · rw [if_pos h, show (e == (s, .joinRoom p) || e == (s, .leaveRoom p)) = true by simpa using h]
    rfl
  · rw [if_neg h, show (e == (s, .joinRoom p) || e == (s, .leaveRoom p)) = false by simpa using h]
    rfl

theorem lastMove_snoc : lastMove (es ++ [e]) s p =
    if e = (s, .joinRoom p) then none else (moveIn s p e).or (lastMove es s p) := by
  rw [lastMove, List.reverse_append, List.reverse_singleton, List.singleton_append, List.takeWhile_cons]
  by_cases h : e = (s, .joinRoom p)
  · simp [h]
  · rw [if_neg h, if_pos (by simpa using h), List.findSome?_cons]
    cases moveIn s p e <;> rfl

end History

/-! ### The invariant of a socket -/

/-- The state is right about the history of a socket. -/
structure SocketInv (env : Env) (es : List (String × SocketEvent)) (c : Collab) (s : String) : Prop where
  connected : StillConnected es s env → ∃ peer, c.peers.get? s = some peer
  accepted : ∀ peer, c.peers.get? s = some peer → (s, .disconnect) ∉ es ∧
    ∃ token, (s, .connect token) ∈ es ∧ Collab.authenticate env token = some peer.user
  joined : ∀ peer p, c.peers.get? s = some peer → p ≠ s →
    (p ∈ peer.joined ↔ lastPresence es s p = some (.joinRoom p))
  present : ∀ peer p, c.peers.get? s = some peer → lastPresence es s p = some (.joinRoom p) →
    ∃ info, c.collaborator? p s = some info
  entry : ∀ p info, c.collaborator? p s = some info → lastPresence es s p = some (.joinRoom p) ∧
    info.cursor = (lastMove es s p).map (fun data => ⟨data.x, data.y⟩) ∧
    info.activeSlideId = (lastMove es s p).bind (·.activeSlideId) ∧
    ∃ peer, c.peers.get? s = some peer ∧ info.userId = peer.user.id ∧ info.email = peer.user.email

section Socket
variable {env : Env} {es : List (String × SocketEvent)} {c : Collab} {s t : String} {e : SocketEvent}

theorem mem_snoc_of_ne (ht : t ≠ s) {e' : SocketEvent} : (s, e') ∈ es ++ [(t, e)] ↔ (s, e') ∈ es := by
  simp [Ne.symm ht]

theorem SocketInv.foreign (inv : SocketInv env es c s) (ht : t ≠ s) :
    SocketInv env (es ++ [(t, e)]) (c.handle env t e).1 s := by
  have hpeer : (c.handle env t e).1.peers.get? s = c.peers.get? s :=
    (Collab.handle_of_ne (x := s) (Ne.symm ht)).2
  have hentry : ∀ p, (c.handle env t e).1.collaborator? p s = c.collaborator? p s :=
    fun p => (Collab.handle_of_ne (Ne.symm ht)).1
  have hpresence : ∀ p, lastPresence (es ++ [(t, e)]) s p = lastPresence es s p := by
    intro p
    rw [lastPresence_snoc, if_neg]
    rintro (h | h) <;> exact ht (congrArg Prod.fst h)
  have hmove : ∀ p, lastMove (es ++ [(t, e)]) s p = lastMove es s p := by
    intro p
    rw [lastMove_snoc, if_neg fun h => ht (congrArg Prod.fst h)]
    cases e <;> simp [moveIn, ht]
  refine ⟨?_, ?_, ?_, ?_, ?_⟩
  · rintro ⟨⟨token, user, hmem, hauth⟩, hdisc⟩
    rw [hpeer]
    exact inv.connected ⟨⟨token, user, (mem_snoc_of_ne ht).mp hmem, hauth⟩, fun h =>
      hdisc ((mem_snoc_of_ne ht).mpr h)⟩
  · intro peer h
    rw [hpeer] at h
    obtain ⟨hdisc, token, hmem, hauth⟩ := inv.accepted peer h
    exact ⟨fun h => hdisc ((mem_snoc_of_ne ht).mp h), token, (mem_snoc_of_ne ht).mpr hmem, hauth⟩
  · intro peer p h hp
    rw [hpeer] at h
    rw [hpresence]
    exact inv.joined peer p h hp
  · intro peer p h hlast
    rw [hpeer] at h
    rw [hpresence] at hlast
    rw [hentry]
    exact inv.present peer p h hlast
  · intro p info h
    rw [hentry] at h
    rw [hpresence, hmove, hpeer]
    exact inv.entry p info h

theorem lastPresence_of_unseen {p : String} (h : ∀ e ∈ es, e.1 ≠ s) : lastPresence es s p = none := by
  have hnone : (es.reverse.find? fun e => e == (s, .joinRoom p) || e == (s, .leaveRoom p)) = none := by
    refine List.find?_eq_none.mpr fun e he => ?_
    have hne := h e (List.mem_reverse.mp he)
    simp only [Bool.or_eq_true, beq_iff_eq]
    rintro (h | h) <;> exact hne (congrArg Prod.fst h)
  rw [lastPresence, hnone]
  rfl

/-- A socket that connects has no history. -/
theorem SocketInv.connect (inv : SocketInv env es c s) {token : Option String} (hnew : ∀ e ∈ es, e.1 ≠ s) :
    SocketInv env (es ++ [(s, .connect token)]) (c.connect env s token) s := by
  have hnone : c.peers.get? s = none := by
    cases hpeer : c.peers.get? s with
    | none => rfl
    | some peer =>
      obtain ⟨-, token, hmem, -⟩ := inv.accepted peer hpeer
      exact absurd rfl (hnew _ hmem)
  have hpeer : (c.connect env s token).peers.get? s = (Collab.authenticate env token).map fun user => ⟨user, [s]⟩ := by
    rw [Collab.get?_connect, if_pos rfl, hnone, Option.or_none]
  have hpresence : ∀ p, lastPresence (es ++ [(s, .connect token)]) s p = none := by
    intro p
    rw [lastPresence_snoc, if_neg (by simp), lastPresence_of_unseen hnew]
  refine ⟨?_, ?_, ?_, ?_, ?_⟩
  · rintro ⟨⟨token', user, hmem, hauth⟩, -⟩
    rcases List.mem_append.mp hmem with hmem | hmem
    · exact absurd rfl (hnew _ hmem)
    · cases List.mem_singleton.mp hmem
      rw [hpeer, hauth]
      exact ⟨_, rfl⟩
  · intro peer h
    rw [hpeer] at h
    obtain ⟨user, hauth, rfl⟩ := Option.map_eq_some_iff.mp h
    refine ⟨fun hmem => ?_, token, List.mem_append_right _ (List.mem_singleton_self _), hauth⟩
    rcases List.mem_append.mp hmem with hmem | hmem
    · exact absurd rfl (hnew _ hmem)
    · cases List.mem_singleton.mp hmem
  · intro peer p h hp
    rw [hpeer] at h
    obtain ⟨user, -, rfl⟩ := Option.map_eq_some_iff.mp h
    rw [hpresence]
    simp [hp]
  · intro peer p _ hlast
    rw [hpresence] at hlast
    cases hlast
  · intro p info h
    rw [Collab.collaborator?_connect] at h
    obtain ⟨-, -, -, peer, hsome, -⟩ := inv.entry p info h
    rw [hnone] at hsome
    cases hsome

/-- What a connected socket does leaves its connection as it is, unless it disconnects. -/
theorem connected_snoc {peer : Peer} (inv : SocketInv env es c s) (hpeer : c.peers.get? s = some peer)
    (he : e ≠ .disconnect) : (s, SocketEvent.disconnect) ∉ es ++ [(s, e)] ∧
      ∃ token, (s, .connect token) ∈ es ++ [(s, e)] ∧ Collab.authenticate env token = some peer.user := by
  obtain ⟨hdisc, token, hmem, hauth⟩ := inv.accepted peer hpeer
  refine ⟨fun hmem => ?_, token, List.mem_append_left _ hmem, hauth⟩
  rcases List.mem_append.mp hmem with hmem | hmem
  · exact hdisc hmem
  · cases List.mem_singleton.mp hmem
    exact he rfl

theorem SocketInv.joinRoom (inv : SocketInv env es c s) {peer : Peer}
    (hpeer : c.peers.get? s = some peer) {q : String} :
    SocketInv env (es ++ [(s, .joinRoom q)]) (c.joinRoom s peer q).1 s := by
  have hpeer' : (c.joinRoom s peer q).1.peers.get? s = some { peer with joined := peer.joined.insert q } := by
    rw [Collab.joinRoom, OrderedMap.get?_set, if_pos rfl]
  have hpresence : ∀ p, lastPresence (es ++ [(s, .joinRoom q)]) s p =
      if p = q then some (.joinRoom q) else lastPresence es s p := by
    intro p
    rw [lastPresence_snoc]
    by_cases hp : p = q
    · simp [hp]
    · simp [hp, Ne.symm hp]
  refine ⟨fun _ => ⟨_, hpeer'⟩, ?_, ?_, ?_, ?_⟩
  · intro peer₁ h
    rw [hpeer'] at h
    cases h
    have hkept := connected_snoc (e := .joinRoom q) inv hpeer fun h => by cases h
    exact hkept
  · intro peer₁ p h hp
    rw [hpeer'] at h
    cases h
    rw [List.mem_insert_iff, hpresence]
    by_cases hq : p = q
    · simp [hq]
    · simpa [hq] using inv.joined peer p hpeer hp
  · intro peer₁ p _ hlast
    rw [hpresence] at hlast
    rw [Collab.collaborator?_joinRoom]
    by_cases hq : p = q
    · rw [if_pos ⟨hq, rfl⟩]
      exact ⟨_, rfl⟩
    · rw [if_neg hq] at hlast
      rw [if_neg fun h => hq h.1]
      exact inv.present peer p hpeer hlast
  · intro p info h
    rw [Collab.collaborator?_joinRoom] at h
    rw [hpresence, lastMove_snoc]
    by_cases hq : p = q
    · rw [if_pos ⟨hq, rfl⟩] at h
      cases h
      rw [if_pos hq, if_pos (by rw [hq]), hq]
      exact ⟨rfl, rfl, rfl, _, hpeer', rfl, rfl⟩
    · rw [if_neg fun h => hq h.1] at h
      obtain ⟨hlast, hcursor, hactive, peer₁, hsome, hid, hemail⟩ := inv.entry p info h
      rw [hpeer] at hsome
      cases hsome
      have hne : (s, SocketEvent.joinRoom q) ≠ (s, .joinRoom p) := by simp [Ne.symm hq]
      rw [if_neg hq, if_neg hne]
      exact ⟨hlast, hcursor, hactive, _, hpeer', hid, hemail⟩

theorem SocketInv.leaveRoom (inv : SocketInv env es c s) {peer : Peer}
    (hpeer : c.peers.get? s = some peer) {q : String} :
    SocketInv env (es ++ [(s, .leaveRoom q)]) (c.leaveRoom s peer q).1 s := by
  have hpeer' : (c.leaveRoom s peer q).1.peers.get? s =
    some { peer with joined := peer.joined.filter (· != q) } := by
    rw [Collab.leaveRoom, OrderedMap.get?_set, if_pos rfl]
  have hpresence : ∀ p, lastPresence (es ++ [(s, .leaveRoom q)]) s p =
      if p = q then some (.leaveRoom q) else lastPresence es s p := by
    intro p
    rw [lastPresence_snoc]
    by_cases hp : p = q
    · simp [hp]
    · simp [hp, Ne.symm hp]
  refine ⟨fun _ => ⟨_, hpeer'⟩, ?_, ?_, ?_, ?_⟩
  · intro peer₁ h
    rw [hpeer'] at h
    cases h
    have hkept := connected_snoc (e := .leaveRoom q) inv hpeer fun h => by cases h
    exact hkept
  · intro peer₁ p h hp
    rw [hpeer'] at h
    cases h
    rw [List.mem_filter, hpresence]
    by_cases hq : p = q
    · simp [hq]
    · simpa [hq] using inv.joined peer p hpeer hp
  · intro peer₁ p _ hlast
    rw [hpresence] at hlast
    rw [Collab.collaborator?_leaveRoom]
    by_cases hq : p = q
    · rw [if_pos hq] at hlast
      cases hlast
    · rw [if_neg hq] at hlast
      rw [if_neg fun h => hq h.1]
      exact inv.present peer p hpeer hlast
  · intro p info h
    rw [Collab.collaborator?_leaveRoom] at h
    by_cases hq : p = q
    · rw [if_pos ⟨hq, rfl⟩] at h
      cases h
    · rw [if_neg fun h => hq h.1] at h
      rw [hpresence, lastMove_snoc, if_neg hq, if_neg (by simp)]
      obtain ⟨hlast, hcursor, hactive, peer₁, hsome, hid, hemail⟩ := inv.entry p info h
      rw [hpeer] at hsome
      cases hsome
      exact ⟨hlast, hcursor, hactive, _, hpeer', hid, hemail⟩

theorem SocketInv.cursorMove (inv : SocketInv env es c s) {peer : Peer} (hpeer : c.peers.get? s = some peer)
    {data : CursorMove} : SocketInv env (es ++ [(s, .cursorMove data)]) (c.cursorMove s data).1 s := by
  have hpeer' : (c.cursorMove s data).1.peers.get? s = some peer := hpeer
  have hpresence : ∀ p, lastPresence (es ++ [(s, .cursorMove data)]) s p = lastPresence es s p := by
    intro p
    rw [lastPresence_snoc, if_neg (by simp)]
  refine ⟨fun _ => ⟨_, hpeer'⟩, ?_, ?_, ?_, ?_⟩
  · intro peer₁ h
    rw [hpeer'] at h
    cases h
    exact connected_snoc inv hpeer fun h => by cases h
  · intro peer₁ p h hp
    rw [hpresence]
    exact inv.joined peer₁ p h hp
  · intro peer₁ p h hlast
    rw [hpresence] at hlast
    obtain ⟨info, hinfo⟩ := inv.present peer₁ p h hlast
    rw [Collab.collaborator?_cursorMove, hinfo]
    split
    · exact ⟨_, rfl⟩
    · exact ⟨info, rfl⟩
  · intro p info h
    rw [Collab.collaborator?_cursorMove] at h
    rw [hpresence, lastMove_snoc, if_neg (by simp), moveIn]
    by_cases hp : p = data.presentationId
    · rw [if_pos ⟨hp, rfl⟩] at h
      obtain ⟨info₀, hinfo₀, rfl⟩ := Option.map_eq_some_iff.mp h
      obtain ⟨hlast, -, -, peer₁, hsome, hid, hemail⟩ := inv.entry p info₀ hinfo₀
      rw [if_pos ⟨rfl, hp.symm⟩]
      exact ⟨hlast, rfl, rfl, peer₁, hsome, hid, hemail⟩
    · rw [if_neg fun h => hp h.1] at h
      rw [if_neg fun h => hp h.2.symm, Option.none_or]
      exact inv.entry p info h

theorem SocketInv.slideUpdate (inv : SocketInv env es c s) {peer : Peer} (hpeer : c.peers.get? s = some peer)
    {event : SlideUpdate} : SocketInv env (es ++ [(s, .slideUpdate event)]) c s := by
  have hpresence : ∀ p, lastPresence (es ++ [(s, .slideUpdate event)]) s p = lastPresence es s p := by
    intro p
    rw [lastPresence_snoc, if_neg (by simp)]
  have hmove : ∀ p, lastMove (es ++ [(s, .slideUpdate event)]) s p = lastMove es s p := by
    intro p
    rw [lastMove_snoc, if_neg (by simp)]
    rfl
  refine ⟨fun _ => ⟨_, hpeer⟩, ?_, ?_, ?_, ?_⟩
  · intro peer₁ h
    exact connected_snoc inv h fun h => by cases h
  · intro peer₁ p h hp
    rw [hpresence]
    exact inv.joined peer₁ p h hp
  · intro peer₁ p h hlast
    rw [hpresence] at hlast
    exact inv.present peer₁ p h hlast
  · intro p info h
    rw [hpresence, hmove]
    exact inv.entry p info h

theorem SocketInv.disconnect : SocketInv env (es ++ [(s, .disconnect)]) (c.disconnect s).1 s := by
  have hpeer : (c.disconnect s).1.peers.get? s = none := by
    rw [Collab.disconnect, OrderedMap.get?_delete, if_pos rfl]
  refine ⟨fun h => ?_, fun peer h => ?_, fun peer p h => ?_, fun peer p h => ?_, fun p info h => ?_⟩
  · exact absurd (List.mem_append_right _ (List.mem_singleton_self _)) h.2
  · rw [hpeer] at h
    cases h
  · rw [hpeer] at h
    cases h
  · rw [hpeer] at h
    cases h
  · rw [Collab.collaborator?_disconnect, if_pos rfl] at h
    cases h

/-- Every event keeps the state right about every socket. -/
theorem SocketInv.step (inv : SocketInv env es c s) (possible : Possible es c t e) :
    SocketInv env (es ++ [(t, e)]) (c.handle env t e).1 s := by
  by_cases ht : t = s
  · subst ht
    cases e with
    | connect token => exact inv.connect possible
    | joinRoom q =>
      obtain ⟨peer, hpeer⟩ := possible
      simp only [Collab.handle, hpeer]
      exact inv.joinRoom hpeer
    | slideUpdate event =>
      obtain ⟨peer, hpeer⟩ := possible
      simp only [Collab.handle, hpeer]
      exact inv.slideUpdate hpeer
    | cursorMove data =>
      obtain ⟨peer, hpeer⟩ := possible
      simp only [Collab.handle, hpeer]
      exact inv.cursorMove hpeer
    | leaveRoom q =>
      obtain ⟨peer, hpeer⟩ := possible
      simp only [Collab.handle, hpeer]
      exact inv.leaveRoom hpeer
    | disconnect =>
      obtain ⟨peer, hpeer⟩ := possible
      simp only [Collab.handle, hpeer]
      exact .disconnect
  · exact inv.foreign ht

theorem CollabRun.socketInv {P : Collab → Prop} {sent : List (String × Message)} (run : CollabRun env P es c sent)
    (s : String) : SocketInv env es c s := by
  induction run with
  | start =>
    refine ⟨?_, ?_, ?_, ?_, ?_⟩
    · rintro ⟨⟨token, user, hmem, -⟩, -⟩
      cases hmem
    · exact fun peer h => by cases h
    · exact fun peer p h => by cases h
    · exact fun peer p h => by cases h
    · exact fun p info h => by cases h
  | snoc _ possible _ ih => exact ih.step possible

end Socket

/-- In every reachable state, the entry of a socket in a room is what the history says: it is there exactly
    while the socket is connected and joined the room last, and nobody else can change it. -/
theorem rooms_match_history {env : Env} {es : List (String × SocketEvent)} {c : Collab}
    {sent : List (String × Message)} (run : CollabRun env (fun _ => True) es c sent) (p s : String) :
    ((∃ info, c.collaborator? p s = some info) ↔
      StillConnected es s env ∧ lastPresence es s p = some (.joinRoom p)) ∧
    (p ≠ s → ((∃ info, c.collaborator? p s = some info) ↔ c.isJoined s p)) ∧
    (∀ info, c.collaborator? p s = some info →
      (∃ token user, (s, .connect token) ∈ es ∧ Collab.authenticate env token = some user ∧
        info.userId = user.id ∧ info.email = user.email) ∧
      info.cursor = (lastMove es s p).map (fun data => ⟨data.x, data.y⟩) ∧
      info.activeSlideId = (lastMove es s p).bind (·.activeSlideId)) ∧
    (∀ t e, t ≠ s → (c.handle env t e).1.collaborator? p s = c.collaborator? p s) := by
  have inv := run.socketInv s
  refine ⟨⟨?_, ?_⟩, fun hp => ⟨?_, ?_⟩, ?_, fun t e ht => (Collab.handle_of_ne (Ne.symm ht)).1⟩
  · rintro ⟨info, h⟩
    obtain ⟨hlast, -, -, peer, hpeer, -⟩ := inv.entry p info h
    obtain ⟨hdisc, token, hmem, hauth⟩ := inv.accepted peer hpeer
    exact ⟨⟨⟨token, peer.user, hmem, hauth⟩, hdisc⟩, hlast⟩
  · rintro ⟨hconnected, hlast⟩
    obtain ⟨peer, hpeer⟩ := inv.connected hconnected
    exact inv.present peer p hpeer hlast
  · rintro ⟨info, h⟩
    obtain ⟨hlast, -, -, peer, hpeer, -⟩ := inv.entry p info h
    exact ⟨peer, hpeer, (inv.joined peer p hpeer hp).mpr hlast⟩
  · rintro ⟨peer, hpeer, hjoined⟩
    exact inv.present peer p hpeer ((inv.joined peer p hpeer hp).mp hjoined)
  · intro info h
    obtain ⟨-, hcursor, hactive, peer, hpeer, hid, hemail⟩ := inv.entry p info h
    obtain ⟨-, token, hmem, hauth⟩ := inv.accepted peer hpeer
    exact ⟨⟨token, peer.user, hmem, hauth, hid, hemail⟩, hcursor, hactive⟩

/-- `alice` and `bob` meet; `alice` moves her cursor, and `bob` leaves. -/
def meeting : List (String × SocketEvent) :=
  [("s1", .connect (some "alice")), ("s2", .connect (some "bob")),
    ("s1", .joinRoom "deck"), ("s2", .joinRoom "deck"),
    ("s1", .cursorMove ⟨"deck", some (.num 3), some (.num 4), some (.str "intro")⟩), ("s2", .leaveRoom "deck")]

theorem alice_stays_in_meeting :
    ∃ c sent, CollabRun office (fun _ => True) meeting c sent ∧ c.isJoined "s1" "deck" ∧
    c.collaborator? "deck" "s2" = none ∧
      c.collaborator? "deck" "s1" =
        some ⟨"alice", "alice@slideo.ai", "#6C63FF", some ⟨some (.num 3), some (.num 4)⟩, some (.str "intro")⟩ := by
  have hplay : Collab.playable office (fun _ => true) [] .empty meeting = true := by decide +kernel
  have hrun := Collab.play_run .start hplay
  have run : CollabRun office (fun _ => True) meeting (Collab.play office .empty [] meeting).1
      (Collab.play office .empty [] meeting).2 := hrun.mono fun _ _ => trivial
  have hentry : (Collab.play office .empty [] meeting).1.collaborator? "deck" "s1" =
      some ⟨"alice", "alice@slideo.ai", "#6C63FF", some ⟨some (.num 3), some (.num 4)⟩, some (.str "intro")⟩ := by
    decide +kernel
  have hjoined := ((rooms_match_history run "deck" "s1").2.1 (by decide)).mp ⟨_, hentry⟩
  exact ⟨_, _, run, hjoined, by decide +kernel, hentry⟩

end Slideo
