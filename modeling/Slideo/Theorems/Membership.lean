import Slideo.Theorems.Presence
import Mathlib.Data.List.Induction

/-! The members of a room: who speaks in it, and the colours of its cursors. The server relays an update or
    a move to the room that the event names, whether or not its sender has joined it. The colour of a new
    member is the one at the size of the room, which an earlier member may still have after somebody left. -/

namespace Slideo

/-! ### The states of a run -/

section States
variable {env : Env} {P : Collab → Prop} {es es' : List (String × SocketEvent)} {c : Collab}
  {sent : List (String × Message)} {s : String} {e : SocketEvent}

/-- The state after some events. -/
def Collab.after (env : Env) (es : List (String × SocketEvent)) : Collab := (Collab.play env .empty [] es).1

theorem Collab.play_append : ∀ {es : List (String × SocketEvent)} {c : Collab} {sent : List (String × Message)},
    Collab.play env c sent (es ++ es') = Collab.play env (Collab.play env c sent es).1
      (Collab.play env c sent es).2 es' := by
  intro es
  induction es with
  | nil => exact rfl
  | cons e es ih => exact ih

theorem Collab.after_snoc : Collab.after env (es ++ [(s, e)]) = ((Collab.after env es).handle env s e).1 := by
  rw [after, play_append]
  rfl

theorem CollabRun.eq_after (run : CollabRun env P es c sent) : c = Collab.after env es := by
  induction run with
  | start => rfl
  | snoc _ _ _ ih => rw [Collab.after_snoc, ih]

theorem CollabRun.inv_snoc (run : CollabRun env P (es ++ [(s, e)]) c sent) :
    ∃ sent, CollabRun env P es (Collab.after env es) sent ∧ Possible es (Collab.after env es) s e := by
  generalize hall : es ++ [(s, e)] = all at run
  cases run with
  | start => simp at hall
  | snoc run possible _ =>
    obtain ⟨rfl, hlast⟩ := List.append_inj' hall rfl
    cases hlast
    have hstate := run.eq_after
    subst hstate
    exact ⟨_, run, possible⟩

/-- The beginning of a run is a run. -/
theorem CollabRun.before : ∀ {es' : List (String × SocketEvent)} {c : Collab} {sent : List (String × Message)},
    CollabRun env P (es ++ es') c sent → ∃ sent, CollabRun env P es (Collab.after env es) sent := by
  intro es'
  induction es' using List.reverseRecOn with
  | nil =>
    intro c sent run
    rw [List.append_nil] at run
    exact ⟨sent, run.eq_after ▸ run⟩
  | append_singleton es' e ih =>
    intro c sent run
    rw [← List.append_assoc] at run
    obtain ⟨_, run, -⟩ := run.inv_snoc
    exact ih run

/-- The run up to an event, which was possible then. -/
theorem CollabRun.at_event {rest : List (String × SocketEvent)}
    (run : CollabRun env P (es ++ (s, e) :: rest) c sent) :
    ∃ sent, CollabRun env P es (Collab.after env es) sent ∧ Possible es (Collab.after env es) s e := by
  have hsplit : es ++ (s, e) :: rest = (es ++ [(s, e)]) ++ rest := by simp
  rw [hsplit] at run
  obtain ⟨_, run⟩ := run.before
  exact run.inv_snoc

end States

/-! ### Who speaks in a room -/

/-- The room that an update or a move is for. -/
def SocketEvent.spokenTo? : SocketEvent → Option String
  | .slideUpdate event => some event.presentationId
  | .cursorMove data => some data.presentationId
  | _ => none

/-- Every update and every move that reaches a member of its room comes from a member. -/
def OnlyMembersSpeak (env : Env) (es : List (String × SocketEvent)) : Prop :=
  ∀ past s e rest p, es = past ++ (s, e) :: rest → e.spokenTo? = some p →
    ∀ t m, (t, m) ∈ ((Collab.after env past).handle env s e).2 →
      (∃ info, (Collab.after env past).collaborator? p t = some info) →
      ∃ info, (Collab.after env past).collaborator? p s = some info

/-- A socket speaks to a room that others have joined only between its own `join-room` and `leave-room`. -/
def SpeaksAfterJoin (env : Env) (es : List (String × SocketEvent)) : Prop :=
  ∀ past s e rest p, es = past ++ (s, e) :: rest → e.spokenTo? = some p →
    (∃ t, t ≠ s ∧ StillConnected past t env ∧ lastPresence past t p = some (.joinRoom p)) →
    lastPresence past s p = some (.joinRoom p)

section Speaking
variable {env : Env} {P : Collab → Prop} {es : List (String × SocketEvent)} {c : Collab}
  {sent : List (String × Message)} {s t p : String} {e : SocketEvent} {m : Message}

theorem mem_emitTo {m' : Message} : (t, m') ∈ c.emitTo s p m ↔ m = m' ∧ t ≠ s ∧ c.isJoined t p := by
  simp only [Collab.emitTo, Collab.isJoined, List.mem_map, List.mem_filter, Bool.and_eq_true, bne_iff_ne,
    List.contains_iff_mem, Prod.mk.injEq]
  constructor
  · rintro ⟨⟨_, peer⟩, ⟨hmem, hne, hjoined⟩, rfl, rfl⟩
    exact ⟨rfl, hne, peer, OrderedMap.mem_entries.mp hmem, hjoined⟩
  · rintro ⟨rfl, hne, peer, hpeer, hjoined⟩
    exact ⟨(t, peer), ⟨OrderedMap.mem_entries.mpr hpeer, hne, hjoined⟩, rfl, rfl⟩

/-- What is said in a room goes to the others that socket.io has in it. -/
theorem handle_spokenTo (env : Env) (hs : ∃ peer, c.peers.get? s = some peer) (hp : e.spokenTo? = some p) :
    ∃ m, (c.handle env s e).2 = c.emitTo s p m := by
  obtain ⟨peer, hpeer⟩ := hs
  cases e with
  | slideUpdate event =>
    cases hp
    simp only [Collab.handle, hpeer]
    exact ⟨_, rfl⟩
  | cursorMove data =>
    cases hp
    simp only [Collab.handle, hpeer]
    exact ⟨_, rfl⟩
  | connect | joinRoom | leaveRoom | disconnect => cases hp

/-- Whatever but connecting a socket does, it is connected. -/
theorem Possible.peer (possible : Possible es c s e) (hconnect : ∀ token, e ≠ .connect token) :
    ∃ peer, c.peers.get? s = some peer := by
  cases e with
  | connect token => exact absurd rfl (hconnect token)
  | joinRoom | leaveRoom | slideUpdate | cursorMove | disconnect => exact possible

theorem spokenTo?_ne_connect (hp : e.spokenTo? = some p) (token : Option String) : e ≠ .connect token := by
  rintro rfl
  cases hp

/-- What a connected socket sends keeps it in the rooms of socket.io where it has an entry. -/
theorem isJoined_handle {peer : Peer} {info : CollaboratorInfo} (hpeer : c.peers.get? s = some peer)
    (hconnect : ∀ token, e ≠ .connect token)
    (hjoined : ∀ {p : String} {info : CollaboratorInfo}, c.collaborator? p s = some info → p ∈ peer.joined)
    (h : (c.handle env s e).1.collaborator? p s = some info) : (c.handle env s e).1.isJoined s p := by
  cases e with
  | connect token => exact absurd rfl (hconnect token)
  | joinRoom q =>
    simp only [Collab.handle, hpeer] at h ⊢
    rw [Collab.collaborator?_joinRoom] at h
    refine ⟨{ peer with joined := peer.joined.insert q }, by rw [Collab.joinRoom, OrderedMap.get?_set, if_pos rfl], ?_⟩
    by_cases hq : p = q
    · exact List.mem_insert_iff.mpr (Or.inl hq)
    · rw [if_neg fun h => hq h.1] at h
      exact List.mem_insert_iff.mpr (Or.inr (hjoined h))
  | slideUpdate event =>
    simp only [Collab.handle, hpeer] at h ⊢
    exact ⟨peer, hpeer, hjoined h⟩
  | cursorMove data =>
    simp only [Collab.handle, hpeer] at h ⊢
    rw [Collab.collaborator?_cursorMove] at h
    split at h
    · obtain ⟨info', h', -⟩ := Option.map_eq_some_iff.mp h
      exact ⟨peer, hpeer, hjoined h'⟩
    · exact ⟨peer, hpeer, hjoined h⟩
  | leaveRoom q =>
    simp only [Collab.handle, hpeer] at h ⊢
    rw [Collab.collaborator?_leaveRoom] at h
    split at h
    · cases h
    · rename_i hq
      refine ⟨{ peer with joined := peer.joined.filter (· != q) },
        by rw [Collab.leaveRoom, OrderedMap.get?_set, if_pos rfl], ?_⟩
      have hne : p ≠ q := fun h => hq ⟨h, rfl⟩
      exact List.mem_filter.mpr ⟨hjoined h, by simpa using hne⟩
  | disconnect =>
    simp only [Collab.handle, hpeer] at h
    rw [Collab.collaborator?_disconnect, if_pos rfl] at h
    cases h

/-- A socket that could just connect has no entry yet. -/
theorem CollabRun.not_entry_of_connect {token : Option String} {info : CollaboratorInfo}
    (run : CollabRun env P es c sent) (possible : Possible es c s (.connect token)) :
    c.collaborator? p s ≠ some info := by
  intro h
  obtain ⟨-, -, -, peer, hpeer, -⟩ := (run.socketInv s).entry p info h
  obtain ⟨-, token, hmem, -⟩ := (run.socketInv s).accepted peer hpeer
  exact absurd rfl (possible _ hmem)

/-- A socket with an entry is in the room of socket.io, also in the one of its own id. -/
theorem CollabRun.isJoined_of_entry (run : CollabRun env P es c sent) :
    ∀ {p s : String} {info : CollaboratorInfo}, c.collaborator? p s = some info → c.isJoined s p := by
  induction run with
  | start => exact fun h => (by cases h)
  | @snoc es c sent t e run possible _ ih =>
    intro p s info h
    by_cases hs : s = t
    · subst hs
      by_cases hconnect : ∃ token, e = .connect token
      · obtain ⟨token, rfl⟩ := hconnect
        rw [Collab.handle, Collab.collaborator?_connect] at h
        exact absurd h (run.not_entry_of_connect possible)
      · have hconnect : ∀ token, e ≠ .connect token := fun token he => hconnect ⟨token, he⟩
        obtain ⟨peer, hpeer⟩ := possible.peer hconnect
        refine isJoined_handle hpeer hconnect (fun h => ?_) h
        obtain ⟨peer', hpeer', hjoined⟩ := ih h
        rw [hpeer] at hpeer'
        cases hpeer'
        exact hjoined
    · have hsame : (c.handle env t e).1.collaborator? p s = c.collaborator? p s ∧
          (c.handle env t e).1.peers.get? s = c.peers.get? s := Collab.handle_of_ne hs
      obtain ⟨hentry, hpeer⟩ := hsame
      rw [hentry] at h
      rw [Collab.isJoined, hpeer]
      exact ih h

end Speaking

/-- In every run, only members speak in the rooms exactly if no socket speaks to a room that others have
    joined before it joined the room, or after it left it. -/
theorem only_members_speak_iff {env : Env} {es : List (String × SocketEvent)} {c : Collab}
    {sent : List (String × Message)} (run : CollabRun env (fun _ => True) es c sent) :
    OnlyMembersSpeak env es ↔ SpeaksAfterJoin env es := by
  constructor
  · intro honly past s e rest p hes hp
    rintro ⟨t, hts, hconnected, hlast⟩
    obtain ⟨_, run', possible⟩ := (hes ▸ run).at_event
    obtain ⟨peer, hpeer⟩ := (run'.socketInv t).connected hconnected
    obtain ⟨info, hinfo⟩ := (run'.socketInv t).present peer p hpeer hlast
    have hs := possible.peer (spokenTo?_ne_connect hp)
    obtain ⟨m, hm⟩ := handle_spokenTo env hs hp
    have hsent : (t, m) ∈ ((Collab.after env past).handle env s e).2 := by
      rw [hm]
      exact mem_emitTo.mpr ⟨rfl, hts, run'.isJoined_of_entry hinfo⟩
    obtain ⟨info', hinfo'⟩ := honly past s e rest p hes hp t m hsent ⟨info, hinfo⟩
    exact ((run'.socketInv s).entry p info' hinfo').1
  · intro hjoin past s e rest p hes hp t m hsent
    rintro ⟨info, hinfo⟩
    obtain ⟨_, run', possible⟩ := (hes ▸ run).at_event
    have hs := possible.peer (spokenTo?_ne_connect hp)
    obtain ⟨m', hm'⟩ := handle_spokenTo env hs hp
    rw [hm'] at hsent
    obtain ⟨-, hts, -⟩ := mem_emitTo.mp hsent
    obtain ⟨hlast, -, -, peer, hpeer, -⟩ := (run'.socketInv t).entry p info hinfo
    obtain ⟨hdisc, token, hmem, hauth⟩ := (run'.socketInv t).accepted peer hpeer
    have hspeaker := hjoin past s e rest p hes hp ⟨t, hts, ⟨⟨token, peer.user, hmem, hauth⟩, hdisc⟩, hlast⟩
    obtain ⟨speaker, hspeaker'⟩ := hs
    exact (run'.socketInv s).present speaker p hspeaker' hspeaker

/-- Everyone speaks as a member of the room, others or not. -/
def spokenAsMember (es : List (String × SocketEvent)) : Bool :=
  (List.range es.length).all fun i => (es[i]?).all fun x =>
    x.2.spokenTo?.all fun p => lastPresence (es.take i) x.1 p == some (.joinRoom p)

theorem speaksAfterJoin_of_spokenAsMember {es : List (String × SocketEvent)} (env : Env)
    (h : spokenAsMember es = true) :
    SpeaksAfterJoin env es := by
  intro past s e rest p hes hp _
  subst hes
  have hlast := List.all_eq_true.mp h past.length (List.mem_range.mpr (by simp))
  simpa [hp] using hlast

/-- The meeting is orderly: `alice` moves her cursor after she has joined. -/
theorem members_speak_in_meeting :
    ∃ c sent, CollabRun office (fun _ => True) meeting c sent ∧ OnlyMembersSpeak office meeting := by
  have hplay : Collab.playable office (fun _ => true) [] .empty meeting = true := by decide +kernel
  have run : CollabRun office (fun _ => True) meeting (Collab.play office .empty [] meeting).1
      (Collab.play office .empty [] meeting).2 := (Collab.play_run .start hplay).mono fun _ _ => trivial
  have hmembers : spokenAsMember meeting = true := by decide +kernel
  exact ⟨_, _, run, (only_members_speak_iff run).mpr (speaksAfterJoin_of_spokenAsMember office hmembers)⟩

/-- `bob` connects, and edits a deck whose room he never joined. -/
def intrusion : List (String × SocketEvent) :=
  [("s1", .connect (some "alice")), ("s2", .connect (some "bob")), ("s1", .joinRoom "deck"),
    ("s2", .slideUpdate ⟨"deck", "update-title", some (.str "Q2")⟩)]

theorem stranger_speaks :
    ∃ c sent, CollabRun office (fun _ => True) intrusion c sent ∧ ¬ OnlyMembersSpeak office intrusion := by
  have hplay : Collab.playable office (fun _ => true) [] .empty intrusion = true := by decide +kernel
  refine ⟨_, _, (Collab.play_run .start hplay).mono fun _ _ => trivial, fun honly => ?_⟩
  have hsent : ("s1", Message.slideUpdate ⟨"deck", "update-title", some (.str "Q2")⟩ "s2" "bob@slideo.ai") ∈
      ((Collab.after office (intrusion.take 3)).handle office "s2"
        (.slideUpdate ⟨"deck", "update-title", some (.str "Q2")⟩)).2 := by
    decide +kernel
  have hmember : ((Collab.after office (intrusion.take 3)).collaborator? "deck" "s1").isSome = true := by
    decide +kernel
  have hstranger : (Collab.after office (intrusion.take 3)).collaborator? "deck" "s2" = none := by decide +kernel
  obtain ⟨info, hinfo⟩ := honly (intrusion.take 3) "s2" _ [] "deck" rfl rfl "s1" _ hsent
    (Option.isSome_iff_exists.mp hmember)
  rw [hstranger] at hinfo
  cases hinfo

/-! ### The colours of a room -/

/-- No two members have the same colour. -/
def ColoursApart (room : Room) : Prop :=
  ∀ s t a b, room.get? s = some a → room.get? t = some b → a.color = b.color → s = t

/-- The rooms that have colours enough use each one once. -/
def ColoursDistinct (c : Collab) : Prop :=
  ∀ p room, c.rooms.get? p = some room → room.size ≤ colours.length → ColoursApart room

/-- If a member leaves one more member than there are colours, they must not have a colour twice. -/
def LeavesApart (room : Room) (s : String) : Prop :=
  room.size = colours.length + 1 → room.has s = true → ColoursApart (room.delete s)

/-- An event that gives no colour twice: nobody else in the room has the colour at the size of the room, unless
    the others have all colours; and a room of nine has no colour twice among those who stay. -/
def KeepsColours (c : Collab) (s : String) : SocketEvent → Prop
  | .joinRoom p =>
    let room := (c.rooms.get? p).getD .empty
    (room.delete s).size < colours.length → ∀ t info, t ≠ s →
      room.get? t = some info → info.color ≠ getColor room.size
  | .leaveRoom p => ∀ room, c.rooms.get? p = some room → LeavesApart room s
  | .disconnect => ∀ p room, c.rooms.get? p = some room → LeavesApart room s
  | _ => True

section Colours
variable {env : Env} {c : Collab} {room room' : Room} {s p : String} {peer : Peer}

/-- Fewer members, with the colours they had. -/
theorem ColoursApart.mono (h : ColoursApart room)
    (hsub : ∀ t b, room'.get? t = some b → ∃ a, room.get? t = some a ∧ a.color = b.color) : ColoursApart room' := by
  intro s t a b hs ht hcolor
  obtain ⟨a', hs', ha⟩ := hsub s a hs
  obtain ⟨b', ht', hb⟩ := hsub t b ht
  exact h s t a' b' hs' ht' (ha.trans (hcolor.trans hb.symm))

theorem ColoursApart.delete (h : ColoursApart room) : ColoursApart (room.delete s) := by
  refine h.mono fun t b hb => ?_
  rw [OrderedMap.get?_delete] at hb
  split at hb
  · cases hb
  · exact ⟨b, hb, rfl⟩

/-- After a member has left a room. -/
theorem coloursApart_delete_iff (h : room.size ≤ colours.length → ColoursApart room) :
    ((room.delete s).size ≤ colours.length → ColoursApart (room.delete s)) ↔ LeavesApart room s := by
  have hsize := OrderedMap.size_delete room s
  constructor
  · intro hleft hnine hhas
    rw [hhas, Bool.toNat_true] at hsize
    exact hleft (by omega)
  · intro hleaves hle
    by_cases hfits : room.size ≤ colours.length
    · exact (h hfits).delete
    · have hhas : room.has s = true := by
        by_contra hhas
        rw [Bool.eq_false_iff.mpr hhas, Bool.toNat_false] at hsize
        omega
      rw [hhas, Bool.toNat_true] at hsize
      exact hleaves (by omega) hhas

/-- After a join. -/
theorem coloursApart_set_iff (h : room.size ≤ colours.length → ColoursApart room) (info : CollaboratorInfo) :
    ((room.set s info).size ≤ colours.length → ColoursApart (room.set s info)) ↔
      ((room.delete s).size < colours.length → ∀ t a, t ≠ s → room.get? t = some a → a.color ≠ info.color) := by
  have hsize := OrderedMap.size_delete room s
  have hset := OrderedMap.size_set room s info
  have hself : (room.set s info).get? s = some info := by rw [OrderedMap.get?_set, if_pos rfl]
  have hother : ∀ t, t ≠ s → (room.set s info).get? t = room.get? t := by
    intro t ht
    rw [OrderedMap.get?_set, if_neg ht]
  constructor
  · intro happart hlt t a ht ha hcolor
    exact ht (happart (by omega) t s a info ((hother t ht).trans ha) hself hcolor)
  · intro hnew hle
    have hold : ColoursApart room := h (by cases hs : room.has s <;> rw [hs] at hsize <;> simp at hsize <;> omega)
    have hnew := hnew (by omega)
    intro t u a b ht hu hcolor
    by_cases hts : t = s
    · by_cases hus : u = s
      · rw [hts, hus]
      · rw [hts, hself] at ht
        cases ht
        exact absurd hcolor.symm (hnew u b hus ((hother u hus).symm.trans hu))
    · by_cases hus : u = s
      · rw [hus, hself] at hu
        cases hu
        exact absurd hcolor (hnew t a hts ((hother t hts).symm.trans ht))
      · exact hold t u a b ((hother t hts).symm.trans ht) ((hother u hus).symm.trans hu) hcolor

/-- What changes one room changes whether its colours are distinct, and nothing else. -/
theorem coloursDistinct_set_iff {peers : OrderedMap Peer} (hc : ColoursDistinct c) :
    ColoursDistinct ⟨peers, c.rooms.set p room⟩ ↔ (room.size ≤ colours.length → ColoursApart room) := by
  constructor
  · intro h
    exact h p room (by rw [OrderedMap.get?_set, if_pos rfl])
  · intro h q room' hroom'
    rw [OrderedMap.get?_set] at hroom'
    split at hroom'
    · cases hroom'
      exact h
    · exact hc q room' hroom'

theorem coloursDistinct_joinRoom (hc : ColoursDistinct c) :
    ColoursDistinct (c.joinRoom s peer p).1 ↔ KeepsColours c s (.joinRoom p) := by
  have hroom : ((c.rooms.get? p).getD .empty).size ≤ colours.length →
    ColoursApart ((c.rooms.get? p).getD .empty) := by
    cases hget : c.rooms.get? p with
    | none => exact fun _ s t a b hs => (by cases hs)
    | some room => exact hc p room hget
  rw [Collab.joinRoom, coloursDistinct_set_iff hc, coloursApart_set_iff hroom]
  rfl

theorem coloursDistinct_leaveRoom (hc : ColoursDistinct c) :
    ColoursDistinct (c.leaveRoom s peer p).1 ↔ KeepsColours c s (.leaveRoom p) := by
  rw [Collab.leaveRoom, KeepsColours]
  cases hget : c.rooms.get? p with
  | none => exact iff_of_true hc fun room hroom => (by cases hroom)
  | some room =>
    simp only
    rw [coloursDistinct_set_iff hc, coloursApart_delete_iff (hc p room hget)]
    exact ⟨fun h _ hroom => Option.some.inj hroom ▸ h, fun h => h room rfl⟩

theorem coloursDistinct_disconnect (hc : ColoursDistinct c) :
    ColoursDistinct (c.disconnect s).1 ↔ KeepsColours c s .disconnect := by
  have hroom : ∀ p room, c.rooms.get? p = some room →
      ((∀ room', (c.disconnect s).1.rooms.get? p = some room' → room'.size ≤ colours.length → ColoursApart room') ↔
        LeavesApart room s) := by
    intro p room hget
    rw [← coloursApart_delete_iff (hc p room hget)]
    simp only [Collab.disconnect, OrderedMap.get?_map, hget, Option.map_some, Option.some.injEq, forall_eq']
    cases hhas : room.has s with
    | true => rw [if_pos rfl]
    | false =>
      have hsame : room.delete s = room := by
        refine Table.ext (List.filter_eq_self.mpr fun e he => ?_)
        have hne : e.1 ≠ s := by
          rintro rfl
          rw [OrderedMap.has_iff.mpr ⟨e.2, OrderedMap.mem_entries.mp he⟩] at hhas
          cases hhas
        simpa using hne
      rw [if_neg Bool.false_ne_true, hsame]
  constructor
  · intro h p room hget
    exact (hroom p room hget).mp (h p)
  · intro h p room' hget'
    cases hget : c.rooms.get? p with
    | none =>
      simp only [Collab.disconnect, OrderedMap.get?_map, hget] at hget'
      cases hget'
    | some room => exact (hroom p room hget).mpr (h p room hget) room' hget'

theorem coloursDistinct_cursorMove {data : CursorMove} (hc : ColoursDistinct c) :
    ColoursDistinct (c.cursorMove s data).1 := by
  cases hget : c.rooms.get? data.presentationId with
  | none => simpa [Collab.cursorMove, hget] using hc
  | some room =>
    cases hinfo : room.get? s with
    | none => simpa [Collab.cursorMove, hget, hinfo] using hc
    | some info =>
      simp only [Collab.cursorMove, hget, hinfo]
      rw [coloursDistinct_set_iff hc, OrderedMap.size_set]
      intro hle
      have hsize := OrderedMap.size_delete room s
      rw [OrderedMap.has_iff.mpr ⟨info, hinfo⟩, Bool.toNat_true] at hsize
      refine (hc _ room hget (hsize ▸ hle)).mono fun t b hb => ?_
      rw [OrderedMap.get?_set] at hb
      split at hb
      · rename_i ht
        cases hb
        exact ⟨info, ht ▸ hinfo, rfl⟩
      · exact ⟨b, hb, rfl⟩

/-- One event: the colours stay distinct exactly if the event gives none twice. -/
theorem coloursDistinct_step {es : List (String × SocketEvent)} {e : SocketEvent} (hc : ColoursDistinct c)
    (possible : Possible es c s e) : ColoursDistinct (c.handle env s e).1 ↔ KeepsColours c s e := by
  cases e with
  | connect token =>
    refine iff_of_true ?_ trivial
    have hrooms : (c.handle env s (.connect token)).1.rooms = c.rooms := by
      simp only [Collab.handle, Collab.connect]
      split <;> rfl
    rw [ColoursDistinct, hrooms]
    exact hc
  | joinRoom p =>
    obtain ⟨peer, hpeer⟩ := possible
    simp only [Collab.handle, hpeer]
    exact coloursDistinct_joinRoom hc
  | slideUpdate event =>
    obtain ⟨peer, hpeer⟩ := possible
    simp only [Collab.handle, hpeer]
    exact iff_of_true hc trivial
  | cursorMove data =>
    obtain ⟨peer, hpeer⟩ := possible
    simp only [Collab.handle, hpeer]
    exact iff_of_true (coloursDistinct_cursorMove hc) trivial
  | leaveRoom p =>
    obtain ⟨peer, hpeer⟩ := possible
    simp only [Collab.handle, hpeer]
    exact coloursDistinct_leaveRoom hc
  | disconnect =>
    obtain ⟨peer, hpeer⟩ := possible
    simp only [Collab.handle, hpeer]
    exact coloursDistinct_disconnect hc

end Colours

/-- Along every run, the colours are distinct in every state exactly if no event gives a colour twice. -/
theorem colours_distinct_iff {env : Env} {es : List (String × SocketEvent)} {c : Collab}
    {sent : List (String × Message)} (run : CollabRun env (fun _ => True) es c sent) :
    (∀ past rest, es = past ++ rest → ColoursDistinct (Collab.after env past)) ↔
      ∀ past s e rest, es = past ++ (s, e) :: rest → KeepsColours (Collab.after env past) s e := by
  constructor
  · intro hdistinct past s e rest hes
    obtain ⟨_, -, possible⟩ := (hes ▸ run).at_event
    have hnext : ColoursDistinct ((Collab.after env past).handle env s e).1 := by
      rw [← Collab.after_snoc]
      exact hdistinct (past ++ [(s, e)]) rest (by simp [hes])
    exact (coloursDistinct_step (hdistinct past _ hes) possible).mp hnext
  · intro hkeeps past
    induction past using List.reverseRecOn with
    | nil => exact fun _ _ p room hroom => (by cases hroom)
    | append_singleton past last ih =>
      obtain ⟨s, e⟩ := last
      intro rest hes
      have hes' : es = past ++ (s, e) :: rest := by simp [hes]
      obtain ⟨_, -, possible⟩ := (hes' ▸ run).at_event
      rw [Collab.after_snoc]
      exact (coloursDistinct_step (ih _ hes') possible).mpr (hkeeps past s e rest hes')

/-! ### Rooms that nobody leaves -/

/-- Nobody leaves, disconnects or joins a room again. -/
def joinsOnly (es : List (String × SocketEvent)) : Bool :=
  (List.range es.length).all fun i => (es[i]?).all fun x => match x.2 with
    | .leaveRoom _ | .disconnect => false
    | .joinRoom _ => !(es.take i).contains x
    | _ => true

/-- The members have the first colours, in the order in which they joined. -/
def ColoursInOrder (c : Collab) : Prop :=
  ∀ p room, c.rooms.get? p = some room → room.entries.map (·.2.color) = (List.range room.size).map getColor

section Joins
variable {env : Env} {P : Collab → Prop} {es : List (String × SocketEvent)} {c : Collab}
  {sent : List (String × Message)}
  {s p : String} {peer : Peer}

theorem getColor_inj {i j : Nat} (hi : i < colours.length) (hj : j < colours.length) (h : getColor i = getColor j) :
    i = j := by
  have hinj : ∀ i < 8, ∀ j < 8, getColor i = getColor j → i = j := by decide
  exact hinj i hi j hj h

theorem joinsOnly_split {past : List (String × SocketEvent)} {e : SocketEvent} (rest : List (String × SocketEvent))
    (h : joinsOnly (past ++ (s, e) :: rest) = true) :
    (∀ p, e ≠ .leaveRoom p) ∧ e ≠ .disconnect ∧ ∀ p, e = .joinRoom p → (s, .joinRoom p) ∉ past := by
  have hlast := List.all_eq_true.mp h past.length (List.mem_range.mpr (by simp))
  cases e <;> simp_all

/-- A socket that has not joined a room has no entry in it. -/
theorem CollabRun.not_has (run : CollabRun env P es c sent) (h : (s, .joinRoom p) ∉ es) :
    ((c.rooms.get? p).getD .empty).has s = false := by
  refine Bool.eq_false_iff.mpr fun hhas => ?_
  obtain ⟨info, hinfo⟩ := OrderedMap.has_iff.mp hhas
  have hentry : c.collaborator? p s = some info := by
    rw [Collab.collaborator?]
    cases hget : c.rooms.get? p with
    | none =>
      rw [hget] at hinfo
      cases hinfo
    | some room =>
      rw [hget] at hinfo
      exact hinfo
  have hlast := ((run.socketInv s).entry p info hentry).1
  rw [lastPresence] at hlast
  obtain ⟨x, hx, hx'⟩ := Option.map_eq_some_iff.mp hlast
  have hmem := List.mem_reverse.mp (List.mem_of_find?_eq_some hx)
  have hsocket := List.find?_some hx
  obtain ⟨t, e⟩ := x
  cases hx'
  simp only [Bool.or_eq_true, beq_iff_eq, Prod.mk.injEq, reduceCtorEq, and_false, or_false] at hsocket
  exact h (hsocket.1 ▸ hmem)

theorem ColoursInOrder.set {peers : OrderedMap Peer} {room : Room} (hc : ColoursInOrder c)
    (h : room.entries.map (·.2.color) = (List.range room.size).map getColor) :
    ColoursInOrder ⟨peers, c.rooms.set p room⟩ := by
  intro q room' hroom'
  rw [OrderedMap.get?_set] at hroom'
  split at hroom'
  · cases hroom'
    exact h
  · exact hc q room' hroom'

theorem ColoursInOrder.room (hc : ColoursInOrder c) (p : String) :
    ((c.rooms.get? p).getD .empty).entries.map (·.2.color) =
    (List.range ((c.rooms.get? p).getD .empty).size).map getColor := by
  cases hget : c.rooms.get? p with
  | none => rfl
  | some room => exact hc p room hget

/-- The next colour is not in use. -/
theorem color_ne_of_inOrder {room : Room} {t : String} {info : CollaboratorInfo}
    (h : room.entries.map (·.2.color) = (List.range room.size).map getColor) (hlt : room.size < colours.length)
    (hinfo : room.get? t = some info) : info.color ≠ getColor room.size := by
  intro hcolor
  have hmem : info.color ∈ room.entries.map (·.2.color) :=
    List.mem_map.mpr ⟨(t, info), OrderedMap.mem_entries.mpr hinfo, rfl⟩
  rw [h] at hmem
  obtain ⟨i, hi, hcolor'⟩ := List.mem_map.mp hmem
  have hi := List.mem_range.mp hi
  have heq := getColor_inj (hi.trans hlt) hlt (hcolor'.trans hcolor)
  omega

theorem ColoursInOrder.joinRoom (hc : ColoursInOrder c) (hnew : ((c.rooms.get? p).getD .empty).has s = false) :
    ColoursInOrder (c.joinRoom s peer p).1 := by
  have hsize := OrderedMap.size_delete ((c.rooms.get? p).getD .empty) s
  rw [hnew, Bool.toNat_false, Nat.add_zero] at hsize
  refine hc.set ?_
  rw [OrderedMap.size_set, hsize, OrderedMap.entries_set_of_not_has _ hnew,
    List.map_append, hc.room p, List.range_succ, List.map_append]
  rfl

theorem ColoursInOrder.cursorMove {data : CursorMove} (hc : ColoursInOrder c) :
    ColoursInOrder (c.cursorMove s data).1 := by
  cases hget : c.rooms.get? data.presentationId with
  | none => simpa [Collab.cursorMove, hget] using hc
  | some room =>
    cases hinfo : room.get? s with
    | none => simpa [Collab.cursorMove, hget, hinfo] using hc
    | some info =>
      simp only [Collab.cursorMove, hget, hinfo]
      refine hc.set ?_
      have hcolors : ∀ e ∈ room.entries, (if e.1 = s then
          (e.1, { info with cursor := some ⟨data.x, data.y⟩, activeSlideId := data.activeSlideId }) else e).2.color =
          e.2.color := by
        rintro ⟨t, info'⟩ he
        split
        · rename_i ht
          cases ht
          rw [OrderedMap.mem_entries.mp he] at hinfo
          cases hinfo
          rfl
        · rfl
      rw [OrderedMap.size, OrderedMap.entries_set_of_has _ (OrderedMap.has_iff.mpr ⟨info, hinfo⟩), List.map_map,
        List.length_map]
      exact (List.map_congr_left hcolors).trans (hc _ room hget)

/-- Without anyone leaving, the colours follow the order of the joins. -/
theorem CollabRun.coloursInOrder (run : CollabRun env P es c sent) :
    (∀ past s e rest, es = past ++ (s, e) :: rest →
      (∀ p, e ≠ .leaveRoom p) ∧ e ≠ .disconnect ∧ ∀ p, e = .joinRoom p → (s, .joinRoom p) ∉ past) →
      ColoursInOrder c := by
  induction run with
  | start => exact fun _ p room hroom => (by cases hroom)
  | @snoc es c sent s e run possible _ ih =>
    intro hjoins
    obtain ⟨hleave, hdisc, hjoin⟩ := hjoins es s e [] rfl
    have hc : ColoursInOrder c := ih fun past t e' rest hes => hjoins past t e' (rest ++ [(s, e)]) (by simp [hes])
    cases e with
    | connect token =>
      have hrooms : (c.handle env s (.connect token)).1.rooms = c.rooms := by
        simp only [Collab.handle, Collab.connect]
        split <;> rfl
      rw [ColoursInOrder, hrooms]
      exact hc
    | joinRoom p =>
      obtain ⟨peer, hpeer⟩ := possible
      simp only [Collab.handle, hpeer]
      exact hc.joinRoom (run.not_has (hjoin p rfl))
    | slideUpdate event =>
      obtain ⟨peer, hpeer⟩ := possible
      simp only [Collab.handle, hpeer]
      exact hc
    | cursorMove data =>
      obtain ⟨peer, hpeer⟩ := possible
      simp only [Collab.handle, hpeer]
      exact hc.cursorMove
    | leaveRoom p => exact absurd rfl (hleave p)
    | disconnect => exact absurd rfl hdisc

end Joins

/-- Joins alone give no colour twice. -/
theorem keepsColours_of_joinsOnly {env : Env} {es : List (String × SocketEvent)} {c : Collab}
    {sent : List (String × Message)} (run : CollabRun env (fun _ => True) es c sent)
    (hjoins : joinsOnly es = true) :
    ∀ past s e rest, es = past ++ (s, e) :: rest → KeepsColours (Collab.after env past) s e := by
  intro past s e rest hes
  subst hes
  obtain ⟨hleave, hdisc, hjoin⟩ := joinsOnly_split rest hjoins
  obtain ⟨_, run', -⟩ := run.at_event
  have horder : ColoursInOrder (Collab.after env past) := by
    refine run'.coloursInOrder fun past' t e' rest' hes => joinsOnly_split (rest' ++ (s, e) :: rest) ?_
    rw [hes] at hjoins
    simpa using hjoins
  cases e with
  | joinRoom p =>
    intro hlt t info _ hinfo
    have hsize := OrderedMap.size_delete (((Collab.after env past).rooms.get? p).getD .empty) s
    rw [run'.not_has (hjoin p rfl), Bool.toNat_false, Nat.add_zero] at hsize
    rw [hsize] at hlt
    exact color_ne_of_inOrder (horder.room p) hlt hinfo
  | leaveRoom p => exact absurd rfl (hleave p)
  | disconnect => exact absurd rfl hdisc
  | connect | slideUpdate | cursorMove => trivial

/-- `alice` and `bob` join a room one after the other. -/
def greeting : List (String × SocketEvent) := meeting.take 4

theorem greeting_colours : ∃ c sent, CollabRun office (fun _ => True) greeting c sent ∧
    ∀ past rest, greeting = past ++ rest → ColoursDistinct (Collab.after office past) := by
  have hplay : Collab.playable office (fun _ => true) [] .empty greeting = true := by decide +kernel
  have run : CollabRun office (fun _ => True) greeting (Collab.play office .empty [] greeting).1
      (Collab.play office .empty [] greeting).2 := (Collab.play_run .start hplay).mono fun _ _ => trivial
  have hjoins : joinsOnly greeting = true := by decide +kernel
  exact ⟨_, _, run, (colours_distinct_iff run).mpr (keepsColours_of_joinsOnly run hjoins)⟩

/-- `alice` leaves, and a third socket gets the colour that `bob` still has. -/
def replacement : List (String × SocketEvent) :=
  greeting ++ [("s1", .leaveRoom "deck"), ("s3", .connect (some "alice")), ("s3", .joinRoom "deck")]

theorem colours_collide : ∃ c sent, CollabRun office (fun _ => True) replacement c sent ∧ ¬ ColoursDistinct c := by
  have hplay : Collab.playable office (fun _ => true) [] .empty replacement = true := by decide +kernel
  refine ⟨_, _, (Collab.play_run .start hplay).mono fun _ _ => trivial, fun hdistinct => ?_⟩
  have hcolors : ((Collab.play office .empty [] replacement).1.rooms.get? "deck").map
      (fun room => (room.size, (room.get? "s2").map (·.color), (room.get? "s3").map (·.color))) =
      some (2, some "#FF6584", some "#FF6584") := by decide +kernel
  obtain ⟨room, hroom, hvalues⟩ := Option.map_eq_some_iff.mp hcolors
  simp only [Prod.mk.injEq] at hvalues
  obtain ⟨hsize, hbob, hthird⟩ := hvalues
  obtain ⟨a, ha, hacolor⟩ := Option.map_eq_some_iff.mp hbob
  obtain ⟨b, hb, hbcolor⟩ := Option.map_eq_some_iff.mp hthird
  have hsame := hdistinct "deck" room hroom (by rw [hsize]; decide) "s2" "s3" a b ha hb (hacolor.trans hbcolor.symm)
  exact absurd hsame (by decide)

end Slideo
