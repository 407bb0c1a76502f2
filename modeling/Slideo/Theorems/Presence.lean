import Slideo.Theorems.Rooms

/-! Who a client sees in its room. A client starts from the `room-state` of its join and follows the later
    messages; every handler tells the others in the room exactly what it changed there, so a client that
    has received everything sees the room as the server has it. -/

namespace Slideo

/-! ### The view of a client -/

/-- What a client knows about the sockets of its room. -/
abbrev View := String → Option CollaboratorInfo

/-- `room-state` replaces the view, `user-joined` sets an entry, `user-left` deletes it, and `cursor-move`
    updates it if it is there. -/
def View.receive (v : View) : Message → View
  | .roomState collaborators => fun t => (collaborators.find? (·.1 == t)).map Prod.snd
  | .userJoined socketId info => fun t => if t = socketId then some info else v t
  | .userLeft socketId => fun t => if t = socketId then none else v t
  | .cursorMove socketId x y activeSlideId => fun t =>
    if t = socketId then (v t).map fun info => { info with cursor := some ⟨x, y⟩, activeSlideId } else v t
  | .slideUpdate _ _ _ => v

/-- The messages to a socket, in the order of their delivery. -/
def inbox (sent : List (String × Message)) (s : String) : List Message :=
  sent.filterMap fun m => if m.1 = s then some m.2 else none

def viewOf (sent : List (String × Message)) (s : String) : View := (inbox sent s).foldl View.receive fun _ => none

/-- Every socket is in at most one room. -/
def OneRoom (c : Collab) : Prop :=
  ∀ s p q info info', c.collaborator? p s = some info → c.collaborator? q s = some info' → p = q

/-- The room that an event names. -/
def SocketEvent.room? : SocketEvent → Option String
  | .joinRoom p | .leaveRoom p => some p
  | .slideUpdate event => some event.presentationId
  | .cursorMove data => some data.presentationId
  | .connect _ | .disconnect => none

/-- Room names are never socket ids. -/
def NamesApart (es : List (String × SocketEvent)) : Prop :=
  ∀ e ∈ es, ∀ p, e.2.room? = some p → ∀ t token, (t, SocketEvent.connect token) ∈ es → p ≠ t

/-! ### Deliveries -/

section Inbox
variable {c : Collab} {s t p : String} {m : Message} {sent sent' : List (String × Message)}

theorem inbox_append : inbox (sent ++ sent') s = inbox sent s ++ inbox sent' s := List.filterMap_append

theorem inbox_cons_self (s : String) (m : Message) (sent : List (String × Message)) :
    inbox ((s, m) :: sent) s = m :: inbox sent s := List.filterMap_cons_some (if_pos rfl)

theorem inbox_cons_ne (m : Message) (sent : List (String × Message)) (h : t ≠ s) :
    inbox ((t, m) :: sent) s = inbox sent s := List.filterMap_cons_none (if_neg h)

theorem viewOf_append : viewOf (sent ++ sent') s = (inbox sent' s).foldl View.receive (viewOf sent s) := by
  rw [viewOf, inbox_append, List.foldl_append]
  rfl

theorem deliver_filter {α β : Type} (f : String × α → Bool) (m : β) (s : String) (l : List (String × α)) :
    (l.filter f).filterMap (fun e => if e.1 = s then some m else none) =
      ((l.filter (·.1 == s)).filter f).map fun _ => m := by
  induction l with
  | nil => rfl
  | cons e l ih =>
    by_cases hs : e.1 = s
    · cases hf : f e <;> simp only [List.filter_cons, hf, hs, beq_self_eq_true, if_true, List.filterMap_cons,
        List.map_cons, ih, Bool.false_eq_true, if_false]
    · have hbeq : (e.1 == s) = false := beq_false_of_ne hs
      cases hf : f e <;> simp only [List.filter_cons, hf, hs, hbeq, if_true, List.filterMap_cons, ih,
        Bool.false_eq_true, if_false]

/-- What a broadcast delivers to one socket. -/
theorem inbox_emitTo : inbox (c.emitTo t p m) s =
    ((c.peers.get? s).toList.filter fun peer => s != t && peer.joined.contains p).map fun _ => m := by
  have hswap := deliver_filter (fun e : String × Peer => e.1 != t && e.2.joined.contains p) m s c.peers.rows
  have hkeys := Table.filter_key c.peers s
  rw [hkeys] at hswap
  rw [inbox, Collab.emitTo, List.filterMap_map]
  refine hswap.trans ?_
  rw [OrderedMap.get?]
  cases hfind : c.peers.find? s with
  | none => rfl
  | some e =>
    have hkey : e.1 = s := Table.key_of_find? hfind
    simp only [Option.toList_some, Option.map_some, List.filter_cons, List.filter_nil, hkey]
    split <;> rfl

theorem inbox_emitTo_self : inbox (c.emitTo s p m) s = [] := by
  rw [inbox_emitTo]
  simp

theorem inbox_emitTo_joined (hst : s ≠ t) (h : c.isJoined s p) : inbox (c.emitTo t p m) s = [m] := by
  obtain ⟨peer, hpeer, hjoined⟩ := h
  rw [inbox_emitTo, hpeer]
  simp [hst, hjoined]

theorem inbox_emitTo_of_not_joined (h : ¬ c.isJoined s p) : inbox (c.emitTo t p m) s = [] := by
  rw [inbox_emitTo]
  cases hpeer : c.peers.get? s with
  | none => rfl
  | some peer =>
    have hnot : p ∉ peer.joined := fun hmem => h ⟨peer, hpeer, hmem⟩
    simp [hnot]

end Inbox

/-! ### One event -/

/-- The view of the socket `s` is the room `p`, but for where its own cursor is. -/
structure Agrees (v : View) (c : Collab) (p s : String) : Prop where
  others : ∀ t, t ≠ s → v t = c.collaborator? p t
  self : ∃ info, v s = some info

section Step
variable {env : Env} {c c' : Collab} {s t p q : String} {v : View}

theorem Agrees.congr (h : Agrees v c p s) (hentry : ∀ u, c'.collaborator? p u = c.collaborator? p u) :
    Agrees v c' p s :=
  ⟨fun u hu => (h.others u hu).trans (hentry u).symm, h.self⟩

/-- The same change on both sides, at another socket. -/
theorem Agrees.update (h : Agrees v c p s) (ht : t ≠ s) {f : Option CollaboratorInfo → Option CollaboratorInfo}
    {v' : View} (hv : ∀ u, v' u = if u = t then f (v u) else v u)
    (hentry : ∀ u, c'.collaborator? p u = if u = t then f (c.collaborator? p u) else c.collaborator? p u) :
    Agrees v' c' p s := by
  refine ⟨fun u hu => ?_, ?_⟩
  · rw [hv, hentry, h.others u hu]
  · obtain ⟨info, hinfo⟩ := h.self
    refine ⟨info, ?_⟩
    rw [hv, if_neg (Ne.symm ht), hinfo]

/-- A snapshot is the room. -/
theorem agrees_roomState {room : Room} (hentry : ∀ u, c.collaborator? p u = room.get? u) {info : CollaboratorInfo}
    (hself : c.collaborator? p s = some info) : Agrees (v.receive (.roomState room.entries)) c p s := by
  have hview : ∀ u, v.receive (.roomState room.entries) u = c.collaborator? p u := fun u => (hentry u).symm
  exact ⟨fun u _ => hview u, info, (hview s).trans hself⟩

theorem foldl_slideUpdate {event : SlideUpdate} {email : String} {ms : List Message}
    (h : ∀ m ∈ ms, m = .slideUpdate event t email) : ms.foldl View.receive v = v := by
  induction ms with
  | nil => rfl
  | cons m ms ih =>
    cases h m List.mem_cons_self
    exact ih fun m' hm' => h m' (List.mem_cons_of_mem _ hm')

/-- Any number of `user-left` of one socket. -/
theorem foldl_userLeft {ms : List Message} (h : ∀ m ∈ ms, m = .userLeft t) :
    ∀ v : View, (ms ≠ [] ∨ v t = none) → ms.foldl View.receive v = fun u => if u = t then none else v u := by
  induction ms with
  | nil =>
    intro v hv
    have hnone : v t = none := hv.resolve_left fun h => h rfl
    funext u
    show v u = _
    by_cases hu : u = t
    · rw [if_pos hu, hu, hnone]
    · rw [if_neg hu]
  | cons m ms ih =>
    intro v _
    cases h m List.mem_cons_self
    have hrest := ih (fun m' hm' => h m' (List.mem_cons_of_mem _ hm'))
      (v.receive (.userLeft t)) (Or.inr (if_pos rfl))
    rw [List.foldl_cons, hrest]
    funext u
    by_cases hu : u = t
    · rw [if_pos hu, if_pos hu]
    · rw [if_neg hu, if_neg hu]
      exact if_neg hu

/-- Only members of the room named by a broadcast receive it. -/
theorem inbox_emitTo_cases {m : Message} (hst : s ≠ t)
    (hjoined : c.isJoined s q ↔ ∃ info, c'.collaborator? q s = some info) (hone : OneRoom c')
    {info : CollaboratorInfo} (hs : c'.collaborator? p s = some info) :
    inbox (c.emitTo t q m) s = if p = q then [m] else [] := by
  by_cases hpq : p = q
  · rw [if_pos hpq]
    exact inbox_emitTo_joined hst (hjoined.mpr ⟨info, hpq ▸ hs⟩)
  · rw [if_neg hpq]
    refine inbox_emitTo_of_not_joined fun h => hpq ?_
    obtain ⟨info', hinfo'⟩ := hjoined.mp h
    exact hone s p q info info' hs hinfo'

theorem agrees_joinRoom {peer : Peer} {info : CollaboratorInfo} (hone : OneRoom (c.joinRoom t peer q).1)
    (hjoined : (c.joinRoom t peer q).1.isJoined s q ↔ ∃ info, (c.joinRoom t peer q).1.collaborator? q s = some info)
    (hs : (c.joinRoom t peer q).1.collaborator? p s = some info)
    (h : ∀ info, c.collaborator? p s = some info → Agrees v c p s) :
    Agrees ((inbox (c.joinRoom t peer q).2 s).foldl View.receive v) (c.joinRoom t peer q).1 p s := by
  by_cases hst : s = t
  · subst hst
    -- the socket that joins starts from the snapshot
    have hjoins : (c.joinRoom s peer q).1.collaborator? q s = some ⟨peer.user.id, peer.user.email,
        getColor ((c.rooms.get? q).getD .empty).size, none, none⟩ := by
      rw [Collab.collaborator?_joinRoom, if_pos ⟨rfl, rfl⟩]
    obtain rfl : p = q := hone s p q info _ hs hjoins
    have hinbox : inbox (c.joinRoom s peer p).2 s =
        [.roomState (((c.rooms.get? p).getD .empty).set s ⟨peer.user.id, peer.user.email,
          getColor ((c.rooms.get? p).getD .empty).size, none, none⟩).entries] := by
      refine (inbox_cons_self _ _ _).trans ?_
      rw [inbox_emitTo_self]
    rw [hinbox]
    refine agrees_roomState (v := v) (fun u => ?_) hs
    rw [Collab.joinRoom, Collab.collaborator?, OrderedMap.get?_set, if_pos rfl]
    rfl
  · have hcast := inbox_emitTo_cases (m := .userJoined t ⟨peer.user.id, peer.user.email,
      getColor ((c.rooms.get? q).getD .empty).size, none, none⟩) hst hjoined hone hs
    have hinbox : inbox (c.joinRoom t peer q).2 s = if p = q then [.userJoined t ⟨peer.user.id, peer.user.email,
        getColor ((c.rooms.get? q).getD .empty).size, none, none⟩] else [] := by
      rw [← hcast]
      exact inbox_cons_ne _ _ (Ne.symm hst)
    have hbefore : c.collaborator? p s = some info := by
      rwa [Collab.collaborator?_joinRoom, if_neg fun h => hst h.2] at hs
    rw [hinbox]
    by_cases hpq : p = q
    · rw [if_pos hpq]
      refine (h info hbefore).update (Ne.symm hst) (f := fun _ => some _) (fun u => rfl) fun u => ?_
      rw [Collab.collaborator?_joinRoom]
      simp [hpq]
    · rw [if_neg hpq]
      refine (h info hbefore).congr fun u => ?_
      rw [Collab.collaborator?_joinRoom, if_neg fun h => hpq h.1]

theorem agrees_cursorMove {data : CursorMove} {info : CollaboratorInfo} (hone : OneRoom (c.cursorMove t data).1)
    (hjoined : c.isJoined s data.presentationId ↔
      ∃ info, (c.cursorMove t data).1.collaborator? data.presentationId s = some info)
    (hs : (c.cursorMove t data).1.collaborator? p s = some info)
    (h : ∀ info, c.collaborator? p s = some info → Agrees v c p s) :
    Agrees ((inbox (c.cursorMove t data).2 s).foldl View.receive v) (c.cursorMove t data).1 p s := by
  have hbefore : ∃ info, c.collaborator? p s = some info := by
    rw [Collab.collaborator?_cursorMove] at hs
    split at hs
    · obtain ⟨info, hinfo, -⟩ := Option.map_eq_some_iff.mp hs
      exact ⟨info, hinfo⟩
    · exact ⟨info, hs⟩
  obtain ⟨info₀, hbefore⟩ := hbefore
  have hagrees := h info₀ hbefore
  by_cases hst : s = t
  · subst hst
    have hinbox : inbox (c.cursorMove s data).2 s = [] := inbox_emitTo_self
    rw [hinbox]
    refine ⟨fun u hu => ?_, hagrees.self⟩
    rw [Collab.collaborator?_cursorMove, if_neg fun h => hu h.2]
    exact hagrees.others u hu
  · have hinbox : inbox (c.cursorMove t data).2 s =
        if p = data.presentationId then [.cursorMove t data.x data.y data.activeSlideId] else [] :=
      inbox_emitTo_cases hst hjoined hone hs
    rw [hinbox]
    by_cases hpq : p = data.presentationId
    · rw [if_pos hpq]
      refine hagrees.update (Ne.symm hst) (f := Option.map fun info =>
        { info with cursor := some ⟨data.x, data.y⟩, activeSlideId := data.activeSlideId })
          (fun u => rfl) fun u => ?_
      rw [Collab.collaborator?_cursorMove]
      simp [hpq]
    · rw [if_neg hpq]
      refine hagrees.congr fun u => ?_
      rw [Collab.collaborator?_cursorMove, if_neg fun h => hpq h.1]

theorem agrees_leaveRoom {peer : Peer} {info : CollaboratorInfo} (hone : OneRoom (c.leaveRoom t peer q).1)
    (hjoined : (c.leaveRoom t peer q).1.isJoined s q ↔
      ∃ info, (c.leaveRoom t peer q).1.collaborator? q s = some info)
    (hs : (c.leaveRoom t peer q).1.collaborator? p s = some info)
    (h : ∀ info, c.collaborator? p s = some info → Agrees v c p s) :
    Agrees ((inbox (c.leaveRoom t peer q).2 s).foldl View.receive v) (c.leaveRoom t peer q).1 p s := by
  have hnot : ¬ (p = q ∧ s = t) := by
    intro hpt
    rw [Collab.collaborator?_leaveRoom, if_pos hpt] at hs
    cases hs
  have hbefore : c.collaborator? p s = some info := by rwa [Collab.collaborator?_leaveRoom, if_neg hnot] at hs
  by_cases hst : s = t
  · subst hst
    have hinbox : inbox (c.leaveRoom s peer q).2 s = [] := inbox_emitTo_self
    rw [hinbox]
    refine (h info hbefore).congr fun u => ?_
    rw [Collab.collaborator?_leaveRoom, if_neg fun h => hnot ⟨h.1, rfl⟩]
  · have hinbox : inbox (c.leaveRoom t peer q).2 s = if p = q then [.userLeft t] else [] :=
      inbox_emitTo_cases hst hjoined hone hs
    rw [hinbox]
    by_cases hpq : p = q
    · rw [if_pos hpq]
      refine (h info hbefore).update (Ne.symm hst) (f := fun _ => none) (fun u => rfl) fun u => ?_
      rw [Collab.collaborator?_leaveRoom]
      simp [hpq]
    · rw [if_neg hpq]
      refine (h info hbefore).congr fun u => ?_
      rw [Collab.collaborator?_leaveRoom, if_neg fun h => hpq h.1]

theorem inbox_flatMap {α : Type} (l : List α) (f : α → List (String × Message)) :
    inbox (l.flatMap f) s = l.flatMap fun x => inbox (f x) s := List.filterMap_flatMap

theorem agrees_disconnect {info : CollaboratorInfo}
    (hjoined : (c.disconnect t).1.isJoined s p ↔ ∃ info, (c.disconnect t).1.collaborator? p s = some info)
    (hs : (c.disconnect t).1.collaborator? p s = some info)
    (h : ∀ info, c.collaborator? p s = some info → Agrees v c p s) :
    Agrees ((inbox (c.disconnect t).2 s).foldl View.receive v) (c.disconnect t).1 p s := by
  have hst : s ≠ t := by
    rintro rfl
    rw [Collab.collaborator?_disconnect, if_pos rfl] at hs
    cases hs
  have hbefore : c.collaborator? p s = some info := by rwa [Collab.collaborator?_disconnect, if_neg hst] at hs
  have hagrees := h info hbefore
  have hinbox : inbox (c.disconnect t).2 s = c.rooms.entries.flatMap fun e =>
      inbox (if e.2.has t then (c.disconnect t).1.emitTo t e.1 (.userLeft t) else []) s := inbox_flatMap _ _
  have hleft : ∀ m ∈ inbox (c.disconnect t).2 s, m = .userLeft t := by
    intro m hm
    rw [hinbox] at hm
    obtain ⟨e, -, hm⟩ := List.mem_flatMap.mp hm
    split at hm
    · rw [inbox_emitTo] at hm
      obtain ⟨_, -, rfl⟩ := List.mem_map.mp hm
      rfl
    · cases hm
  have hmember : inbox (c.disconnect t).2 s ≠ [] ∨ v t = none := by
    cases hroom : c.rooms.get? p with
    | none =>
      refine Or.inr ?_
      rw [hagrees.others t (Ne.symm hst), Collab.collaborator?, hroom]
      rfl
    | some room =>
      cases hinfo : room.get? t with
      | none =>
        refine Or.inr ?_
        rw [hagrees.others t (Ne.symm hst), Collab.collaborator?, hroom]
        exact hinfo
      | some info' =>
        refine Or.inl (List.ne_nil_of_mem (a := .userLeft t) ?_)
        rw [hinbox]
        refine List.mem_flatMap.mpr ⟨(p, room), OrderedMap.mem_entries.mpr hroom, ?_⟩
        rw [if_pos (OrderedMap.has_iff.mpr ⟨info', hinfo⟩), inbox_emitTo_joined hst (hjoined.mpr ⟨info, hs⟩)]
        exact List.mem_singleton_self _
  rw [foldl_userLeft hleft v hmember]
  refine hagrees.update (Ne.symm hst) (f := fun _ => none) (fun u => rfl) fun u => ?_
  rw [Collab.collaborator?_disconnect]

end Step

/-! ### Every run -/

section Runs
variable {env : Env} {P : Collab → Prop} {es : List (String × SocketEvent)} {c : Collab}
  {sent : List (String × Message)}

/-- In a room whose name is no socket id, socket.io has exactly the sockets with an entry. -/
theorem CollabRun.isJoined_iff (run : CollabRun env P es c sent) {s q : String}
    (hq : ∀ token, (s, SocketEvent.connect token) ∈ es → q ≠ s) : c.isJoined s q ↔
    ∃ info, c.collaborator? q s = some info := by
  have inv := run.socketInv s
  constructor
  · rintro ⟨peer, hpeer, hjoined⟩
    obtain ⟨-, token, hmem, -⟩ := inv.accepted peer hpeer
    exact inv.present peer q hpeer ((inv.joined peer q hpeer (hq token hmem)).mp hjoined)
  · rintro ⟨info, hinfo⟩
    obtain ⟨hlast, -, -, peer, hpeer, -⟩ := inv.entry q info hinfo
    obtain ⟨-, token, hmem, -⟩ := inv.accepted peer hpeer
    exact ⟨peer, hpeer, (inv.joined peer q hpeer (hq token hmem)).mpr hlast⟩

theorem NamesApart.left {es' : List (String × SocketEvent)} (h : NamesApart (es ++ es')) : NamesApart es :=
  fun e he p hp t token hmem => h e (List.mem_append_left _ he) p hp t token (List.mem_append_left _ hmem)

theorem lastPresence_mem {s p : String} {e : SocketEvent} (h : lastPresence es s p = some e) :
    ∃ e', e' ∈ es ∧ e'.2.room? = some p := by
  obtain ⟨e', he', -⟩ := Option.map_eq_some_iff.mp h
  refine ⟨e', List.mem_reverse.mp (List.mem_of_find?_eq_some he'), ?_⟩
  have hcases := List.find?_some he'
  simp only [Bool.or_eq_true, beq_iff_eq] at hcases
  rcases hcases with rfl | rfl <;> rfl

theorem agrees_of_run (run : CollabRun env OneRoom es c sent) (hnames : NamesApart es) :
    ∀ p s info, c.collaborator? p s = some info → Agrees (viewOf sent s) c p s := by
  induction run with
  | start => exact fun p s info h => by cases h
  | @snoc es c sent t e run possible hone ih =>
    intro p s info hs
    have ih := fun info => ih hnames.left p s info
    have run' : CollabRun env OneRoom (es ++ [(t, e)]) _ _ := .snoc run possible hone
    have hnamed : ∀ q, e.room? = some q → ∀ token, (s, SocketEvent.connect token) ∈ es ++ [(t, e)] → q ≠ s :=
      fun q hq token hmem => hnames (t, e) (List.mem_append_right _ (List.mem_singleton_self _)) q hq s token hmem
    rw [viewOf_append]
    cases e with
    | connect token =>
      have hentry : ∀ u, (c.handle env t (.connect token)).1.collaborator? p u = c.collaborator? p u :=
        fun u => Collab.collaborator?_connect
      rw [hentry] at hs
      exact (ih info hs).congr hentry
    | joinRoom q =>
      obtain ⟨peer, hpeer⟩ := possible
      have hjoined := run'.isJoined_iff (hnamed q rfl)
      simp only [Collab.handle, hpeer] at hs hone hjoined ⊢
      exact agrees_joinRoom hone hjoined hs ih
    | slideUpdate event =>
      obtain ⟨peer, hpeer⟩ := possible
      simp only [Collab.handle, hpeer] at hs ⊢
      have hinbox : ∀ m ∈ inbox (c.slideUpdate t peer event).2 s, m = .slideUpdate event t peer.user.email := by
        intro m hm
        rw [Collab.slideUpdate, inbox_emitTo] at hm
        obtain ⟨_, -, rfl⟩ := List.mem_map.mp hm
        rfl
      rw [foldl_slideUpdate hinbox]
      exact ih info hs
    | cursorMove data =>
      obtain ⟨peer, hpeer⟩ := possible
      have hjoined := run'.isJoined_iff (hnamed data.presentationId rfl)
      simp only [Collab.handle, hpeer] at hs hone hjoined ⊢
      exact agrees_cursorMove hone hjoined hs ih
    | leaveRoom q =>
      obtain ⟨peer, hpeer⟩ := possible
      have hjoined := run'.isJoined_iff (hnamed q rfl)
      simp only [Collab.handle, hpeer] at hs hone hjoined ⊢
      exact agrees_leaveRoom hone hjoined hs ih
    | disconnect =>
      obtain ⟨peer, hpeer⟩ := possible
      -- the room of the receiver was named when it joined
      obtain ⟨hlast, -⟩ := (run'.socketInv s).entry p info hs
      obtain ⟨e', he', hroom⟩ := lastPresence_mem hlast
      have hjoined := run'.isJoined_iff fun token hmem => hnames e' he' p hroom s token hmem
      simp only [Collab.handle, hpeer] at hs hjoined ⊢
      exact agrees_disconnect hjoined hs ih

end Runs

/-- A client in a room that has received all its messages sees exactly the sockets of the room, and of every
    other socket what the server has. -/
theorem presence_agrees {env : Env} {es : List (String × SocketEvent)} {c : Collab} {sent : List (String × Message)}
    (run : CollabRun env OneRoom es c sent) (hnames : NamesApart es) {p s : String} {info : CollaboratorInfo}
    (hs : c.collaborator? p s = some info) :
    (∀ t, (viewOf sent s t).isSome = (c.collaborator? p t).isSome) ∧ ∀ t, t ≠ s →
    viewOf sent s t = c.collaborator? p t := by
  have hagrees := agrees_of_run run hnames p s info hs
  refine ⟨fun t => ?_, hagrees.others⟩
  by_cases ht : t = s
  · obtain ⟨seen, hseen⟩ := hagrees.self
    rw [ht, hseen, hs]
    rfl
  · rw [hagrees.others t ht]

/-- Every entry of a socket is in the same room as every other one. -/
def Collab.oneRoom (c : Collab) : Bool :=
  c.rooms.entries.all fun e => e.2.entries.all fun m => c.rooms.entries.all fun e' => !e'.2.has m.1 || e.1 == e'.1

theorem oneRoom_of_all {c : Collab} (h : c.oneRoom = true) : OneRoom c := by
  intro s p q info info' hp hq
  obtain ⟨room, hroom, hinfo⟩ := Option.bind_eq_some_iff.mp hp
  obtain ⟨room', hroom', hinfo'⟩ := Option.bind_eq_some_iff.mp hq
  have hall := List.all_eq_true.mp h (p, room) (OrderedMap.mem_entries.mpr hroom)
  have hall := List.all_eq_true.mp hall (s, info) (OrderedMap.mem_entries.mpr hinfo)
  have hall := List.all_eq_true.mp hall (q, room') (OrderedMap.mem_entries.mpr hroom')
  have hhas : room'.has s = true := OrderedMap.has_iff.mpr ⟨info', hinfo'⟩
  simpa [hhas] using hall

theorem meeting_names_apart : NamesApart meeting := by
  intro e he p hp t token hmem
  simp only [meeting, List.mem_cons, Prod.mk.injEq, reduceCtorEq, and_false, or_false, List.not_mem_nil] at he hmem
  have ht : t = "s1" ∨ t = "s2" := hmem.imp And.left And.left
  have hdeck : p = "deck" := by
    rcases he with rfl | rfl | rfl | rfl | rfl | rfl <;> first | exact (Option.some.inj hp).symm | cases hp
  rcases ht with rfl | rfl <;> rw [hdeck] <;> decide

theorem alice_is_seen_alone :
    ∃ c sent, CollabRun office OneRoom meeting c sent ∧ c.collaborator? "deck" "s1" ≠ none ∧
    viewOf sent "s1" "s2" = none := by
  have hplay : Collab.playable office Collab.oneRoom [] .empty meeting = true := by decide +kernel
  have run : CollabRun office OneRoom meeting (Collab.play office .empty [] meeting).1
      (Collab.play office .empty [] meeting).2 := (Collab.play_run .start hplay).mono fun _ => oneRoom_of_all
  have hentry : (Collab.play office .empty [] meeting).1.collaborator? "deck" "s1" =
      some ⟨"alice", "alice@slideo.ai", "#6C63FF", some ⟨some (.num 3), some (.num 4)⟩, some (.str "intro")⟩ := by
    decide +kernel
  refine ⟨_, _, run, by rw [hentry]; exact fun h => (by cases h), ?_⟩
  rw [(presence_agrees run meeting_names_apart hentry).2 "s2" (by decide)]
  decide +kernel

end Slideo
