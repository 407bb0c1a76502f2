import Slideo.Lib.OrderedMap
import Slideo.Http

/-! The live collaboration of `services/collaborationSocket.ts`: the handlers of a socket over the map of
    rooms, and what socket.io does with rooms of its own. A socket is in the room of its own id from the
    start, `socket.to(p)` reaches the others in `p`, and a socket has left its rooms when `disconnect`
    fires. Handlers run one at a time. -/

namespace Slideo
open Js

/-! ### Data -/

/-- Colour palette for collaborator cursors. -/
def colours : List String :=
  ["#6C63FF", "#FF6584", "#43D9AD", "#FFD166", "#06CFA1", "#EF476F", "#118AB2", "#FFB400"]

def getColor (index : Nat) : String :=
  have : index % colours.length < colours.length := Nat.mod_lt _ (by decide)
  colours[index % colours.length]

structure Cursor where
  x : Val
  y : Val
  deriving DecidableEq

structure CollaboratorInfo where
  userId : String
  email : String
  color : String
  cursor : Option Cursor := none
  activeSlideId : Val := none
  deriving DecidableEq

/-- `socketId → CollaboratorInfo`. -/
abbrev Room := OrderedMap CollaboratorInfo

/-- A connected socket: the payload of its token, and the rooms of socket.io that it is in. -/
structure Peer where
  user : AuthUser
  joined : List String
  deriving DecidableEq

structure Collab where
  peers : OrderedMap Peer
  rooms : OrderedMap Room

/-- The event of a `slide-update`. -/
structure SlideUpdate where
  presentationId : String
  type : String
  payload : Val
  deriving DecidableEq

/-- The data of a `cursor-move`. -/
structure CursorMove where
  presentationId : String
  x : Val
  y : Val
  activeSlideId : Val
  deriving DecidableEq

/-- What the server sends. -/
inductive Message where
  | roomState (collaborators : List (String × CollaboratorInfo))
  | userJoined (socketId : String) (info : CollaboratorInfo)
  | slideUpdate (event : SlideUpdate) (fromSocketId fromEmail : String)
  | cursorMove (socketId : String) (x y activeSlideId : Val)
  | userLeft (socketId : String)
  deriving DecidableEq

/-- What happens on a socket. -/
inductive SocketEvent where
  | connect (token : Option String)
  | joinRoom (presentationId : String)
  | slideUpdate (event : SlideUpdate)
  | cursorMove (data : CursorMove)
  | leaveRoom (presentationId : String)
  | disconnect
  deriving DecidableEq

namespace Collab

def empty : Collab := ⟨.empty, .empty⟩

/-- The entry of a socket in `rooms[p]`. -/
def collaborator? (c : Collab) (p s : String) : Option CollaboratorInfo := (c.rooms.get? p).bind (·.get? s)

/-- The socket is in the room `p` of socket.io. -/
def isJoined (c : Collab) (s p : String) : Prop := ∃ peer, c.peers.get? s = some peer ∧ p ∈ peer.joined

/-- `socket.to(p).emit(m)` of the socket `s`. -/
def emitTo (c : Collab) (s p : String) (m : Message) : List (String × Message) :=
  (c.peers.entries.filter fun e => e.1 != s && e.2.joined.contains p).map fun e => (e.1, m)

/-! ### Handlers -/

/-- The authentication middleware: the payload of the token, if it has one. -/
def authenticate (env : Env) (token : Option String) : Option AuthUser :=
  match token with
  | none => none
  | some token => if token = "" then none else env.verify token

def connect (env : Env) (c : Collab) (s : String) (token : Option String) : Collab :=
  match authenticate env token with
  | none => c
  | some user => { c with peers := c.peers.set s ⟨user, [s]⟩ }

def joinRoom (c : Collab) (s : String) (peer : Peer) (presentationId : String) : Collab × List (String × Message) :=
  let peers := c.peers.set s { peer with joined := peer.joined.insert presentationId }
  let room := (c.rooms.get? presentationId).getD .empty
  let info : CollaboratorInfo := { userId := peer.user.id, email := peer.user.email, color := getColor room.size }
  let room := room.set s info
  let c : Collab := ⟨peers, c.rooms.set presentationId room⟩
  (c, (s, .roomState room.entries) :: c.emitTo s presentationId (.userJoined s info))

def slideUpdate (c : Collab) (s : String) (peer : Peer) (event : SlideUpdate) : Collab × List (String × Message) :=
  (c, c.emitTo s event.presentationId (.slideUpdate event s peer.user.email))

/-- A move of a socket that is not in the room is still sent to the room. -/
def cursorMove (c : Collab) (s : String) (data : CursorMove) : Collab × List (String × Message) :=
  let rooms := match c.rooms.get? data.presentationId with
    | none => c.rooms
    | some room => match room.get? s with
      | none => c.rooms
      | some info => c.rooms.set data.presentationId
          (room.set s { info with cursor := some ⟨data.x, data.y⟩, activeSlideId := data.activeSlideId })
  ({ c with rooms }, c.emitTo s data.presentationId (.cursorMove s data.x data.y data.activeSlideId))

def leaveRoom (c : Collab) (s : String) (peer : Peer) (presentationId : String) :
    Collab × List (String × Message) :=
  let peers := c.peers.set s { peer with joined := peer.joined.filter (· != presentationId) }
  let rooms := match c.rooms.get? presentationId with
    | none => c.rooms
    | some room => c.rooms.set presentationId (room.delete s)
  (⟨peers, rooms⟩, emitTo ⟨peers, rooms⟩ s presentationId (.userLeft s))

def disconnect (c : Collab) (s : String) : Collab × List (String × Message) :=
  let c' : Collab := ⟨c.peers.delete s, c.rooms.map fun room => if room.has s then room.delete s else room⟩
  (c', c.rooms.entries.flatMap fun e => if e.2.has s then c'.emitTo s e.1 (.userLeft s) else [])

/-- One event of the socket `s`, and the messages it sends to sockets. -/
def handle (env : Env) (c : Collab) (s : String) (e : SocketEvent) : Collab × List (String × Message) :=
  match e, c.peers.get? s with
  | .connect token, _ => (c.connect env s token, [])
  | _, none => (c, [])
  | .joinRoom p, some peer => c.joinRoom s peer p
  | .slideUpdate event, some peer => c.slideUpdate s peer event
  | .cursorMove data, some _ => c.cursorMove s data
  | .leaveRoom p, some peer => c.leaveRoom s peer p
  | .disconnect, some _ => c.disconnect s

end Collab

/-! ### Runs -/

/-- Socket ids are issued once, and only connected sockets have events. -/
def Possible (es : List (String × SocketEvent)) (c : Collab) (s : String) : SocketEvent → Prop
  | .connect _ => ∀ e ∈ es, e.1 ≠ s
  | _ => ∃ peer, c.peers.get? s = some peer

/-- The events of a run, the state they lead to, and everything sent on the way, oldest first. The states of
    the run satisfy `P`. -/
inductive CollabRun (env : Env) (P : Collab → Prop) :
    List (String × SocketEvent) → Collab → List (String × Message) → Prop
  | start : CollabRun env P [] .empty []
  | snoc {es : List (String × SocketEvent)} {c : Collab}
      {sent : List (String × Message)} {s : String} {e : SocketEvent}
      (run : CollabRun env P es c sent) (possible : Possible es c s e) (state : P (c.handle env s e).1) :
      CollabRun env P (es ++ [(s, e)]) (c.handle env s e).1 (sent ++ (c.handle env s e).2)

theorem CollabRun.mono {env : Env} {P Q : Collab → Prop} {es : List (String × SocketEvent)} {c : Collab}
    {sent : List (String × Message)} (run : CollabRun env P es c sent)
    (h : ∀ c, P c → Q c) : CollabRun env Q es c sent := by
  induction run with
  | start => exact .start
  | snoc _ possible state ih => exact .snoc ih possible (h _ state)

namespace Collab

/-- Handles events one after another, from the state `c` in which `sent` has been sent. -/
def play (env : Env) : Collab → List (String × Message) → List (String × SocketEvent) →
    Collab × List (String × Message)
  | c, sent, [] => (c, sent)
  | c, sent, (s, e) :: es => play env (c.handle env s e).1 (sent ++ (c.handle env s e).2) es

/-- The events can happen after `past`, and their states satisfy `P`. -/
def playable (env : Env) (P : Collab → Bool) : List (String × SocketEvent) → Collab →
    List (String × SocketEvent) → Bool
  | _, _, [] => true
  | past, c, (s, e) :: es =>
    (match e with | .connect _ => past.all (·.1 != s) | _ => c.peers.has s) && P (c.handle env s e).1 &&
      playable env P (past ++ [(s, e)]) (c.handle env s e).1 es

theorem play_run {env : Env} {P : Collab → Bool} : ∀ {es past : List (String × SocketEvent)} {c : Collab}
    {sent : List (String × Message)}, CollabRun env (fun c => P c = true) past c sent →
    playable env P past c es = true →
    CollabRun env (fun c => P c = true) (past ++ es) (play env c sent es).1 (play env c sent es).2 := by
  intro es
  induction es with
  | nil =>
    intro past c sent run _
    rw [List.append_nil]
    exact run
  | cons e es ih =>
    obtain ⟨s, e⟩ := e
    intro past c sent run hplay
    simp only [playable, Bool.and_eq_true] at hplay
    obtain ⟨⟨hpossible, hP⟩, hrest⟩ := hplay
    have possible : Possible past c s e := by
      cases e with
      | connect token =>
        intro e he
        simpa using List.all_eq_true.mp hpossible e he
      | _ => exact OrderedMap.has_iff.mp hpossible
    have hrun := ih (.snoc run possible hP) hrest
    rw [List.append_assoc] at hrun
    exact hrun

end Collab

end Slideo
