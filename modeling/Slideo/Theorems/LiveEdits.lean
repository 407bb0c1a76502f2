import Slideo.Theorems.Presence

/-! Live edits of one block. The server relays an update to the others in the room only, so its sender
    never hears where its update came in the order of the server. Everyone else ends with the update that
    the server handled last; its sender ends with it unless a crossing update reached it later. -/

namespace Slideo
open Js

/-! ### Clients and queues -/

/-- An update that a client has applied to its copy of the block. -/
inductive Applied (V : Type) where
  | own (v : V)
  | relayed (v : V)
  deriving DecidableEq

def Applied.value {V : Type} : Applied V → V
  | .own v | .relayed v => v

/-- A client: the updates it has applied, those it has sent that the server has yet to handle, and those
    that are on their way to it; oldest first. -/
structure Client (V : Type) where
  applied : List (Applied V) := []
  outbox : List SlideUpdate := []
  incoming : List SlideUpdate := []

/-- The copy of the block: later writes replace earlier ones. -/
def Client.value {V : Type} (v₀ : V) (client : Client V) : V := (client.applied.getLast?.map Applied.value).getD v₀

structure LiveEdits (V : Type) where
  server : Collab
  clients : String → Client V

def LiveEdits.withClient {V : Type} (x : LiveEdits V) (s : String) (client : Client V) : LiveEdits V :=
  ⟨x.server, Function.update x.clients s client⟩

theorem clients_self {V : Type} (x : LiveEdits V) (s : String) (client : Client V) :
    (x.withClient s client).clients s = client := Function.update_self _ _ _

theorem clients_of_ne {V : Type} (x : LiveEdits V) {s u : String} (client : Client V) (h : u ≠ s) :
    (x.withClient s client).clients u = x.clients u := Function.update_of_ne h _ _

inductive EditAction where
  | send (s : String) (event : SlideUpdate)
  | handle (s : String) (event : SlideUpdate)
  | deliver (s : String) (event : SlideUpdate)
  deriving DecidableEq

/-- The updates among the messages to a socket. -/
def updatesTo (sent : List (String × Message)) (s : String) : List SlideUpdate :=
  (inbox sent s).filterMap fun
    | .slideUpdate event _ _ => some event
    | _ => none

section Network
variable {V : Type} (env : Env) (writes : SlideUpdate → V)

/-- A client applies its own update when it sends it. -/
def Client.send (client : Client V) (event : SlideUpdate) : Client V :=
  { client with applied := client.applied ++ [.own (writes event)], outbox := client.outbox ++ [event] }

/-- The first update that is on its way is delivered. -/
def Client.deliver (client : Client V) (event : SlideUpdate) (rest : List SlideUpdate) : Client V :=
  { client with applied := client.applied ++ [.relayed (writes event)], incoming := rest }

/-- The server handles the first update of `s`; what it sends joins the queues. -/
def LiveEdits.handle (x : LiveEdits V) (s : String) (event : SlideUpdate) (rest : List SlideUpdate) : LiveEdits V :=
  let out := x.server.handle env s (.slideUpdate event)
  ⟨out.1, fun t => { x.clients t with
    outbox := if t = s then rest else (x.clients t).outbox
    incoming := (x.clients t).incoming ++ updatesTo out.2 t }⟩

/-- One step of the members `M` of the room `p`. -/
inductive EditStep (M : List String) (p : String) : LiveEdits V → EditAction → LiveEdits V → Prop
  | send (x : LiveEdits V) {s : String} {event : SlideUpdate} (hs : s ∈ M) (hp : event.presentationId = p) :
      EditStep M p x (.send s event) (x.withClient s ((x.clients s).send writes event))
  | handle {x : LiveEdits V} {s : String} {event : SlideUpdate} {rest : List SlideUpdate}
      (h : (x.clients s).outbox = event :: rest) : EditStep M p x (.handle s event) (x.handle env s event rest)
  | deliver {x : LiveEdits V} {s : String} {event : SlideUpdate} {rest : List SlideUpdate}
      (h : (x.clients s).incoming = event :: rest) :
      EditStep M p x (.deliver s event) (x.withClient s ((x.clients s).deliver writes event rest))

inductive EditRun (M : List String) (p : String) (x₀ : LiveEdits V) : List EditAction → LiveEdits V → Prop
  | nil : EditRun M p x₀ [] x₀
  | snoc {as : List EditAction} {x x' : LiveEdits V} {a : EditAction} (run : EditRun M p x₀ as x)
      (step : EditStep env writes M p x a x') : EditRun M p x₀ (as ++ [a]) x'

/-- The members are in the room, and nothing has been sent yet. -/
structure LiveEdits.Start (M : List String) (p : String) (x₀ : LiveEdits V) : Prop where
  joined : ∀ s ∈ M, x₀.server.isJoined s p
  clients : ∀ s, x₀.clients s = {}

/-- Every sent event has been handled and every relayed message delivered. -/
def LiveEdits.Quiet (M : List String) (x : LiveEdits V) : Prop :=
  ∀ s ∈ M, (x.clients s).outbox = [] ∧ (x.clients s).incoming = []

end Network

/-- The event that the server handled last, and its sender. -/
def lastHandled (as : List EditAction) : Option (String × SlideUpdate) :=
  as.reverse.findSome? fun
    | .handle s event => some (s, event)
    | _ => none

/-! ### One step -/

section Effects
variable {V : Type} {writes : SlideUpdate → V} {s t p : String} {event : SlideUpdate}
  {rest : List SlideUpdate} {v₀ : V}

theorem lastHandled_snoc (as : List EditAction) (a : EditAction) : lastHandled (as ++ [a]) =
    match a with
    | .handle s event => some (s, event)
    | _ => lastHandled as := by
  rw [lastHandled, List.reverse_append, List.reverse_singleton, List.singleton_append, List.findSome?_cons]
  cases a <;> rfl

/-- The last update that the client made itself. -/
def Client.lastOwn (client : Client V) : Option V :=
  client.applied.reverse.findSome? fun
    | .own v => some v
    | .relayed _ => none

/-- What the client will hold when everything on its way is delivered. -/
def Client.settled (writes : SlideUpdate → V) (v₀ : V) (client : Client V) : V :=
  (client.incoming.getLast?.map writes).getD (client.value v₀)

theorem lastOwn_send (client : Client V) : (client.send writes event).lastOwn = some (writes event) := by
  simp [Client.lastOwn, Client.send]

theorem lastOwn_deliver (client : Client V) : (client.deliver writes event rest).lastOwn = client.lastOwn := by
  simp [Client.lastOwn, Client.deliver]

theorem settled_deliver {client : Client V} (h : client.incoming = event :: rest) :
    (client.deliver writes event rest).settled writes v₀ = client.settled writes v₀ := by
  simp only [Client.settled, Client.deliver, Client.value, h, List.getLast?_concat, List.getLast?_cons]
  cases rest.getLast? <;> rfl

/-- The handler relays an update to the others, and to them only. -/
theorem handle_slideUpdate (env : Env) {c : Collab} (hs : c.isJoined s p) (hp : event.presentationId = p) :
    (c.handle env s (.slideUpdate event)).1 = c ∧ updatesTo (c.handle env s (.slideUpdate event)).2 s = [] ∧
      ∀ t, t ≠ s → c.isJoined t p → updatesTo (c.handle env s (.slideUpdate event)).2 t = [event] := by
  obtain ⟨peer, hpeer, -⟩ := hs
  subst hp
  simp only [Collab.handle, hpeer, Collab.slideUpdate, updatesTo]
  refine ⟨trivial, ?_, fun t hts ht => ?_⟩
  · rw [inbox_emitTo_self]
    rfl
  · rw [inbox_emitTo_joined hts ht]
    rfl

end Effects

/-! ### Every run -/

section Runs
variable {V : Type} {env : Env} {writes : SlideUpdate → V} {M : List String} {p : String} {x₀ x x' : LiveEdits V}
  {as : List EditAction} {a : EditAction} {v₀ : V}

structure EditInv (writes : SlideUpdate → V) (M : List String) (p : String) (v₀ : V) (as : List EditAction)
    (x : LiveEdits V) : Prop where
  joined : ∀ s ∈ M, x.server.isJoined s p
  sent : ∀ s, ∀ event ∈ (x.clients s).outbox, s ∈ M ∧ event.presentationId = p
  own : ∀ s event, (x.clients s).outbox.getLast? = some event → (x.clients s).lastOwn = some (writes event)
  fresh : lastHandled as = none → ∀ s ∈ M, (x.clients s).incoming = [] ∧
    ((x.clients s).outbox = [] → (x.clients s).applied = [])
  sender : ∀ t event, lastHandled as = some (t, event) → t ∈ M ∧
    ((x.clients t).outbox = [] → (x.clients t).lastOwn = some (writes event))
  others : ∀ t event, lastHandled as = some (t, event) → ∀ s ∈ M, s ≠ t → (x.clients s).outbox = [] →
    (x.clients s).settled writes v₀ = writes event

theorem EditInv.send (inv : EditInv writes M p v₀ as x) {s : String} {event : SlideUpdate} (hs : s ∈ M)
    (hp : event.presentationId = p) : EditInv writes M p v₀ (as ++ [.send s event])
      (x.withClient s ((x.clients s).send writes event)) := by
  have hbusy : ((x.clients s).send writes event).outbox ≠ [] := by simp [Client.send]
  have hhandled : lastHandled (as ++ [.send s event]) = lastHandled as := lastHandled_snoc _ _
  refine ⟨inv.joined, fun u e he => ?_, fun u e he => ?_, fun hnone u hu => ?_, fun t e ht => ⟨?_, fun hidle => ?_⟩,
    fun t e ht u hu hut hidle => ?_⟩
  · by_cases hus : u = s
    · subst hus
      rw [clients_self] at he
      rcases List.mem_append.mp he with he | he
      · exact inv.sent u e he
      · rw [List.mem_singleton.mp he]
        exact ⟨hs, hp⟩
    · rw [clients_of_ne _ _ hus] at he
      exact inv.sent u e he
  · by_cases hus : u = s
    · subst hus
      rw [clients_self] at he ⊢
      rw [Client.send, List.getLast?_concat] at he
      cases he
      exact lastOwn_send _
    · rw [clients_of_ne _ _ hus] at he ⊢
      exact inv.own u e he
  · rw [hhandled] at hnone
    by_cases hus : u = s
    · subst hus
      rw [clients_self]
      exact ⟨(inv.fresh hnone u hu).1, fun h => absurd h hbusy⟩
    · rw [clients_of_ne _ _ hus]
      exact inv.fresh hnone u hu
  · rw [hhandled] at ht
    exact (inv.sender t e ht).1
  · rw [hhandled] at ht
    by_cases hts : t = s
    · subst hts
      rw [clients_self] at hidle
      exact absurd hidle hbusy
    · rw [clients_of_ne _ _ hts] at hidle ⊢
      exact (inv.sender t e ht).2 hidle
  · rw [hhandled] at ht
    by_cases hus : u = s
    · subst hus
      rw [clients_self] at hidle
      exact absurd hidle hbusy
    · rw [clients_of_ne _ _ hus] at hidle ⊢
      exact inv.others t e ht u hu hut hidle

theorem EditInv.deliver (inv : EditInv writes M p v₀ as x) {s : String}
    {event : SlideUpdate} {rest : List SlideUpdate} (h : (x.clients s).incoming = event :: rest) :
    EditInv writes M p v₀ (as ++ [.deliver s event])
      (x.withClient s ((x.clients s).deliver writes event rest)) := by
  have hhandled : lastHandled (as ++ [.deliver s event]) = lastHandled as := lastHandled_snoc _ _
  have houtbox : ∀ u, ((x.withClient s ((x.clients s).deliver writes event rest)).clients u).outbox =
      (x.clients u).outbox := by
    intro u
    by_cases hus : u = s
    · rw [hus, clients_self]
      rfl
    · rw [clients_of_ne _ _ hus]
  have hown : ∀ u, ((x.withClient s ((x.clients s).deliver writes event rest)).clients u).lastOwn =
      (x.clients u).lastOwn := by
    intro u
    by_cases hus : u = s
    · rw [hus, clients_self, lastOwn_deliver]
    · rw [clients_of_ne _ _ hus]
  refine ⟨inv.joined, fun u e he => ?_, fun u e he => ?_, fun hnone u hu => ?_, fun t e ht => ⟨?_, fun hidle => ?_⟩,
    fun t e ht u hu hut hidle => ?_⟩
  · rw [houtbox] at he
    exact inv.sent u e he
  · rw [houtbox] at he
    rw [hown]
    exact inv.own u e he
  · rw [hhandled] at hnone
    by_cases hus : u = s
    · subst hus
      rw [(inv.fresh hnone u hu).1] at h
      cases h
    · rw [clients_of_ne _ _ hus]
      exact inv.fresh hnone u hu
  · rw [hhandled] at ht
    exact (inv.sender t e ht).1
  · rw [hhandled] at ht
    rw [houtbox] at hidle
    rw [hown]
    exact (inv.sender t e ht).2 hidle
  · rw [hhandled] at ht
    rw [houtbox] at hidle
    have hsettled := inv.others t e ht u hu hut hidle
    by_cases hus : u = s
    · subst hus
      rw [clients_self, settled_deliver h]
      exact hsettled
    · rw [clients_of_ne _ _ hus]
      exact hsettled

theorem EditInv.handle (inv : EditInv writes M p v₀ as x) {s : String}
    {event : SlideUpdate} {rest : List SlideUpdate} (h : (x.clients s).outbox = event :: rest) :
    EditInv writes M p v₀ (as ++ [.handle s event]) (x.handle env s event rest) := by
  obtain ⟨hs, hp⟩ := inv.sent s event (h ▸ List.mem_cons_self)
  obtain ⟨hserver, hself, hothers⟩ := handle_slideUpdate env (inv.joined s hs) hp
  have hhandled : lastHandled (as ++ [.handle s event]) = some (s, event) := lastHandled_snoc _ _
  have houtbox : ∀ u, ((x.handle env s event rest).clients u).outbox = if u =
    s then rest else (x.clients u).outbox :=
    fun _ => rfl
  have hown : ∀ u, ((x.handle env s event rest).clients u).lastOwn = (x.clients u).lastOwn := fun _ => rfl
  refine ⟨fun u hu => ?_, fun u e he => ?_, fun u e he => ?_, fun hnone => ?_, fun t e ht => ?_,
    fun t e ht u hu hut _ => ?_⟩
  · show (x.server.handle env s (.slideUpdate event)).1.isJoined u p
    rw [hserver]
    exact inv.joined u hu
  · rw [houtbox] at he
    split at he
    · rename_i hus
      rw [hus]
      exact inv.sent s e (h ▸ List.mem_cons_of_mem _ he)
    · exact inv.sent u e he
  · rw [houtbox] at he
    rw [hown]
    split at he
    · rename_i hus
      refine inv.own u e ?_
      rw [hus, h, List.getLast?_cons, he]
      rfl
    · exact inv.own u e he
  · rw [hhandled] at hnone
    cases hnone
  · rw [hhandled] at ht
    cases ht
    refine ⟨hs, fun hidle => ?_⟩
    rw [houtbox, if_pos rfl] at hidle
    rw [hown]
    refine inv.own s event ?_
    rw [h, hidle]
    rfl
  · rw [hhandled] at ht
    cases ht
    show Client.settled writes v₀ { x.clients u with incoming := (x.clients u).incoming ++ _, outbox := _ } = _
    rw [Client.settled, hothers u hut (inv.joined u hu), List.getLast?_concat]
    rfl

theorem EditInv.run (start : x₀.Start M p) (run : EditRun env writes M p x₀ as x) : EditInv writes M p v₀ as x := by
  induction run with
  | nil =>
    refine ⟨start.joined, fun s e he => ?_, fun s e he => ?_, fun _ s _ => ?_, fun t e ht => (by cases ht),
      fun t e ht => (by cases ht)⟩
    · rw [start.clients] at he
      cases he
    · rw [start.clients] at he
      cases he
    · rw [start.clients]
      exact ⟨rfl, fun _ => rfl⟩
  | snoc _ step ih =>
    cases step with
    | send hs hp => exact ih.send hs hp
    | handle h => exact ih.handle h
    | deliver h => exact ih.deliver h

end Runs

/-- The client whose own update the server handled last holds it, unless it received another value since. -/
theorem value_of_lastOwn {V : Type} {v : V} (v₀ : V) {client : Client V} (h : client.lastOwn = some v) :
    client.value v₀ = v ↔ ∀ u, client.applied.getLast? = some (.relayed u) → u = v := by
  unfold Client.lastOwn at h
  unfold Client.value
  obtain ⟨applied, outbox, incoming⟩ := client
  rcases List.eq_nil_or_concat applied with rfl | ⟨before, last, rfl⟩
  · cases h
  · cases last with
    | own u =>
      simp at h
      simp [Applied.value, h]
    | relayed u => simp [Applied.value]

/-- When everything is handled and delivered, everyone but the sender of the last event that the server
    handled holds its value. All agree exactly if there is nobody else, or the sender has received no other
    value after it sent the event. -/
theorem live_edits_settle {V : Type} {env : Env} {writes : SlideUpdate → V} {M : List String} {p : String}
    {x₀ x : LiveEdits V} {as : List EditAction} (v₀ : V) (start : x₀.Start M p)
    (run : EditRun env writes M p x₀ as x) (quiet : x.Quiet M) :
    (lastHandled as = none → ∀ s ∈ M, (x.clients s).value v₀ = v₀) ∧
    ∀ t event, lastHandled as = some (t, event) →
      (∀ s ∈ M, s ≠ t → (x.clients s).value v₀ = writes event) ∧
      ((∀ s ∈ M, ∀ s' ∈ M, (x.clients s).value v₀ = (x.clients s').value v₀) ↔
        (∀ s ∈ M, s = t) ∨ ∀ v, (x.clients t).applied.getLast? = some (.relayed v) → v = writes event) := by
  have inv : EditInv writes M p v₀ as x := EditInv.run start run
  refine ⟨fun hnone s hs => ?_, fun t event hlast => ?_⟩
  · rw [Client.value, (inv.fresh hnone s hs).2 (quiet s hs).1]
    rfl
  have hothers : ∀ s ∈ M, s ≠ t → (x.clients s).value v₀ = writes event := by
    intro s hs hst
    have hsettled := inv.others t event hlast s hs hst (quiet s hs).1
    rw [Client.settled, (quiet s hs).2] at hsettled
    exact hsettled
  obtain ⟨ht, hown⟩ := inv.sender t event hlast
  have hsender := value_of_lastOwn v₀ (hown (quiet t ht).1)
  refine ⟨hothers, ?_⟩
  rw [← hsender]
  constructor
  · intro hagree
    by_cases halone : ∀ s ∈ M, s = t
    · exact Or.inl halone
    · push Not at halone
      obtain ⟨s, hs, hst⟩ := halone
      exact Or.inr ((hagree t ht s hs).trans (hothers s hs hst))
  · rintro (halone | hvalue)
    · intro s hs s' hs'
      rw [halone s hs, halone s' hs']
    · have hall : ∀ s ∈ M, (x.clients s).value v₀ = writes event := by
        intro s hs
        by_cases hst : s = t
        · rw [hst, hvalue]
        · exact hothers s hs hst
      intro s hs s' hs'
      rw [hall s hs, hall s' hs']

/-! ### Computed runs -/

section Play
variable {V : Type} (env : Env) (writes : SlideUpdate → V) (M : List String) (p : String)

def LiveEdits.step? (x : LiveEdits V) : EditAction → Option (LiveEdits V)
  | .send s event =>
    if s ∈ M ∧ event.presentationId = p then some (x.withClient s ((x.clients s).send writes event)) else none
  | .handle s event => match (x.clients s).outbox with
    | next :: rest => if next = event then some (x.handle env s event rest) else none
    | [] => none
  | .deliver s event => match (x.clients s).incoming with
    | next :: rest =>
      if next = event then some (x.withClient s ((x.clients s).deliver writes event rest)) else none
    | [] => none

def LiveEdits.play? : LiveEdits V → List EditAction → Option (LiveEdits V)
  | x, [] => some x
  | x, a :: as => (x.step? env writes M p a).bind (play? · as)

variable {env writes M p} {x₀ x x' : LiveEdits V}

theorem LiveEdits.step_of_step? {a : EditAction} (h : x.step? env writes M p a = some x') :
    EditStep env writes M p x a x' := by
  cases a with
  | send s event =>
    rw [step?] at h
    split at h
    · rename_i hmember
      cases h
      exact .send x hmember.1 hmember.2
    · cases h
  | handle s event =>
    rw [step?] at h
    split at h
    · rename_i next rest hout
      split at h
      · rename_i hnext
        cases h
        exact .handle (hnext ▸ hout)
      · cases h
    · cases h
  | deliver s event =>
    rw [step?] at h
    split at h
    · rename_i next rest hin
      split at h
      · rename_i hnext
        cases h
        exact .deliver (hnext ▸ hin)
      · cases h
    · cases h

theorem LiveEdits.play?_run : ∀ {as before : List EditAction} {x : LiveEdits V},
    EditRun env writes M p x₀ before x →
    x.play? env writes M p as = some x' → EditRun env writes M p x₀ (before ++ as) x' := by
  intro as
  induction as with
  | nil =>
    intro before x run h
    cases h
    rw [List.append_nil]
    exact run
  | cons a as ih =>
    intro before x run h
    obtain ⟨y, hy, hrest⟩ := Option.bind_eq_some_iff.mp h
    have hrun := ih (.snoc run (step_of_step? hy)) hrest
    rw [List.append_assoc] at hrun
    exact hrun

end Play

/-- `alice` and `bob` open the deck. -/
def editorsJoin : List (String × SocketEvent) :=
  [("s1", .connect (some "alice")), ("s2", .connect (some "bob")),
    ("s1", .joinRoom "deck"), ("s2", .joinRoom "deck")]

def editors : LiveEdits Val := ⟨(Collab.play office .empty [] editorsJoin).1, fun _ => {}⟩

def retitle (text : String) : SlideUpdate := ⟨"deck", "slide-text", some (.str text)⟩

theorem editors_start : editors.Start ["s1", "s2"] "deck" := by
  have hjoined : (["s1", "s2"].all fun s => (editors.server.peers.get? s).any (·.joined.contains "deck")) = true := by
    decide +kernel
  refine ⟨fun s hs => ?_, fun _ => rfl⟩
  have hs := List.all_eq_true.mp hjoined s hs
  obtain ⟨peer, hpeer, hdeck⟩ := (Option.any_eq_true _ _).mp hs
  exact ⟨peer, hpeer, List.contains_iff_mem.mp hdeck⟩

/-- `alice` edits, and `bob` receives the edit. -/
def edit : List EditAction :=
  [.send "s1" (retitle "Q1"), .handle "s1" (retitle "Q1"), .deliver "s2" (retitle "Q1")]

/-- `alice` and `bob` edit at the same time. -/
def crossingEdits : List EditAction :=
  [.send "s1" (retitle "Q1"), .send "s2" (retitle "Q2"), .handle "s1" (retitle "Q1"), .handle "s2" (retitle "Q2"),
    .deliver "s1" (retitle "Q2"), .deliver "s2" (retitle "Q1")]

/-- What `alice` and `bob` hold, and whether their queues are empty. -/
def LiveEdits.held (x : LiveEdits Val) : Val × Val × Bool :=
  ((x.clients "s1").value none, (x.clients "s2").value none,
    ["s1", "s2"].all fun s => (x.clients s).outbox.isEmpty && (x.clients s).incoming.isEmpty)

theorem LiveEdits.quiet_of_held {x : LiveEdits Val} {v v' : Val} (h : x.held = (v, v', true)) :
    (x.clients "s1").value none = v ∧ (x.clients "s2").value none = v' ∧ x.Quiet ["s1", "s2"] := by
  simp only [held, Prod.mk.injEq, List.all_eq_true, Bool.and_eq_true, List.isEmpty_iff] at h
  exact h

theorem edit_reaches_everyone : ∃ x, EditRun office (·.payload) ["s1", "s2"] "deck" editors edit x ∧
    x.Quiet ["s1", "s2"] ∧ (x.clients "s1").value none = (x.clients "s2").value none := by
  have hplay : (editors.play? office (·.payload) ["s1", "s2"] "deck" edit).map LiveEdits.held =
      some (some (.str "Q1"), some (.str "Q1"), true) := by decide +kernel
  obtain ⟨x, hx, hheld⟩ := Option.map_eq_some_iff.mp hplay
  obtain ⟨-, -, hquiet⟩ := LiveEdits.quiet_of_held hheld
  have run := LiveEdits.play?_run .nil hx
  have hsettled := (live_edits_settle none editors_start run hquiet).2 "s1" (retitle "Q1") rfl
  have happlied : ((editors.play? office (·.payload) ["s1", "s2"] "deck" edit).bind
      fun x => (x.clients "s1").applied.getLast?) = some (.own (some (.str "Q1"))) := by decide +kernel
  refine ⟨x, run, hquiet, hsettled.2.mpr (Or.inr fun v hv => ?_) "s1" (by decide) "s2" (by decide)⟩
  rw [hx, Option.bind_some, hv] at happlied
  cases happlied

/-- Both updates are handled and delivered, and the clients hold each other's value. -/
theorem crossing_edits_diverge :
    ∃ sent as x, CollabRun office (fun _ => True) editorsJoin editors.server sent ∧
    editors.Start ["s1", "s2"] "deck" ∧
      EditRun office (·.payload) ["s1", "s2"] "deck" editors as x ∧ x.Quiet ["s1", "s2"] ∧
      (x.clients "s1").value none ≠ (x.clients "s2").value none := by
  have hjoin : Collab.playable office (fun _ => true) [] .empty editorsJoin = true := by decide +kernel
  have hplay : (editors.play? office (·.payload) ["s1", "s2"] "deck" crossingEdits).map LiveEdits.held =
      some (some (.str "Q2"), some (.str "Q1"), true) := by decide +kernel
  obtain ⟨x, hx, hheld⟩ := Option.map_eq_some_iff.mp hplay
  obtain ⟨halice, hbob, hquiet⟩ := LiveEdits.quiet_of_held hheld
  refine ⟨_, crossingEdits, x, (Collab.play_run .start hjoin).mono fun _ _ => trivial, editors_start,
    LiveEdits.play?_run .nil hx, hquiet, ?_⟩
  rw [halice, hbob]
  decide

end Slideo
