import LightSocks.Lib.Transition
import LightSocks.Server.Callbacks

/-!
# The server's event loop

A session is driven by the event loop: the network and the clock act on its
sockets, deferred callbacks run, the resolver answers.  `fire` says what one such
event does to the session, when it is possible at all; `Step` keeps the events
whose callback returns and `Faults` those whose callback does not.

`ServerStep` puts independent sessions side by side, one for each accepted client.  It is an
abstraction: the clients of a server share its heap, its resolver and its allocator as well.
`World` is the server with these, and `sideBySide_of_apart` says when it refines `ServerStep`.
-/

namespace LightSocks

open Transition

/-- What the event loop does next to a session. -/
inductive Event where
  /-- Something happens to the socket of `p`. -/
  | socket (p : BevPtr) (e : SocketEvent)
  /-- The deferred read callback of `p` runs. -/
  | readCb (p : BevPtr) (choice : Choice)
  /-- The deferred event callback of `p` runs. -/
  | eventCb (p : BevPtr)
  /-- The resolver completes an outstanding request. -/
  | dnsDone (nodename : List UInt8) (result : DnsResult) (re : ℤ)

/-- What `bufferevent_socket_connect` returns while the event is handled. -/
def Event.connectResult : Event → ℤ
  | .readCb _ choice => choice.re
  | .dnsDone _ _ re => re
  | _ => 0

namespace Session

/-- Change the record of the bufferevent `p`. -/
def setBev (s : Session) (p : BevPtr) (b : Bufferevent Callbacks) : Session :=
  { s with bevs := s.bevs.set p b }

/-- Call the registered read callback. -/
def callRead (password : Table) (p : BevPtr) (c : Callbacks) (choice : Choice) (s : Session) :
    Except Fault Session :=
  match c.readcb with
  | none => .ok s
  | some .localReadCb => Server.localReadCb password p c.cbarg s
  | some .handleSecond => Socks5.handleSecond password p c.cbarg choice s
  | some .handleLast => Socks5.handleLast password c.cbarg s
  | some .remoteReadCb => Server.remoteReadCb password c.cbarg s

/-- Call the registered event callback. -/
def callEvent (password : Table) (p : BevPtr) (c : Callbacks) (what : What) (s : Session) :
    Except Fault Session :=
  match c.eventcb with
  | none => .ok s
  | some .localEventCb => Server.localEventCb what c.cbarg s
  | some .remoteEventCb => Server.remoteEventCb password p what c.cbarg s

/-- What an event does, or `none` when it cannot happen now. -/
def fire (password : Table) (s : Session) : Event → Option (Except Fault Session)
  | .socket p e =>
      match s.bevs[p]? with
      | none => none
      | some b => if b.Admits e then some (.ok (s.setBev p (b.socket e))) else none
  | .readCb p choice =>
      match s.bevs[p]? with
      | none => none
      | some b =>
          if b.readDue then some (callRead password p b.callbacks choice (s.setBev p b.takeRead))
          else none
  | .eventCb p =>
      match s.bevs[p]? with
      | none => none
      | some b =>
          match b.nextEvent with
          | none => none
          | some w => some (callEvent password p b.callbacks w (s.setBev p (b.takeEvent w)))
  | .dnsDone nodename result re =>
      if nodename ∈ s.dns then
        some (Server.resolve re result { s with dns := s.dns.erase nodename })
      else none

end Session

/-- The event happens and its callback returns. -/
def Step (P : Key) (s : Session) (e : Event) (t : Session) : Prop :=
  s.fire P.table e = some (.ok t)

/-- The event happens and its callback does not return. -/
def Faults (P : Key) (s : Session) (e : Event) (f : Fault) : Prop :=
  s.fire P.table e = some (.error f)

theorem step_deterministic (P : Key) (s : Session) (e : Event) (t u : Session)
    (h₁ : Step P s e t) (h₂ : Step P s e u) : t = u := by
  have h := h₁.symm.trans h₂
  simpa using h

section Steps

variable {P : Key} {s t : Session} {p : BevPtr} {b : Bufferevent Callbacks}

theorem Step.socket (hp : s.bevs[p]? = some b) {e : SocketEvent} (he : b.Admits e) :
    Step P s (.socket p e) (s.setBev p (b.socket e)) := by
  simp [Step, Session.fire, hp, he]

theorem Step.readCb (hp : s.bevs[p]? = some b) (hdue : b.readDue = true) {choice : Choice}
    (h : Session.callRead P.table p b.callbacks choice (s.setBev p b.takeRead) = .ok t) :
    Step P s (.readCb p choice) t := by
  simp [Step, Session.fire, hp, hdue, h]

theorem Faults.readCb (hp : s.bevs[p]? = some b) (hdue : b.readDue = true) {choice : Choice}
    {f : Fault}
    (h : Session.callRead P.table p b.callbacks choice (s.setBev p b.takeRead) = .error f) :
    Faults P s (.readCb p choice) f := by
  simp [Faults, Session.fire, hp, hdue, h]

theorem Step.eventCb (hp : s.bevs[p]? = some b) {w : What} (hw : b.nextEvent = some w)
    (h : Session.callEvent P.table p b.callbacks w (s.setBev p (b.takeEvent w)) = .ok t) :
    Step P s (.eventCb p) t := by
  simp [Step, Session.fire, hp, hw, h]

theorem Faults.eventCb (hp : s.bevs[p]? = some b) {w : What} (hw : b.nextEvent = some w)
    {f : Fault}
    (h : Session.callEvent P.table p b.callbacks w (s.setBev p (b.takeEvent w)) = .error f) :
    Faults P s (.eventCb p) f := by
  simp [Faults, Session.fire, hp, hw, h]

end Steps

/-- The session `listen_cb` sets up. -/
def Session.accepted : Session where
  context := some { self := some 0, partner := none, requestPort := 0, requestIp := [] }
  bevs := [{
    live := true
    callbacks := ⟨some .localReadCb, some .localEventCb, some .socks5Ctx⟩
    link := .up, readEnabled := true, writeEnabled := true, readTimeout := 0
    input := .empty, output := .empty, readPending := false, eventPending := {}, reported := {} }]
  dns := []
  addrinfos := 0
  queries := []
  connects := []
  replies := []

theorem listenCb_eq : Server.listenCb = .ok Session.accepted := rfl

/-- A state some run of a session reaches. -/
def Reachable (P : Key) (s : Session) : Prop := ∃ es, Run (Step P) Session.accepted es s

theorem Reachable.accepted (P : Key) : Reachable P Session.accepted := ⟨[], .nil _⟩

theorem Reachable.run {P : Key} {s t : Session} {es : List Event} (h : Reachable P s)
    (hr : Run (Step P) s es t) : Reachable P t := by
  obtain ⟨es₀, h₀⟩ := h
  exact ⟨es₀ ++ es, h₀.append hr⟩

/-! ## Sessions side by side -/

/-- The session of each client, in the order they are accepted, as if it were alone. -/
abbrev ServerState := ℕ → Session

/-- One of the sessions takes a step, of which the others see nothing: what the server comes to
as long as no callback finds another session's context at its address. -/
def ServerStep (P : Key) : ServerState → ℕ × Event → ServerState → Prop := Interleaved (Step P)

/-- No client has sent anything yet. -/
def ServerState.start : ServerState := fun _ => Session.accepted

/-- What happened to the session `i`. -/
def eventsOf (i : ℕ) (es : List (ℕ × Event)) : List Event :=
  es.filterMap fun ie => if ie.1 = i then some ie.2 else none

@[simp] theorem eventsOf_self (i : ℕ) (es : List Event) :
    eventsOf i (es.map fun e => (i, e)) = es := by
  simp [eventsOf, List.filterMap_map]

/-- **Each session runs by itself.** -/
theorem session_run {P : Key} {es : List (ℕ × Event)} {σ : ServerState}
    (h : Run (ServerStep P) .start es σ) (i : ℕ) :
    Run (Step P) Session.accepted (eventsOf i es) (σ i) := h.project i

end LightSocks
