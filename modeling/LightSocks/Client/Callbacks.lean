import LightSocks.Client.ReadCallbacks
import LightSocks.Lib.Transition

/-!
# The client's callbacks

The client joins two bufferevents for every connection it accepts: the local
application's and one to the server.  There is no context: each of the two is the
callback argument of the other.  This file follows `client.cpp` function by
function, and `fire` says what an event does.

The bufferevents of the client are not deferred.  An event callback and a write
callback run within the event that causes them.  A read callback is an event of
its own, so that bytes can be waiting in an input buffer when something else
happens.
-/

namespace LightSocks

open Cipher Transition

namespace Client

/-- The read callbacks the client registers. -/
inductive ReadCb where
  | localReadCb
  | remoteReadCb
  deriving DecidableEq, Repr

/-- The write callback the client registers. -/
inductive WriteCb where
  | closeOnFinishedWriteCb
  deriving DecidableEq, Repr

/-- The event callbacks the client registers. -/
inductive EventCb where
  | localEventCb
  | remoteEventCb
  deriving DecidableEq, Repr

/-- What `bufferevent_setcb` registers. -/
structure Callbacks where
  readcb : Option ReadCb
  writecb : Option WriteCb
  eventcb : Option EventCb
  cbarg : Option BevPtr
  deriving DecidableEq, Repr

/-- The bufferevents of all connections, in the order they were created. -/
abbrev State := Heap Callbacks

/-! ## `client.cpp` -/

/-- `bufferevent_free(bev); bufferevent_free(partner);` -/
def freeBoth (bev : BevPtr) (partner : Option BevPtr) (h : State) : Except Fault State := do
  let h ← h.free bev
  let partner ← nonnull partner
  h.free partner

/-- `client::local_event_cb`. -/
def localEventCb (password : Table) (bev : BevPtr) (what : What) (ctx : Option BevPtr) (h : State) :
    Except Fault State :=
  if what.eof ∨ what.error then do
    let h ← match ctx with
      | some partner => do
          let h ← localReadCb password bev (some partner) h
          let len ← h.outputLength partner
          if len ≠ 0 then
            let h ← h.setcb partner
              ⟨none, some .closeOnFinishedWriteCb, some .remoteEventCb, none⟩
            h.disableRead partner
          else h.free partner
      | none => .ok h
    h.free bev
  else if what.timeout ∨ what.reading then freeBoth bev ctx h
  else if what.reading then freeBoth bev ctx h
  else freeBoth bev ctx h

/-- `client::remote_event_cb`. -/
def remoteEventCb (password : Table) (bev : BevPtr) (what : What) (ctx : Option BevPtr)
    (h : State) : Except Fault State :=
  if what.connected then .ok h
  else if what.eof ∨ what.error then do
    let h ← match ctx with
      | some partner => do
          let _ ← h.outputLength partner
          let h ← remoteReadCb password bev (some partner) h
          let len ← h.outputLength partner
          if len ≠ 0 then
            let h ← h.setcb partner
              ⟨none, some .closeOnFinishedWriteCb, some .localEventCb, none⟩
            h.disableRead partner
          else h.free partner
      | none => .ok h
    h.free bev
  else if what.timeout ∧ what.reading then freeBoth bev ctx h
  else .ok h

/-- `client::close_on_finished_write_cb`. -/
def closeOnFinishedWriteCb (bev : BevPtr) (h : State) : Except Fault State := do
  let len ← h.outputLength bev
  if len = 0 then h.free bev else return h

/-- `client::listen_cb`, where `bufferevent_socket_connect` returns `re`. -/
def listenCb (re : ℤ) (h : State) : Except Fault State := do
  let (bufevLocal, h) := h.socketNew ⟨none, none, none, none⟩ .up
  let h ← h.setTimeouts bufevLocal 0
  let (bufevRemote, h) := h.socketNew ⟨none, none, none, none⟩ .down
  let h ← h.setTimeouts bufevRemote 15
  let h ← h.socketConnect bufevRemote re
  let h ← h.setcb bufevLocal ⟨some .localReadCb, none, some .localEventCb, some bufevRemote⟩
  let h ← h.setcb bufevRemote ⟨some .remoteReadCb, none, some .remoteEventCb, some bufevLocal⟩
  let h ← h.enable bufevLocal
  h.enable bufevRemote

/-! ## The event loop -/

/-- What the event loop does next to the client. -/
inductive Event where
  /-- A connection is accepted; `bufferevent_socket_connect` returns `re`. -/
  | accept (re : ℤ)
  /-- Something happens to the socket of `p`. -/
  | socket (p : BevPtr) (e : SocketEvent)
  /-- The read callback of `p` runs. -/
  | readCb (p : BevPtr)

/-- Call the registered read callback. -/
def callRead (password : Table) (p : BevPtr) (c : Callbacks) (h : State) : Except Fault State :=
  match c.readcb with
  | none => .ok h
  | some .localReadCb => localReadCb password p c.cbarg h
  | some .remoteReadCb => remoteReadCb password p c.cbarg h

/-- Call the registered write callback. -/
def callWrite (p : BevPtr) (c : Callbacks) (h : State) : Except Fault State :=
  match c.writecb with
  | none => .ok h
  | some .closeOnFinishedWriteCb => closeOnFinishedWriteCb p h

/-- Call the registered event callback. -/
def callEvent (password : Table) (p : BevPtr) (c : Callbacks) (what : What) (h : State) :
    Except Fault State :=
  match c.eventcb with
  | none => .ok h
  | some .localEventCb => localEventCb password p what c.cbarg h
  | some .remoteEventCb => remoteEventCb password p what c.cbarg h

/-- What follows a socket event of `p` that has left the bufferevent `b` behind: the
write callback once the output buffer is empty, or the event callback. -/
def notify (password : Table) (p : BevPtr) (e : SocketEvent) (b : Bufferevent Callbacks)
    (h : State) : Except Fault State :=
  match e with
  | .recv _ => .ok (h.set p b)
  | .flush _ =>
      if b.output.pending = [] then callWrite p b.callbacks (h.set p b) else .ok (h.set p b)
  | _ => callEvent password p b.callbacks b.eventPending (h.set p (b.takeEvent b.eventPending))

/-- What an event does, or `none` when it cannot happen now. -/
def fire (password : Table) (h : State) : Event → Option (Except Fault State)
  | .accept re => some (listenCb re h)
  | .socket p e =>
      match h[p]? with
      | none => none
      | some b => if b.Admits e then some (notify password p e (b.socket e) h) else none
  | .readCb p =>
      match h[p]? with
      | none => none
      | some b =>
          if b.readDue then some (callRead password p b.callbacks (h.set p b.takeRead)) else none

/-- The event happens and its callback returns. -/
def Step (password : Table) (h : State) (e : Event) (h' : State) : Prop :=
  fire password h e = some (.ok h')

/-- The event happens and its callback does not return. -/
def Faults (password : Table) (h : State) (e : Event) (f : Fault) : Prop :=
  fire password h e = some (.error f)

theorem Step.of_notify {password : Table} {h h' : State} {p : BevPtr} {e : SocketEvent}
    {b : Bufferevent Callbacks} (hb : h[p]? = some b) (he : b.Admits e)
    (hn : notify password p e (b.socket e) h = .ok h') : Step password h (.socket p e) h' := by
  unfold Step fire
  simp only [hb, if_pos he, hn]

theorem Step.of_callRead {password : Table} {h h' : State} {p : BevPtr}
    {b : Bufferevent Callbacks} (hb : h[p]? = some b) (hdue : b.readDue = true)
    (hr : callRead password p b.callbacks (h.set p b.takeRead) = .ok h') :
    Step password h (.readCb p) h' := by
  unfold Step fire
  simp only [hb, if_pos hdue, hr]

/-- What a socket event has done. -/
theorem Step.notify_eq {password : Table} {h h' : State} {p : BevPtr} {e : SocketEvent}
    {b : Bufferevent Callbacks} (hs : Step password h (.socket p e) h') (hb : h[p]? = some b) :
    notify password p e (b.socket e) h = .ok h' := by
  unfold Step fire at hs
  simp only [hb] at hs
  split at hs
  · exact Option.some.inj hs
  · cases hs

theorem step_deterministic (password : Table) (h : State) (e : Event) (h₁ h₂ : State)
    (hs₁ : Step password h e h₁) (hs₂ : Step password h e h₂) : h₁ = h₂ := by
  have heq := hs₁.symm.trans hs₂
  simpa using heq

/-- What the connect attempts of a run have returned, in the order of the
connections. -/
def connectResults (es : List Event) : List ℤ :=
  es.filterMap fun e => match e with
    | .accept re => some re
    | _ => none

end Client

end LightSocks
