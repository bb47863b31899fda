import LightSocks.Lib.Fifo

/-!
# Buffered sockets: what the proxy relies on from libevent

The proxy never touches a socket itself.  It owns `bufferevent`s — an input and
an output buffer, a set of callbacks with their argument, two enabled flags and
a read timeout — and the event loop calls it back.  This file models that
library at the level of its documentation, for an arbitrary type `κ` of callback
registrations.

* `Bufferevent` — one buffered socket.  Its two buffers are queues that remember
  what went through them, so what was received and what was really sent can be
  spoken of after the fact.
* `Heap` — the bufferevents allocated so far, addressed by `BevPtr`; a freed one
  stays in its place, dead, and touching it again is a `Fault`.
* `SocketEvent`, `Bufferevent.socket` — what the network and the clock can do to
  a socket, and when.
* `Bufferevent.readDue`, `Bufferevent.nextEvent` — the deferred callbacks: a
  pending `CONNECTED` runs first and alone, then the read callback, then the
  remaining event bits in one call.
-/

namespace LightSocks

/-- The ways in which a callback can end other than by returning. -/
inductive Fault where
  /-- A null pointer was dereferenced. -/
  | nullDeref
  /-- Memory was touched after it had been released. -/
  | useAfterFree
  /-- An array was accessed outside its bounds. -/
  | outOfBounds
  /-- The program called `exit`. -/
  | exited
  deriving DecidableEq, Repr

/-- Follow a pointer that may be null. -/
def nonnull {α : Type*} : Option α → Except Fault α
  | some a => .ok a
  | none => .error .nullDeref

@[simp] theorem nonnull_some {α : Type*} (a : α) : nonnull (some a) = .ok a := rfl

@[simp] theorem nonnull_none {α : Type*} : nonnull (none : Option α) = .error .nullDeref := rfl

@[simp] theorem pure_eq_ok {α : Type} (a : α) : (pure a : Except Fault α) = .ok a := rfl

@[simp] theorem ok_bind {α β : Type} (a : α) (f : α → Except Fault β) :
    (Except.ok a >>= f) = f a := rfl

@[simp] theorem error_bind {α β : Type} (e : Fault) (f : α → Except Fault β) :
    ((Except.error e : Except Fault α) >>= f) = .error e := rfl

/-- What comes out of a sequence came out of its first part. -/
theorem bind_eq_ok {α β : Type} {x : Except Fault α} {f : α → Except Fault β} {r : β} :
    (x >>= f) = .ok r ↔ ∃ a, x = .ok a ∧ f a = .ok r := by
  cases x with
  | error e => simp
  | ok a => simp

theorem nonnull_ok {α : Type*} {o : Option α} {a : α} (h : nonnull o = .ok a) : o = some a := by
  cases o with
  | none => cases h
  | some b => rw [Except.ok.inj h]

/-! ## Event bits -/

/-- The `short what` of an event callback, one field per `BEV_EVENT_` flag. -/
structure What where
  reading : Bool := false
  writing : Bool := false
  eof : Bool := false
  error : Bool := false
  timeout : Bool := false
  connected : Bool := false
  deriving DecidableEq, Repr

namespace What

/-- Bitwise or. -/
def merge (a b : What) : What where
  reading := a.reading || b.reading
  writing := a.writing || b.writing
  eof := a.eof || b.eof
  error := a.error || b.error
  timeout := a.timeout || b.timeout
  connected := a.connected || b.connected

/-- Some bit other than the direction is set: there is something to report. -/
def any (w : What) : Bool := w.eof || w.error || w.timeout || w.connected

end What

/-! ## One buffered socket -/

/-- What stands behind a bufferevent: nothing yet (or no longer), a connect in
progress, or an established connection. -/
inductive Link where
  | down
  | connecting
  | up
  deriving DecidableEq, Repr

/-- A socket bufferevent, with what it still has to report. -/
structure Bufferevent (κ : Type) where
  /-- Not yet passed to `bufferevent_free`. -/
  live : Bool
  /-- The registered callbacks and their argument. -/
  callbacks : κ
  link : Link
  /-- `EV_READ` is enabled. -/
  readEnabled : Bool
  /-- `EV_WRITE` is enabled. -/
  writeEnabled : Bool
  /-- The read timeout in seconds, `0` for none. -/
  readTimeout : ℕ
  /-- What the socket delivered: the pending part is the input evbuffer. -/
  input : Fifo UInt8
  /-- What was written: the pending part is the output evbuffer, the past part
  has been handed to the socket. -/
  output : Fifo UInt8
  /-- A deferred read callback is scheduled. -/
  readPending : Bool
  /-- The event bits scheduled for a deferred event callback. -/
  eventPending : What
  /-- The event bits an event callback has been called with so far. -/
  reported : What
  deriving DecidableEq, Repr

/-- What the network and the clock can do to a socket. -/
inductive SocketEvent where
  /-- Bytes arrive. -/
  | recv (data : List UInt8)
  /-- The peer closes its direction. -/
  | eof
  | readError
  | writeError
  /-- The pending connect succeeds. -/
  | connected
  /-- The pending connect fails. -/
  | connectError
  /-- The read timeout elapses. -/
  | timeout
  /-- The socket takes the next `n` bytes of the output buffer. -/
  | flush (n : ℕ)
  deriving DecidableEq, Repr

namespace Bufferevent

variable {κ : Type}

/-- Take at most `n` bytes out of the input buffer. -/
def consume (b : Bufferevent κ) (n : ℕ) : Bufferevent κ := { b with input := b.input.pop n }

/-- Take everything out of the input buffer. -/
def drained (b : Bufferevent κ) : Bufferevent κ := { b with input := b.input.drain }

/-- Append to the output buffer. -/
def queue (b : Bufferevent κ) (data : List UInt8) : Bufferevent κ :=
  { b with output := b.output.push data }

/-- Register other callbacks. -/
def register (b : Bufferevent κ) (c : κ) : Bufferevent κ := { b with callbacks := c }

/-- No callback runs any more, and what is left in the buffers goes nowhere. -/
def release (b : Bufferevent κ) : Bufferevent κ := { b with live := false }

/-- Schedule an event callback. -/
def raise (b : Bufferevent κ) (w : What) : Bufferevent κ :=
  { b with eventPending := b.eventPending.merge w }

/-- When a socket event is possible. -/
def Admits (b : Bufferevent κ) : SocketEvent → Prop
  | .recv data => b.live = true ∧ b.link = .up ∧ b.readEnabled = true ∧ data ≠ []
  | .eof | .readError => b.live = true ∧ b.link = .up ∧ b.readEnabled = true
  | .writeError =>
      b.live = true ∧ b.link = .up ∧ b.writeEnabled = true ∧ b.output.pending ≠ []
  | .connected | .connectError => b.live = true ∧ b.link = .connecting
  | .timeout => b.live = true ∧ b.readEnabled = true ∧ 0 < b.readTimeout
  | .flush n =>
      b.live = true ∧ b.link = .up ∧ b.writeEnabled = true ∧ 0 < n ∧
        n ≤ b.output.pending.length

instance (b : Bufferevent κ) (e : SocketEvent) : Decidable (b.Admits e) := by
  cases e <;> exact inferInstanceAs (Decidable (_ ∧ _))

/-- What a socket event does.  A failure or a timeout disables the direction it
concerns. -/
def socket (b : Bufferevent κ) : SocketEvent → Bufferevent κ
  | .recv data => { b with input := b.input.push data, readPending := true }
  | .eof => { b.raise { reading := true, eof := true } with readEnabled := false }
  | .readError => { b.raise { reading := true, error := true } with readEnabled := false }
  | .writeError => { b.raise { writing := true, error := true } with writeEnabled := false }
  | .connected => { b.raise { connected := true } with link := .up }
  | .connectError =>
      { b.raise { error := true } with link := .down, readEnabled := false }
  | .timeout => { b.raise { reading := true, timeout := true } with readEnabled := false }
  | .flush n => { b with output := b.output.pop n }

/-- A deferred read callback is due.  A pending `CONNECTED` goes first. -/
def readDue (b : Bufferevent κ) : Bool :=
  b.live && b.readPending && !b.eventPending.connected

/-- The bits the next event callback gets: `CONNECTED` alone and before anything
else; the others together, once no read callback is due. -/
def nextEvent (b : Bufferevent κ) : Option What :=
  if b.live && b.eventPending.connected then some { connected := true }
  else if b.live && b.eventPending.any && !b.readPending then some b.eventPending
  else none

/-- The read callback is about to run. -/
def takeRead (b : Bufferevent κ) : Bufferevent κ := { b with readPending := false }

/-- The event callback is about to run with the bits `w`. -/
def takeEvent (b : Bufferevent κ) (w : What) : Bufferevent κ :=
  { b with
    eventPending := if w.connected then { b.eventPending with connected := false } else {}
    reported := b.reported.merge w }

@[simp] theorem live_consume (b : Bufferevent κ) (n : ℕ) : (b.consume n).live = b.live := rfl

@[simp] theorem live_drained (b : Bufferevent κ) : b.drained.live = b.live := rfl

@[simp] theorem live_queue (b : Bufferevent κ) (data : List UInt8) :
    (b.queue data).live = b.live := rfl

@[simp] theorem live_register (b : Bufferevent κ) (c : κ) : (b.register c).live = b.live := rfl

@[simp] theorem live_release (b : Bufferevent κ) : b.release.live = false := rfl

@[simp] theorem live_takeRead (b : Bufferevent κ) : b.takeRead.live = b.live := rfl

@[simp] theorem live_takeEvent (b : Bufferevent κ) (w : What) :
    (b.takeEvent w).live = b.live := rfl

@[simp] theorem queue_nil (b : Bufferevent κ) : b.queue [] = b := by
  simp [queue]

theorem queue_queue (b : Bufferevent κ) (xs ys : List UInt8) :
    (b.queue xs).queue ys = b.queue (xs ++ ys) := by
  simp [queue, Fifo.push_push]

theorem consume_eq_drained {b : Bufferevent κ} {n : ℕ} (h : b.input.pending.length ≤ n) :
    b.consume n = b.drained := by
  simp [consume, drained, Fifo.pop_eq_drain h]

theorem drained_eq_self {b : Bufferevent κ} (h : b.input.pending = []) : b.drained = b := by
  rw [drained, Fifo.drain_eq_self h]

@[simp] theorem drained_consume (b : Bufferevent κ) (n : ℕ) :
    (b.consume n).drained = b.drained := by
  simp [consume, drained, Fifo.drain]

end Bufferevent

/-! ## The allocated bufferevents -/

/-- The address of a bufferevent: its place in the order of allocation. -/
abbrev BevPtr := ℕ

/-- Every bufferevent allocated so far. -/
abbrev Heap (κ : Type) := List (Bufferevent κ)

namespace Heap

variable {κ : Type}

/-- Follow a pointer to a bufferevent. -/
def deref (h : Heap κ) (p : BevPtr) : Except Fault (Bufferevent κ) :=
  match h[p]? with
  | some b => if b.live then .ok b else .error .useAfterFree
  | none => .error .useAfterFree

/-- Change a bufferevent in place. -/
def update (h : Heap κ) (p : BevPtr) (f : Bufferevent κ → Bufferevent κ) :
    Except Fault (Heap κ) := do
  let b ← h.deref p
  return h.set p (f b)

/-- `bufferevent_socket_new`, over a connected socket or (`fd = -1`) over none. -/
def socketNew (h : Heap κ) (none : κ) (link : Link) : BevPtr × Heap κ :=
  (h.length, h ++ [{
    live := true, callbacks := none, link, readEnabled := false, writeEnabled := true
    readTimeout := 0, input := .empty, output := .empty, readPending := false
    eventPending := {}, reported := {} }])

/-- `bufferevent_read`: at most `n` bytes from the head of the input buffer. -/
def read (h : Heap κ) (p : BevPtr) (n : ℕ) : Except Fault (List UInt8 × Heap κ) := do
  let b ← h.deref p
  return (b.input.pending.take n, h.set p (b.consume n))

/-- `bufferevent_write`. -/
def write (h : Heap κ) (p : BevPtr) (data : List UInt8) : Except Fault (Heap κ) :=
  h.update p fun b => b.queue data

/-- `evbuffer_get_length(bufferevent_get_input(p))`. -/
def inputLength (h : Heap κ) (p : BevPtr) : Except Fault ℕ := do
  let b ← h.deref p
  return b.input.pending.length

/-- `evbuffer_get_length(bufferevent_get_output(p))`. -/
def outputLength (h : Heap κ) (p : BevPtr) : Except Fault ℕ := do
  let b ← h.deref p
  return b.output.pending.length

/-- `evbuffer_drain(bufferevent_get_input(p), n)`. -/
def drainInput (h : Heap κ) (p : BevPtr) (n : ℕ) : Except Fault (Heap κ) :=
  h.update p fun b => b.consume n

/-- `bufferevent_setcb`. -/
def setcb (h : Heap κ) (p : BevPtr) (c : κ) : Except Fault (Heap κ) :=
  h.update p fun b => b.register c

/-- `bufferevent_enable(p, EV_READ | EV_WRITE)`. -/
def enable (h : Heap κ) (p : BevPtr) : Except Fault (Heap κ) :=
  h.update p fun b => { b with readEnabled := true, writeEnabled := true }

/-- `bufferevent_disable(p, EV_READ)`. -/
def disableRead (h : Heap κ) (p : BevPtr) : Except Fault (Heap κ) :=
  h.update p fun b => { b with readEnabled := false }

/-- `bufferevent_set_timeouts(p, &{seconds, 0}, nullptr)`. -/
def setTimeouts (h : Heap κ) (p : BevPtr) (seconds : ℕ) : Except Fault (Heap κ) :=
  h.update p fun b => { b with readTimeout := seconds }

/-- `bufferevent_socket_connect`, returning `re`: `0` when the attempt has
started, anything else when it failed at once. -/
def socketConnect (h : Heap κ) (p : BevPtr) (re : ℤ) : Except Fault (Heap κ) :=
  h.update p fun b => if re = 0 then { b with link := .connecting } else b

/-- `bufferevent_free`. -/
def free (h : Heap κ) (p : BevPtr) : Except Fault (Heap κ) := h.update p Bufferevent.release

theorem set_self {h : Heap κ} {p : BevPtr} {b : Bufferevent κ} (hp : h[p]? = some b) :
    h.set p b = h := by
  obtain ⟨hlt, rfl⟩ := List.getElem?_eq_some_iff.1 hp
  exact List.set_getElem_self hlt

theorem deref_eq_ok {h : Heap κ} {p : BevPtr} {b : Bufferevent κ} (hp : h[p]? = some b)
    (hl : b.live = true) : h.deref p = .ok b := by
  simp [deref, hp, hl]

theorem update_eq_ok {h : Heap κ} {p : BevPtr} {b : Bufferevent κ} (hp : h[p]? = some b)
    (hl : b.live = true) (f : Bufferevent κ → Bufferevent κ) :
    h.update p f = .ok (h.set p (f b)) := by
  simp [update, deref_eq_ok hp hl]

theorem read_eq_ok {h : Heap κ} {p : BevPtr} {b : Bufferevent κ} (hp : h[p]? = some b)
    (hl : b.live = true) (n : ℕ) :
    h.read p n = .ok (b.input.pending.take n, h.set p (b.consume n)) := by
  simp [read, deref_eq_ok hp hl]

theorem deref_ok {h : Heap κ} {p : BevPtr} {b : Bufferevent κ} (hb : h.deref p = .ok b) :
    h[p]? = some b ∧ b.live = true := by
  unfold deref at hb
  split at hb
  · rename_i c hc
    split at hb
    · rename_i hl
      cases hb
      exact ⟨hc, hl⟩
    · exact absurd hb (by simp)
  · exact absurd hb (by simp)

theorem update_ok {h h' : Heap κ} {p : BevPtr} {f : Bufferevent κ → Bufferevent κ}
    (hu : h.update p f = .ok h') :
    ∃ c, h[p]? = some c ∧ c.live = true ∧ h' = h.set p (f c) := by
  unfold update at hu
  obtain ⟨c, hd, hset⟩ := bind_eq_ok.1 hu
  obtain ⟨hp, hl⟩ := deref_ok hd
  exact ⟨c, hp, hl, (Except.ok.inj hset).symm⟩

theorem read_ok {h h' : Heap κ} {p : BevPtr} {n : ℕ} {data : List UInt8}
    (hr : h.read p n = .ok (data, h')) :
    ∃ c, h[p]? = some c ∧ c.live = true ∧ h' = h.set p (c.consume n) := by
  unfold read at hr
  obtain ⟨c, hd, hset⟩ := bind_eq_ok.1 hr
  obtain ⟨hp, hl⟩ := deref_ok hd
  cases hset
  exact ⟨c, hp, hl, rfl⟩

end Heap

end LightSocks
