import LightSocks.Server.Handshake

/-!
# The life of a session

An abstract account of what one session goes through, and the invariant that
ties it to the concrete state.

* `Mode`, `Kind`, `Move` — the automaton: the phases of a session, the kinds of
  event that matter to it and the moves between the phases.  Some of the phases
  are accidents (`stranded`, `orphaned`, `abandoned`); they are reachable all
  the same.
* `Served`, `Attached`, `Stranded` — what holds of a live bufferevent in each
  role, with the lemmas that the operations on a bufferevent preserve it.
* `Shape P m s` — the state `s` is one of a session in phase `m`, everything in
  it accounted for, down to the bytes on their way to the client.

That every step of a session is a move of the automaton is proved in the next
file.
-/

namespace LightSocks

/-! ## The automaton -/

/-- An address and a port. -/
abbrev Target := InAddr × UInt16

/-- The phases of a session. -/
inductive Mode where
  /-- Waiting for the greeting. -/
  | greeting
  /-- Waiting for the request. -/
  | request
  /-- An `ATYP = 1` request has been answered. -/
  | ipv4
  /-- The lookup of `host` is outstanding. -/
  | resolving (host : List UInt8) (port : ℕ)
  /-- The lookup has failed. -/
  | unresolved
  /-- The connect failed at once: nothing points at the remote bufferevent. -/
  | stranded (target : Target)
  /-- A partner is attached. -/
  | relay (target : Target)
  /-- The context is gone, its lookup still outstanding. -/
  | orphaned
  /-- The context is gone, a stranded bufferevent still points at it. -/
  | abandoned (target : Target)
  /-- Everything is over; `target` is what was connected to. -/
  | closed (target : Option Target)
  deriving DecidableEq, Repr

/-- What an event means to the life of a session. -/
inductive Kind where
  | internal
  /-- `handle_second` reads an `ATYP = 1` request. -/
  | takesIpv4
  /-- The resolver answers with an address. -/
  | getsAddress (addr : InAddr)
  /-- An event callback gets EOF, ERROR or TIMEOUT. -/
  | terminal
  deriving DecidableEq, Repr

/-- The moves of the automaton. -/
inductive Move : Mode → Kind → Mode → Prop where
  | stay (m : Mode) : Move m .internal m
  | greeted : Move .greeting .internal .request
  | tookIpv4 : Move .request .takesIpv4 .ipv4
  | asked (host : List UInt8) (port : ℕ) : Move .request .internal (.resolving host port)
  | failedAtOnce : Move .request .internal .unresolved
  | failed {host : List UInt8} {port : ℕ} : Move (.resolving host port) .internal .unresolved
  | attachedAtOnce {addr : InAddr} (port : UInt16) :
      Move .request (.getsAddress addr) (.relay (addr, port))
  | strandedAtOnce {addr : InAddr} (port : UInt16) :
      Move .request (.getsAddress addr) (.stranded (addr, port))
  | attached {host : List UInt8} {port : ℕ} {addr : InAddr} :
      Move (.resolving host port) (.getsAddress addr) (.relay (addr, UInt16.ofNat port))
  | stranded {host : List UInt8} {port : ℕ} {addr : InAddr} :
      Move (.resolving host port) (.getsAddress addr) (.stranded (addr, UInt16.ofNat port))
  | ignored : Move .ipv4 .terminal .ipv4
  | closed {m : Mode} (h : m = .greeting ∨ m = .request ∨ m = .unresolved) :
      Move m .terminal (.closed none)
  | released {m : Mode} {target : Target} (h : m = .stranded target ∨ m = .relay target) :
      Move m .terminal (.closed (some target))
  | orphaned {host : List UInt8} {port : ℕ} : Move (.resolving host port) .terminal .orphaned
  | abandoned {target : Target} : Move (.stranded target) .terminal (.abandoned target)
  | ended : Move .orphaned .internal (.closed none)

/-- Where a callback can fail to return. -/
inductive Fails : Mode → Event → Fault → Prop where
  /-- A message of more than 32 bytes, or too long a host name. -/
  | overflow {m : Mode} {choice : Choice} (h : m = .greeting ∨ m = .request) :
      Fails m (.readCb 0 choice) .outOfBounds
  /-- An answer at once that is not an IPv4 address. -/
  | exitsAtOnce {choice : Choice} : Fails .request (.readCb 0 choice) .exited
  | exits {host nodename : List UInt8} {port : ℕ} {result : DnsResult} {re : ℤ} :
      Fails (.resolving host port) (.dnsDone nodename result re) .exited
  /-- `handle_last` with the null argument. -/
  | nullArgument {choice : Choice} : Fails .ipv4 (.readCb 0 choice) .nullDeref
  /-- `dns_cb` with the deleted context. -/
  | deleted {nodename : List UInt8} {result : DnsResult} {re : ℤ} {f : Fault}
      (h : f = .useAfterFree ∨ f = .exited) : Fails .orphaned (.dnsDone nodename result re) f
  /-- `remote_event_cb` with the deleted context. -/
  | dangling {target : Target} : Fails (.abandoned target) (.eventCb 1) .useAfterFree

/-! ## The kind of an event -/

/-- The message asks for CONNECT with `ATYP = 1`. -/
def AsksIpv4 (m : List UInt8) : Prop := 7 ≤ m.length ∧ m.getD 1 0 = 0x01 ∧ m.getD 3 0 = 0x01

/-- The message asks for CONNECT with `ATYP = 3`. -/
def AsksDomain (m : List UInt8) : Prop := 7 ≤ m.length ∧ m.getD 1 0 = 0x01 ∧ m.getD 3 0 = 0x03

instance (m : List UInt8) : Decidable (AsksIpv4 m) := inferInstanceAs (Decidable (_ ∧ _))

instance (m : List UInt8) : Decidable (AsksDomain m) := inferInstanceAs (Decidable (_ ∧ _))

/-- A message asks for one address type at most. -/
theorem AsksIpv4.not_asksDomain {m : List UInt8} (h4 : AsksIpv4 m) : ¬ AsksDomain m := by
  intro hd
  exact absurd (h4.2.2.symm.trans hd.2.2) (by decide)

/-- What the parser's verdict says about the message. -/
theorem parseRequest_cases (m : List UInt8) :
    parseRequest m = .error .outOfBounds ∨
      m.length ≤ 32 ∧
        (parseRequest m = .ok .ignored ∧ ¬ AsksIpv4 m ∧ ¬ AsksDomain m ∨
          parseRequest m = .ok (.ipv4 (portAtEnd m)) ∧ AsksIpv4 m ∨
          parseRequest m = .ok (.domain (hostOf m) (portAtEnd m)) ∧ AsksDomain m ∧
            ¬ AsksIpv4 m) := by
  unfold parseRequest AsksIpv4 AsksDomain
  by_cases h7 : m.length < 7
  · exact .inr ⟨by omega, .inl ⟨if_pos h7, by omega, by omega⟩⟩
  rw [if_neg h7]
  by_cases h32 : 32 < m.length
  · exact .inl (if_pos h32)
  rw [if_neg h32]
  refine or_iff_not_imp_left.2 fun herr => ⟨not_lt.1 h32, ?_⟩
  by_cases h1 : m.getD 1 0 = 1
  swap
  · exact .inl ⟨if_pos h1, fun h => h1 h.2.1, fun h => h1 h.2.1⟩
  rw [if_neg (not_not.2 h1)] at herr ⊢
  by_cases hv4 : m.getD 3 0 = 1
  · exact .inr (.inl ⟨if_pos hv4, not_lt.1 h7, h1, hv4⟩)
  rw [if_neg hv4] at herr ⊢
  by_cases hname : m.getD 3 0 = 3
  · rw [if_pos hname] at herr ⊢
    have h59 : ¬ 59 < (m.getD 4 0).toNat := fun h => herr (if_pos h)
    exact .inr (.inr ⟨if_neg h59, ⟨not_lt.1 h7, h1, hname⟩, fun h => hv4 h.2.2⟩)
  · exact .inl ⟨if_neg hname, fun h => hv4 h.2.2, fun h => hname h.2.2⟩

/-- EOF, ERROR or TIMEOUT. -/
def What.terminal (w : What) : Bool := w.eof || w.error || w.timeout

/-- The address in an answer, if it is one. -/
def DnsResult.kind : DnsResult → Kind
  | .error _ => .internal
  | .found answer => .getsAddress answer.sinAddr

/-- What a message means to `handle_second`. -/
def messageKind (m : List UInt8) (choice : Choice) : Kind :=
  if AsksIpv4 m then .takesIpv4
  else if AsksDomain m then (choice.resolved.map DnsResult.kind).getD .internal
  else .internal

/-- The kind of an event in a state. -/
def kind (P : Key) (s : Session) : Event → Kind
  | .socket _ _ => .internal
  | .readCb p choice =>
      match s.bevs[p]? with
      | none => .internal
      | some b =>
          if b.callbacks.readcb = some .handleSecond then messageKind (readPlain P b) choice
          else .internal
  | .eventCb p =>
      match s.bevs[p]? with
      | none => .internal
      | some b => if (b.nextEvent.map What.terminal).getD false then .terminal else .internal
  | .dnsDone _ result _ => result.kind

theorem kind_readCb {P : Key} {s : Session} {p : BevPtr} {choice : Choice}
    {b : Bufferevent Callbacks} (hp : s.bevs[p]? = some b)
    (hcb : b.callbacks.readcb ≠ some .handleSecond) : kind P s (.readCb p choice) = .internal := by
  simp [kind, hp, hcb]

theorem kind_handleSecond {P : Key} {s : Session} {p : BevPtr} {choice : Choice}
    {b : Bufferevent Callbacks} (hp : s.bevs[p]? = some b)
    (hcb : b.callbacks.readcb = some .handleSecond) :
    kind P s (.readCb p choice) = messageKind (readPlain P b) choice := by
  simp [kind, hp, hcb]

theorem kind_eventCb {P : Key} {s : Session} {p : BevPtr} {w : What}
    {b : Bufferevent Callbacks} (hp : s.bevs[p]? = some b) (hw : b.nextEvent = some w) :
    kind P s (.eventCb p) = if w.terminal then .terminal else .internal := by
  simp [kind, hp, hw]

/-- No event callback takes a request or is given an address. -/
theorem kind_eventCb_cases (P : Key) (s : Session) (p : BevPtr) :
    kind P s (.eventCb p) = .internal ∨ kind P s (.eventCb p) = .terminal := by
  simp only [kind]
  split
  · exact .inl rfl
  · split
    · exact .inr rfl
    · exact .inl rfl

/-! ## The client -/

namespace Bufferevent

/-- What is due on a bufferevent that is about to get an event callback. -/
theorem nextEvent_cases {κ : Type} {b : Bufferevent κ} {w : What} (h : b.nextEvent = some w) :
    b.live = true ∧ (b.eventPending.connected = true ∧ w = { connected := true } ∨
      b.eventPending.connected = false ∧ w = b.eventPending ∧ w.terminal = true ∧
        b.readPending = false) := by
  unfold nextEvent at h
  split at h
  · rename_i hc
    simp only [Bool.and_eq_true] at hc
    exact ⟨hc.1, .inl ⟨hc.2, (Option.some.inj h).symm⟩⟩
  · rename_i hc
    split at h
    · rename_i hany
      cases h
      simp only [Bool.and_eq_true, Bool.not_eq_true', What.any, Bool.or_eq_true] at hany hc
      have hconn : b.eventPending.connected = false := by simpa [hany.1.1] using hc
      refine ⟨hany.1.1, .inr ⟨hconn, rfl, ?_, hany.2⟩⟩
      simpa [What.terminal, hconn] using hany.1.2
    · cases h

end Bufferevent

/-- The client's bufferevent while it is live: `rd` is its read callback and
`arg` the argument.  It never gets a TIMEOUT or a CONNECTED, and no byte waits in
its input buffer unless a read callback is due. -/
structure Served (c : Bufferevent Callbacks) (rd : ReadCb) (arg : Option CtxPtr) : Prop where
  live : c.live = true
  callbacks : c.callbacks = clientCallbacks rd arg
  link : c.link = .up
  readTimeout : c.readTimeout = 0
  noTimeout : c.eventPending.timeout = false
  noConnected : c.eventPending.connected = false
  idle : c.readPending = false → c.input.pending = []
  /-- An EOF or ERROR would have ended it. -/
  silent : arg ≠ none → c.reported.eof = false ∧ c.reported.error = false

namespace Served

variable {c : Bufferevent Callbacks} {rd : ReadCb} {arg : Option CtxPtr}

theorem socket (h : Served c rd arg) {e : SocketEvent} (he : c.Admits e) :
    Served (c.socket e) rd arg ∧ (c.socket e).output.stream = c.output.stream ∧
      (c.socket e).input.past = c.input.past := by
  have hlink := h.link
  have htimeout := h.readTimeout
  cases e with
  | connected | connectError => simp [Bufferevent.Admits, hlink] at he
  | timeout => simp [Bufferevent.Admits, htimeout] at he
  | recv data =>
      exact ⟨{ h with idle := fun hr => absurd hr (by simp [Bufferevent.socket]) }, rfl, rfl⟩
  | eof | readError | writeError =>
      refine ⟨{ h with noTimeout := ?_, noConnected := ?_ }, rfl, rfl⟩
      · simp [Bufferevent.socket, Bufferevent.raise, What.merge, h.noTimeout]
      · simp [Bufferevent.socket, Bufferevent.raise, What.merge, h.noConnected]
  | flush n => exact ⟨{ h with }, Fifo.stream_pop _ _, rfl⟩

/-- A read callback that empties the input buffer. -/
theorem read (h : Served c rd arg) : Served c.takeRead.drained rd arg :=
  { h with idle := fun _ => rfl }

theorem queue (h : Served c rd arg) (data : List UInt8) : Served (c.queue data) rd arg := { h with }

theorem register (h : Served c rd arg) (harg : arg ≠ none) (rd' : ReadCb)
    (arg' : Option CtxPtr) : Served (c.register (clientCallbacks rd' arg')) rd' arg' :=
  { h with callbacks := rfl, silent := fun _ => h.silent harg }

/-- The only event callback a client gets is for EOF or ERROR. -/
theorem nextEvent (h : Served c rd arg) {w : What} (hw : c.nextEvent = some w) :
    w.timeout = false ∧ (w.eof = true ∨ w.error = true) ∧ w.terminal = true ∧
      c.input.pending = [] := by
  obtain ⟨-, ⟨hc, -⟩ | ⟨-, rfl, hterm, hread⟩⟩ := Bufferevent.nextEvent_cases hw
  · rw [h.noConnected] at hc
    cases hc
  · refine ⟨h.noTimeout, ?_, hterm, h.idle hread⟩
    simpa [What.terminal, h.noTimeout] using hterm

/-- With the null argument an event callback changes nothing but the record of
what was reported. -/
theorem takeEvent (h : Served c rd none) (w : What) : Served (c.takeEvent w) rd none := by
  refine { h with noTimeout := ?_, noConnected := ?_, silent := fun h => absurd rfl h }
  all_goals
    simp only [Bufferevent.takeEvent]
    split
    · simp [h.noTimeout]
    · rfl

end Served

/-! ## The remote host -/

/-- What `dns_cb` registers on the remote's bufferevent. -/
def remoteCallbacks : Callbacks := ⟨some .remoteReadCb, some .remoteEventCb, some .socks5Ctx⟩

/-- How far the connection of an attached remote has got. -/
inductive Progress (r : Bufferevent Callbacks) : Prop where
  /-- Not connected, or the connect has failed. -/
  | waiting (link : r.link ≠ .up) (reported : r.reported.connected = false)
      (pending : r.eventPending.connected = false) (input : r.input = .empty)
      (readPending : r.readPending = false)
  /-- Connected, the CONNECTED still to be delivered. -/
  | announced (link : r.link = .up) (reported : r.reported.connected = false)
      (pending : r.eventPending.connected = true) (input : r.input.past = [])
  /-- Connected and delivered. -/
  | joined (link : r.link = .up) (reported : r.reported.connected = true)
      (pending : r.eventPending.connected = false)

/-- The remote's bufferevent while it is live and the partner. -/
structure Attached (r : Bufferevent Callbacks) : Prop where
  live : r.live = true
  callbacks : r.callbacks = remoteCallbacks
  /-- A terminal event would have ended it. -/
  silent : r.reported.terminal = false
  idle : r.readPending = false → r.input.pending = []
  progress : Progress r

namespace Attached

variable {r : Bufferevent Callbacks}

theorem socket (h : Attached r) {e : SocketEvent} (he : r.Admits e) :
    Attached (r.socket e) ∧ (r.socket e).reported = r.reported ∧
      (r.socket e).input.past = r.input.past ∧
      (r.socket e).output.stream = r.output.stream := by
  cases e with
  | recv data =>
      have hup : r.link = .up := he.2.1
      have hidle : (r.socket (.recv data)).readPending = false →
          (r.socket (.recv data)).input.pending = [] := fun hr =>
        absurd hr (by simp [Bufferevent.socket])
      refine ⟨⟨h.live, h.callbacks, h.silent, hidle, ?_⟩, rfl, rfl, rfl⟩
      cases h.progress with
      | waiting link _ _ _ _ => exact absurd hup link
      | announced link reported pending input => exact .announced link reported pending input
      | joined link reported pending => exact .joined link reported pending
  | eof | readError | writeError | timeout =>
      refine ⟨⟨h.live, h.callbacks, h.silent, h.idle, ?_⟩, rfl, rfl, rfl⟩
      cases h.progress with
      | waiting link reported pending input readPending =>
          exact .waiting link reported
            (by simpa [Bufferevent.socket, Bufferevent.raise, What.merge])
            input readPending
      | announced link reported pending input =>
          exact .announced link reported
            (by simp [Bufferevent.socket, Bufferevent.raise, What.merge, pending]) input
      | joined link reported pending =>
          exact .joined link reported
            (by simpa [Bufferevent.socket, Bufferevent.raise, What.merge])
  | connected =>
      have hconn : r.link = .connecting := he.2
      refine ⟨⟨h.live, h.callbacks, h.silent, h.idle, ?_⟩, rfl, rfl, rfl⟩
      cases h.progress with
      | waiting _ reported _ input _ =>
          exact .announced rfl reported
            (by simp [Bufferevent.socket, Bufferevent.raise, What.merge])
            (by simp [Bufferevent.socket, Bufferevent.raise, input])
      | announced link _ _ _ | joined link _ _ => rw [hconn] at link; cases link
  | connectError =>
      have hconn : r.link = .connecting := he.2
      refine ⟨⟨h.live, h.callbacks, h.silent, h.idle, ?_⟩, rfl, rfl, rfl⟩
      cases h.progress with
      | waiting _ reported pending input readPending =>
          exact .waiting (by simp [Bufferevent.socket]) reported
            (by simpa [Bufferevent.socket, Bufferevent.raise, What.merge]) input readPending
      | announced link _ _ _ | joined link _ _ => rw [hconn] at link; cases link
  | flush n =>
      refine ⟨⟨h.live, h.callbacks, h.silent, h.idle, ?_⟩, rfl, rfl, Fifo.stream_pop _ _⟩
      cases h.progress with
      | waiting link reported pending input readPending =>
          exact .waiting link reported pending input readPending
      | announced link reported pending input => exact .announced link reported pending input
      | joined link reported pending => exact .joined link reported pending

theorem queue (h : Attached r) (data : List UInt8) : Attached (r.queue data) := by
  refine ⟨h.live, h.callbacks, h.silent, h.idle, ?_⟩
  cases h.progress with
  | waiting link reported pending input readPending =>
      exact .waiting link reported pending input readPending
  | announced link reported pending input => exact .announced link reported pending input
  | joined link reported pending => exact .joined link reported pending

/-- A read callback is due only once CONNECTED has been delivered. -/
theorem joined_of_readDue (h : Attached r) (hdue : r.readDue = true) :
    r.reported.connected = true := by
  simp only [Bufferevent.readDue, Bool.and_eq_true, Bool.not_eq_true'] at hdue
  cases h.progress with
  | waiting _ _ _ _ readPending => rw [readPending] at hdue; cases hdue.1.2
  | announced _ _ pending _ => rw [pending] at hdue; cases hdue.2
  | joined _ reported _ => exact reported

/-- A read callback that empties the input buffer. -/
theorem read (h : Attached r) (hdue : r.readDue = true) : Attached r.takeRead.drained := by
  have hjoined := h.joined_of_readDue hdue
  refine ⟨h.live, h.callbacks, h.silent, fun _ => rfl, ?_⟩
  cases h.progress with
  | waiting _ reported _ _ _ | announced _ reported _ _ => rw [hjoined] at reported; cases reported
  | joined link reported pending => exact .joined link reported pending

/-- CONNECTED is delivered once, before anything has been read. -/
theorem connected (h : Attached r) (hc : r.eventPending.connected = true) :
    Attached (r.takeEvent { connected := true }) ∧ r.reported.connected = false ∧
      r.input.past = [] ∧ (r.takeEvent { connected := true }).reported.connected = true := by
  cases h.progress with
  | waiting _ _ pending _ _ | joined _ _ pending => rw [hc] at pending; cases pending
  | announced link reported _ input =>
      refine ⟨⟨h.live, h.callbacks, ?_, h.idle, .joined link ?_ rfl⟩, reported, input, ?_⟩
      · simpa [Bufferevent.takeEvent, What.merge, What.terminal] using h.silent
      all_goals simp [Bufferevent.takeEvent, What.merge]

/-- Nothing has been read before CONNECTED was delivered. -/
theorem past_eq_nil (h : Attached r) (hr : r.reported.connected = false) : r.input.past = [] := by
  cases h.progress with
  | waiting _ _ _ input _ => rw [input]; rfl
  | announced _ _ _ input => exact input
  | joined _ reported _ => rw [hr] at reported; cases reported

end Attached

/-- A bufferevent whose connect failed at once: all that can still happen to it
is the read timeout. -/
structure Stranded (r : Bufferevent Callbacks) : Prop where
  live : r.live = true
  callbacks : r.callbacks = remoteCallbacks
  silent : r.reported.terminal = false
  link : r.link = .down
  readPending : r.readPending = false
  noConnected : r.eventPending.connected = false
  noEof : r.eventPending.eof = false
  noError : r.eventPending.error = false
  input : r.input = .empty

namespace Stranded

variable {r : Bufferevent Callbacks}

theorem socket (h : Stranded r) {e : SocketEvent} (he : r.Admits e) : Stranded (r.socket e) := by
  have hlink := h.link
  cases e with
  | timeout =>
      refine { h with noConnected := ?_, noEof := ?_, noError := ?_ }
      · simp [Bufferevent.socket, Bufferevent.raise, What.merge, h.noConnected]
      · simp [Bufferevent.socket, Bufferevent.raise, What.merge, h.noEof]
      · simp [Bufferevent.socket, Bufferevent.raise, What.merge, h.noError]
  | _ => simp [Bufferevent.Admits, hlink] at he

theorem not_readDue (h : Stranded r) : r.readDue = false := by
  simp [Bufferevent.readDue, h.readPending]

/-- Its only event callback is for the timeout. -/
theorem nextEvent (h : Stranded r) {w : What} (hw : r.nextEvent = some w) :
    w.connected = false ∧ w.eof = false ∧ w.error = false ∧ w.timeout = true ∧
      w.terminal = true := by
  obtain ⟨-, ⟨hc, -⟩ | ⟨-, rfl, hterm, -⟩⟩ := Bufferevent.nextEvent_cases hw
  · rw [h.noConnected] at hc
    cases hc
  · exact ⟨h.noConnected, h.noEof, h.noError,
      by simpa [What.terminal, h.noEof, h.noError] using hterm, hterm⟩

end Stranded

theorem newRemote_attached : Attached (newRemote 0) :=
  ⟨rfl, rfl, rfl, fun _ => rfl, .waiting (by simp [newRemote]) rfl rfl rfl rfl⟩

theorem newRemote_stranded {re : ℤ} (h : re ≠ 0) : Stranded (newRemote re) :=
  { live := rfl, callbacks := rfl, silent := rfl, link := if_neg h, readPending := rfl
    noConnected := rfl, noEof := rfl, noError := rfl, input := rfl }

/-! ## The states of each phase -/

/-- A session without a remote bufferevent. -/
def Session.alone (context : Option Socks5ctx) (c : Bufferevent Callbacks)
    (dns queries replies : List (List UInt8)) : Session :=
  { context, bevs := [c], dns, addrinfos := 0, queries, connects := [], replies }

/-- A session whose lookup has been answered. -/
def Session.paired (context : Option Socks5ctx) (c r : Bufferevent Callbacks)
    (host : List UInt8) (target : Target) (replies : List (List UInt8)) : Session :=
  { context, bevs := [c, r], dns := [], addrinfos := 1, queries := [host], connects := [target]
    replies }

/-- Everything ever queued for the client. -/
def Session.sent (s : Session) : List UInt8 := ((s.bevs[0]?).map fun c => c.output.stream).getD []

/-- Everything the remote host has sent. -/
def Session.received (s : Session) : List UInt8 :=
  ((s.bevs[1]?).map fun r => r.input.stream).getD []

/-- **The reply grammar**: what the client gets, decrypted, is a prefix of the
method reply, the CONNECT reply and the bytes of the remote host. -/
def FollowsGrammar (P : Key) (s : Session) : Prop :=
  P.decrypt s.sent <+: methodReply.toList ++ connectReply.toList ++ s.received

/-- The replies of a relay session: the CONNECT reply goes out with CONNECTED. -/
def relayReplies (r : Bufferevent Callbacks) : List (List UInt8) :=
  if r.reported.connected then [methodReply.toList, connectReply.toList] else [methodReply.toList]

/-- What a relay session has queued for the client follows the grammar. -/
theorem Attached.replies_prefix {r : Bufferevent Callbacks} (h : Attached r) :
    (relayReplies r).flatten ++ r.input.past <+:
      methodReply.toList ++ connectReply.toList ++ r.input.stream := by
  rw [relayReplies]
  by_cases hj : r.reported.connected = true
  · rw [if_pos hj]
    exact (List.prefix_append_right_inj _).2 (List.prefix_append _ _)
  · rw [if_neg hj, h.past_eq_nil (by simpa using hj), List.append_nil]
    exact (List.prefix_append _ _).trans (List.prefix_append _ _)

theorem relayReplies_newRemote :
    (relayReplies (newRemote 0)).flatten ++ (newRemote 0).input.past = methodReply.toList := rfl

/-- **The invariant**: the states of each phase. -/
inductive Shape (P : Key) : Mode → Session → Prop where
  | greeting {c : Bufferevent Callbacks} {port : ℕ} {ip : List UInt8}
      (hc : Served c .localReadCb (some .socks5Ctx)) (hout : c.output.stream = []) :
      Shape P .greeting (.alone (some ⟨some 0, none, port, ip⟩) c [] [] [])
  | request {c : Bufferevent Callbacks} {port : ℕ} {ip : List UInt8}
      (hc : Served c .handleSecond (some .socks5Ctx))
      (hout : c.output.stream = P.encrypt methodReply.toList) :
      Shape P .request (.alone (some ⟨some 0, none, port, ip⟩) c [] [] [methodReply.toList])
  | ipv4 {c : Bufferevent Callbacks} {port : ℕ} {ip : List UInt8} (hc : Served c .handleLast none)
      (hout : c.output.stream = P.encrypt (methodReply.toList ++ connectReply.toList)) :
      Shape P .ipv4 (.alone (some ⟨some 0, none, port, ip⟩) c [] []
        [methodReply.toList, connectReply.toList])
  | resolving {c : Bufferevent Callbacks} {host : List UInt8} {port : ℕ} {ip : List UInt8}
      (hc : Served c .handleLast (some .socks5Ctx))
      (hout : c.output.stream = P.encrypt methodReply.toList) :
      Shape P (.resolving host port)
        (.alone (some ⟨some 0, none, port, ip⟩) c [host] [host] [methodReply.toList])
  | unresolved {c : Bufferevent Callbacks} {host : List UInt8} {port : ℕ} {ip : List UInt8}
      (hc : Served c .handleLast (some .socks5Ctx))
      (hout : c.output.stream = P.encrypt methodReply.toList) :
      Shape P .unresolved
        (.alone (some ⟨some 0, none, port, ip⟩) c [] [host] [methodReply.toList])
  | stranded {c r : Bufferevent Callbacks} {host : List UInt8} {port : ℕ} {ip : List UInt8}
      {target : Target} (hc : Served c .handleLast (some .socks5Ctx)) (hr : Stranded r)
      (hout : c.output.stream = P.encrypt methodReply.toList) :
      Shape P (.stranded target)
        (.paired (some ⟨some 0, none, port, ip⟩) c r host target [methodReply.toList])
  | relay {c r : Bufferevent Callbacks} {host : List UInt8} {port : ℕ} {ip : List UInt8}
      {target : Target} (hc : Served c .handleLast (some .socks5Ctx)) (hr : Attached r)
      (hout : c.output.stream = P.encrypt ((relayReplies r).flatten ++ r.input.past)) :
      Shape P (.relay target)
        (.paired (some ⟨some 0, some 1, port, ip⟩) c r host target (relayReplies r))
  | orphaned {c : Bufferevent Callbacks} {host : List UInt8} (hc : c.live = false)
      (hout : c.output.stream = P.encrypt methodReply.toList) :
      Shape P .orphaned (.alone none c [host] [host] [methodReply.toList])
  | abandoned {c r : Bufferevent Callbacks} {host : List UInt8} {target : Target}
      (hc : c.live = false) (hr : Stranded r)
      (hout : c.output.stream = P.encrypt methodReply.toList) :
      Shape P (.abandoned target) (.paired none c r host target [methodReply.toList])
  | closedAlone {c : Bufferevent Callbacks} {queries replies : List (List UInt8)}
      (hc : c.live = false) (hreplies : connectReply.toList ∉ replies)
      (hgrammar : FollowsGrammar P (.alone none c [] queries replies)) :
      Shape P (.closed none) (.alone none c [] queries replies)
  | closedPaired {c r : Bufferevent Callbacks} {host : List UInt8} {target : Target}
      {replies : List (List UInt8)} (hc : c.live = false) (hr : r.live = false)
      (hgrammar : FollowsGrammar P (.paired none c r host target replies)) :
      Shape P (.closed (some target)) (.paired none c r host target replies)

end LightSocks
