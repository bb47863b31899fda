import LightSocks.System

/-!
# Everything can be delivered

The network may hold back what it likes for as long as it likes, and so may the event loops.
Here is what they can still do, at any moment, for a connection that nobody has closed:
deliver all that is on the way, in both directions, without waiting for anybody to send more.

* `Queues` — the queues between an application and its target, and what the callbacks and the
  network do to them.
* `System.Open` — the connection and its session are up, and nobody has closed.
* `Open.read`, `Open.send`, … — one callback or one delivery each.
* `delivered_when_still` — nothing is missing once nothing is on the way.
* `delivery_possible` — and it can always come to that.
-/

namespace LightSocks

open Transition

variable {P : Key} {w w' : World} {a : Addr} {j k : ℕ} {s : Session}

/-! ## The queues between an application and its target -/

/-- A CONNECTED is scheduled for `p`. -/
def Heap.connectedPending {κ : Type} (h : Heap κ) (p : BevPtr) : Bool :=
  ((h[p]?).map fun b => b.eventPending.connected).getD false

/-- What was queued has been sent. -/
def Bufferevent.flushed {κ : Type} (b : Bufferevent κ) : Bufferevent κ :=
  { b with output := b.output.drain }

theorem Bufferevent.flushed_eq_self {κ : Type} {b : Bufferevent κ} (h : b.output.pending = []) :
    b.flushed = b := by
  rw [flushed, Fifo.drain_eq_self h]

/-- What is queued for `p` can be sent. -/
def Heap.writable {κ : Type} (h : Heap κ) (p : BevPtr) : Bool :=
  ((h[p]?).map fun b => decide (b.link = .up) && b.writeEnabled).getD false

/-- The four buffers of the connection, and the four of the session. -/
structure Queues where
  /-- From the application, as the client program has it. -/
  localIn : Fifo UInt8
  /-- To the server, as the client program has it. -/
  remoteOut : Fifo UInt8
  /-- From the client program, as the server has it. -/
  clientIn : Fifo UInt8
  /-- To the target. -/
  targetOut : Fifo UInt8
  /-- The session has still to be told that the target is connected. -/
  connecting : Bool
  /-- What is queued for the target can be sent. -/
  writable : Bool
  /-- From the target. -/
  targetIn : Fifo UInt8
  /-- To the client program, as the server has it. -/
  clientOut : Fifo UInt8
  /-- From the server, as the client program has it. -/
  remoteIn : Fifo UInt8
  /-- To the application. -/
  localOut : Fifo UInt8

namespace Queues

variable {q : Queues}

/-- Nothing is on the way, or waits for a callback. -/
structure Still (q : Queues) : Prop where
  wireUp : q.clientIn.stream = q.remoteOut.past
  wireDown : q.remoteIn.stream = q.clientOut.past
  queuedUp : q.remoteOut.pending = []
  queuedDown : q.clientOut.pending = []
  localIn : q.localIn.pending = []
  clientIn : q.clientIn.pending = []
  targetIn : q.targetIn.pending = []
  remoteIn : q.remoteIn.pending = []

/-! What the read callbacks do, each of which takes everything there is. -/

def readLocal (P : Key) (q : Queues) : Queues :=
  { q with
    localIn := q.localIn.drain
    remoteOut := q.remoteOut.push (P.encrypt q.localIn.pending) }

def readClient (P : Key) (q : Queues) : Queues :=
  { q with
    clientIn := q.clientIn.drain
    targetOut := q.targetOut.push (P.decrypt q.clientIn.pending) }

def readTarget (P : Key) (q : Queues) : Queues :=
  { q with
    targetIn := q.targetIn.drain
    clientOut := q.clientOut.push (P.encrypt q.targetIn.pending) }

def readRemote (P : Key) (q : Queues) : Queues :=
  { q with
    remoteIn := q.remoteIn.drain
    localOut := q.localOut.push (P.decrypt q.remoteIn.pending) }

/-- `remote_event_cb` is told that the target is connected, and says so. -/
def announce (P : Key) (q : Queues) : Queues :=
  { q with
    connecting := false
    clientOut := q.clientOut.push (if q.connecting then P.encrypt connectReply.toList else []) }

theorem announce_eq_self (h : q.connecting = false) : q.announce P = q := by
  cases q
  simp_all [announce]

/-! What the two sockets between the programs do: send all there is, and bring all that has
been sent. -/

def sendUp (q : Queues) : Queues := { q with remoteOut := q.remoteOut.drain }

def bringUp (q : Queues) : Queues :=
  { q with clientIn := q.clientIn.push (q.remoteOut.past.drop q.clientIn.stream.length) }

def sendDown (q : Queues) : Queues := { q with clientOut := q.clientOut.drain }

def bringDown (q : Queues) : Queues :=
  { q with remoteIn := q.remoteIn.push (q.clientOut.past.drop q.remoteIn.stream.length) }

/-- Everything there is goes all the way, first up and then down. -/
def settle (P : Key) (q : Queues) : Queues :=
  let up := (q.readLocal P).sendUp.bringUp.readClient P
  ((up.announce P).readTarget P).sendDown.bringDown.readRemote P

theorem settle_still (hup : q.clientIn.stream <+: q.remoteOut.past)
    (hdown : q.remoteIn.stream <+: q.clientOut.past) :
    (q.settle P).Still ∧ (q.settle P).localIn.stream = q.localIn.stream ∧
      (q.settle P).targetIn.stream = q.targetIn.stream := by
  have hsentUp : q.clientIn.stream <+: (q.readLocal P).remoteOut.stream := by
    refine hup.trans ?_
    simp [readLocal, Fifo.stream]
  have hsentDown : q.remoteIn.stream <+: ((q.announce P).readTarget P).clientOut.stream := by
    refine hdown.trans ?_
    simp [readTarget, announce, Fifo.stream]
  refine ⟨⟨?_, ?_, rfl, rfl, rfl, rfl, rfl, rfl⟩, ?_, ?_⟩
  · show (Fifo.drain (Fifo.push q.clientIn _)).stream = _
    rw [Fifo.stream_drain, Fifo.stream_push]
    exact List.prefix_iff_eq_append.1 hsentUp
  · show (Fifo.drain (Fifo.push q.remoteIn _)).stream = _
    rw [Fifo.stream_drain, Fifo.stream_push]
    exact List.prefix_iff_eq_append.1 hsentDown
  · exact Fifo.stream_drain _
  · exact Fifo.stream_drain _

/-- What is taken from the client goes to the target. -/
theorem settle_upload : ∃ bytes, (q.settle P).clientIn.past = q.clientIn.past ++ bytes ∧
    (q.settle P).targetOut.stream = q.targetOut.stream ++ P.decrypt bytes :=
  ⟨_, rfl, Fifo.stream_push _ _⟩

/-- The queues once the client program has the connection as `s`. -/
def withPair (q : Queues) (s : Client.Pair) : Queues :=
  { q with
    localIn := (s .localSide).input
    remoteOut := (s .remoteSide).output
    remoteIn := (s .remoteSide).input
    localOut := (s .localSide).output }

/-- The queues once the server has the session as `s`. -/
def withSession (q : Queues) (s : Session) : Queues :=
  { q with
    clientIn := s.bevs.inputOf 0
    targetOut := s.bevs.outputOf 1
    connecting := s.bevs.connectedPending 1
    writable := s.bevs.writable 1
    targetIn := s.bevs.inputOf 1
    clientOut := s.bevs.outputOf 0 }

end Queues

/-- The queues of the connection `k` and the session `j`. -/
def System.queues (σ : System) (k j : ℕ) : Queues where
  localIn := σ.input .localSide k
  remoteOut := σ.output .remoteSide k
  clientIn := σ.server.clientInput j
  targetOut := σ.server.targetOutput j
  connecting := σ.server.bevs.connectedPending (σ.server.placeOf j 1)
  writable := σ.server.bevs.writable (σ.server.placeOf j 1)
  targetIn := σ.server.targetInput j
  clientOut := σ.server.clientOutput j
  remoteIn := σ.input .remoteSide k
  localOut := σ.output .localSide k

/-! ## Open connections -/

section Open

variable {σ : System} {q : Queues}

/-- The system can go on to a state in which the queues are `q`, still open. -/
def Leads (P : Key) (k j : ℕ) (σ : System) (q : Queues) : Prop :=
  ∃ es σ', Run (Guarded Regular (SystemStep P)) σ es σ' ∧ σ'.Open k j ∧ σ'.queues k j = q

theorem System.Open.stays (ho : σ.Open k j) : Leads P k j σ (σ.queues k j) :=
  ⟨[], σ, .nil σ, ho, rfl⟩

/-- One thing after another. -/
theorem Leads.andThen {f : Queues → Queues} (h : Leads P k j σ q) (hσ : σ.Sound P)
    (hf : ∀ σ' : System, σ'.Sound P → σ'.Open k j → σ'.queues k j = q →
      Leads P k j σ' (f (σ'.queues k j))) : Leads P k j σ (f q) := by
  obtain ⟨es, σ₁, hr, ho, hq⟩ := h
  obtain ⟨es', σ₂, hr', ho', hq'⟩ := hf σ₁ (hσ.run hr) ho hq
  exact ⟨_, σ₂, hr.append hr', ho', hq ▸ hq'⟩

/-! ### The client program -/

theorem Client.pairOf_eq_self (x : Client.Side) (s : Client.Pair) :
    Client.pairOf x (s x) (s x.other) = s := by
  funext y
  rcases x.eq_or_eq_other y with rfl | rfl
  · exact Client.pairOf_self _ _ _
  · exact Client.pairOf_other _ _ _

/-- A socket that brings nothing asks nothing of the network. -/
theorem Delivers.of_socket {p : BevPtr} {e : SocketEvent} (he : e.arriving = []) :
    Delivers σ (.client (.socket p e)) := by
  intro k hne
  refine absurd ?_ hne
  rw [Client.Event.arriving, he]
  exact ite_self _

/-- Both ends of an open connection are joined. -/
theorem System.Open.pair (ho : σ.Open k j) (hσ : σ.Sound P) :
    ∃ re s, Client.HasPair σ.client k s ∧ (∀ x, Client.Joined x k re (s x)) ∧
      (s .remoteSide).link = .up ∧ ∀ x, Client.Idle (s x) := by
  obtain ⟨es, hrun⟩ := hσ.client
  obtain ⟨b, hb, -⟩ := ho.live .localSide
  obtain ⟨re, s, hre, hs, hphase, -⟩ := (Client.connections_run hrun).of_ptr hb
  have hlive : ∀ x, (s x).live = true := by
    intro x
    obtain ⟨b, hb, hl⟩ := ho.live x
    rwa [Option.some.inj ((hs x).symm.trans hb)]
  obtain ⟨r, hr, hup⟩ := ho.up
  obtain rfl := Option.some.inj ((hs .remoteSide).symm.trans hr)
  refine ⟨re, s, hs, ?_, hup, (Client.relaying_run hrun hre hs).2 hlive⟩
  cases hphase with
  | joined joined _ => exact joined
  | draining x dead _ _ =>
      rw [hlive x] at dead
      cases dead
  | closed dead _ =>
      have hdead := dead .localSide
      rw [hlive .localSide] at hdead
      cases hdead

theorem System.queues_client {h : Client.State} {s : Client.Pair} (hs : Client.HasPair h k s) :
    System.queues { σ with client := h } k j = (σ.queues k j).withPair s := by
  simp only [System.queues, Queues.withPair, System.input, System.output, Heap.inputOf_eq (hs _),
    Heap.outputOf_eq (hs _)]

/-- **A step of the client program** that closes nothing. -/
theorem System.Open.clientStep (ho : σ.Open k j) {s : Client.Pair} {x : Client.Side}
    {b d : Bufferevent Client.Callbacks} {e : Client.Event} (hs : Client.HasPair σ.client k s)
    (hstep : Client.Step P.table σ.client e (Client.setPair σ.client k x b d))
    (hnet : Delivers σ (.client e)) (hb : b.live = true) (hd : d.live = true)
    (hup : (Client.pairOf x b d .remoteSide).link = .up) :
    Leads P k j σ ((σ.queues k j).withPair (Client.pairOf x b d)) := by
  have hpair := hs.setPair x b d
  refine ⟨[.client e], { σ with client := Client.setPair σ.client k x b d },
    .single ⟨⟨hnet, trivial⟩, .client hstep⟩, ⟨ho.peer, fun y => ⟨_, hpair y, ?_⟩,
      ⟨_, hpair _, hup⟩, ho.partner, ho.attended⟩, System.queues_client hpair⟩
  rcases x.eq_or_eq_other y with rfl | rfl
  · rw [Client.pairOf_self]
    exact hb
  · rw [Client.pairOf_other]
    exact hd

/-- A socket takes or brings something. -/
theorem System.Open.clientSocket (ho : σ.Open k j) {s : Client.Pair} {re : ℤ}
    (hs : Client.HasPair σ.client k s) (hjoined : ∀ x, Client.Joined x k re (s x))
    (hup : (s .remoteSide).link = .up) (x : Client.Side) {e : SocketEvent}
    (he : (s x).Admits e) (hkind : (∃ data, e = .recv data) ∨ ∃ n, e = .flush n)
    (hnet : Delivers σ (.client (.socket (x.ptr k) e))) :
    Leads P k j σ ((σ.queues k j).withPair
      (Client.pairOf x ((s x).socket e) (s x.other))) := by
  have hstep : Client.Step P.table σ.client (.socket (x.ptr k) e)
      (Client.setPair σ.client k x ((s x).socket e) (s x.other)) := by
    refine .of_notify (hs _) he ((Eq.trans ?_ (congrArg Except.ok (Client.set_eq_setPair hs _ _))))
    rcases hkind with ⟨data, rfl⟩ | ⟨n, rfl⟩
    · rfl
    · -- no write callback is registered
      have hcb : ∀ h : Client.State, Client.callWrite (x.ptr k) (s x).callbacks h = .ok h := by
        intro h
        rw [(hjoined x).callbacks]
        rfl
      show (if _ then Client.callWrite _ (s x).callbacks _ else _) = _
      rw [hcb]
      exact ite_self _
  have hkept : ((s x).socket e).live = (s x).live ∧ ((s x).socket e).link = (s x).link := by
    rcases hkind with ⟨data, rfl⟩ | ⟨n, rfl⟩ <;> exact ⟨rfl, rfl⟩
  refine ho.clientStep hs hstep hnet (hkept.1.trans (hjoined x).live) (hjoined x.other).live ?_
  cases x with
  | localSide => exact hup
  | remoteSide => exact hkept.2.trans hup

/-- What waits on the side `x` is read and queued on the other. -/
theorem System.Open.read (ho : σ.Open k j) (hσ : σ.Sound P) (x : Client.Side) :
    ∃ s, σ.queues k j = (σ.queues k j).withPair s ∧
      Leads P k j σ ((σ.queues k j).withPair (Client.pairOf x (s x).drained
        ((s x.other).queue ((s x).input.pending.map (x.code P.table))))) := by
  obtain ⟨re, s, hs, hjoined, hup, hidle⟩ := ho.pair hσ
  refine ⟨s, System.queues_client hs, ?_⟩
  cases hread : (s x).readPending with
  | false =>
      -- there is nothing to read
      have hnone := hidle x hread
      rw [hnone, List.map_nil, Bufferevent.queue_nil, Bufferevent.drained_eq_self hnone]
      rw [Client.pairOf_eq_self, ← System.queues_client hs]
      exact ho.stays
  | true =>
      have hdue : (s x).readDue = true := by
        simp [Bufferevent.readDue, (hjoined x).live, hread, (hjoined x).noEvent]
      have hread := (hjoined x).readCb (T := P.table) hs (hjoined x.other).live
      have hgoes := ho.clientStep hs (b := (s x).takeRead.drained) (.of_callRead (hs x) hdue hread)
        (fun _ hne => absurd rfl hne) (hjoined x).live (hjoined x.other).live
        (by cases x <;> exact hup)
      cases x <;> exact hgoes

theorem System.Open.readLocal (ho : σ.Open k j) (hσ : σ.Sound P) :
    Leads P k j σ ((σ.queues k j).readLocal P) := by
  obtain ⟨s, hq, h⟩ := ho.read hσ .localSide
  rw [hq]
  exact h

theorem System.Open.readRemote (ho : σ.Open k j) (hσ : σ.Sound P) :
    Leads P k j σ ((σ.queues k j).readRemote P) := by
  obtain ⟨s, hq, h⟩ := ho.read hσ .remoteSide
  rw [hq]
  exact h

/-- What is queued on the side `x` is sent. -/
theorem System.Open.send (ho : σ.Open k j) (hσ : σ.Sound P) (x : Client.Side) :
    ∃ s, σ.queues k j = (σ.queues k j).withPair s ∧
      Leads P k j σ ((σ.queues k j).withPair
        (Client.pairOf x (s x).flushed (s x.other))) := by
  obtain ⟨re, s, hs, hjoined, hup, -⟩ := ho.pair hσ
  refine ⟨s, System.queues_client hs, ?_⟩
  by_cases hempty : (s x).output.pending = []
  · -- there is nothing to send
    rw [Bufferevent.flushed_eq_self hempty, Client.pairOf_eq_self, ← System.queues_client hs]
    exact ho.stays
  · have hlink : (s x).link = .up := by
      cases x with
      | localSide => exact (hjoined _).localUp rfl
      | remoteSide => exact hup
    have hflush := ho.clientSocket (P := P) hs hjoined hup x
      (e := .flush (s x).output.pending.length)
      ⟨(hjoined x).live, hlink, (hjoined x).writeEnabled, List.length_pos_of_ne_nil hempty, le_rfl⟩
      (.inr ⟨_, rfl⟩) (.of_socket rfl)
    rw [Bufferevent.flushed, ← Fifo.pop_eq_drain le_rfl]
    exact hflush

theorem System.Open.sendUp (ho : σ.Open k j) (hσ : σ.Sound P) :
    Leads P k j σ (σ.queues k j).sendUp := by
  obtain ⟨s, hq, h⟩ := ho.send hσ .remoteSide
  rw [hq]
  exact h

theorem System.Open.bringDown (ho : σ.Open k j) (hσ : σ.Sound P) :
    Leads P k j σ (σ.queues k j).bringDown := by
  obtain ⟨re, s, hs, hjoined, hup, -⟩ := ho.pair hσ
  have hq : σ.queues k j = (σ.queues k j).withPair s := System.queues_client hs
  set data := (σ.queues k j).clientOut.past.drop (σ.queues k j).remoteIn.stream.length with hdata
  by_cases hempty : data = []
  · have hsame : (σ.queues k j).bringDown = σ.queues k j := by
      rw [Queues.bringDown, ← hdata, hempty, Fifo.push_nil]
    rw [hsame]
    exact ho.stays
  · have hrecv := ho.clientSocket (P := P) hs hjoined hup .remoteSide (e := .recv data)
      ⟨(hjoined _).live, hup, (hjoined _).readEnabled, hempty⟩ (.inl ⟨_, rfl⟩) (fun k' hne => ?_)
    · rw [Queues.bringDown, ← hdata, hq]
      exact hrecv
    · -- it is for this connection, and has been sent
      rw [Client.Event.arriving] at hne
      split at hne
      · rename_i hptr
        obtain ⟨-, rfl⟩ := Client.Side.ptr_inj hptr
        refine ⟨j, ho.peer, ?_⟩
        have hall : (σ.input .remoteSide k).stream ++ data = (σ.server.clientOutput j).past :=
          (hσ.down k j ho.peer).append_drop
        rw [Client.Event.arriving_self]
        exact hall.symm ▸ List.prefix_refl _
      · exact absurd rfl hne

/-! ### The server -/

/-- The session of an open connection is a relay. -/
theorem System.Open.relay (ho : σ.Open k j) (hσ : σ.Sound P) :
    ∃ a c r host target port ip, Holds σ.server a j
        (.paired (some ⟨some 0, some 1, port, ip⟩) c r host target (relayReplies r)) ∧
      Served c .handleLast (some .socks5Ctx) ∧ Attached r ∧ c.readEnabled = true ∧
      c.writeEnabled = true := by
  obtain ⟨a, s, hreach, hs⟩ := hσ.session ho.peer
  obtain ⟨m, hshape⟩ := hreach.shape
  obtain ⟨target, rfl⟩ := hshape.relay_of_hasPartner (hs.hasPartner_iff.1 ho.partner)
  cases hshape with
  | @relay c r host port ip _ hc hr hout =>
      obtain ⟨c', hc', hread, hwrite⟩ := ho.attended
      rw [(hs.window hσ.isolated.consistent).inside 0] at hc'
      obtain rfl : c = c' := Option.some.inj hc'
      exact ⟨a, c, r, host, target, port, ip, hs, hc, hr, hread, hwrite⟩

theorem System.queues_server (hs : Holds w a j s) (hw : Consistent w) :
    System.queues { σ with server := w } k j = (σ.queues k j).withSession s := by
  have hpending : w.bevs.connectedPending (w.placeOf j 1) = s.bevs.connectedPending 1 := by
    rw [Heap.connectedPending, (hs.window hw).inside 1, Heap.connectedPending]
    cases s.bevs[1]? <;> rfl
  have hwritable : w.bevs.writable (w.placeOf j 1) = s.bevs.writable 1 := by
    rw [Heap.writable, (hs.window hw).inside 1, Heap.writable]
    cases s.bevs[1]? <;> rfl
  simp only [System.queues, Queues.withSession, World.clientInput, World.clientOutput,
    World.targetInput, World.targetOutput, hs.inputOf hw, hs.outputOf hw, hpending, hwritable]
  rfl

theorem Event.arriving_rename {e : Event} {ρ : ℕ → ℕ} {p : BevPtr}
    (h : (e.rename ρ).arriving p ≠ []) :
    ∃ i, e.bev = some i ∧ ρ i = p ∧ (e.rename ρ).arriving p = e.arriving i := by
  cases e with
  | readCb | eventCb | dnsDone => exact absurd rfl h
  | socket i e =>
      by_cases hp : ρ i = p
      · refine ⟨i, rfl, hp, ?_⟩
        simp [Event.rename, Event.arriving, hp]
      · exact absurd (if_neg hp) h

/-- What is for one session is for no other. -/
theorem Isolated.placeOf_ne (hw : Isolated P w) (hs : Holds w a j s) {i : ℕ}
    (hi : i < s.bevs.length) {j' : ℕ} (hj' : j' < w.accepted)
    (heq : w.placeOf j i = w.placeOf j' 0) : j' = j ∧ i = 0 := by
  obtain ⟨p, hown⟩ : ∃ p, (w.places j)[i]? = some p :=
    ⟨_, List.getElem?_eq_getElem (hs.length ▸ hi)⟩
  obtain ⟨q, hfirst⟩ : ∃ q, (w.places j')[0]? = some q :=
    ⟨_, List.getElem?_eq_getElem (hw.places_pos hj')⟩
  have hplace : p = q := by
    rw [← place_of_getElem? hown, ← place_of_getElem? hfirst]
    exact heq
  obtain ⟨origin, horigin, rfl⟩ := World.mem_places.1 (List.mem_of_getElem? hown)
  obtain ⟨origin', horigin', rfl⟩ := World.mem_places.1 (List.mem_of_getElem? hfirst)
  rw [hplace, horigin'] at horigin
  obtain rfl := Option.some.inj horigin
  exact ⟨rfl, (hs.window hw.consistent).injective heq⟩

/-- **A step of the session** of a connection. -/
theorem System.Sound.sessionStep (hσ : σ.Sound P) (hk : σ.peer k = some j) {s' : Session}
    {e : Event} (hs : Holds σ.server a j s) (hstep : Step P s e s') (hbev : e.bev ≠ none)
    (hnet : e.arriving 0 ≠ [] →
      (σ.server.clientInput j).stream ++ e.arriving 0 <+: (σ.output .remoteSide k).past) :
    ∃ e' w', Guarded Regular (SystemStep P) σ e' { σ with server := w' } ∧ Holds w' a j s' ∧
      Consistent w' := by
  have hcons := hσ.isolated.consistent
  obtain ⟨e', -, he', hlift, -⟩ := hs.lift (P := P) hcons (hs.owner hσ.settled hstep)
    (by rw [hstep]; simp)
  obtain ⟨w', hw', hs'⟩ := hlift s' hstep
  obtain rfl := he'.event_eq hbev
  refine ⟨.server (.event (e.rename _)), w', ⟨⟨?_, trivial⟩, .server hw'⟩, hs',
    hw'.consistent hcons⟩
  intro k' j' hk' hne
  obtain ⟨i, hi, hplace, harriving⟩ := Event.arriving_rename hne
  have hlt := Session.fire_bev_lt hi (by rw [hstep]; simp)
  obtain ⟨rfl, rfl⟩ := hσ.isolated.placeOf_ne hs hlt (hσ.met k' j' hk').1 hplace
  obtain rfl := hσ.single k k' j' hk hk'
  show _ ++ (e.rename _).arriving _ <+: _
  rw [harriving]
  exact hnet fun hnone => hne (harriving.trans hnone)

/-- A step of the session after which it is still open. -/
theorem System.Open.serverStep (ho : σ.Open k j) (hσ : σ.Sound P) {s' : Session} {e : Event}
    (hs : Holds σ.server a j s) (hstep : Step P s e s') (hbev : e.bev ≠ none)
    (hnet : e.arriving 0 ≠ [] →
      (σ.server.clientInput j).stream ++ e.arriving 0 <+: (σ.output .remoteSide k).past)
    (hpartner : HasPartner s') {c : Bufferevent Callbacks} (hc : s'.bevs[0]? = some c)
    (hread : c.readEnabled = true) (hwrite : c.writeEnabled = true) :
    Leads P k j σ ((σ.queues k j).withSession s') := by
  obtain ⟨e', w', hguarded, hs', hcons'⟩ := hσ.sessionStep ho.peer hs hstep hbev hnet
  refine ⟨[e'], { σ with server := w' }, .single hguarded,
    ⟨ho.peer, ho.live, ho.up, hs'.hasPartner_iff.2 hpartner, c, ?_, hread, hwrite⟩,
    System.queues_server hs' hcons'⟩
  exact ((hs'.window hcons').inside 0).trans (by rw [hc]; rfl)

/-- What the client program has sent arrives. -/
theorem System.Open.bringUp (ho : σ.Open k j) (hσ : σ.Sound P) :
    Leads P k j σ (σ.queues k j).bringUp := by
  obtain ⟨a, c, r, host, target, port, ip, hs, hc, hr, hread, hwrite⟩ := ho.relay hσ
  have hq : σ.queues k j = (σ.queues k j).withSession _ :=
    System.queues_server hs hσ.isolated.consistent
  set data := (σ.queues k j).remoteOut.past.drop (σ.queues k j).clientIn.stream.length with hdata
  by_cases hempty : data = []
  · have hsame : (σ.queues k j).bringUp = σ.queues k j := by
      rw [Queues.bringUp, ← hdata, hempty, Fifo.push_nil]
    rw [hsame]
    exact ho.stays
  · have hall : (σ.server.clientInput j).stream ++ data = (σ.output .remoteSide k).past :=
      (hσ.up k j ho.peer).append_drop
    have hrecv := ho.serverStep hσ hs (.socket (p := 0) rfl (e := .recv data)
      ⟨hc.live, hc.link, hread, hempty⟩) (by simp [Event.bev])
      (fun _ => hall.symm ▸ List.prefix_refl _) ⟨_, rfl, by simp⟩ rfl hread hwrite
    rw [Queues.bringUp, ← hdata, hq]
    exact hrecv

/-- `handle_last` relays it to the target. -/
theorem System.Open.readClient (ho : σ.Open k j) (hσ : σ.Sound P) :
    Leads P k j σ ((σ.queues k j).readClient P) := by
  obtain ⟨a, c, r, host, target, port, ip, hs, hc, hr, hread, hwrite⟩ := ho.relay hσ
  have hq : σ.queues k j = (σ.queues k j).withSession _ :=
    System.queues_server hs hσ.isolated.consistent
  cases hpending : c.readPending with
  | false =>
      have hsame : (σ.queues k j).readClient P = σ.queues k j := by
        have hnone : (σ.queues k j).clientIn.pending = [] := by
          rw [hq]
          exact hc.idle hpending
        rw [Queues.readClient, hnone, Fifo.drain_eq_self hnone]
        simp [Key.decrypt]
      rw [hsame]
      exact ho.stays
  | true =>
      have hdue : c.readDue = true := by
        simp [Bufferevent.readDue, hc.live, hpending, hc.noConnected]
      have hgoes := ho.serverStep hσ hs (e := .readCb 0 .later)
        (.readCb rfl hdue (paired_upload hc hr.live))
        (by simp [Event.bev]) (fun hne => absurd rfl hne) ⟨_, rfl, by simp⟩ rfl hread hwrite
      rw [hq]
      exact hgoes

/-- `remote_event_cb` says that the target is connected. -/
theorem System.Open.announce (ho : σ.Open k j) (hσ : σ.Sound P) :
    Leads P k j σ ((σ.queues k j).announce P) := by
  obtain ⟨a, c, r, host, target, port, ip, hs, hc, hr, hread, hwrite⟩ := ho.relay hσ
  have hq : σ.queues k j = (σ.queues k j).withSession _ :=
    System.queues_server hs hσ.isolated.consistent
  have hconnecting : (σ.queues k j).connecting = r.eventPending.connected := by
    rw [hq]
    rfl
  cases hpending : r.eventPending.connected with
  | false =>
      rw [Queues.announce_eq_self (hconnecting.trans hpending)]
      exact ho.stays
  | true =>
      have hnext : r.nextEvent = some { connected := true } := by
        simp [Bufferevent.nextEvent, hr.live, hpending]
      have hgoes := ho.serverStep hσ hs
        (.eventCb (p := 1) rfl hnext (paired_connected hc.live hr.callbacks))
        (by simp [Event.bev]) (fun hne => absurd rfl hne) ⟨_, rfl, by simp⟩ rfl hread hwrite
      rw [Queues.announce, hconnecting, hpending, if_pos rfl, hq]
      exact hgoes

/-- `remote_read_cb` relays what the target has sent. -/
theorem System.Open.readTarget (ho : σ.Open k j) (hσ : σ.Sound P)
    (htold : (σ.queues k j).connecting = false) :
    Leads P k j σ ((σ.queues k j).readTarget P) := by
  obtain ⟨a, c, r, host, target, port, ip, hs, hc, hr, hread, hwrite⟩ := ho.relay hσ
  have hq : σ.queues k j = (σ.queues k j).withSession _ :=
    System.queues_server hs hσ.isolated.consistent
  have hconnected : r.eventPending.connected = false := by
    rw [← htold, hq]
    rfl
  cases hpending : r.readPending with
  | false =>
      have hsame : (σ.queues k j).readTarget P = σ.queues k j := by
        have hnone : (σ.queues k j).targetIn.pending = [] := by
          rw [hq]
          exact hr.idle hpending
        rw [Queues.readTarget, hnone, Fifo.drain_eq_self hnone]
        simp [Key.encrypt]
      rw [hsame]
      exact ho.stays
  | true =>
      have hdue : r.readDue = true := by
        simp [Bufferevent.readDue, hr.live, hpending, hconnected]
      have hgoes := ho.serverStep hσ hs (e := .readCb 1 .later)
        (.readCb rfl hdue (paired_download hc.live hr.live hr.callbacks))
        (by simp [Event.bev]) (fun hne => absurd rfl hne) ⟨_, rfl, by simp⟩ rfl hread hwrite
      rw [hq]
      exact hgoes

theorem System.Open.sendDown (ho : σ.Open k j) (hσ : σ.Sound P) :
    Leads P k j σ (σ.queues k j).sendDown := by
  obtain ⟨a, c, r, host, target, port, ip, hs, hc, hr, hread, hwrite⟩ := ho.relay hσ
  have hq : σ.queues k j = (σ.queues k j).withSession _ :=
    System.queues_server hs hσ.isolated.consistent
  by_cases hempty : c.output.pending = []
  · have hsame : (σ.queues k j).sendDown = σ.queues k j := by
      have hnone : (σ.queues k j).clientOut.pending = [] := by
        rw [hq]
        exact hempty
      rw [Queues.sendDown, Fifo.drain_eq_self hnone]
    rw [hsame]
    exact ho.stays
  · have hflush := ho.serverStep hσ hs (.socket (p := 0) rfl (e := .flush c.output.pending.length)
      ⟨hc.live, hc.link, hwrite, List.length_pos_of_ne_nil hempty, le_rfl⟩) (by simp [Event.bev])
      (fun hne => absurd rfl hne) ⟨_, rfl, by simp⟩ rfl hread hwrite
    rw [hq, Queues.sendDown, ← Fifo.pop_eq_drain le_rfl]
    exact hflush

/-- Everything there is can be delivered, first up and then down. -/
theorem System.Open.settle (ho : σ.Open k j) (hσ : σ.Sound P) :
    Leads P k j σ ((σ.queues k j).settle P) := by
  have h₁ := ho.readLocal hσ
  have h₂ := h₁.andThen hσ fun _ hσ' ho' _ => ho'.sendUp hσ'
  have h₃ := h₂.andThen hσ fun _ hσ' ho' _ => ho'.bringUp hσ'
  have h₄ := h₃.andThen hσ fun _ hσ' ho' _ => ho'.readClient hσ'
  have h₅ := h₄.andThen hσ fun _ hσ' ho' _ => ho'.announce hσ'
  have h₆ := h₅.andThen hσ fun _ hσ' ho' hq => ho'.readTarget hσ' (by rw [hq]; rfl)
  have h₇ := h₆.andThen hσ fun _ hσ' ho' _ => ho'.sendDown hσ'
  have h₈ := h₇.andThen hσ fun _ hσ' ho' _ => ho'.bringDown hσ'
  exact h₈.andThen hσ fun _ hσ' ho' _ => ho'.readRemote hσ'

/-! ## When everything has been delivered -/

/-- What has been said to the client of a session with a partner, and what came after. -/
theorem Shape.sent_of_hasPartner {m : Mode} (h : Shape P m s) (hp : HasPartner s)
    (hwaiting : (s.bevs.inputOf 1).pending = []) :
    P.decrypt s.sent = s.replies.flatten ++ s.received := by
  obtain ⟨target, rfl⟩ := h.relay_of_hasPartner hp
  cases h with
  | @relay c r host port ip _ hc hr hout =>
      have hpast : r.input.past = r.input.stream := Fifo.past_eq_stream hwaiting
      calc P.decrypt (Session.sent _) = P.decrypt c.output.stream := rfl
        _ = (relayReplies r).flatten ++ r.input.stream := by rw [hout, Key.decrypt_encrypt, hpast]

/-- The server has taken what the application has sent. -/
theorem Queues.Still.taken (hstill : (σ.queues k j).Still) (hσ : σ.Sound P)
    (hk : σ.peer k = some j) :
    P.decrypt (σ.server.clientInput j).past = (σ.input .localSide k).stream := by
  have hclient : (σ.server.clientInput j).past = (σ.server.clientInput j).stream :=
    Fifo.past_eq_stream hstill.clientIn
  have hremote : (σ.output .remoteSide k).past = (σ.output .remoteSide k).stream :=
    Fifo.past_eq_stream hstill.queuedUp
  have hwire : (σ.server.clientInput j).stream = (σ.output .remoteSide k).past := hstill.wireUp
  have hlocal : (σ.input .localSide k).past = (σ.input .localSide k).stream :=
    Fifo.past_eq_stream hstill.localIn
  calc P.decrypt (σ.server.clientInput j).past
      = P.decrypt (σ.output .remoteSide k).stream := by rw [hclient, hwire, hremote]
    _ = P.decrypt (P.encrypt (σ.input .localSide k).past) :=
        congrArg P.decrypt (hσ.relaying (hσ.met k j hk).2 .localSide)
    _ = (σ.input .localSide k).stream := by rw [Key.decrypt_encrypt, hlocal]

/-- The application has got what the server has written. -/
theorem Queues.Still.heard (hstill : (σ.queues k j).Still) (hσ : σ.Sound P)
    (hk : σ.peer k = some j) :
    (σ.output .localSide k).stream = P.decrypt (σ.server.clientOutput j).stream := by
  have hremote : (σ.input .remoteSide k).past = (σ.input .remoteSide k).stream :=
    Fifo.past_eq_stream hstill.remoteIn
  have hclient : (σ.server.clientOutput j).past = (σ.server.clientOutput j).stream :=
    Fifo.past_eq_stream hstill.queuedDown
  have hwire : (σ.input .remoteSide k).stream = (σ.server.clientOutput j).past := hstill.wireDown
  calc (σ.output .localSide k).stream
      = (σ.input .remoteSide k).past.map P.dec := hσ.relaying (hσ.met k j hk).2 .remoteSide
    _ = P.decrypt (σ.server.clientOutput j).stream := by rw [hremote, hwire, hclient, Key.decrypt]

/-- A state that can be reached, with nothing on the way. -/
theorem Queues.Still.delivered (hstill : (σ.queues k j).Still) (hσ : σ.Sound P)
    (hk : σ.peer k = some j) (hpartner : σ.server.HasPartner j) :
    (σ.output .localSide k).stream =
        (σ.server.repliesTo j).flatten ++ (σ.server.targetInput j).stream ∧
      (σ.server.targetOutput j).stream <:+ (σ.input .localSide k).stream := by
  obtain ⟨a, s, hreach, hs⟩ := hσ.session hk
  have hcons := hσ.isolated.consistent
  obtain ⟨m, hshape, -, huploads⟩ := reachable_uploads hreach
  constructor
  · have hwaiting : (s.bevs.inputOf 1).pending = [] := by
      rw [← hs.inputOf hcons]
      exact hstill.targetIn
    have hsent := hshape.sent_of_hasPartner (hs.hasPartner_iff.1 hpartner) hwaiting
    rw [hs.sent_eq hcons, hs.replies, hs.received_eq hcons] at hsent
    rw [hstill.heard hσ hk, hsent]
  · rw [hs.forwarded_eq hcons, hs.consumed_eq hcons, hstill.taken hσ hk] at huploads
    exact huploads

/-- What has gone to the target since the server had taken `past` is what came after it. -/
theorem Queues.Still.forwarded (hstill : (σ.queues k j).Still) (hσ : σ.Sound P)
    (hk : σ.peer k = some j) {past out : List UInt8}
    (hupload : ∃ bytes, (σ.queues k j).clientIn.past = past ++ bytes ∧
      (σ.queues k j).targetOut.stream = out ++ P.decrypt bytes) :
    (σ.server.targetOutput j).stream = out ++ (σ.input .localSide k).stream.drop past.length := by
  obtain ⟨bytes, hpast, hforwarded⟩ := hupload
  have htaken := hstill.taken hσ hk
  have hrest : P.decrypt bytes = (σ.input .localSide k).stream.drop past.length := by
    rw [← htaken, show (σ.server.clientInput j).past = _ from hpast, Key.decrypt_append,
      ← P.length_decrypt past, List.drop_left]
  calc (σ.server.targetOutput j).stream = out ++ P.decrypt bytes := hforwarded
    _ = _ := by rw [hrest]

/-- **Nothing is missing once nothing is on the way.**  As long as the session has its partner,
the application has got every reply and all that the target has sent, and the target has got
all that the application has sent since the relay began. -/
theorem delivered_when_still {es : List SystemEvent}
    (h : Run (Guarded Regular (SystemStep P)) .start es σ) (hk : σ.peer k = some j)
    (hpartner : σ.server.HasPartner j) (hstill : (σ.queues k j).Still) :
    (σ.output .localSide k).stream =
        (σ.server.repliesTo j).flatten ++ (σ.server.targetInput j).stream ∧
      (σ.server.targetOutput j).stream <:+ (σ.input .localSide k).stream :=
  hstill.delivered (system_sound h) hk hpartner

/-- From any state of an open connection, nothing is on the way in some later one, and what has
gone to the target in between is what the server had not taken. -/
theorem System.Open.settles (ho : σ.Open k j) (hσ : σ.Sound P) :
    ∃ es σ', Run (Guarded Regular (SystemStep P)) σ es σ' ∧ σ'.Open k j ∧
      (σ'.queues k j).writable = (σ.queues k j).writable ∧ (σ'.queues k j).Still ∧
      (σ'.input .localSide k).stream = (σ.input .localSide k).stream ∧
      (σ'.server.targetInput j).stream = (σ.server.targetInput j).stream ∧
      (σ'.server.targetOutput j).stream = (σ.server.targetOutput j).stream ++
        (σ.input .localSide k).stream.drop (σ.server.clientInput j).past.length := by
  obtain ⟨es, σ', hr, ho', hq⟩ := ho.settle hσ
  have hup : (σ.server.clientInput j).stream <+: (σ.output .remoteSide k).past := by
    simpa [Fifo.Feeds] using hσ.up k j ho.peer
  have hdown : (σ.input .remoteSide k).stream <+: (σ.server.clientOutput j).past := by
    simpa [Fifo.Feeds] using hσ.down k j ho.peer
  obtain ⟨hstill, hlocal, htarget⟩ : (σ'.queues k j).Still ∧
      (σ'.input .localSide k).stream = (σ.input .localSide k).stream ∧
      (σ'.server.targetInput j).stream = (σ.server.targetInput j).stream := by
    have hsettled := Queues.settle_still (P := P) (q := σ.queues k j) hup hdown
    rw [← hq] at hsettled
    exact hsettled
  refine ⟨es, σ', hr, ho', by rw [hq]; rfl, hstill, hlocal, htarget, ?_⟩
  rw [← hlocal]
  refine hstill.forwarded (hσ.run hr) ho'.peer ?_
  rw [hq]
  exact Queues.settle_upload

/-- **Everything can be delivered.**  From any state in which a connection is open the programs
and the network can go on, without anything new from the application or the target, until the
application has got every reply and all that the target has sent, and the target all that the
server had not yet taken of what the application has sent. -/
theorem delivery_possible {es : List SystemEvent}
    (h : Run (Guarded Regular (SystemStep P)) .start es σ) (ho : σ.Open k j) :
    ∃ es' σ', Run (Guarded Regular (SystemStep P)) σ es' σ' ∧ σ'.Open k j ∧
      (σ'.input .localSide k).stream = (σ.input .localSide k).stream ∧
      (σ'.server.targetInput j).stream = (σ.server.targetInput j).stream ∧
      (σ'.output .localSide k).stream =
        (σ'.server.repliesTo j).flatten ++ (σ.server.targetInput j).stream ∧
      (σ'.server.targetOutput j).stream = (σ.server.targetOutput j).stream ++
        (σ.input .localSide k).stream.drop (σ.server.clientInput j).past.length := by
  have hσ := system_sound h
  obtain ⟨es', σ', hr, ho', -, hstill, hlocal, htarget, hforwarded⟩ := ho.settles hσ
  obtain ⟨hheard, -⟩ := hstill.delivered (hσ.run hr) ho'.peer ho'.partner
  rw [htarget] at hheard
  exact ⟨es', σ', hr, ho', hlocal, htarget, hheard, hforwarded⟩

/-- An application that has asked for a host, once everything has been delivered. -/
theorem delivered_when_still_asked : ∃ σ : System, (σ.queues 0 0).Still ∧
    (σ.input .localSide 0).stream = openingBytes ∧ (σ.output .localSide 0).stream =
        (σ.server.repliesTo 0).flatten ++ (σ.server.targetInput 0).stream ∧
      (σ.server.targetOutput 0).stream <:+ (σ.input .localSide 0).stream := by
  obtain ⟨σ, es, hr, ho, hin⟩ := run_relaying Key.identity
  obtain ⟨es', σ', hr', ho', -, hstill, hlocal, -⟩ := ho.settles (system_sound hr)
  exact ⟨σ', hstill, hlocal.trans hin,
    delivered_when_still (hr.append hr') ho'.peer ho'.partner hstill⟩

/-- An application that has asked for a host. -/
theorem delivery_possible_asked : ∃ σ : System, σ.Open 0 0 ∧
    (σ.input .localSide 0).stream = openingBytes ∧ ∃ es' σ',
      Run (Guarded Regular (SystemStep Key.identity)) σ es' σ' ∧ σ'.Open 0 0 ∧
      (σ'.input .localSide 0).stream = (σ.input .localSide 0).stream ∧
      (σ'.server.targetInput 0).stream = (σ.server.targetInput 0).stream ∧
      (σ'.output .localSide 0).stream =
        (σ'.server.repliesTo 0).flatten ++ (σ.server.targetInput 0).stream ∧
      (σ'.server.targetOutput 0).stream = (σ.server.targetOutput 0).stream ++
        (σ.input .localSide 0).stream.drop (σ.server.clientInput 0).past.length := by
  obtain ⟨σ, es, hr, ho, hin⟩ := run_relaying Key.identity
  exact ⟨σ, ho, hin, delivery_possible hr ho⟩

end Open

end LightSocks
