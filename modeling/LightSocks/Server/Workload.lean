import LightSocks.Lib.Potential
import LightSocks.Server.CrossWiring
import LightSocks.Server.Flow

/-!
# The event loop does not spin

A callback runs because a socket has scheduled it, or a client has connected, or a lookup has
been completed.  The only work a callback makes is the one lookup that a client may ask for,
and that is paid for when the client connects.  This holds of all sessions together, wherever
their contexts are put.

* `World.work` — the callbacks that are scheduled, the lookups that are outstanding, and the
  clients that have not asked for theirs yet.
* `Step.workload` — a deferred callback takes one of those scheduled away, a socket adds one at
  most.
* `Aftermath.lookups` — a lookup is made by a client that has not made one.
* `callbacks_paid_for` — over whole runs of the server.
-/

namespace LightSocks

open Transition Weight

variable {P : Key} {w w' : World} {a : Addr} {s t : Session} {e : Event}

/-! ## Scheduled callbacks -/

/-- How many callbacks are scheduled on a heap. -/
def Heap.scheduled (h : Heap Callbacks) : ℕ := weight Bufferevent.scheduled h

/-- Callbacks schedule nothing. -/
theorem Evolves.scheduled_le {W : BevPtr → Prop} {h h' : Heap Callbacks} (he : Evolves W h h') :
    Heap.scheduled h' ≤ Heap.scheduled h := by
  refine weight_le (fun p b hb => ?_) fun p b' hp hb' => (he.idle p b' hp hb').1
  obtain ⟨b', hb', ht⟩ := he.old p b hb
  exact ⟨b', hb', ht.scheduled⟩

/-- The deferred callbacks an event runs. -/
def Event.deferred : Event → ℕ
  | .readCb _ _ | .eventCb _ => 1
  | _ => 0

/-- The callbacks an event schedules. -/
def Event.signals : Event → ℕ
  | .socket _ e => e.signals
  | _ => 0

/-- **The step lemma** for what the sockets schedule. -/
theorem Step.workload (h : Step P s e t) :
    e.deferred + Heap.scheduled t.bevs ≤ Heap.scheduled s.bevs + e.signals := by
  have hwritable : ∀ u : Session, Writable (fun _ => True) u := fun _ _ _ _ _ => trivial
  cases e with
  | socket p e =>
      obtain ⟨b, hb, -, hr⟩ := Session.fire_socket h
      cases hr
      have hset := weight_set (f := Bufferevent.scheduled) (b := b.socket e) hb
      have hsocket := b.scheduled_socket e
      simp only [Event.deferred, Event.signals, Heap.scheduled, Session.setBev]
      omega
  | readCb p choice =>
      obtain ⟨b, hb, hdue, hr⟩ := Session.fire_readCb h
      have hset := weight_set (f := Bufferevent.scheduled) (b := b.takeRead) hb
      have htake := Bufferevent.scheduled_takeRead hdue
      have hcall := (moderate_callRead (s := s.setBev p b.takeRead) (hwritable _)
        (fun _ => trivial) choice t hr.symm).scheduled_le
      simp only [Event.deferred, Event.signals, Heap.scheduled, Session.setBev] at hcall ⊢
      omega
  | eventCb p =>
      obtain ⟨b, what, hb, hw, hr⟩ := Session.fire_eventCb h
      have hset := weight_set (f := Bufferevent.scheduled) (b := b.takeEvent what) hb
      have htake := Bufferevent.scheduled_takeEvent hw
      have hcall := (moderate_callEvent (s := s.setBev p (b.takeEvent what)) (hwritable _) what t
        hr.symm).scheduled_le
      simp only [Event.deferred, Event.signals, Heap.scheduled, Session.setBev] at hcall ⊢
      omega
  | dnsDone nodename result re =>
      obtain ⟨-, hr⟩ := Session.fire_dnsDone h
      have hcall := (moderate_resolve (W := fun _ => True)
        (s := { s with dns := s.dns.erase nodename }) re result t hr.symm).scheduled_le
      simp only [Event.deferred, Event.signals, Nat.zero_add, Nat.add_zero]
      exact hcall

/-! ## Lookups -/

/-- A client whose handler is registered so has not asked for a host yet. -/
def Callbacks.mayAsk (c : Callbacks) : ℕ :=
  if c.readcb = some .localReadCb ∨ c.readcb = some .handleSecond then 1 else 0

/-- How many clients have not asked for a host yet, on a heap with these faces. -/
def mayAsk (faces : List (Bool × Callbacks)) : ℕ := weight (fun face => face.2.mayAsk) faces

/-- The runs of `dns_cb` in an event: for an answer, and within `handle_second` when the
resolver answers at once. -/
def Event.dnsCalls (P : Key) (h : Heap Callbacks) : Event → ℕ
  | .readCb p choice => if h.asks P p then choice.resolved.toList.length else 0
  | .dnsDone _ _ _ => 1
  | _ => 0

/-- One read callback makes one lookup at most. -/
theorem dnsCalls_readCb_le (P : Key) (g : Heap Callbacks) (p : BevPtr) (choice : Choice) :
    (Event.readCb p choice).dnsCalls P g ≤ 1 := by
  simp only [Event.dnsCalls]
  split
  · cases choice.resolved <;> simp
  · exact Nat.zero_le 1

section MayAsk

variable {h h' : Heap Callbacks} {p : BevPtr} {b : Bufferevent Callbacks}

/-- A client whose handler is changed. -/
theorem mayAsk_set (l : Bool) (rd : ReadCb) (arg : Option CtxPtr) (hb : h[p]? = some b) :
    mayAsk ((Heap.faces h).set p (l, clientCallbacks rd arg)) + b.callbacks.mayAsk =
      mayAsk (Heap.faces h) + (clientCallbacks rd arg).mayAsk := weight_set (getElem?_faces hb)

/-- A client that asks has not asked before, and does not ask again. -/
theorem mayAsk_asked (l : Bool) (arg : Option CtxPtr) (hb : h[p]? = some b)
    (hcb : b.callbacks.readcb = some .handleSecond) :
    mayAsk ((Heap.faces h).set p (l, clientCallbacks .handleLast arg)) + 1 =
      mayAsk (Heap.faces h) := by
  have hset := mayAsk_set l .handleLast arg hb
  have hwaits : b.callbacks.mayAsk = 1 := if_pos (.inr hcb)
  have hdone : (clientCallbacks .handleLast arg).mayAsk = 0 := rfl
  omega

/-- A connection to a target never asks. -/
theorem mayAsk_snoc (faces : List (Bool × Callbacks)) :
    mayAsk (faces ++ [(true, remoteCallbacks)]) = mayAsk faces := weight_append _ _ _

theorem Shrinks.mayAsk_le (hs : Shrinks h h') :
    mayAsk (Heap.faces h') ≤ mayAsk (Heap.faces h) := by
  refine weight_le (fun q face hq => ?_) fun q face hq hface => ?_
  · obtain ⟨c, hc, rfl⟩ := Option.map_eq_some_iff.1 (List.getElem?_map.symm.trans hq)
    have hlt : q < h'.length := hs.length ▸ (List.getElem?_eq_some_iff.1 hc).1
    have hc' := List.getElem?_eq_getElem hlt
    obtain ⟨d, hd, hcb, -⟩ := hs.old q _ hc'
    obtain rfl := Option.some.inj (hc.symm.trans hd)
    exact ⟨_, getElem?_faces hc', (congrArg Callbacks.mayAsk hcb).le⟩
  · rw [length_faces, ← hs.length, ← length_faces h'] at hq
    rw [List.getElem?_eq_none hq] at hface
    cases hface

end MayAsk

/-- **The step lemma** for the lookups: who makes one had not asked before. -/
theorem Aftermath.lookups (h : Aftermath P s e t) (hdns : s.dns = e.lookups) :
    e.dnsCalls P s.bevs + mayAsk (Heap.faces t.bevs) + t.dns.length ≤
      mayAsk (Heap.faces s.bevs) + s.dns.length := by
  cases h with
  | quiet ends connected kind faces context blank asks =>
      have hnone : t.dns.length = 0 := congrArg List.length blank.dns
      rw [faces]
      cases e with
      | socket | eventCb =>
          simp only [Event.dnsCalls]
          omega
      | readCb p choice =>
          have hnot : s.bevs.asks P p = false := asks p choice rfl
          simp only [Event.dnsCalls, hnot, Bool.false_eq_true, if_false]
          omega
      | dnsDone nodename result re =>
          have hone : s.dns.length = 1 := congrArg List.length hdns
          simp only [Event.dnsCalls]
          omega
  | greeted bev live readcb faces context dns connects replies =>
      have hnone : t.dns.length = 0 := congrArg List.length dns
      have hnot := asks_of_ne (P := P) bev (by simp [readcb])
      have hwaits : Callbacks.mayAsk _ = 1 := if_pos (.inl readcb)
      have hset := mayAsk_set true .handleSecond (some .socks5Ctx) bev
      have hnew : (clientCallbacks .handleSecond (some .socks5Ctx)).mayAsk = 1 := rfl
      rw [faces, live]
      simp only [Event.dnsCalls, hnot, Bool.false_eq_true, if_false]
      omega
  | @tookIpv4 p b choice _ _ _ _ bev live readcb kind faces context context' dns =>
      have hset := mayAsk_asked b.live none bev readcb
      have hnone : t.dns.length = 0 := congrArg List.length dns
      have honce := dnsCalls_readCb_le P s.bevs p choice
      rw [faces]
      omega
  | @asked p b choice _ _ _ bev live readcb kind faces context context' connects replies once =>
      have hset := mayAsk_asked b.live (some .socks5Ctx) bev readcb
      rw [faces]
      simp only [Event.dnsCalls]
      split <;> omega
  | @answeredAtOnce p b choice _ _ _ _ bev live readcb kind faces context context' dns =>
      have hset := mayAsk_asked b.live (some .socks5Ctx) bev readcb
      have hnone : t.dns.length = 0 := congrArg List.length dns
      have honce := dnsCalls_readCb_le P s.bevs p choice
      rw [faces, mayAsk_snoc]
      omega
  | answered kind faces context context' dns =>
      have hnone : t.dns.length = 0 := congrArg List.length dns
      have hone : s.dns.length = 1 := congrArg List.length hdns
      rw [faces, mayAsk_snoc]
      simp only [Event.dnsCalls]
      omega
  | connected reports faces context dns =>
      have hnone : t.dns.length = 0 := congrArg List.length dns
      rw [faces]
      simp only [Event.dnsCalls]
      omega
  | released ends context context' bevs live second_eq blank =>
      have hnone : t.dns.length = 0 := congrArg List.length blank.dns
      have hfewer := bevs.mayAsk_le
      simp only [Event.dnsCalls]
      omega

/-! ## The whole server -/

namespace WorldEvent

/-- The callbacks an event runs: `listen_cb`, those of the bufferevents, and `dns_cb`. -/
def calls (P : Key) (w : World) : WorldEvent → ℕ
  | .accept _ => 1
  | .event e => e.deferred + e.dnsCalls P w.bevs
  | .answer _ _ _ => 1

/-- What an event is worth: what a socket schedules, and for a client that connects `listen_cb`
and the one lookup it may ask for. -/
def signals : WorldEvent → ℕ
  | .accept _ => 2
  | .event e => e.signals
  | .answer _ _ _ => 0

end WorldEvent

/-- The work there is: callbacks that are scheduled, clients that have not asked for a host yet,
and lookups that are outstanding. -/
def World.work (w : World) : ℕ :=
  Heap.scheduled w.bevs + mayAsk (Heap.faces w.bevs) + w.dns.length

theorem WorldStep.workload {e : WorldEvent} (h : WorldStep P w e w') (hw : Consistent w) :
    e.calls P w + w'.work ≤ w.work + e.signals := by
  cases h.cases with
  | accept free =>
      have hnew := (Evolves.push (b := newClient) (fun _ => True) w.bevs rfl rfl rfl
        rfl).scheduled_le
      have hmay : mayAsk (Heap.faces (w.bevs ++ [newClient])) =
          mayAsk (Heap.faces w.bevs) + 1 := by
        rw [Heap.faces, List.map_append, mayAsk, weight_append]
        rfl
      simp only [WorldEvent.calls, WorldEvent.signals, World.work, World.accepting]
      omega
  | @event e p origin t hbev horigin hstep =>
      have hcalled := Called.of_event hw hbev horigin hstep
      have hscheduled := hstep.workload
      have hlookups := hcalled.aftermath.lookups rfl
      have hnone : e.lookups = [] := Event.lookups_of_bev hbev
      rw [hnone] at hlookups
      simp only [WorldEvent.calls, WorldEvent.signals, World.work, World.absorb,
        List.length_append, List.length_map]
      simp only [World.view, List.length_nil] at hscheduled hlookups
      omega
  | @answer lookup result re t hmem hstep =>
      have hcalled := Called.of_answer hw hmem hstep
      have hscheduled := hstep.workload
      have hlookups := hcalled.aftermath.lookups rfl
      have herase := List.length_erase_of_mem hmem
      have hpos := List.length_pos_of_mem hmem
      simp only [WorldEvent.calls, WorldEvent.signals, World.work, World.absorb,
        List.length_append, List.length_map]
      simp only [World.view, Event.deferred, Event.signals, Event.dnsCalls, Event.lookups,
        List.length_singleton] at hscheduled hlookups
      omega

/-- **The event loop does not spin.**  From every state that can be reached, wherever the
contexts are put: the callbacks that have run, and the work there is then, come to no more than
the work there was and what the sockets and the clients have signalled since. -/
theorem callbacks_paid_for {es₀ es : List WorldEvent} {n : ℕ}
    (h₀ : Run (WorldStep P) .start es₀ w)
    (h : Costs (WorldStep P) (fun w e => e.calls P w) w es w' n) :
    n + w'.work ≤ w.work + (es.map (·.signals)).sum :=
  h.potential (Φ := World.work) (I := Consistent)
    (fun _ _ _ hw hstep => ⟨hstep.consistent hw, hstep.workload hw⟩)
    (h₀.invariant (fun _ _ _ hw hstep => hstep.consistent hw) Consistent.start)

/-- A client that connects and asks for a host, and the answer to it: `listen_cb`, two messages
and `dns_cb`. -/
theorem callbacks_paid_for_request : ∃ (w : World) (n : ℕ),
    Costs (WorldStep Key.identity) (fun w e => e.calls Key.identity w) .start
      (requestEvents Key.identity [0x61] 0x00 0x50 ++
        [.answer (requestedLookup [0x61] 0x00 0x50) (.found ⟨.inet, ⟨127, 0, 0, 1⟩⟩) 0]) w n ∧
    n + w.work ≤ 0 + 4 := by
  obtain ⟨c, w, hr, -⟩ := run_answered Key.identity [0x61] 0x00 0x50 .example ⟨127, 0, 0, 1⟩ 0
  obtain ⟨n, hn⟩ := hr.costs fun w e => e.calls Key.identity w
  exact ⟨w, n, hn, callbacks_paid_for (.nil _) hn⟩

end LightSocks
