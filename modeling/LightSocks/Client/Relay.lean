import LightSocks.Client.Drain
import LightSocks.Flow

/-!
# What the client passes on

Whatever happens to a connection, and in whatever order, each byte taken from one side is
queued for the other, translated once and in its place.  This holds in every phase, so a
connection that breaks off has passed on a beginning of what it has received and nothing
else.

* `Heap.buffers` — what callbacks that only register or free something leave alone.
* `Flows`, `Connections.flows` — what one event does to the four queues of a connection.
* `Relaying`, `client_relays` — what it comes to over a run.
-/

namespace LightSocks

open Cipher Transition

/-! ## The buffers -/

/-- The buffers of a bufferevent, and whether a read callback is scheduled. -/
def Bufferevent.buffers {κ : Type} (b : Bufferevent κ) : Fifo UInt8 × Fifo UInt8 × Bool :=
  (b.input, b.output, b.readPending)

/-- The buffers of all bufferevents. -/
def Heap.buffers {κ : Type} (h : Heap κ) : List (Fifo UInt8 × Fifo UInt8 × Bool) :=
  h.map Bufferevent.buffers

/-- The buffers are those of `h`. -/
def KeepsBuffers {κ : Type} (h h' : Heap κ) : Prop := Heap.buffers h' = Heap.buffers h

section Buffers

variable {κ : Type} {h h' h'' : Heap κ} {p : BevPtr} {b b' : Bufferevent κ}

theorem Bufferevent.input_eq (hb : b'.buffers = b.buffers) : b'.input = b.input :=
  congrArg Prod.fst hb

theorem Bufferevent.output_eq (hb : b'.buffers = b.buffers) : b'.output = b.output :=
  congrArg (fun r => r.2.1) hb

theorem Bufferevent.readPending_eq (hb : b'.buffers = b.buffers) :
    b'.readPending = b.readPending := congrArg (fun r => r.2.2) hb

theorem KeepsBuffers.refl (h : Heap κ) : KeepsBuffers h h := rfl

theorem KeepsBuffers.trans (h₁ : KeepsBuffers h h') (h₂ : KeepsBuffers h' h'') :
    KeepsBuffers h h'' := Eq.trans h₂ h₁

theorem KeepsBuffers.get (hk : KeepsBuffers h h') (hb : h[p]? = some b) (hb' : h'[p]? = some b') :
    b'.buffers = b.buffers := by
  have hp := congrArg (fun l => l[p]?) hk
  simpa only [Heap.buffers, List.getElem?_map, hb, hb', Option.map_some, Option.some.injEq] using hp

theorem keepsBuffers_free : Ensures (KeepsBuffers h) (h.free p) := by
  intro h' hu
  obtain ⟨b, hb, -, rfl⟩ := Heap.update_ok hu
  have hself : (Heap.buffers h)[p]? = some b.release.buffers := by
    rw [Heap.buffers, List.getElem?_map, hb]
    rfl
  rw [KeepsBuffers, Heap.buffers, List.map_set]
  obtain ⟨hlt, hget⟩ := List.getElem?_eq_some_iff.1 hself
  rw [← hget]
  exact List.set_getElem_self hlt

end Buffers

namespace Client

section Callbacks

variable {T : Table} {h : State} {p : BevPtr} {c : Callbacks} {w : What}

theorem keepsBuffers_freeBoth (partner : Option BevPtr) :
    Ensures (KeepsBuffers h) (freeBoth p partner h) := by
  unfold freeBoth
  refine keepsBuffers_free.bind fun h₁ hfirst => .bind_eq fun q _ => ?_
  exact keepsBuffers_free.mono fun h₂ hsecond => hfirst.trans hsecond

/-- **The write callback** touches no buffer. -/
theorem keepsBuffers_callWrite : Ensures (KeepsBuffers h) (callWrite p c h) := by
  unfold callWrite
  cases c.writecb with
  | none => exact .ok (.refl h)
  | some cb =>
      show Ensures _ (closeOnFinishedWriteCb p h)
      unfold closeOnFinishedWriteCb
      refine .bind_eq fun len _ => .ite (fun _ => keepsBuffers_free) fun _ => ?_
      exact .ok (.refl h)

/-- **The event callbacks** touch a buffer only when a side that is joined ends. -/
theorem keepsBuffers_callEvent (hend : w.eof = true ∨ w.error = true → c.cbarg = none) :
    Ensures (KeepsBuffers h) (callEvent T p c w h) := by
  unfold callEvent
  cases c.eventcb with
  | none => exact .ok (.refl h)
  | some cb =>
      cases cb with
      | localEventCb =>
          show Ensures _ (localEventCb T p w c.cbarg h)
          unfold localEventCb
          refine .ite (fun hw => ?_) fun _ => ?_
          · rw [hend hw]
            exact keepsBuffers_free
          · refine .ite (fun _ => keepsBuffers_freeBoth _) fun _ => ?_
            exact .ite (fun _ => keepsBuffers_freeBoth _) fun _ => keepsBuffers_freeBoth _
      | remoteEventCb =>
          show Ensures _ (remoteEventCb T p w c.cbarg h)
          unfold remoteEventCb
          refine .ite (fun _ => .ok (.refl h)) fun _ => .ite (fun hw => ?_) fun _ => ?_
          · rw [hend hw]
            exact keepsBuffers_free
          · exact .ite (fun _ => keepsBuffers_freeBoth _) fun _ => .ok (.refl h)

/-- What follows a socket event that does not end a joined side. -/
theorem keepsBuffers_notify {e : SocketEvent} {b : Bufferevent Callbacks}
    (hend : b.eventPending.eof = true ∨ b.eventPending.error = true → b.callbacks.cbarg = none) :
    Ensures (KeepsBuffers (h.set p b)) (notify T p e b h) := by
  have htake : KeepsBuffers (h.set p b) (h.set p (b.takeEvent b.eventPending)) := by
    rw [KeepsBuffers, Heap.buffers, Heap.buffers, List.map_set, List.map_set]
    rfl
  unfold notify
  split
  · exact .ok (.refl _)
  · exact .ite (fun _ => keepsBuffers_callWrite) fun _ => .ok (.refl _)
  · exact (keepsBuffers_callEvent hend).mono fun h' hk => htake.trans hk

end Callbacks

/-! ## One event -/

/-- The bytes that arrive at the bufferevent `p`. -/
def Event.arriving (p : BevPtr) : Event → List UInt8
  | .socket q e => if q = p then e.arriving else []
  | _ => []

/-- What waits in the input buffer waits for a read callback that is scheduled. -/
def Idle (b : Bufferevent Callbacks) : Prop := b.readPending = false → b.input.pending = []

theorem Idle.congr {b c : Bufferevent Callbacks} (hin : c.input = b.input)
    (hread : c.readPending = b.readPending) (hb : Idle b) : Idle c := by
  rw [Idle, hin, hread]
  exact hb

theorem Idle.socket {b : Bufferevent Callbacks} (e : SocketEvent) (hb : Idle b) :
    Idle (b.socket e) := by
  cases e with
  | recv data => exact fun hnone => absurd hnone (by simp [Bufferevent.socket])
  | eof | readError | writeError | connected | connectError | timeout | flush n => exact hb

/-- What the event `e` does to the queues of the connection `k`. -/
structure Flows (T : Table) (e : Event) (k : ℕ) (s t : Pair) : Prop where
  arrived : ∀ x : Side, (t x).input.stream = (s x).input.stream ++ e.arriving (x.ptr k)
  /-- What is taken from one side is queued for the other. -/
  relayed : ∀ x : Side, ∃ bytes, (t x).input.past = (s x).input.past ++ bytes ∧
    (t x.other).output.stream = (s x.other).output.stream ++ bytes.map (x.code T)
  sent : ∀ x : Side, (s x).output.past <+: (t x).output.past
  idle : (∀ x : Side, (t x).live = true) → ∀ x : Side, Idle (s x) → Idle (t x)

section Flows

variable {T : Table} {h h' : State} {k : ℕ} {re : ℤ} {s t : Pair} {x : Side} {e : Event}

/-- Nothing happens to the queues. -/
theorem Flows.unchanged (he : ∀ x : Side, e.arriving (x.ptr k) = [])
    (hin : ∀ x : Side, (t x).input = (s x).input) (hout : ∀ x : Side, (t x).output = (s x).output)
    (hidle : (∀ x : Side, (t x).live = true) → ∀ x : Side, Idle (s x) → Idle (t x)) :
    Flows T e k s t := by
  refine ⟨fun x => ?_, fun x => ⟨[], ?_, ?_⟩, fun x => ?_, hidle⟩
  · rw [he x, hin, List.append_nil]
  · rw [hin, List.append_nil]
  · rw [hout, List.map_nil, List.append_nil]
  · rw [hout]

theorem Event.arriving_self (e : SocketEvent) :
    Event.arriving (x.ptr k) (.socket (x.ptr k) e) = e.arriving := if_pos rfl

theorem Event.arriving_other (e : SocketEvent) :
    Event.arriving (x.other.ptr k) (.socket (x.ptr k) e) = [] := if_neg (x.ptr_ne k)

/-- **Everything that waits on the side `x` is passed on** to the other. -/
theorem Flows.passes {b d : Bufferevent Callbacks} (he : ∀ y : Side, e.arriving (y.ptr k) = [])
    (hbin : b.input = (s x).input.drain) (hbout : b.output = (s x).output)
    (hd : d.buffers = ((s x.other).queue ((s x).input.pending.map (x.code T))).buffers) :
    Flows T e k s (pairOf x b d) := by
  have hdin : d.input = (s x.other).input := Bufferevent.input_eq (b := (s x.other).queue _) hd
  have hdread : d.readPending = (s x.other).readPending :=
    Bufferevent.readPending_eq (b := (s x.other).queue _) hd
  have hdout : d.output = (s x.other).output.push ((s x).input.pending.map (x.code T)) :=
    Bufferevent.output_eq hd
  refine ⟨Side.forall_side x ?_ ?_, Side.forall_side x ⟨(s x).input.pending, ?_, ?_⟩ ⟨[], ?_, ?_⟩,
    Side.forall_side x ?_ ?_, fun _ => Side.forall_side x ?_ ?_⟩
  · rw [pairOf_self, hbin, he, Fifo.stream_drain, List.append_nil]
  · rw [pairOf_other, hdin, he, List.append_nil]
  · rw [pairOf_self, hbin]
    rfl
  · rw [pairOf_other, hdout, Fifo.stream_push]
  · rw [pairOf_other, hdin, List.append_nil]
  · rw [Side.other_other, pairOf_self, hbout, List.map_nil, List.append_nil]
  · rw [pairOf_self, hbout]
  · rw [pairOf_other, hdout, Fifo.past_push]
  · intro _ _
    rw [pairOf_self, hbin, Fifo.pending_drain]
  · rw [pairOf_other]
    exact Idle.congr hdin hdread

/-- Only the socket has touched the buffers. -/
theorem Flows.socket {e : SocketEvent} {b d : Bufferevent Callbacks}
    (hb : b.buffers = ((s x).socket e).buffers) (hd : d.buffers = (s x.other).buffers) :
    Flows T (.socket (x.ptr k) e) k s (pairOf x b d) := by
  have hbin := Bufferevent.input_eq hb
  have hbout := Bufferevent.output_eq hb
  have hdin := Bufferevent.input_eq hd
  have hdout := Bufferevent.output_eq hd
  have hbread := Bufferevent.readPending_eq hb
  have hdread := Bufferevent.readPending_eq hd
  refine ⟨Side.forall_side x ?_ ?_, Side.forall_side x ⟨[], ?_, ?_⟩ ⟨[], ?_, ?_⟩,
    Side.forall_side x ?_ ?_, fun _ => Side.forall_side x ?_ ?_⟩
  · rw [pairOf_self, hbin, Event.arriving_self, Bufferevent.socket_input_stream]
  · rw [pairOf_other, hdin, Event.arriving_other, List.append_nil]
  · rw [pairOf_self, hbin, Bufferevent.socket_input_past, List.append_nil]
  · rw [pairOf_other, hdout, List.map_nil, List.append_nil]
  · rw [pairOf_other, hdin, List.append_nil]
  · rw [Side.other_other, pairOf_self, hbout, Bufferevent.socket_output_stream, List.map_nil,
      List.append_nil]
  · rw [pairOf_self, hbout]
    exact Bufferevent.socket_output_past _ _
  · rw [pairOf_other, hdout]
  · rw [pairOf_self]
    exact fun hidle => (Idle.socket e hidle).congr hbin hbread
  · rw [pairOf_other]
    exact Idle.congr hdin hdread

/-- The socket events that do not end a side raise neither EOF nor ERROR. -/
theorem Open.ends_of_raised {b : Bufferevent Callbacks} (hb : Open x re b) {e : SocketEvent}
    (he : (b.socket e).eventPending.eof = true ∨ (b.socket e).eventPending.error = true) :
    EndsSide e := by
  have hnone := hb.noEvent
  cases e with
  | eof | readError | writeError | connectError => trivial
  | recv | flush | connected | timeout =>
      simp [Bufferevent.socket, Bufferevent.raise, What.merge, hnone] at he

theorem finish_buffers (x : Side) (d : Bufferevent Callbacks) :
    (finish x d).buffers = d.buffers := by
  unfold finish
  split <;> rfl

/-- **A socket event** of one side. -/
theorem Phase.flows_socket {e : SocketEvent} {b d : Bufferevent Callbacks} (hp : Phase T k re s)
    (hs : HasPair h k s) (he : (s x).Admits e)
    (hn : notify T (x.ptr k) e ((s x).socket e) h = .ok (setPair h k x b d)) :
    Flows T (.socket (x.ptr k) e) k s (pairOf x b d) := by
  have hpair := hs.setPair x b d
  -- nothing but the socket touches the buffers, unless a joined side ends
  have hkept : (((s x).socket e).eventPending.eof = true ∨
      ((s x).socket e).eventPending.error = true → ((s x).socket e).callbacks.cbarg = none) →
      Flows T (.socket (x.ptr k) e) k s (pairOf x b d) := by
    intro hend
    have hk := keepsBuffers_notify hend _ hn
    have hx := hk.get (hs.set_self x _) (hpair x)
    have hy := hk.get (hs.set_other x _) (hpair x.other)
    rw [pairOf_self] at hx
    rw [pairOf_other] at hy
    exact .socket hx hy
  have hcallbacks : ((s x).socket e).callbacks = (s x).callbacks := by
    cases e <;> rfl
  cases hp with
  | joined joined conveyed =>
      by_cases hend : EndsSide e
      · have hdo := (joined x).notify_ends (T := T) hs (joined x.other).live hend
        have htakes := (joined x).takesEnd hend
        have hfinish :=
          finish_buffers x.other ((s x.other).queue ((s x).input.pending.map (x.code T)))
        have heq := Except.ok.inj (hn.symm.trans hdo)
        have hpair' := hs.setPair x
          (((s x).socket e).takeEvent ((s x).socket e).eventPending).drained.release
          (finish x.other ((s x.other).queue ((s x).input.pending.map (x.code T))))
        rw [← heq] at hpair'
        rw [hpair.unique hpair']
        refine .passes (Side.forall_side x ?_ (Event.arriving_other e)) ?_ htakes.output hfinish
        · rw [Event.arriving_self]
          cases e with
          | recv data => exact hend.elim
          | _ => rfl
        · exact congrArg Fifo.drain htakes.input
      · exact hkept fun hraised => absurd ((joined x).ends_of_raised hraised) hend
  | draining y dead conveyed parked =>
      rcases y.eq_or_eq_other x with rfl | rfl
      · rw [live_of_admits he] at dead
        cases dead
      · refine hkept fun _ => ?_
        rw [hcallbacks, parked.callbacks]
        rfl
  | closed dead _ =>
      have hlive := live_of_admits he
      rw [dead x] at hlive
      cases hlive

/-- **A read callback** of one side. -/
theorem Phase.flows_readCb {b d : Bufferevent Callbacks} (hp : Phase T k re s)
    (hs : HasPair h k s) (hdue : (s x).readDue = true)
    (hr : callRead T (x.ptr k) (s x).callbacks (h.set (x.ptr k) (s x).takeRead) =
      .ok (setPair h k x b d)) :
    Flows T (.readCb (x.ptr k)) k s (pairOf x b d) := by
  have hpair := hs.setPair x b d
  have hlive : (s x).live = true := by
    simp only [Bufferevent.readDue, Bool.and_eq_true] at hdue
    exact hdue.1.1
  cases hp with
  | joined joined conveyed =>
      have hdo := (joined x).readCb (T := T) hs (joined x.other).live
      have heq := Except.ok.inj (hr.symm.trans hdo)
      have hpair' := hs.setPair x (s x).takeRead.drained
        ((s x.other).queue ((s x).input.pending.map (x.code T)))
      rw [← heq] at hpair'
      rw [hpair.unique hpair']
      exact .passes (fun _ => rfl) rfl rfl rfl
  | draining y dead conveyed parked =>
      rcases y.eq_or_eq_other x with rfl | rfl
      · rw [hlive] at dead
        cases dead
      · -- no read callback is registered
        have hcb : callRead T (y.other.ptr k) (s y.other).callbacks
            (h.set (y.other.ptr k) (s y.other).takeRead) =
              .ok (h.set (y.other.ptr k) (s y.other).takeRead) := by
          rw [parked.callbacks]
          rfl
        have heq := Except.ok.inj (hr.symm.trans hcb)
        have hpair' := hs.setPair y.other (s y.other).takeRead (s y.other.other)
        rw [← set_eq_setPair hs, ← heq] at hpair'
        rw [hpair.unique hpair']
        refine .unchanged (fun _ => rfl) (Side.forall_side y.other ?_ ?_)
          (Side.forall_side y.other ?_ ?_) fun hlive' => ?_
        · rw [pairOf_self]
          rfl
        · rw [pairOf_other]
        · rw [pairOf_self]
          rfl
        · rw [pairOf_other]
        · have hdead := hlive' y.other.other
          rw [pairOf_other, Side.other_other, dead] at hdead
          cases hdead
  | closed dead _ =>
      rw [dead x] at hlive
      cases hlive

/-! ## All connections -/

/-- Nothing arrives on a connection that the event does not belong to. -/
theorem Event.arriving_elsewhere {j : ℕ} (hjk : j ≠ k) (e : SocketEvent) (y : Side) :
    Event.arriving (y.ptr j) (.socket (x.ptr k) e) = [] :=
  if_neg fun hp => hjk (Side.ptr_inj hp).2.symm

/-- **What an event does to the queues of every connection there is.** -/
theorem Connections.flows {es : List Event} (hc : Connections T es h) (hstep : Step T h e h')
    (hs : HasPair h k s) : ∃ t, HasPair h' k t ∧ Flows T e k s t := by
  -- an event of another connection leaves this one alone
  have hframe : ∀ {j : ℕ} {y : Side} {b d : Bufferevent Callbacks}, k ≠ j →
      (∀ z : Side, e.arriving (z.ptr k) = []) → h' = setPair h j y b d →
      ∃ t, HasPair h' k t ∧ Flows T e k s t := by
    rintro j y b d hkj he rfl
    exact ⟨s, hs.frame hkj y b d, .unchanged he (fun _ => rfl) (fun _ => rfl) fun _ _ => id⟩
  have hfired := hc.fired hstep
  generalize hr : (Except.ok h' : Except Fault State) = r at hfired
  cases hfired with
  | accept re' =>
      obtain ⟨h'', hdo, -, -⟩ := hc.accept re'
      obtain rfl := Except.ok.inj (hr.trans hdo)
      rw [listenCb_eq re' hc.length] at hdo
      obtain rfl := Except.ok.inj hdo
      refine ⟨s, fun x => ?_, .unchanged (fun _ => rfl) (fun _ => rfl) (fun _ => rfl) fun _ _ => id⟩
      rw [List.getElem?_append_left (List.getElem?_eq_some_iff.1 (hs x)).1, hs x]
  | @socket y j re' s' e hj hs' hp he =>
      obtain ⟨b, d, hnotify, -⟩ := hp.socket hs' he
      obtain rfl := Except.ok.inj (hr.trans hnotify)
      by_cases hkj : k = j
      · subst hkj
        obtain rfl := hs.unique hs'
        exact ⟨_, hs.setPair y b d, hp.flows_socket hs he hnotify⟩
      · exact hframe hkj (Event.arriving_elsewhere hkj e) rfl
  | @readCb y j re' s' hj hs' hp hdue =>
      obtain ⟨b, d, hread, -⟩ := hp.readCb hs' hdue
      obtain rfl := Except.ok.inj (hr.trans hread)
      by_cases hkj : k = j
      · subst hkj
        obtain rfl := hs.unique hs'
        exact ⟨_, hs.setPair y b d, hp.flows_readCb hs hdue hread⟩
      · exact hframe hkj (fun _ => rfl) rfl

/-- Each side has been queued what was taken from the other, and nothing else. -/
def Relaying (T : Table) (s : Pair) : Prop :=
  ∀ x : Side, (s x.other).output.stream = (s x).input.past.map (x.code T)

theorem Flows.relaying (hf : Flows T e k s t) (hs : Relaying T s) : Relaying T t := by
  intro x
  obtain ⟨bytes, hpast, hstream⟩ := hf.relayed x
  rw [hpast, hstream, hs x, List.map_append]

/-- A connection that is there after an event was there before it, or has just been
accepted. -/
theorem Connections.old_or_new {es : List Event} (hc : Connections T es h)
    (hstep : Step T h e h') (hk : (connectResults (es ++ [e]))[k]? = some re) :
    (connectResults es)[k]? = some re ∨ HasPair h' k (accepted re k) := by
  rw [connectResults_append] at hk
  rcases Nat.lt_or_ge k (connectResults es).length with hlt | hge
  · rw [List.getElem?_append_left hlt] at hk
    exact .inl hk
  · rw [List.getElem?_append_right hge] at hk
    cases e with
    | socket | readCb => simp [connectResults] at hk
    | accept re' =>
        right
        rw [connectResults_accept, List.getElem?_singleton] at hk
        split at hk
        swap
        · cases hk
        obtain rfl := Option.some.inj hk
        obtain rfl : k = (connectResults es).length := by omega
        have hdo : listenCb re' h = .ok h' := Option.some.inj hstep
        rw [listenCb_eq re' hc.length] at hdo
        obtain rfl := Except.ok.inj hdo
        intro x
        cases x <;> simp [Side.ptr, hc.length]

/-- What any event does to the queues of the client. -/
theorem Connections.streams {es : List Event} (hc : Connections T es h) (hstep : Step T h e h') :
    Streams (fun _ => True) (fun p => e.arriving p) h h' := by
  constructor
  · intro p b hb
    obtain ⟨x, k, rfl⟩ := Side.exists_ptr p
    obtain ⟨re, s, -, hs, -, rfl⟩ := hc.of_ptr hb
    obtain ⟨t, ht, hf⟩ := hc.flows hstep hs
    obtain ⟨bytes, hpast, -⟩ := hf.relayed x
    refine ⟨t x, ht x, hf.arrived x, ?_, hf.sent x, fun hno => absurd trivial hno⟩
    rw [hpast]
    exact List.prefix_append _ _
  · intro p b hp hb
    obtain ⟨x, k, rfl⟩ := Side.exists_ptr p
    obtain ⟨re, t, hk, ht, -, rfl⟩ := (hc.step hstep).1.of_ptr hb
    rcases hc.old_or_new hstep hk with hold | hnew
    · obtain ⟨s, hs, -⟩ := hc.phase k re hold
      exact absurd (List.getElem?_eq_some_iff.1 (hs x)).1 (not_lt.2 hp)
    · obtain rfl := ht.unique hnew
      exact ⟨rfl, rfl, fun _ => rfl⟩

/-- A connection after any run: each side has been queued what was taken from the other, and
as long as both are there nothing waits without a read callback. -/
theorem relaying_run {es : List Event} (h : Run (Step T) [] es h')
    (hk : (connectResults es)[k]? = some re) (hs : HasPair h' k s) :
    Relaying T s ∧ ((∀ x : Side, (s x).live = true) → ∀ x : Side, Idle (s x)) := by
  have hall : ∀ k re s, (connectResults es)[k]? = some re → HasPair h' k s →
      Relaying T s ∧ ((∀ x : Side, (s x).live = true) → ∀ x : Side, Idle (s x)) := by
    refine h.history (I := fun es h => ∀ k re s, (connectResults es)[k]? = some re →
      HasPair h k s → Relaying T s ∧ ((∀ x : Side, (s x).live = true) → ∀ x : Side, Idle (s x)))
      ?_ ?_
    · rintro k re s ⟨⟩
    · intro es h e h' hr ih hstep k re t hk ht
      have hc := connections_run hr
      rcases hc.old_or_new hstep hk with hold | hnew
      · obtain ⟨s, hs, -⟩ := hc.phase k re hold
        obtain ⟨t', ht', hf⟩ := hc.flows hstep hs
        obtain rfl := ht.unique ht'
        obtain ⟨u, hu, hnext⟩ := (hc.step hstep).2 k re s hold hs
        obtain rfl := ht.unique hu
        obtain ⟨hrelaying, hidle⟩ := ih k re s hold hs
        refine ⟨hf.relaying hrelaying, fun hlive x => hf.idle hlive x (hidle (fun y => ?_) x)⟩
        -- what is there now was there before
        by_contra hdead
        have hkept := hnext.dead y (by simpa using hdead)
        exact hdead (hkept ▸ hlive y)
      · obtain rfl := ht.unique hnew
        exact ⟨fun _ => rfl, fun _ _ _ => rfl⟩
  exact hall k re s hk hs

/-- **Whatever the client has queued it has received**, byte by byte and in order, in every
connection and every phase of it. -/
theorem client_relays {es : List Event} (h : Run (Step T) [] es h')
    (hk : (connectResults es)[k]? = some re) (hs : HasPair h' k s) : Relaying T s :=
  (relaying_run h hk hs).1

/-- A byte that the application has sent before it closed. -/
theorem client_relays_upload : ∃ b d : Bufferevent Callbacks,
    Run (Step Key.identity.table) [] uploadEvents [b, d] ∧
      Relaying Key.identity.table (pairOf .localSide b d) := by
  obtain ⟨b, d, -, -, -, hr⟩ := run_upload Key.identity.table
  have hre : (connectResults uploadEvents)[0]? = some 0 := rfl
  exact ⟨b, d, hr, client_relays hr hre (hasPair_two b d)⟩

end Flows

end Client

end LightSocks
