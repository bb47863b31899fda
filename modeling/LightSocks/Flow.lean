import LightSocks.HeapWindow

/-!
# What callbacks cannot do to a socket

A callback reads from input buffers and writes to output buffers.  What has come in on a
socket and what has gone out on it is not up to the callbacks, and what is queued stays
queued.

* `SocketEvent.arriving` — what a socket does to the two buffers, in turn.
* `Touched`, `Evolves` — what can become of one bufferevent, and of a heap, whatever the
  callbacks do; `W` says which bufferevents are written to.
* `Streams` — what can become of a heap in one event, whether it is one of a socket or a
  callback.
* `evolves_read`, …, `evolves_relay` — operation by operation.
-/

namespace LightSocks

variable {κ : Type} {W : BevPtr → Prop} {h h' h'' : Heap κ} {p q : BevPtr}
  {b b' b'' : Bufferevent κ}

/-! ## The socket -/

/-- The bytes that arrive. -/
def SocketEvent.arriving : SocketEvent → List UInt8
  | .recv data => data
  | _ => []

section Socket

variable (b : Bufferevent κ) (e : SocketEvent)

theorem Bufferevent.socket_input_stream :
    (b.socket e).input.stream = b.input.stream ++ e.arriving := by
  cases e with
  | recv data => exact Fifo.stream_push _ _
  | _ => exact (List.append_nil _).symm

theorem Bufferevent.socket_input_past : (b.socket e).input.past = b.input.past := by
  cases e <;> rfl

theorem Bufferevent.socket_output_stream : (b.socket e).output.stream = b.output.stream := by
  cases e with
  | flush n => exact Fifo.stream_pop _ _
  | _ => rfl

theorem Bufferevent.socket_output_past : b.output.past <+: (b.socket e).output.past := by
  cases e with
  | flush n => exact List.prefix_append _ _
  | _ => exact List.prefix_refl _

end Socket

/-- How many callbacks are scheduled: a read callback, one for CONNECTED, and one for all the other
bits. -/
def Bufferevent.scheduled (b : Bufferevent κ) : ℕ :=
  b.readPending.toNat + b.eventPending.connected.toNat +
    (b.eventPending.eof || b.eventPending.error || b.eventPending.timeout).toNat

/-- How many callbacks a socket can schedule. -/
def SocketEvent.signals : SocketEvent → ℕ
  | .flush _ => 0
  | _ => 1

theorem Bufferevent.scheduled_socket (b : Bufferevent κ) (e : SocketEvent) :
    (b.socket e).scheduled ≤ b.scheduled + e.signals := by
  have hone := fun x : Bool => Bool.toNat_le x
  cases e with
  | flush n => exact le_rfl
  | recv data =>
      simp only [scheduled, socket, SocketEvent.signals, Bool.toNat_true]
      omega
  | connected =>
      simp only [scheduled, socket, raise, What.merge, Bool.or_true, Bool.or_false,
        SocketEvent.signals, Bool.toNat_true]
      omega
  | _ =>
      simp only [scheduled, socket, raise, What.merge, Bool.or_true, Bool.or_false, Bool.true_or,
        SocketEvent.signals, Bool.toNat_true]
      omega

/-- A callback that is about to run is scheduled no more. -/
theorem Bufferevent.scheduled_takeRead (hdue : b.readDue = true) :
    b.takeRead.scheduled + 1 = b.scheduled := by
  simp only [readDue, Bool.and_eq_true] at hdue
  simp only [scheduled, takeRead, hdue.1.2, Bool.toNat_true, Bool.toNat_false]
  omega

theorem Bufferevent.scheduled_takeEvent {w : What} (hw : b.nextEvent = some w) :
    (b.takeEvent w).scheduled + 1 = b.scheduled := by
  unfold nextEvent at hw
  split at hw
  · rename_i hconn
    cases hw
    simp only [Bool.and_eq_true] at hconn
    simp only [scheduled, takeEvent, hconn.2, if_true, Bool.toNat_true, Bool.toNat_false]
    omega
  split at hw
  · rename_i hconn hany
    cases hw
    simp only [Bool.and_eq_true, What.any, Bool.not_eq_true'] at hconn hany
    have hnot : b.eventPending.connected = false := by
      simpa [hany.1.1] using hconn
    have hterm := hany.1.2
    rw [hnot, Bool.or_false] at hterm
    simp [scheduled, takeEvent, hnot, hterm, hany.2]
  · cases hw

/-! ## The callbacks -/

/-- What can become of a bufferevent that is written to only if `writable`. -/
structure Touched (writable : Prop) (b b' : Bufferevent κ) : Prop where
  arrived : b'.input.stream = b.input.stream
  taken : b.input.past <+: b'.input.past
  sent : b'.output.past = b.output.past
  queued : b.output.stream <+: b'.output.stream
  untold : ¬ writable → b'.output.stream = b.output.stream
  enabled : b.writeEnabled = true → b'.writeEnabled = true
  scheduled : b'.scheduled ≤ b.scheduled
  reported : b'.reported = b.reported

namespace Touched

variable {writable writable' : Prop}

theorem refl (writable : Prop) (b : Bufferevent κ) : Touched writable b b :=
  ⟨rfl, List.prefix_refl _, rfl, List.prefix_refl _, fun _ => rfl, id, le_rfl, rfl⟩

theorem trans (h₁ : Touched writable b b') (h₂ : Touched writable b' b'') :
    Touched writable b b'' :=
  ⟨h₂.arrived.trans h₁.arrived, h₁.taken.trans h₂.taken, h₂.sent.trans h₁.sent,
    h₁.queued.trans h₂.queued, fun hn => (h₂.untold hn).trans (h₁.untold hn),
    h₂.enabled ∘ h₁.enabled, h₂.scheduled.trans h₁.scheduled, h₂.reported.trans h₁.reported⟩

theorem mono (h : Touched writable b b') (himp : writable → writable') : Touched writable' b b' :=
  { h with untold := fun hn => h.untold fun hw => hn (himp hw) }

/-- Neither buffer is touched. -/
theorem of_buffers (hin : b'.input = b.input) (hout : b'.output = b.output)
    (henabled : b.writeEnabled = true → b'.writeEnabled = true)
    (hscheduled : b'.scheduled ≤ b.scheduled) (hreported : b'.reported = b.reported) :
    Touched writable b b' := by
  refine ⟨by rw [hin], by rw [hin], by rw [hout], by rw [hout], fun _ => by rw [hout], henabled,
    hscheduled, hreported⟩

theorem consume (b : Bufferevent κ) (n : ℕ) : Touched writable b (b.consume n) :=
  ⟨Fifo.stream_pop _ _, List.prefix_append _ _, rfl, List.prefix_refl _, fun _ => rfl, id,
    le_rfl, rfl⟩

theorem queue (hw : writable) (b : Bufferevent κ) (data : List UInt8) :
    Touched writable b (b.queue data) := by
  refine ⟨rfl, List.prefix_refl _, rfl, ?_, fun hn => absurd hw hn, id, le_rfl, rfl⟩
  rw [Bufferevent.queue, Fifo.stream_push]
  exact List.prefix_append _ _

end Touched

/-- What can become of a heap when only the bufferevents in `W` are written to. -/
structure Evolves (W : BevPtr → Prop) (h h' : Heap κ) : Prop where
  length : h.length ≤ h'.length
  old : ∀ (p : BevPtr) (b : Bufferevent κ), h[p]? = some b →
    ∃ b', h'[p]? = some b' ∧ Touched (W p) b b'
  new : ∀ (p : BevPtr) (b' : Bufferevent κ), h.length ≤ p → h'[p]? = some b' →
    b'.input.stream = [] ∧ b'.output.past = [] ∧ (¬ W p → b'.output.stream = [])
  idle : ∀ (p : BevPtr) (b' : Bufferevent κ), h.length ≤ p → h'[p]? = some b' →
    b'.scheduled = 0 ∧ b'.reported = {}

namespace Evolves

theorem refl (W : BevPtr → Prop) (h : Heap κ) : Evolves W h h := by
  refine ⟨le_refl _, fun p b hb => ⟨b, hb, .refl _ b⟩, ?_, ?_⟩
  all_goals
    intro p b' hp hb'
    exact absurd (List.getElem?_eq_some_iff.1 hb').1 (not_lt.2 hp)

theorem trans (h₁ : Evolves W h h') (h₂ : Evolves W h' h'') : Evolves W h h'' := by
  refine ⟨h₁.length.trans h₂.length, ?_, ?_, ?_⟩
  · intro p b hb
    obtain ⟨b', hb', ht⟩ := h₁.old p b hb
    obtain ⟨b'', hb'', ht'⟩ := h₂.old p b' hb'
    exact ⟨b'', hb'', ht.trans ht'⟩
  · intro p b'' hp hb''
    rcases lt_or_ge p h'.length with hlt | hge
    · have hb' := List.getElem?_eq_getElem hlt
      obtain ⟨harrived, hsent, huntold⟩ := h₁.new p _ hp hb'
      obtain ⟨c, hc, ht⟩ := h₂.old p _ hb'
      obtain rfl := Option.some.inj (hb''.symm.trans hc)
      exact ⟨ht.arrived.trans harrived, ht.sent.trans hsent,
        fun hn => (ht.untold hn).trans (huntold hn)⟩
    · exact h₂.new p b'' hge hb''
  · intro p b'' hp hb''
    rcases lt_or_ge p h'.length with hlt | hge
    · have hb' := List.getElem?_eq_getElem hlt
      obtain ⟨c, hc, ht⟩ := h₂.old p _ hb'
      obtain rfl := Option.some.inj (hb''.symm.trans hc)
      obtain ⟨hscheduled, hreported⟩ := h₁.idle p _ hp hb'
      exact ⟨Nat.le_zero.1 (ht.scheduled.trans hscheduled.le), ht.reported.trans hreported⟩
    · exact h₂.idle p b'' hge hb''

theorem mono {W' : BevPtr → Prop} (he : Evolves W h h') (himp : ∀ p, W p → W' p) :
    Evolves W' h h' := by
  refine ⟨he.length, ?_, ?_, he.idle⟩
  · intro p b hb
    obtain ⟨b', hb', ht⟩ := he.old p b hb
    exact ⟨b', hb', ht.mono (himp p)⟩
  · intro p b' hp hb'
    obtain ⟨harrived, hsent, huntold⟩ := he.new p b' hp hb'
    exact ⟨harrived, hsent, fun hn => huntold fun hw => hn (himp p hw)⟩

/-- **A bufferevent is changed.** -/
theorem set (hb : h[p]? = some b) (ht : Touched (W p) b b') : Evolves W h (h.set p b') := by
  refine ⟨(List.length_set).ge, ?_, ?_, ?_⟩
  · intro q c hc
    by_cases hpq : p = q
    · subst hpq
      obtain rfl := Option.some.inj (hb.symm.trans hc)
      exact ⟨b', List.getElem?_set_self (List.getElem?_eq_some_iff.1 hb).1, ht⟩
    · exact ⟨c, (List.getElem?_set_ne hpq).trans hc, .refl _ c⟩
  all_goals
    intro q c hq hc
    have hlt := (List.getElem?_eq_some_iff.1 hc).1
    rw [List.length_set] at hlt
    exact absurd hlt (not_lt.2 hq)

/-- **A bufferevent is created.** -/
theorem push (W : BevPtr → Prop) (h : Heap κ) (hin : b.input = .empty) (hout : b.output = .empty)
    (hidle : b.scheduled = 0) (hreported : b.reported = {}) : Evolves W h (h ++ [b]) := by
  have hnew : ∀ (p : BevPtr) (c : Bufferevent κ), h.length ≤ p → (h ++ [b])[p]? = some c →
      c = b := by
    intro p c hp hc
    rw [List.getElem?_append_right hp] at hc
    exact List.mem_singleton.1 (List.mem_of_getElem? hc)
  refine ⟨by simp, ?_, ?_, ?_⟩
  · intro p c hc
    refine ⟨c, ?_, .refl _ c⟩
    rw [List.getElem?_append_left (List.getElem?_eq_some_iff.1 hc).1]
    exact hc
  · intro p c hp hc
    obtain rfl := hnew p c hp hc
    rw [hin, hout]
    exact ⟨rfl, rfl, fun _ => rfl⟩
  · intro p c hp hc
    rw [hnew p c hp hc]
    exact ⟨hidle, hreported⟩

end Evolves

/-- What one event does to the queues: `arriving` is what the network delivers, to which
bufferevent. -/
structure Streams (W : BevPtr → Prop) (arriving : BevPtr → List UInt8) (h h' : Heap κ) : Prop where
  old : ∀ (p : BevPtr) (b : Bufferevent κ), h[p]? = some b → ∃ b', h'[p]? = some b' ∧
    b'.input.stream = b.input.stream ++ arriving p ∧ b.input.past <+: b'.input.past ∧
    b.output.past <+: b'.output.past ∧ (¬ W p → b'.output.stream = b.output.stream)
  new : ∀ (p : BevPtr) (b' : Bufferevent κ), h.length ≤ p → h'[p]? = some b' →
    b'.input.stream = [] ∧ b'.output.past = [] ∧ (¬ W p → b'.output.stream = [])

/-- A callback: nothing arrives. -/
theorem Evolves.streams (he : Evolves W h h') : Streams W (fun _ => []) h h' := by
  refine ⟨?_, he.new⟩
  intro p b hb
  obtain ⟨b', hb', ht⟩ := he.old p b hb
  refine ⟨b', hb', ?_, ht.taken, by rw [ht.sent], ht.untold⟩
  rw [ht.arrived, List.append_nil]

/-- A socket. -/
theorem Streams.socket (W : BevPtr → Prop) (hb : h[p]? = some b) (e : SocketEvent) :
    Streams W (fun q => if p = q then e.arriving else []) h (h.set p (b.socket e)) := by
  refine ⟨?_, ?_⟩
  · intro q c hc
    by_cases hpq : p = q
    · subst hpq
      obtain rfl := Option.some.inj (hb.symm.trans hc)
      refine ⟨_, List.getElem?_set_self (List.getElem?_eq_some_iff.1 hb).1, ?_, ?_,
        b.socket_output_past e, fun _ => b.socket_output_stream e⟩
      · rw [if_pos rfl]
        exact b.socket_input_stream e
      · rw [b.socket_input_past e]
    · refine ⟨c, (List.getElem?_set_ne hpq).trans hc, ?_, List.prefix_refl _, List.prefix_refl _,
        fun _ => rfl⟩
      rw [if_neg hpq, List.append_nil]
  · intro q c hq hc
    have hlt := (List.getElem?_eq_some_iff.1 hc).1
    rw [List.length_set] at hlt
    exact absurd hlt (not_lt.2 hq)

/-- What the socket of `p` has delivered. -/
def Heap.inputOf (h : Heap κ) (p : BevPtr) : Fifo UInt8 := ((h[p]?).map (·.input)).getD .empty

/-- What has been written to `p`. -/
def Heap.outputOf (h : Heap κ) (p : BevPtr) : Fifo UInt8 := ((h[p]?).map (·.output)).getD .empty

theorem Heap.inputOf_eq (hb : h[p]? = some b) : h.inputOf p = b.input := by
  rw [inputOf, hb]
  rfl

theorem Heap.outputOf_eq (hb : h[p]? = some b) : h.outputOf p = b.output := by
  rw [outputOf, hb]
  rfl

namespace Streams

variable {arriving : BevPtr → List UInt8}

theorem input_stream (hs : Streams W arriving h h') (hp : p < h.length) :
    (h'.inputOf p).stream = (h.inputOf p).stream ++ arriving p := by
  have hb := List.getElem?_eq_getElem hp
  obtain ⟨b', hb', harrived, -⟩ := hs.old p _ hb
  rw [Heap.inputOf_eq hb, Heap.inputOf_eq hb', harrived]

theorem output_past (hs : Streams W arriving h h') (p : BevPtr) :
    (h.outputOf p).past <+: (h'.outputOf p).past := by
  cases hb : h[p]? with
  | none =>
      rw [Heap.outputOf, hb]
      exact List.nil_prefix
  | some b =>
      obtain ⟨b', hb', -, -, hsent, -⟩ := hs.old p b hb
      rw [Heap.outputOf_eq hb, Heap.outputOf_eq hb']
      exact hsent

/-- Nothing has arrived on a bufferevent that is new, or that is not there yet. -/
theorem input_new (hs : Streams W arriving h h') (hp : h.length ≤ p) :
    (h'.inputOf p).stream = [] := by
  cases hb' : h'[p]? with
  | none =>
      rw [Heap.inputOf, hb']
      rfl
  | some b' =>
      rw [Heap.inputOf_eq hb']
      exact (hs.new p b' hp hb').1

theorem length_le (hs : Streams W arriving h h') (hp : p < h.length) : p < h'.length := by
  obtain ⟨b', hb', -⟩ := hs.old p _ (List.getElem?_eq_getElem hp)
  exact (List.getElem?_eq_some_iff.1 hb').1

end Streams

/-! ## The operations -/

theorem evolves_update {F : Bufferevent κ → Bufferevent κ}
    (hF : ∀ b, Touched (W p) b (F b)) : Ensures (Evolves W h) (h.update p F) := by
  intro h' hu
  obtain ⟨b, hb, -, rfl⟩ := Heap.update_ok hu
  exact .set hb (hF b)

theorem evolves_read (W : BevPtr → Prop) (h : Heap κ) (p : BevPtr) (n : ℕ) :
    Ensures (fun r => Evolves W h r.2) (h.read p n) := by
  rintro ⟨data, h'⟩ hr
  obtain ⟨b, hb, -, rfl⟩ := Heap.read_ok hr
  exact .set hb (.consume b n)

theorem evolves_write (hw : W p) (data : List UInt8) : Ensures (Evolves W h) (h.write p data) :=
  evolves_update fun b => .queue hw b data

theorem evolves_drainInput (n : ℕ) : Ensures (Evolves W h) (h.drainInput p n) :=
  evolves_update fun b => .consume b n

theorem evolves_setcb (c : κ) : Ensures (Evolves W h) (h.setcb p c) :=
  evolves_update fun _ => .of_buffers rfl rfl id le_rfl rfl

theorem evolves_enable : Ensures (Evolves W h) (h.enable p) :=
  evolves_update fun _ => .of_buffers rfl rfl (fun _ => rfl) le_rfl rfl

theorem evolves_setTimeouts (seconds : ℕ) : Ensures (Evolves W h) (h.setTimeouts p seconds) :=
  evolves_update fun _ => .of_buffers rfl rfl id le_rfl rfl

theorem evolves_socketConnect (re : ℤ) : Ensures (Evolves W h) (h.socketConnect p re) := by
  refine evolves_update fun b => ?_
  by_cases hre : re = 0
  · rw [if_pos hre]
    exact .of_buffers rfl rfl id le_rfl rfl
  · rw [if_neg hre]
    exact .refl _ b

theorem evolves_free : Ensures (Evolves W h) (h.free p) :=
  evolves_update fun _ => .of_buffers rfl rfl id le_rfl rfl

theorem evolves_socketNew (W : BevPtr → Prop) (h : Heap κ) (none : κ) (link : Link) :
    Evolves W h (h.socketNew none link).2 := .push W h rfl rfl rfl rfl

/-- The bulk functions write to their destination only. -/
theorem evolves_relay (table : Table) (src dst : Option BevPtr)
    (hw : ∀ q, dst = some q → W q) (h : Heap κ) :
    Ensures (Evolves W h) (Cipher.relay table src dst h) := by
  cases src with
  | none =>
      rw [Cipher.relay]
      exact .error _ _
  | some p =>
      induction hn : Cipher.pendingInput h p using Nat.strong_induction_on generalizing h with
      | _ n ih =>
          rw [HeapWindow.relay_eq_bind]
          refine .bind_eq fun r hr => ?_
          have hread := evolves_read W h p 2047 r hr
          refine .ite (fun _ => .ok hread) fun hne => ?_
          refine .bind_eq fun h₂ hround => ?_
          obtain ⟨q, hq, hwr⟩ := bind_eq_ok.1 hround
          obtain ⟨coded, -, hwr⟩ := bind_eq_ok.1 hwr
          obtain ⟨hlen, hpending⟩ := Cipher.pendingInput_read hr
          have hpos := List.length_pos_of_ne_nil hne
          have hsame := Cipher.pendingInput_write (p := p) hwr
          have hwrite := evolves_write (hw q (nonnull_ok hq)) coded h₂ hwr
          exact (ih _ (by omega) h₂ rfl).mono fun h' he => (hread.trans hwrite).trans he

end LightSocks
