import LightSocks.Client.Lifecycle

/-!
# Every event of the client keeps its connections in their phases

* `Joined.notify`, `Parked.notify` — a socket event of a side that is joined, and
  of one in drain mode.
* `Phase.socket`, `Phase.readCb` — any event of a connection returns and leads to
  the next phase.
* `Connections.step`, `connections_run` — the same of all connections at once, for
  one event and for a run.
-/

namespace LightSocks

open Cipher Transition

namespace Client

/-! ## A joined connection -/

section Events

variable {T : Table} {h : State} {k : ℕ} {re : ℤ} {s : Pair} {x : Side} {e : SocketEvent}

/-- One side has changed. -/
theorem HasPair.set_self (hs : HasPair h k s) (x : Side) (b : Bufferevent Callbacks) :
    (h.set (x.ptr k) b)[x.ptr k]? = some b :=
  List.getElem?_set_self (List.getElem?_eq_some_iff.1 (hs x)).1

/-- The other one has not. -/
theorem HasPair.set_other (hs : HasPair h k s) (x : Side) (b : Bufferevent Callbacks) :
    (h.set (x.ptr k) b)[x.other.ptr k]? = some (s x.other) := by
  rw [List.getElem?_set_ne (x.ptr_ne k), hs x.other]

/-- Changing one side alone. -/
theorem set_eq_setPair (hs : HasPair h k s) (x : Side) (b : Bufferevent Callbacks) :
    h.set (x.ptr k) b = setPair h k x b (s x.other) := (Heap.set_self (hs.set_other x b)).symm

/-- The socket events that raise EOF or ERROR. -/
def EndsSide : SocketEvent → Prop
  | .eof | .readError | .writeError | .connectError => True
  | _ => False

/-- The bufferevent `b` takes an EOF or ERROR: its callback gets `w`, and it becomes `c`. -/
structure TakesEnd (e : SocketEvent) (b : Bufferevent Callbacks) (w : What)
    (c : Bufferevent Callbacks) : Prop where
  live : c.live = b.live
  input : c.input = b.input
  output : c.output = b.output
  event : w.eof = true ∨ w.error = true
  notConnected : w.connected = false
  eof : c.reported.eof = true ↔ e = .eof
  error : c.reported.error = true ↔ e ≠ .eof

theorem TakesEnd.reported {b c : Bufferevent Callbacks} {w : What} (h : TakesEnd e b w c) :
    c.reported.eof = true ∨ c.reported.error = true := by
  by_cases he : e = .eof
  · exact .inl (h.eof.2 he)
  · exact .inr (h.error.2 he)

theorem Open.takesEnd {b : Bufferevent Callbacks} (hb : Open x re b) (he : EndsSide e) :
    TakesEnd e b (b.socket e).eventPending
      ((b.socket e).takeEvent (b.socket e).eventPending) := by
  have hnone := hb.noEvent
  have hnoEof := hb.noEof
  have hnoError := hb.noError
  cases e with
  | eof | readError | writeError | connectError =>
      refine ⟨rfl, rfl, rfl, ?_, ?_, ?_, ?_⟩
      all_goals
        simp [Bufferevent.socket, Bufferevent.raise, Bufferevent.takeEvent, What.merge, hnone,
          hnoEof, hnoError]
  | recv | flush | connected | timeout => exact he.elim

/-- An EOF or ERROR is followed by the event callback. -/
theorem notify_ends {p : BevPtr} {b : Bufferevent Callbacks} (he : EndsSide e) :
    notify T p e b h =
      callEvent T p b.callbacks b.eventPending (h.set p (b.takeEvent b.eventPending)) := by
  cases e with
  | eof | readError | writeError | connectError => rfl
  | recv | flush | connected | timeout => exact he.elim

/-- Only the remote side is ever connecting, and CONNECTED ends nothing. -/
theorem Open.connected {b : Bufferevent Callbacks} (hb : Open x re b)
    (he : b.Admits .connected) : x = .remoteSide ∧
      (b.socket .connected).eventPending = { connected := true } ∧
      Open x re ((b.socket .connected).takeEvent { connected := true }) := by
  have hnone := hb.noEvent
  have hlink : b.link = .connecting := he.2
  have hremote : x = .remoteSide := by
    cases x with
    | localSide =>
        rw [hb.localUp rfl] at hlink
        cases hlink
    | remoteSide => rfl
  refine ⟨hremote, by simp [Bufferevent.socket, Bufferevent.raise, What.merge, hnone],
    { hb with noEvent := ?_, noEof := ?_, noError := ?_, localUp := ?_, notDown := ?_ }⟩
  · simp [Bufferevent.socket, Bufferevent.raise, Bufferevent.takeEvent, What.merge, hnone]
  · simpa [Bufferevent.socket, Bufferevent.raise, Bufferevent.takeEvent, What.merge] using hb.noEof
  · simpa [Bufferevent.socket, Bufferevent.raise, Bufferevent.takeEvent, What.merge]
      using hb.noError
  · intro h
    rw [h] at hremote
    cases hremote
  · intro _ h
    cases h

/-- What a socket event of a joined side comes to, for the side itself and the other. -/
inductive Outcome (T : Table) (x : Side) (k : ℕ) (re : ℤ) (e : SocketEvent)
    (b d : Bufferevent Callbacks) : Bufferevent Callbacks → Bufferevent Callbacks → Prop where
  | goesOn {b' : Bufferevent Callbacks} (joined : Joined x k re b')
      (past : b'.input.past = b.input.past) (stream : b'.output.stream = b.output.stream) :
      Outcome T x k re e b d b' d
  | ends {c : Bufferevent Callbacks} (input : c.input = b.input)
      (output : c.output = b.output)
      (reported : c.reported.eof = true ∨ c.reported.error = true)
      (eof : c.reported.eof = true → e = .eof) :
      Outcome T x k re e b d c.drained.release
        (finish x.other (d.queue (b.input.pending.map (x.code T))))
  | timesOut {b' : Bufferevent Callbacks} (dead : b'.live = false)
      (reported : b'.reported.eof = false) : Outcome T x k re e b d b' d.release

/-- EOF and ERROR of a joined side. -/
theorem callEvent_ends (hs : HasPair h k s) (hy : (s x.other).live = true) {w : What}
    (hw : w.eof = true ∨ w.error = true) (hwc : w.connected = false)
    {c : Bufferevent Callbacks} (hc : c.live = true) :
    callEvent T (x.ptr k) (x.joinedCallbacks (x.other.ptr k)) w (h.set (x.ptr k) c) =
      .ok (setPair h k x c.drained.release
        (finish x.other ((s x.other).queue (c.input.pending.map (x.code T))))) := by
  rw [callEvent_ended hw hwc (hs.set_self x c) (hs.set_other x c) (x.ptr_ne k) hc hy, List.set_set]
  rfl

/-- EOF or ERROR of a joined side: a last read, and the other side is finished. -/
theorem Joined.notify_ends (hs : HasPair h k s) (hx : Joined x k re (s x))
    (hy : (s x.other).live = true) (he : EndsSide e) :
    Client.notify T (x.ptr k) e ((s x).socket e) h = .ok (setPair h k x
      (((s x).socket e).takeEvent ((s x).socket e).eventPending).drained.release
      (finish x.other ((s x.other).queue ((s x).input.pending.map (x.code T))))) := by
  have hend := hx.toOpen.takesEnd he
  have hcb : ((s x).socket e).callbacks = x.joinedCallbacks (x.other.ptr k) := by
    rw [← hx.callbacks]
    cases e <;> rfl
  rw [Client.notify_ends he, hcb, callEvent_ends hs hy hend.event hend.notConnected
    (hend.live.trans hx.live), hend.input]

/-- What any other socket event of a joined side comes to: both sides stay joined, or
a timeout frees both. -/
inductive Keeps (x : Side) (k : ℕ) (re : ℤ) (b d : Bufferevent Callbacks) :
    Bufferevent Callbacks → Bufferevent Callbacks → Prop where
  | goesOn {b' : Bufferevent Callbacks} (joined : Joined x k re b')
      (past : b'.input.past = b.input.past) (stream : b'.output.stream = b.output.stream) :
      Keeps x k re b d b' d
  | timesOut {b' : Bufferevent Callbacks} (dead : b'.live = false)
      (reported : b'.reported.eof = false) : Keeps x k re b d b' d.release

theorem Joined.notify_keeps (hs : HasPair h k s) (hx : Joined x k re (s x))
    (hy : (s x.other).live = true) (he : (s x).Admits e) (hne : ¬ EndsSide e) :
    ∃ b d, Client.notify T (x.ptr k) e ((s x).socket e) h = .ok (setPair h k x b d) ∧
      Keeps x k re (s x) (s x.other) b d := by
  cases e with
  | recv data =>
      refine ⟨(s x).socket (.recv data), s x.other, ?_, .goesOn { hx with } rfl rfl⟩
      rw [← set_eq_setPair hs]
      rfl
  | flush n =>
      refine ⟨(s x).socket (.flush n), s x.other, ?_, .goesOn { hx with } rfl (Fifo.stream_pop _ _)⟩
      rw [← set_eq_setPair hs]
      have hcb : callWrite (x.ptr k) (s x).callbacks =
          fun h : State => (.ok h : Except Fault State) := by
        rw [hx.callbacks]
        rfl
      show (if _ then callWrite (x.ptr k) (s x).callbacks _ else _) = _
      rw [hcb]
      exact ite_self _
  | eof | readError | writeError | connectError => exact absurd trivial hne
  | connected =>
      obtain ⟨rfl, hw, hopen⟩ := hx.toOpen.connected he
      refine ⟨_, s Side.remoteSide.other, ?_, .goesOn { hx with toOpen := hopen } rfl rfl⟩
      rw [← set_eq_setPair hs]
      show callEvent T _ (s .remoteSide).callbacks _ _ = _
      rw [hw, callEvent_connected (by rw [hx.callbacks]; rfl)]
  | timeout =>
      -- only the remote side has a timeout
      have hpos : 0 < (s x).readTimeout := he.2.2
      have hremote : x = .remoteSide := by
        cases x with
        | localSide => rw [hx.localTimeout rfl] at hpos; cases hpos
        | remoteSide => rfl
      subst hremote
      have hw : ((s .remoteSide).socket .timeout).eventPending =
          { reading := true, timeout := true } := by
        simp [Bufferevent.socket, Bufferevent.raise, What.merge, hx.noEvent]
      set c := ((s .remoteSide).socket .timeout).takeEvent { reading := true, timeout := true }
      refine ⟨c.release, (s .localSide).release, ?_, .timesOut rfl ?_⟩
      · show callEvent T _ (s .remoteSide).callbacks _ _ = _
        rw [hw, hx.callbacks]
        refine (callEvent_timeout (hs.set_self _ c) (hs.set_other _ c) (Side.remoteSide.ptr_ne k)
          hx.live hy).trans ?_
        rw [List.set_set]
        rfl
      · simpa [c, Bufferevent.socket, Bufferevent.raise, Bufferevent.takeEvent, Bufferevent.release,
          What.merge] using hx.noEof

/-- **A socket event of a joined side.** -/
theorem Joined.notify (hs : HasPair h k s) (hx : Joined x k re (s x))
    (hy : (s x.other).live = true) (he : (s x).Admits e) :
    ∃ b d, notify T (x.ptr k) e ((s x).socket e) h = .ok (setPair h k x b d) ∧
      Outcome T x k re e (s x) (s x.other) b d := by
  by_cases hend : EndsSide e
  · have htakes := hx.toOpen.takesEnd hend
    exact ⟨_, _, hx.notify_ends hs hy hend,
      .ends htakes.input htakes.output htakes.reported htakes.eof.1⟩
  · obtain ⟨b, d, hnotify, hkeeps⟩ := hx.notify_keeps hs hy he hend
    refine ⟨b, d, hnotify, ?_⟩
    cases hkeeps with
    | goesOn joined past stream => exact .goesOn joined past stream
    | timesOut dead reported => exact .timesOut dead reported

/-- A connection both of whose sides are freed: what is left to show, side by side. -/
theorem Next.closes {ev : Event} {b d : Bufferevent Callbacks}
    (hkept : ∀ y : Side, (s y).live = false → pairOf x b d y = s y)
    (hb : b.live = false) (hd : d.live = false)
    (hx : b.reported.eof = true → Conveyed T x (pairOf x b d) ∧ d.reported.eof = false ∧
      (d.reported.error = false → d.output.pending = []))
    (hy : d.reported.eof = true → Conveyed T x.other (pairOf x b d) ∧ b.reported.eof = false ∧
      (b.reported.error = false → b.output.pending = []))
    (hcx : (s x).live = true → Cause ev k x s (pairOf x b d))
    (hcy : (s x.other).live = true → Cause ev k x.other s (pairOf x b d)) :
    Next T ev k re s (pairOf x b d) := by
  refine ⟨.closed (Side.forall_side x ?_ ?_) (Side.forall_side x ?_ ?_), hkept,
    Side.forall_side x (fun h _ => hcx h) (fun h _ => hcy h)⟩
  · rw [pairOf_self]
    exact hb
  · rw [pairOf_other]
    exact hd
  · rw [pairOf_self, pairOf_other]
    exact hx
  · rw [Side.other_other, pairOf_other, pairOf_self]
    exact hy

/-- A side that is live has nothing to keep. -/
theorem Joined.kept {t : Pair} (hj : ∀ y : Side, Joined y k re (s y)) (y : Side)
    (hy : (s y).live = false) : t y = s y := by
  rw [(hj y).live] at hy
  cases hy

/-- A joined side that gets its last bytes and has some to write goes into drain mode. -/
theorem Joined.parks {d : Bufferevent Callbacks} {data : List UInt8} (hx : Joined x k re d)
    (hqueued : (d.queue data).output.pending ≠ []) : Parked x re (parked x (d.queue data)) :=
  { hx with callbacks := rfl, readEnabled := rfl, queued := hqueued }

/-- One side has ended, and the other is finished. -/
theorem Next.ends {c : Bufferevent Callbacks} (hj : ∀ y : Side, Joined y k re (s y))
    (hc : ∀ y : Side, (s y.other).output.stream = (s y).input.past.map (y.code T))
    (input : c.input = (s x).input)
    (reported : c.reported.eof = true ∨ c.reported.error = true)
    (eof : c.reported.eof = true → e = .eof) :
    Next T (.socket (x.ptr k) e) k re s (pairOf x c.drained.release
      (finish x.other ((s x.other).queue ((s x).input.pending.map (x.code T))))) := by
  set d := (s x.other).queue ((s x).input.pending.map (x.code T)) with hd
  have hno := (hj x.other).noEof
  have hcause : ∀ {t : Pair}, t x = c.drained.release → Cause (.socket (x.ptr k) e) k x s t :=
    fun ht => .ended (by rw [ht]; exact reported)
  have hconveyed : Conveyed T x (pairOf x c.drained.release (finish x.other d)) := by
    have hstream : (finish x.other d).output.stream = (s x).input.stream.map (x.code T) := by
      have hfin : (finish x.other d).output = d.output := by
        unfold finish
        split <;> rfl
      rw [hfin, hd, Bufferevent.queue, Fifo.stream_push, hc x, ← List.map_append]
      rfl
    refine ⟨by rw [pairOf_self]; rfl, ?_⟩
    rw [pairOf_other, pairOf_self, hstream, ← input]
    exact congrArg _ (Fifo.stream_drain _).symm
  by_cases hempty : d.output.pending = []
  · -- nothing is queued: both are freed
    have hfin : finish x.other d = d.release := if_pos hempty
    rw [hfin] at hconveyed ⊢
    refine .closes (Joined.kept hj) rfl rfl (fun _ => ⟨hconveyed, hno, fun _ => hempty⟩)
      (fun h => absurd (h.symm.trans hno) (by decide)) (fun _ => hcause (pairOf_self ..))
      fun _ => .nothingQueued ?_ (by rw [pairOf_other]; exact hempty) ?_
    · rw [Side.other_other, pairOf_self]
      rfl
    · rw [Side.other_other, pairOf_self]
      intro h
      rw [eof h]
  · -- the other side has to be drained
    have hfin : finish x.other d = parked x.other d := if_neg hempty
    rw [hfin] at hconveyed ⊢
    have hparked : Parked x.other re (parked x.other d) := (hj x.other).parks hempty
    refine ⟨.draining x ?_ hconveyed ?_, Joined.kept hj, Side.forall_side x ?_ ?_⟩
    · rw [pairOf_self]
      rfl
    · rw [pairOf_other]
      exact hparked
    · intro _ _
      exact hcause (pairOf_self ..)
    · intro _ h
      rw [pairOf_other, hparked.live] at h
      cases h

/-- What a joined connection turns into. -/
theorem Outcome.next {b d : Bufferevent Callbacks} (hj : ∀ y : Side, Joined y k re (s y))
    (hc : ∀ y : Side, (s y.other).output.stream = (s y).input.past.map (y.code T))
    (ho : Outcome T x k re e (s x) (s x.other) b d) :
    Next T (.socket (x.ptr k) e) k re s (pairOf x b d) := by
  cases ho with
  | @goesOn b' joined past stream =>
      refine ⟨.joined (Side.forall_side x ?_ ?_) (Side.forall_side x ?_ ?_), Joined.kept hj,
        Side.forall_side x ?_ ?_⟩
      · rw [pairOf_self]
        exact joined
      · rw [pairOf_other]
        exact hj x.other
      · rw [pairOf_self, pairOf_other, past]
        exact hc x
      · rw [Side.other_other, pairOf_self, pairOf_other, stream]
        simpa using hc x.other
      · intro _ h
        rw [pairOf_self, joined.live] at h
        cases h
      · intro _ h
        rw [pairOf_other, (hj x.other).live] at h
        cases h
  | ends input output reported eof => exact .ends hj hc input reported eof
  | timesOut dead reported =>
      have hno := (hj x.other).noEof
      refine .closes (Joined.kept hj) dead rfl ?_
        (fun h => absurd (h.symm.trans hno) (by decide)) ?_ ?_
      · intro h
        rw [reported] at h
        cases h
      · intro _
        exact .timedOut (by rw [pairOf_other]; rfl) (by rw [pairOf_other]; exact hno)
      · intro _
        exact .timedOut (by rw [Side.other_other, pairOf_self]; exact dead)
          (by rw [Side.other_other, pairOf_self]; exact reported)

/-! ## A connection that is drained -/

/-- What a socket event of a side in drain mode comes to. -/
inductive DrainOutcome (x : Side) (re : ℤ) (e : SocketEvent) (b : Bufferevent Callbacks) :
    Bufferevent Callbacks → Prop where
  | goesOn {b' : Bufferevent Callbacks} (parked : Parked x re b')
      (stream : b'.output.stream = b.output.stream) : DrainOutcome x re e b b'
  | drains {b' : Bufferevent Callbacks} (n : ℕ) (event : e = .flush n) (dead : b'.live = false)
      (stream : b'.output.stream = b.output.stream) (empty : b'.output.pending = [])
      (reported : b'.reported = b.reported) : DrainOutcome x re e b b'
  | fails {b' : Bufferevent Callbacks} (dead : b'.live = false)
      (stream : b'.output.stream = b.output.stream) (error : b'.reported.error = true)
      (noEof : b'.reported.eof = false) : DrainOutcome x re e b b'

/-- The output has drained: the side that is left is freed. -/
theorem Parked.notify_drained (hs : HasPair h k s) (hx : Parked x re (s x)) {n : ℕ}
    (hempty : ((s x).socket (.flush n)).output.pending = []) :
    Client.notify T (x.ptr k) (.flush n) ((s x).socket (.flush n)) h =
      .ok (setPair h k x ((s x).socket (.flush n)).release (s x.other)) := by
  show (if _ then callWrite (x.ptr k) (s x).callbacks _ else _) = _
  rw [if_pos hempty, hx.callbacks,
    callWrite_drained (b := (s x).socket (.flush n)) (hs.set_self x _) hx.live hempty,
    List.set_set, set_eq_setPair hs]

/-- EOF or ERROR in drain mode: the side that is left is freed with what it has. -/
theorem Parked.notify_ends (hs : HasPair h k s) (hx : Parked x re (s x)) (he : EndsSide e) :
    Client.notify T (x.ptr k) e ((s x).socket e) h = .ok (setPair h k x
      (((s x).socket e).takeEvent ((s x).socket e).eventPending).release (s x.other)) := by
  have hend := hx.toOpen.takesEnd he
  have hcb : ((s x).socket e).callbacks = x.drainCallbacks := by
    rw [← hx.callbacks]
    cases e <;> rfl
  rw [Client.notify_ends he, hcb, callEvent_drained hend.event hend.notConnected
    (hs.set_self x _) (hend.live.trans hx.live), List.set_set, set_eq_setPair hs]

theorem Parked.notify_fails (hs : HasPair h k s) (hx : Parked x re (s x)) (he : EndsSide e)
    (hne : e ≠ .eof) :
    ∃ b, Client.notify T (x.ptr k) e ((s x).socket e) h = .ok (setPair h k x b (s x.other)) ∧
      DrainOutcome x re e (s x) b := by
  have hend := hx.toOpen.takesEnd he
  exact ⟨_, hx.notify_ends hs he, .fails rfl (congrArg Fifo.stream hend.output)
    (hend.error.2 hne) (Bool.eq_false_iff.2 (mt hend.eof.1 hne))⟩

/-- **A socket event in drain mode.** -/
theorem Parked.notify (hs : HasPair h k s) (hx : Parked x re (s x)) (he : (s x).Admits e) :
    ∃ b, notify T (x.ptr k) e ((s x).socket e) h = .ok (setPair h k x b (s x.other)) ∧
      DrainOutcome x re e (s x) b := by
  have hread := hx.readEnabled
  cases e with
  | recv data => exact absurd he.2.2.1 (by simp [hread])
  | eof | readError => exact absurd he.2.2 (by simp [hread])
  | timeout => exact absurd he.2.1 (by simp [hread])
  | writeError | connectError => exact hx.notify_fails hs trivial (by simp)
  | connected =>
      obtain ⟨hremote, hw, hopen⟩ := hx.toOpen.connected he
      refine ⟨_, ?_, .goesOn { hx with toOpen := hopen } rfl⟩
      rw [← set_eq_setPair hs]
      show callEvent T _ (s x).callbacks _ _ = _
      rw [hw, callEvent_connected (by rw [hx.callbacks, hremote]; rfl)]
  | flush n =>
      have hstream : ((s x).socket (.flush n)).output.stream = (s x).output.stream :=
        Fifo.stream_pop _ _
      by_cases hempty : ((s x).socket (.flush n)).output.pending = []
      · exact ⟨((s x).socket (.flush n)).release, hx.notify_drained hs hempty,
          .drains n rfl rfl hstream hempty rfl⟩
      · refine ⟨(s x).socket (.flush n), ?_, .goesOn { hx with queued := hempty } hstream⟩
        show (if _ then callWrite (x.ptr k) (s x).callbacks _ else _) = _
        rw [if_neg hempty, set_eq_setPair hs]

/-- Draining goes on: `x` is the side in drain mode. -/
theorem Parked.goesOn {ev : Event} {b : Bufferevent Callbacks} (hx : Parked x re (s x))
    (hdead : (s x.other).live = false) (hc : Conveyed T x.other s) (hb : Parked x re b)
    (hstream : b.output.stream = (s x).output.stream) :
    Next T ev k re s (pairOf x b (s x.other)) := by
  refine ⟨.draining x.other ?_ ?_ ?_, Side.forall_side x ?_ ?_, Side.forall_side x ?_ ?_⟩
  · rw [pairOf_other]
    exact hdead
  · unfold Conveyed at hc ⊢
    rw [Side.other_other] at hc ⊢
    rw [pairOf_self, pairOf_other, hstream]
    exact hc
  · rw [Side.other_other, pairOf_self]
    exact hb
  · intro h
    rw [hx.live] at h
    cases h
  · intro _
    exact pairOf_other _ _ _
  · intro _ h
    rw [pairOf_self, hb.live] at h
    cases h
  · intro h _
    rw [hdead] at h
    cases h

/-- What a connection that is drained turns into. -/
theorem DrainOutcome.next {b : Bufferevent Callbacks} (hx : Parked x re (s x))
    (hdead : (s x.other).live = false) (hc : Conveyed T x.other s)
    (ho : DrainOutcome x re e (s x) b) :
    Next T (.socket (x.ptr k) e) k re s (pairOf x b (s x.other)) := by
  have hconveyed : b.output.stream = (s x).output.stream →
      Conveyed T x.other (pairOf x b (s x.other)) := by
    intro hstream
    unfold Conveyed at hc ⊢
    rw [Side.other_other] at hc ⊢
    rw [pairOf_self, pairOf_other, hstream]
    exact hc
  have hkept : ∀ y : Side, (s y).live = false → pairOf x b (s x.other) y = s y := by
    refine Side.forall_side x ?_ ?_
    · intro h
      rw [hx.live] at h
      cases h
    · intro _
      exact pairOf_other _ _ _
  have hother : ∀ {t : Pair}, (s x.other).live = true →
      Cause (.socket (x.ptr k) e) k x.other s t := by
    intro t h
    rw [hdead] at h
    cases h
  cases ho with
  | goesOn parked stream => exact hx.goesOn hdead hc parked stream
  | drains n event dead stream empty reported =>
      refine .closes hkept dead hdead ?_ (fun _ => ⟨hconveyed stream, ?_, fun _ => empty⟩) ?_ hother
      · intro h
        rw [reported, hx.noEof] at h
        cases h
      · rw [reported]
        exact hx.noEof
      · intro _
        exact .drained n (by rw [event]) hx.inDrainMode (by rw [pairOf_self]; exact empty)
  | fails dead stream error noEof =>
      refine .closes hkept dead hdead ?_
        (fun _ => ⟨hconveyed stream, noEof, ?_⟩)
        (fun _ => .ended (by rw [pairOf_self]; exact .inr error)) hother
      · intro h
        rw [noEof] at h
        cases h
      · intro h
        rw [error] at h
        cases h

/-! ## Every event of a connection -/

theorem live_of_admits {b : Bufferevent Callbacks} (he : b.Admits e) : b.live = true := by
  cases e <;> exact he.1

/-- **A socket event** of one side of a connection. -/
theorem Phase.socket (hp : Phase T k re s) (hs : HasPair h k s) (he : (s x).Admits e) :
    ∃ b d, notify T (x.ptr k) e ((s x).socket e) h = .ok (setPair h k x b d) ∧
      Next T (.socket (x.ptr k) e) k re s (pairOf x b d) := by
  cases hp with
  | joined joined conveyed =>
      obtain ⟨b, d, hnotify, ho⟩ := (joined x).notify hs (joined x.other).live he
      exact ⟨b, d, hnotify, ho.next joined conveyed⟩
  | draining y dead conveyed parked =>
      -- only the side that is left can have an event
      rcases y.eq_or_eq_other x with rfl | rfl
      · rw [live_of_admits he] at dead
        cases dead
      · obtain ⟨b, hnotify, ho⟩ := parked.notify hs he
        exact ⟨b, _, hnotify, ho.next parked (by simpa using dead) (by simpa using conveyed)⟩
  | closed dead _ =>
      have hlive := live_of_admits he
      rw [dead x] at hlive
      cases hlive

/-- The read callback of a joined side. -/
theorem Joined.readCb (hs : HasPair h k s) (hx : Joined x k re (s x))
    (hy : (s x.other).live = true) :
    callRead T (x.ptr k) (s x).callbacks (h.set (x.ptr k) (s x).takeRead) =
      .ok (setPair h k x (s x).takeRead.drained
        ((s x.other).queue ((s x).input.pending.map (x.code T)))) := by
  have hread := callRead_joined (T := T) (x := x) (hs.set_self x (s x).takeRead)
    (hs.set_other x _) (x.ptr_ne k) hx.live hy
  rw [hx.callbacks, hread, List.set_set]
  rfl

/-- **A read callback** of one side of a connection. -/
theorem Phase.readCb (hp : Phase T k re s) (hs : HasPair h k s) (hdue : (s x).readDue = true) :
    ∃ b d, callRead T (x.ptr k) (s x).callbacks (h.set (x.ptr k) (s x).takeRead) =
      .ok (setPair h k x b d) ∧ Next T (.readCb (x.ptr k)) k re s (pairOf x b d) := by
  have hlive : (s x).live = true := by
    simp only [Bufferevent.readDue, Bool.and_eq_true] at hdue
    exact hdue.1.1
  cases hp with
  | joined joined conveyed =>
      refine ⟨_, _, (joined x).readCb hs (joined x.other).live, ?_⟩
      refine ⟨.joined (Side.forall_side x ?_ ?_) (Side.forall_side x ?_ ?_),
        fun y hy => absurd hy (by simp [(joined y).live]), Side.forall_side x ?_ ?_⟩
      · rw [pairOf_self]
        exact { joined x with }
      · rw [pairOf_other]
        exact { joined x.other with }
      · rw [pairOf_self, pairOf_other, Bufferevent.queue, Fifo.stream_push, conveyed x,
          ← List.map_append]
        rfl
      · have h := conveyed x.other
        rw [Side.other_other] at h
        rw [Side.other_other, pairOf_self, pairOf_other]
        exact h
      · intro _ h
        rw [pairOf_self] at h
        exact absurd (h.symm.trans hlive) (by decide)
      · intro _ h
        rw [pairOf_other] at h
        exact absurd (h.symm.trans (joined x.other).live) (by decide)
  | draining y dead conveyed parked =>
      rcases y.eq_or_eq_other x with rfl | rfl
      · rw [hlive] at dead
        cases dead
      · -- no read callback is registered
        refine ⟨(s y.other).takeRead, s y.other.other, ?_, ?_⟩
        · rw [parked.callbacks, set_eq_setPair hs]
          rfl
        · exact parked.goesOn (by simpa using dead) (by simpa using conveyed) { parked with } rfl
  | closed dead _ =>
      rw [dead x] at hlive
      cases hlive

end Events

/-! ## All connections -/

/-- The two bufferevents of a connection that has just been accepted. -/
def accepted (re : ℤ) (k : ℕ) : Pair := fun x => {
  live := true
  callbacks := x.joinedCallbacks (x.other.ptr k)
  link := match x with
    | .localSide => .up
    | .remoteSide => if re = 0 then .connecting else .down
  readEnabled := true
  writeEnabled := true
  readTimeout := match x with
    | .localSide => 0
    | .remoteSide => 15
  input := .empty
  output := .empty
  readPending := false
  eventPending := {}
  reported := {} }

theorem joined_accepted (re : ℤ) (k : ℕ) (x : Side) : Joined x k re (accepted re k x) := by
  refine { live := rfl, writeEnabled := rfl, noEvent := rfl, noEof := rfl, noError := rfl,
           localUp := ?_, localTimeout := ?_, notDown := ?_, callbacks := rfl, readEnabled := rfl }
  · rintro rfl
    rfl
  · rintro rfl
    rfl
  · rintro rfl
    cases x with
    | localSide => simp [accepted]
    | remoteSide => simp [accepted]

theorem phase_accepted (T : Table) (re : ℤ) (k : ℕ) : Phase T k re (accepted re k) :=
  .joined (joined_accepted re k) fun _ => rfl

/-- **`listen_cb`** joins two new bufferevents. -/
theorem listenCb_eq (re : ℤ) {h : State} {k : ℕ} (hlen : h.length = 2 * k) :
    listenCb re h = .ok (h ++ [accepted re k .localSide, accepted re k .remoteSide]) := by
  by_cases hre : re = 0 <;>
    simp [listenCb, Heap.socketNew, Heap.setTimeouts, Heap.setcb, Heap.enable, Heap.socketConnect,
      Heap.update, Heap.deref, accepted, Bufferevent.register, Side.joinedCallbacks, Side.readCb,
      Side.eventCb, Side.other, Side.ptr, hlen, hre]

@[simp] theorem connectResults_append (es es' : List Event) :
    connectResults (es ++ es') = connectResults es ++ connectResults es' :=
  List.filterMap_append

theorem connectResults_accept (re : ℤ) : connectResults [.accept re] = [re] := rfl

/-- The connections of a client after the events `es`: each of them is in one of its
phases. -/
structure Connections (T : Table) (es : List Event) (h : State) : Prop where
  length : h.length = 2 * (connectResults es).length
  phase : ∀ k re, (connectResults es)[k]? = some re → ∃ s, HasPair h k s ∧ Phase T k re s

theorem Connections.nil (T : Table) : Connections T [] [] :=
  ⟨rfl, fun k re hk => by simp [connectResults] at hk⟩

/-- What one event does to every connection there is. -/
def Moves (T : Table) (es : List Event) (h : State) (e : Event) (h' : State) : Prop :=
  ∀ k re s, (connectResults es)[k]? = some re → HasPair h k s →
    ∃ t, HasPair h' k t ∧ Next T e k re s t

section Connections

variable {T : Table} {es : List Event} {h : State} {k : ℕ} {re : ℤ} {s : Pair}

/-- The connection a bufferevent belongs to. -/
theorem Connections.of_ptr (hc : Connections T es h) {x : Side} {b : Bufferevent Callbacks}
    (hb : h[x.ptr k]? = some b) : ∃ re s, (connectResults es)[k]? = some re ∧ HasPair h k s ∧
      Phase T k re s ∧ s x = b := by
  have hlt : x.ptr k < h.length := (List.getElem?_eq_some_iff.1 hb).1
  have hk : k < (connectResults es).length := Side.lt_of_ptr_lt (hc.length ▸ hlt)
  obtain ⟨s, hs, hp⟩ := hc.phase k _ (List.getElem?_eq_getElem hk)
  exact ⟨_, s, List.getElem?_eq_getElem hk, hs, hp,
    Option.some.inj ((hs x).symm.trans hb)⟩

/-- An event of one connection leaves the others alone. -/
theorem Connections.update (hc : Connections T es h) (hk : (connectResults es)[k]? = some re)
    (hs : HasPair h k s) {e : Event} (he : connectResults [e] = []) {x : Side}
    {b d : Bufferevent Callbacks} (hnext : Next T e k re s (pairOf x b d)) :
    Connections T (es ++ [e]) (setPair h k x b d) ∧ Moves T es h e (setPair h k x b d) := by
  have hmoves : Moves T es h e (setPair h k x b d) := by
    intro j re' t hj ht
    by_cases hjk : j = k
    · subst hjk
      obtain rfl := hs.unique ht
      obtain rfl : re = re' := Option.some.inj (hk.symm.trans hj)
      exact ⟨_, hs.setPair x b d, hnext⟩
    · obtain ⟨t', ht', hp⟩ := hc.phase j re' hj
      obtain rfl := ht.unique ht'
      exact ⟨t, ht.frame hjk x b d, .refl hp⟩
  refine ⟨⟨?_, ?_⟩, hmoves⟩
  · rw [length_setPair, connectResults_append, he, List.append_nil]
    exact hc.length
  · intro j re' hj
    rw [connectResults_append, he, List.append_nil] at hj
    obtain ⟨t, ht, -⟩ := hc.phase j re' hj
    obtain ⟨t', ht', hn⟩ := hmoves j re' t hj ht
    exact ⟨t', ht', hn.phase⟩

/-- A new connection is joined, and leaves the others alone. -/
theorem Connections.accept (hc : Connections T es h) (re : ℤ) :
    ∃ h', listenCb re h = .ok h' ∧ Connections T (es ++ [.accept re]) h' ∧
      Moves T es h (.accept re) h' := by
  set n := (connectResults es).length with hn
  have hpair : HasPair (h ++ [accepted re n .localSide, accepted re n .remoteSide]) n
      (accepted re n) := by
    intro x
    cases x <;> simp [Side.ptr, hc.length, hn]
  have hkept : ∀ {j t}, HasPair h j t →
      HasPair (h ++ [accepted re n .localSide, accepted re n .remoteSide]) j t := by
    intro j t ht x
    rw [List.getElem?_append_left (List.getElem?_eq_some_iff.1 (ht x)).1, ht x]
  refine ⟨_, listenCb_eq re hc.length, ⟨?_, ?_⟩, ?_⟩
  · rw [connectResults_append, connectResults_accept]
    simp only [List.length_append, List.length_cons, List.length_nil, hc.length]
    omega
  · intro j re' hj
    rw [connectResults_append] at hj
    rcases Nat.lt_or_ge j n with hlt | hge
    · rw [List.getElem?_append_left hlt] at hj
      obtain ⟨t, ht, hp⟩ := hc.phase j re' hj
      exact ⟨t, hkept ht, hp⟩
    · rw [List.getElem?_append_right hge, connectResults_accept, List.getElem?_singleton] at hj
      split at hj
      · obtain rfl := Option.some.inj hj
        obtain rfl : j = n := by omega
        exact ⟨_, hpair, phase_accepted T re _⟩
      · cases hj
  · intro j re' t hj ht
    obtain ⟨t', ht', hp⟩ := hc.phase j re' hj
    obtain rfl := ht.unique ht'
    exact ⟨t, hkept ht, .refl hp⟩

/-- What an event is, seen from the connection it belongs to. -/
inductive Fired (T : Table) (es : List Event) (h : State) : Event → Except Fault State → Prop where
  | accept (re : ℤ) : Fired T es h (.accept re) (listenCb re h)
  | socket {x : Side} {k : ℕ} {re : ℤ} {s : Pair} {e : SocketEvent}
      (accepted : (connectResults es)[k]? = some re) (pair : HasPair h k s)
      (phase : Phase T k re s) (admits : (s x).Admits e) :
      Fired T es h (.socket (x.ptr k) e) (notify T (x.ptr k) e ((s x).socket e) h)
  | readCb {x : Side} {k : ℕ} {re : ℤ} {s : Pair}
      (accepted : (connectResults es)[k]? = some re) (pair : HasPair h k s)
      (phase : Phase T k re s) (due : (s x).readDue = true) :
      Fired T es h (.readCb (x.ptr k))
        (callRead T (x.ptr k) (s x).callbacks (h.set (x.ptr k) (s x).takeRead))

theorem Connections.fired (hc : Connections T es h) {e : Event} {r : Except Fault State}
    (hf : fire T h e = some r) : Fired T es h e r := by
  unfold Client.fire at hf
  cases e with
  | accept re =>
      obtain rfl := Option.some.inj hf
      exact .accept re
  | socket p e =>
      obtain ⟨x, k, rfl⟩ := Side.exists_ptr p
      dsimp only at hf
      split at hf
      · cases hf
      rename_i b hb
      split at hf
      · rename_i he
        obtain rfl := Option.some.inj hf
        obtain ⟨re, s, hk, hs, hp, rfl⟩ := hc.of_ptr hb
        exact .socket hk hs hp he
      · cases hf
  | readCb p =>
      obtain ⟨x, k, rfl⟩ := Side.exists_ptr p
      dsimp only at hf
      split at hf
      · cases hf
      rename_i b hb
      split at hf
      · rename_i hdue
        obtain rfl := Option.some.inj hf
        obtain ⟨re, s, hk, hs, hp, rfl⟩ := hc.of_ptr hb
        exact .readCb hk hs hp hdue
      · cases hf

/-- **Every event returns**, and keeps every connection in one of its phases. -/
theorem Connections.fire (hc : Connections T es h) {e : Event} {r : Except Fault State}
    (hf : fire T h e = some r) :
    ∃ h', r = .ok h' ∧ Connections T (es ++ [e]) h' ∧ Moves T es h e h' := by
  cases hc.fired hf with
  | accept re => exact hc.accept re
  | socket hk hs hp he =>
      obtain ⟨b, d, hnotify, hnext⟩ := hp.socket hs he
      exact ⟨_, hnotify, hc.update hk hs rfl hnext⟩
  | readCb hk hs hp hdue =>
      obtain ⟨b, d, hread, hnext⟩ := hp.readCb hs hdue
      exact ⟨_, hread, hc.update hk hs rfl hnext⟩

theorem Connections.step (hc : Connections T es h) {e : Event} {h' : State}
    (hs : Step T h e h') : Connections T (es ++ [e]) h' ∧ Moves T es h e h' := by
  obtain ⟨h'', heq, hc', hm⟩ := hc.fire hs
  obtain rfl := Except.ok.inj heq
  exact ⟨hc', hm⟩

/-- **The run lemma.** -/
theorem connections_run {h : State} (hr : Run (Step T) [] es h) : Connections T es h :=
  hr.history (.nil T) fun _ _ _ _ _ hc hs => (hc.step hs).1

end Connections

end Client

end LightSocks
