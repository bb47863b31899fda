import LightSocks.Client.Callbacks

/-!
# The life of a client connection

The two bufferevents of a connection are allocated together, the local one first,
so that they are the entries `2 * k` and `2 * k + 1` of the heap.  What the two
callbacks of a kind do differs in the table and in nothing else, and everything
here is said once for both sides.

* `Side` — local or remote, with what is registered and what table is used there.
* `callRead_joined`, `callEvent_ended`, `callEvent_drained`, `callEvent_timeout`,
  `callWrite_drained` — the callbacks, one equation each.
* `Joined`, `Parked`, `Phase` — the phases of a connection: both sides joined, the
  one that is left drained, everything freed.
* `Next` — what one event can do to a connection, and why it frees a side.
-/

namespace LightSocks

open Cipher Transition

namespace Client

/-! ## The two sides -/

/-- The two ends of a connection. -/
inductive Side where
  | localSide
  | remoteSide
  deriving DecidableEq, Repr

namespace Side

def other : Side → Side
  | localSide => remoteSide
  | remoteSide => localSide

/-- The bufferevent of this side of the connection `k`. -/
def ptr (k : ℕ) : Side → BevPtr
  | localSide => 2 * k
  | remoteSide => 2 * k + 1

def readCb : Side → ReadCb
  | localSide => .localReadCb
  | remoteSide => .remoteReadCb

def eventCb : Side → EventCb
  | localSide => .localEventCb
  | remoteSide => .remoteEventCb

/-- What becomes of a byte that is read on this side. -/
def code (password : Table) : Side → UInt8 → UInt8
  | localSide => password.lookup
  | remoteSide => password.inverse.lookup

/-- What is registered as long as the other side `partner` is there. -/
def joinedCallbacks (x : Side) (partner : BevPtr) : Callbacks :=
  ⟨some x.readCb, none, some x.eventCb, some partner⟩

/-- What is registered in drain mode. -/
def drainCallbacks (x : Side) : Callbacks :=
  ⟨none, some .closeOnFinishedWriteCb, some x.eventCb, none⟩

@[simp] theorem other_other (x : Side) : x.other.other = x := by
  cases x <;> rfl

theorem other_ne (x : Side) : x.other ≠ x := by
  cases x <;> decide

theorem eq_or_eq_other (x y : Side) : y = x ∨ y = x.other := by
  cases x <;> cases y <;> simp [other]

/-- What holds of one side and of the other holds of both. -/
theorem forall_side {p : Side → Prop} (x : Side) (h : p x) (h' : p x.other) (y : Side) : p y := by
  rcases x.eq_or_eq_other y with rfl | rfl
  · exact h
  · exact h'

theorem ptr_ne (x : Side) (k : ℕ) : x.ptr k ≠ x.other.ptr k := by
  cases x <;> simp [ptr, other]

theorem ptr_inj {x y : Side} {j k : ℕ} (h : x.ptr j = y.ptr k) : x = y ∧ j = k := by
  have hn : (x.ptr j : ℕ) = y.ptr k := h
  cases x <;> cases y <;> simp only [ptr, BevPtr] at hn
  · exact ⟨rfl, by omega⟩
  · omega
  · omega
  · exact ⟨rfl, by omega⟩

theorem lt_of_ptr_lt {x : Side} {k n : ℕ} (h : x.ptr k < 2 * n) : k < n := by
  have hn : (x.ptr k : ℕ) < 2 * n := h
  cases x <;> simp only [ptr, BevPtr] at hn <;> omega

theorem exists_ptr (p : BevPtr) : ∃ (x : Side) (k : ℕ), p = x.ptr k := by
  rcases Nat.even_or_odd' p with ⟨k, rfl | rfl⟩
  · exact ⟨localSide, k, rfl⟩
  · exact ⟨remoteSide, k, rfl⟩

end Side

/-! ## What the callbacks do -/

/-- The side that is left with output: no read callback, no argument, no reading,
and the write callback that frees it. -/
def parked (x : Side) (d : Bufferevent Callbacks) : Bufferevent Callbacks :=
  { d.register x.drainCallbacks with readEnabled := false }

/-- What becomes of the side that is left: freed if nothing is queued. -/
def finish (x : Side) (d : Bufferevent Callbacks) : Bufferevent Callbacks :=
  if d.output.pending = [] then d.release else parked x d

section Callbacks

variable {T : Table} {h : State} {p q : BevPtr} {b d : Bufferevent Callbacks} {x : Side}

theorem outputLength_eq_ok (hp : h[p]? = some b) (hl : b.live = true) :
    h.outputLength p = .ok b.output.pending.length := by
  simp [Heap.outputLength, Heap.deref_eq_ok hp hl]

theorem free_eq_ok (hp : h[p]? = some b) (hl : b.live = true) :
    h.free p = .ok (h.set p b.release) := Heap.update_eq_ok hp hl _

/-- **The read callbacks** move everything over to the other side. -/
theorem callRead_joined (hp : h[p]? = some b) (hq : h[q]? = some d) (hpq : p ≠ q)
    (hb : b.live = true) (hd : d.live = true) :
    callRead T p (x.joinedCallbacks q) h =
      .ok ((h.set p b.drained).set q (d.queue (b.input.pending.map (x.code T)))) := by
  cases x with
  | localSide => exact pass_eq T hp hq hpq hb hd
  | remoteSide => exact pass_eq T.inverse hp hq hpq hb hd

/-- What the event callbacks do once everything has been moved over to the other
side. -/
theorem finish_eq (hp : h[p]? = some b) (hq : h[q]? = some d) (hpq : p ≠ q) (hb : b.live = true)
    (hd : d.live = true) (x : Side) : (do
      let len ← h.outputLength q
      let h ← if len ≠ 0 then do
          let h ← h.setcb q x.drainCallbacks
          h.disableRead q
        else h.free q
      h.free p) = .ok ((h.set p b.release).set q (finish x d)) := by
  have hq' : q < h.length := (List.getElem?_eq_some_iff.1 hq).1
  have hp' : ∀ c, (h.set q c)[p]? = some b := by
    intro c
    rw [List.getElem?_set_ne (Ne.symm hpq), hp]
  rw [outputLength_eq_ok hq hd, ok_bind]
  unfold finish
  by_cases hempty : d.output.pending = []
  · rw [if_neg (by simp [hempty]), if_pos hempty, free_eq_ok hq hd, ok_bind]
    dsimp only
    rw [free_eq_ok (hp' _) hb, List.set_comm _ _ hpq]
  · rw [if_pos (by simpa using hempty), if_neg hempty, Heap.setcb, Heap.update_eq_ok hq hd, ok_bind,
      Heap.disableRead, Heap.update_eq_ok (List.getElem?_set_self hq') (by simpa using hd),
      List.set_set, ok_bind]
    dsimp only
    rw [free_eq_ok (hp' _) hb, List.set_comm _ _ hpq]
    rfl

/-- **EOF and ERROR of a joined side**: a last read, the other side is finished,
this side is freed. -/
theorem callEvent_ended {w : What} (hw : w.eof = true ∨ w.error = true)
    (hc : w.connected = false) (hp : h[p]? = some b) (hq : h[q]? = some d) (hpq : p ≠ q)
    (hb : b.live = true) (hd : d.live = true) :
    callEvent T p (x.joinedCallbacks q) w h = .ok ((h.set p b.drained.release).set q
      (finish x.other (d.queue (b.input.pending.map (x.code T))))) := by
  have hp' : p < h.length := (List.getElem?_eq_some_iff.1 hp).1
  have hq' : q < (h.set p b.drained).length := by
    rw [List.length_set]
    exact (List.getElem?_eq_some_iff.1 hq).1
  -- the state after the last read
  set d₁ := d.queue (b.input.pending.map (x.code T)) with hd₁
  set h₁ := (h.set p b.drained).set q d₁ with hh₁
  have hp₁ : h₁[p]? = some b.drained := by
    rw [hh₁, List.getElem?_set_ne (Ne.symm hpq), List.getElem?_set_self hp']
  have hfin := finish_eq hp₁ (List.getElem?_set_self hq' : h₁[q]? = some d₁) hpq hb hd x.other
  have hset : (h₁.set p b.drained.release).set q (finish x.other d₁) =
      (h.set p b.drained.release).set q (finish x.other d₁) := by
    rw [hh₁, List.set_comm _ _ (Ne.symm hpq), List.set_set, List.set_set]
  have hread := callRead_joined (T := T) (x := x) hp hq hpq hb hd
  rw [hset] at hfin
  cases x with
  | localSide =>
      have hread' : localReadCb T p (some q) h = .ok h₁ := hread
      show localEventCb T p w (some q) h = _
      unfold localEventCb
      rw [if_pos hw]
      simp only [hread', ok_bind]
      exact hfin
  | remoteSide =>
      have hread' : remoteReadCb T p (some q) h = .ok h₁ := hread
      show remoteEventCb T p w (some q) h = _
      unfold remoteEventCb
      rw [if_neg (by simp [hc]), if_pos hw]
      simp only [outputLength_eq_ok hq hd, hread', ok_bind]
      exact hfin

/-- EOF and ERROR in drain mode. -/
theorem callEvent_drained {w : What} (hw : w.eof = true ∨ w.error = true)
    (hc : w.connected = false) (hp : h[p]? = some b) (hb : b.live = true) :
    callEvent T p x.drainCallbacks w h = .ok (h.set p b.release) := by
  cases x with
  | localSide =>
      show localEventCb T p w none h = _
      unfold localEventCb
      rw [if_pos hw]
      exact free_eq_ok hp hb
  | remoteSide =>
      show remoteEventCb T p w none h = _
      unfold remoteEventCb
      rw [if_neg (by simp [hc]), if_pos hw]
      exact free_eq_ok hp hb

/-- A read TIMEOUT of the remote side frees both. -/
theorem callEvent_timeout (hp : h[p]? = some b) (hq : h[q]? = some d) (hpq : p ≠ q)
    (hb : b.live = true) (hd : d.live = true) :
    callEvent T p (Side.remoteSide.joinedCallbacks q) { reading := true, timeout := true } h =
      .ok ((h.set p b.release).set q d.release) := by
  have hq' : (h.set p b.release)[q]? = some d := by
    rw [List.getElem?_set_ne hpq, hq]
  show freeBoth p (some q) h = _
  unfold freeBoth
  rw [free_eq_ok hp hb, ok_bind, nonnull_some, ok_bind]
  exact free_eq_ok hq' hd

/-- CONNECTED changes nothing. -/
theorem callEvent_connected {c : Callbacks} (hc : c.eventcb = some .remoteEventCb) :
    callEvent T p c { connected := true } h = .ok h := by
  unfold callEvent
  rw [hc]
  rfl

/-- **The write callback of drain mode** frees the side that is left. -/
theorem callWrite_drained (hp : h[p]? = some b) (hb : b.live = true)
    (hempty : b.output.pending = []) :
    callWrite p x.drainCallbacks h = .ok (h.set p b.release) := by
  show closeOnFinishedWriteCb p h = _
  unfold closeOnFinishedWriteCb
  rw [outputLength_eq_ok hp hb, ok_bind, hempty, if_pos List.length_nil]
  exact free_eq_ok hp hb

end Callbacks

/-! ## The phases of a connection -/

/-- The two bufferevents of a connection. -/
abbrev Pair := Side → Bufferevent Callbacks

/-- The pair with `b` on the side `x` and `d` on the other. -/
def pairOf (x : Side) (b d : Bufferevent Callbacks) : Pair := fun y => if y = x then b else d

@[simp] theorem pairOf_self (x : Side) (b d : Bufferevent Callbacks) : pairOf x b d x = b :=
  if_pos rfl

@[simp] theorem pairOf_other (x : Side) (b d : Bufferevent Callbacks) :
    pairOf x b d x.other = d := if_neg x.other_ne

/-- The heap holds the pair `s` as the connection `k`. -/
def HasPair (h : State) (k : ℕ) (s : Pair) : Prop := ∀ x : Side, h[x.ptr k]? = some (s x)

/-- Put another pair in the place of the connection `k`. -/
def setPair (h : State) (k : ℕ) (x : Side) (b d : Bufferevent Callbacks) : State :=
  (h.set (x.ptr k) b).set (x.other.ptr k) d

section Pairs

variable {h : State} {j k : ℕ} {s t : Pair} {x : Side} {b d : Bufferevent Callbacks}

theorem HasPair.unique (hs : HasPair h k s) (ht : HasPair h k t) : s = t := by
  funext x
  exact Option.some.inj ((hs x).symm.trans (ht x))

theorem HasPair.setPair (hs : HasPair h k s) (x : Side) (b d : Bufferevent Callbacks) :
    HasPair (setPair h k x b d) k (pairOf x b d) := by
  have hx : x.ptr k < h.length := (List.getElem?_eq_some_iff.1 (hs x)).1
  have hy : x.other.ptr k < (h.set (x.ptr k) b).length := by
    rw [List.length_set]
    exact (List.getElem?_eq_some_iff.1 (hs x.other)).1
  intro y
  unfold Client.setPair
  rcases x.eq_or_eq_other y with rfl | rfl
  · rw [List.getElem?_set_ne (Ne.symm (y.ptr_ne k)), List.getElem?_set_self hx, pairOf_self]
  · rw [List.getElem?_set_self hy, pairOf_other]

/-- The other connections are not touched. -/
theorem HasPair.frame (hs : HasPair h j s) (hjk : j ≠ k) (x : Side)
    (b d : Bufferevent Callbacks) : HasPair (Client.setPair h k x b d) j s := by
  intro y
  have hne : ∀ z : Side, z.ptr k ≠ y.ptr j := fun z hz => hjk (Side.ptr_inj hz).2.symm
  unfold Client.setPair
  rw [List.getElem?_set_ne (hne _), List.getElem?_set_ne (hne _), hs y]

/-- The first connection, when it is the only one. -/
theorem hasPair_two (b d : Bufferevent Callbacks) :
    HasPair [b, d] 0 (pairOf .localSide b d) := by
  intro x
  cases x with
  | localSide => rfl
  | remoteSide => rfl

theorem length_setPair : (setPair h k x b d).length = h.length := by
  simp [setPair]

end Pairs

/-- What holds of a bufferevent as long as it is live, in a connection whose
connect attempt has returned `re`. -/
structure Open (x : Side) (re : ℤ) (b : Bufferevent Callbacks) : Prop where
  live : b.live = true
  writeEnabled : b.writeEnabled = true
  noEvent : b.eventPending = {}
  noEof : b.reported.eof = false
  noError : b.reported.error = false
  localUp : x = .localSide → b.link = .up
  localTimeout : x = .localSide → b.readTimeout = 0
  notDown : re = 0 → b.link ≠ .down

/-- A side whose other side is there. -/
structure Joined (x : Side) (k : ℕ) (re : ℤ) (b : Bufferevent Callbacks) : Prop
    extends Open x re b where
  callbacks : b.callbacks = x.joinedCallbacks (x.other.ptr k)
  readEnabled : b.readEnabled = true

/-- A side in drain mode. -/
structure Parked (x : Side) (re : ℤ) (b : Bufferevent Callbacks) : Prop extends Open x re b where
  callbacks : b.callbacks = x.drainCallbacks
  readEnabled : b.readEnabled = false
  queued : b.output.pending ≠ []

/-- Drain mode: `EV_READ` disabled, no read callback, and
`close_on_finished_write_cb` as the write callback. -/
def InDrainMode (b : Bufferevent Callbacks) : Prop :=
  b.readEnabled = false ∧ b.callbacks.readcb = none ∧
    b.callbacks.writecb = some .closeOnFinishedWriteCb

theorem Parked.inDrainMode {x : Side} {re : ℤ} {b : Bufferevent Callbacks}
    (hb : Parked x re b) : InDrainMode b :=
  ⟨hb.readEnabled, by rw [hb.callbacks]; rfl, by rw [hb.callbacks]; rfl⟩

/-- Everything received on the side `x` has been taken over to the other. -/
def Conveyed (T : Table) (x : Side) (s : Pair) : Prop :=
  (s x).input.pending = [] ∧ (s x.other).output.stream = (s x).input.stream.map (x.code T)

/-- **The phases of a connection.** -/
inductive Phase (T : Table) (k : ℕ) (re : ℤ) (s : Pair) : Prop where
  | joined (joined : ∀ x : Side, Joined x k re (s x))
      (conveyed : ∀ x : Side, (s x.other).output.stream = (s x).input.past.map (x.code T))
  /-- The side `x` has ended, the other still has output. -/
  | draining (x : Side) (dead : (s x).live = false) (conveyed : Conveyed T x s)
      (parked : Parked x.other re (s x.other))
  | closed (dead : ∀ x : Side, (s x).live = false)
      (flushed : ∀ x : Side, (s x).reported.eof = true → Conveyed T x s ∧
        (s x.other).reported.eof = false ∧
        ((s x.other).reported.error = false → (s x.other).output.pending = []))

/-- Why a bufferevent of the connection `k`, the one of the side `x`, has been freed
by the event `e`. -/
inductive Cause (e : Event) (k : ℕ) (x : Side) (s t : Pair) : Prop where
  /-- Its output has drained, and `close_on_finished_write_cb` has run. -/
  | drained (n : ℕ) (event : e = .socket (x.ptr k) (.flush n))
      (mode : InDrainMode (s x)) (empty : (t x).output.pending = [])
  /-- The other side has ended and there was nothing to drain. -/
  | nothingQueued (dead : (t x.other).live = false) (empty : (t x).output.pending = [])
      (event : (t x.other).reported.eof = true → e = .socket (x.other.ptr k) .eof)
  /-- It has reported EOF or ERROR itself. -/
  | ended (reported : (t x).reported.eof = true ∨ (t x).reported.error = true)
  /-- The remote side has timed out. -/
  | timedOut (dead : (t x.other).live = false) (reported : (t x.other).reported.eof = false)

/-- What one event can do to a connection. -/
structure Next (T : Table) (e : Event) (k : ℕ) (re : ℤ) (s t : Pair) : Prop where
  phase : Phase T k re t
  /-- What has been freed is never touched again. -/
  dead : ∀ x : Side, (s x).live = false → t x = s x
  cause : ∀ x : Side, (s x).live = true → (t x).live = false → Cause e k x s t

theorem Next.refl {T : Table} {e : Event} {k : ℕ} {re : ℤ} {s : Pair} (hs : Phase T k re s) :
    Next T e k re s s :=
  ⟨hs, fun _ _ => rfl, fun x hl hd => absurd hl (by simp [hd])⟩

end Client

end LightSocks
