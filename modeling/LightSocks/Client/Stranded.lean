import LightSocks.Client.Drain

/-!
# A side that nothing can free

`listen_cb` looks at what `bufferevent_socket_connect` returns for a log line only: the
two sides are joined whether or not the attempt has failed.  A remote side without a
socket is freed by its read timeout, unless the local side ends first and leaves it in
drain mode, where reading is disabled.

* `CanBeFreed`, `DrainsCanFinish` — every side in drain mode can still be freed.
* `Connections.keepsLinked`, `Strands.leavesDown` — a step keeps that, or ends one side
  while there are bytes for another that has no socket.
* `client_drains_finish` — in which runs it holds in every state.
* `stranded_forever` — a side that cannot be freed stays for ever.
-/

namespace LightSocks

open Cipher Transition

namespace Client

/-- Left in drain mode: a null argument, reading disabled, output to write and
`close_on_finished_write_cb` registered. -/
structure LeftDraining (b : Bufferevent Callbacks) : Prop where
  live : b.live = true
  argument : b.callbacks.cbarg = none
  readDisabled : b.readEnabled = false
  queued : b.output.pending ≠ []
  writecb : b.callbacks.writecb = some .closeOnFinishedWriteCb

/-- The socket of the bufferevent `p` is connecting or connected, and the write of what
is left or an ERROR, either of which frees it, can still happen. -/
structure CanBeFreed (T : Table) (h : State) (p : BevPtr) (b : Bufferevent Callbacks) :
    Prop where
  link : b.link ≠ .down
  possible : ∃ e h', (e = .flush b.output.pending.length ∨ e = .connectError) ∧
    Step T h (.socket p e) h' ∧ Freed p h'

/-- Every bufferevent left in drain mode can still be freed. -/
def DrainsCanFinish (T : Table) (h : State) : Prop :=
  ∀ (p : BevPtr) (b : Bufferevent Callbacks), h[p]? = some b → LeftDraining b →
    CanBeFreed T h p b

/-- The event ends one side of a connection while the other has no socket and there are
bytes for it, queued already or still to be taken over. -/
inductive Strands (h : State) : Event → Prop where
  | intro {p q : BevPtr} {e : SocketEvent} {b d : Bufferevent Callbacks} (ends : EndsSide e)
      (side : h[p]? = some b) (partner : b.callbacks.cbarg = some q) (other : h[q]? = some d)
      (down : d.link = .down) (waiting : b.input.pending ≠ [] ∨ d.output.pending ≠ []) :
      Strands h (.socket p e)

/-- No bufferevent left in drain mode is without a socket. -/
def DrainsLinked (h : State) : Prop :=
  ∀ b : Bufferevent Callbacks, b ∈ h → LeftDraining b → b.link ≠ .down

section Stranded

variable {T : Table} {es : List Event} {h h' : State} {e : Event} {k : ℕ} {re : ℤ} {s : Pair}
  {x : Side}

/-! ## Sides in drain mode -/

theorem Joined.not_leftDraining {b : Bufferevent Callbacks} (hx : Joined x k re b) :
    ¬ LeftDraining b := by
  intro hb
  have harg := hb.argument
  rw [hx.callbacks] at harg
  cases harg

theorem Parked.leftDraining {b : Bufferevent Callbacks} (hx : Parked x re b) :
    LeftDraining b :=
  ⟨hx.live, by rw [hx.callbacks]; rfl, hx.readEnabled, hx.queued, by rw [hx.callbacks]; rfl⟩

theorem Phase.parked_of_leftDraining (hp : Phase T k re s) (hx : LeftDraining (s x)) :
    Parked x re (s x) := by
  rcases hp.live_cases hx.live with ⟨hjoined, -⟩ | hparked
  · exact absurd hx hjoined.not_leftDraining
  · exact hparked

/-- A drain over a socket that is connecting can fail, one over a connected socket can
be written out. -/
theorem Parked.canBeFreed (hpair : HasPair h k s) (hx : Parked x re (s x))
    (hlink : (s x).link ≠ .down) : CanBeFreed T h (x.ptr k) (s x) := by
  have hx₀ : Parked x 0 (s x) := { hx with notDown := fun _ => hlink }
  refine ⟨hlink, ?_⟩
  cases hl : (s x).link with
  | down => exact absurd hl hlink
  | up =>
      have hdrain := hx₀.stillDraining (T := T) hpair
      obtain ⟨h', hs⟩ := hdrain.possible hl
      exact ⟨_, h', .inl rfl, hs, hdrain.frees h' hs⟩
  | connecting =>
      have hnotify := hx.notify_ends (T := T) hpair (e := .connectError) trivial
      refine ⟨.connectError, _, .inr rfl, .of_notify (hpair x) ⟨hx.live, hl⟩ hnotify, ?_⟩
      exact ⟨_, by rw [hpair.setPair, pairOf_self], rfl⟩

theorem Connections.drainsCanFinish_iff (hc : Connections T es h) :
    DrainsCanFinish T h ↔ DrainsLinked h := by
  constructor
  · intro hall b hb hleft
    obtain ⟨p, hp⟩ := List.mem_iff_getElem?.1 hb
    exact (hall p b hp hleft).link
  · intro hlinked p b hp hleft
    obtain ⟨x, k, rfl⟩ := Side.exists_ptr p
    obtain ⟨re, s, -, hpair, hphase, rfl⟩ := hc.of_ptr hp
    exact (hphase.parked_of_leftDraining hleft).canBeFreed hpair
      (hlinked _ (List.mem_of_getElem? hp) hleft)

/-! ## One step -/

theorem DrainsLinked.setPair (hl : DrainsLinked h) {b d : Bufferevent Callbacks}
    (hb : LeftDraining b → b.link ≠ .down) (hd : LeftDraining d → d.link ≠ .down) :
    DrainsLinked (setPair h k x b d) := by
  intro c hc
  rcases List.mem_or_eq_of_mem_set hc with hc | rfl
  · rcases List.mem_or_eq_of_mem_set hc with hc | rfl
    · exact hl c hc
    · exact hb
  · exact hd

theorem not_leftDraining_of_dead {b : Bufferevent Callbacks} (hdead : b.live = false) :
    ¬ LeftDraining b := by
  intro hb
  exact absurd (hdead.symm.trans hb.live) (by decide)

/-- The side that is finished is left in drain mode only with something to write, and
keeps its socket. -/
theorem link_finish {d : Bufferevent Callbacks} (hd : LeftDraining (finish x d)) :
    d.output.pending ≠ [] ∧ (finish x d).link = d.link := by
  by_cases hempty : d.output.pending = []
  · rw [finish, if_pos hempty] at hd
    exact absurd hd (not_leftDraining_of_dead rfl)
  · rw [finish, if_neg hempty]
    exact ⟨hempty, rfl⟩

/-- A connection that drains over a socket is like one whose connect has started. -/
theorem Phase.started {y : Side} (hdead : (s y).live = false) (hconveyed : Conveyed T y s)
    (hparked : Parked y.other re (s y.other)) (hlink : (s y.other).link ≠ .down) :
    Phase T k 0 s :=
  .draining y hdead hconveyed { hparked with notDown := fun _ => hlink }

theorem Next.linked {b d : Bufferevent Callbacks} (hn : Next T e k 0 s (pairOf x b d)) :
    (LeftDraining b → b.link ≠ .down) ∧ (LeftDraining d → d.link ≠ .down) := by
  have hlink : ∀ y : Side, LeftDraining (pairOf x b d y) → (pairOf x b d y).link ≠ .down :=
    fun y hy => (hn.phase.parked_of_leftDraining hy).notDown rfl
  have hx := hlink x
  have hy := hlink x.other
  rw [pairOf_self] at hx
  rw [pairOf_other] at hy
  exact ⟨hx, hy⟩

/-- A socket event that strands no side. -/
theorem Phase.socket_linked {e : SocketEvent} (hp : Phase T k re s) (hpair : HasPair h k s)
    (hl : ∀ y : Side, LeftDraining (s y) → (s y).link ≠ .down) (he : (s x).Admits e)
    (hns : ¬ Strands h (.socket (x.ptr k) e)) :
    ∃ b d, notify T (x.ptr k) e ((s x).socket e) h = .ok (setPair h k x b d) ∧
      (LeftDraining b → b.link ≠ .down) ∧ (LeftDraining d → d.link ≠ .down) := by
  cases hp with
  | joined joined _ =>
      have hy := (joined x.other).live
      by_cases hend : EndsSide e
      · refine ⟨_, _, (joined x).notify_ends hpair hy hend,
          fun hb => absurd hb (not_leftDraining_of_dead rfl), ?_⟩
        -- the other side is left only with bytes for it
        intro hd hdown
        obtain ⟨hqueued, hlink⟩ := link_finish hd
        refine hns (.intro hend (hpair x) (by rw [(joined x).callbacks]; rfl) (hpair x.other)
          (hlink.symm.trans hdown) ?_)
        by_contra hnone
        simp only [not_or, not_not] at hnone
        exact hqueued (by simp [Bufferevent.queue, Fifo.push, hnone])
      · obtain ⟨b, d, hnotify, hkeeps⟩ := (joined x).notify_keeps hpair hy he hend
        refine ⟨b, d, hnotify, ?_⟩
        cases hkeeps with
        | goesOn hb _ _ =>
            exact ⟨fun h => absurd h hb.not_leftDraining,
              fun h => absurd h (joined x.other).not_leftDraining⟩
        | timesOut dead _ =>
            exact ⟨fun h => absurd h (not_leftDraining_of_dead dead),
              fun h => absurd h (not_leftDraining_of_dead rfl)⟩
  | draining y dead conveyed parked =>
      have hstarted : Phase T k 0 s :=
        .started dead conveyed parked (hl y.other parked.leftDraining)
      obtain ⟨b, d, hnotify, hnext⟩ := hstarted.socket hpair he
      exact ⟨b, d, hnotify, hnext.linked⟩
  | closed dead _ => exact absurd (live_of_admits he) (by simp [dead])

/-- A read callback. -/
theorem Phase.readCb_linked (hp : Phase T k re s) (hpair : HasPair h k s)
    (hl : ∀ y : Side, LeftDraining (s y) → (s y).link ≠ .down) (hdue : (s x).readDue = true) :
    ∃ b d, callRead T (x.ptr k) (s x).callbacks (h.set (x.ptr k) (s x).takeRead) =
      .ok (setPair h k x b d) ∧ (LeftDraining b → b.link ≠ .down) ∧
        (LeftDraining d → d.link ≠ .down) := by
  cases hp with
  | joined joined _ =>
      -- both sides stay joined
      have hx : Joined x k re (s x).takeRead.drained := { joined x with }
      have hy : Joined x.other k re ((s x.other).queue ((s x).input.pending.map (x.code T))) :=
        { joined x.other with }
      exact ⟨_, _, (joined x).readCb hpair (joined x.other).live,
        fun h => absurd h hx.not_leftDraining, fun h => absurd h hy.not_leftDraining⟩
  | draining y dead conveyed parked =>
      have hstarted : Phase T k 0 s :=
        .started dead conveyed parked (hl y.other parked.leftDraining)
      obtain ⟨b, d, hread, hnext⟩ := hstarted.readCb hpair hdue
      exact ⟨b, d, hread, hnext.linked⟩
  | closed dead flushed =>
      obtain ⟨b, d, hread, hnext⟩ := Phase.readCb (.closed dead flushed) hpair hdue
      exact ⟨b, d, hread, hnext.linked⟩

/-- **What strands no side keeps every drain going.** -/
theorem Connections.keepsLinked (hc : Connections T es h) (hl : DrainsLinked h)
    (hns : ¬ Strands h e) (hs : Step T h e h') : DrainsLinked h' := by
  have hpairs : ∀ {k : ℕ} {s : Pair}, HasPair h k s → ∀ x : Side, LeftDraining (s x) →
      (s x).link ≠ .down := fun hpair x => hl _ (List.mem_of_getElem? (hpair x))
  have hfired := hc.fired hs
  generalize hr : Except.ok h' = r at hfired
  cases hfired with
  | accept re =>
      rw [listenCb_eq re hc.length] at hr
      obtain rfl := Except.ok.inj hr
      intro b hb hleft
      rcases List.mem_append.1 hb with hb | hb
      · exact hl b hb hleft
      · simp only [List.mem_cons, List.not_mem_nil, or_false] at hb
        rcases hb with rfl | rfl
        · exact absurd hleft (joined_accepted re _ _).not_leftDraining
        · exact absurd hleft (joined_accepted re _ _).not_leftDraining
  | socket _ hpair hphase hadmits =>
      obtain ⟨b, d, hnotify, hb, hd⟩ := hphase.socket_linked hpair (hpairs hpair) hadmits hns
      obtain rfl := Except.ok.inj (hr.trans hnotify)
      exact hl.setPair hb hd
  | readCb _ hpair hphase hdue =>
      obtain ⟨b, d, hread, hb, hd⟩ := hphase.readCb_linked hpair (hpairs hpair) hdue
      obtain rfl := Except.ok.inj (hr.trans hread)
      exact hl.setPair hb hd

/-! ## Runs -/

/-- The end of one side leaves the other in drain mode without a socket. -/
theorem Joined.notify_strands {e : SocketEvent} (hpair : HasPair h k s)
    (hx : Joined x k re (s x)) (hy : Joined x.other k re (s x.other)) (he : EndsSide e)
    (hdown : (s x.other).link = .down)
    (hwaiting : (s x).input.pending ≠ [] ∨ (s x.other).output.pending ≠ []) :
    ∃ b d, Client.notify T (x.ptr k) e ((s x).socket e) h = .ok (setPair h k x b d) ∧
      LeftDraining d ∧ d.link = .down := by
  refine ⟨_, _, hx.notify_ends hpair hy.live he, ?_⟩
  set d := (s x.other).queue ((s x).input.pending.map (x.code T)) with hd
  have hqueued : d.output.pending ≠ [] := by
    intro hnone
    obtain ⟨hout, hin⟩ : (s x.other).output.pending = [] ∧ (s x).input.pending = [] := by
      simpa [hd, Bufferevent.queue, Fifo.push] using hnone
    rcases hwaiting with hw | hw
    · exact hw hin
    · exact hw hout
  rw [finish, if_neg hqueued]
  exact ⟨(hy.parks hqueued).leftDraining, hdown⟩

/-- What strands a side leaves it in drain mode without a socket. -/
theorem Strands.leavesDown (hst : Strands h e) (hc : Connections T es h) (hs : Step T h e h') :
    ¬ DrainsLinked h' := by
  have hfired := hc.fired hs
  generalize hr : Except.ok h' = r at hfired
  cases hst with
  | intro ends side partner other down waiting =>
      cases hfired with
      | @socket x k _ s _ _ hpair hphase hadmits =>
          obtain rfl := Option.some.inj (side.symm.trans (hpair x))
          cases hphase with
          | joined joined _ =>
              rw [(joined x).callbacks] at partner
              obtain rfl := Option.some.inj partner
              obtain rfl := Option.some.inj (other.symm.trans (hpair x.other))
              obtain ⟨b, d, hnotify, hleft, hlink⟩ :=
                (joined x).notify_strands hpair (joined x.other) ends down waiting
              obtain rfl := Except.ok.inj (hr.trans hnotify)
              have hd := hpair.setPair x b d x.other
              rw [pairOf_other] at hd
              intro hl
              exact hl d (List.mem_of_getElem? hd) hleft hlink
          | draining y dead conveyed parked =>
              rcases y.eq_or_eq_other x with rfl | rfl
              · exact absurd (live_of_admits hadmits) (by simp [dead])
              · rw [parked.callbacks] at partner
                cases partner
          | closed dead _ => exact absurd (live_of_admits hadmits) (by simp [dead])

/-- **In which runs every drain can finish.**  Whatever the connect attempts return and
in whatever order data and events come in on either side: in every state of the run,
every bufferevent left in drain mode has a socket that is connecting or connected and
can still be freed, exactly when no step ends one side of a connection while the other
has no socket and there are bytes for it. -/
theorem client_drains_finish (hr : Run (Step T) [] es h) :
    Throughout (Step T) [] es (DrainsCanFinish T) ↔
      Run (Guarded (fun h e => ¬ Strands h e) (Step T)) [] es h := by
  refine hr.throughout_iff (step_deterministic T) ?_ ?_
  · intro ls u hu
    rw [(connections_run hu.of_guarded).drainsCanFinish_iff]
    refine hu.history (I := fun _ g => DrainsLinked g) (fun b hb => absurd hb List.not_mem_nil) ?_
    intro ms g e g' hg hl hs
    exact (connections_run hg.of_guarded).keepsLinked hl hs.1 hs.2
  · intro ls u e v hu hst hs
    have hcu := connections_run hu.of_guarded
    rw [(hcu.step hs).1.drainsCanFinish_iff]
    exact (not_not.1 hst).leavesDown hcu hs

/-- With connect attempts that have all started, every drain can finish. -/
theorem drainsCanFinish_of_started (hr : Run (Step T) [] es h)
    (hre : ∀ re ∈ connectResults es, re = 0) : DrainsCanFinish T h := by
  have hc := connections_run hr
  rw [hc.drainsCanFinish_iff]
  intro b hb hleft
  obtain ⟨p, hp⟩ := List.mem_iff_getElem?.1 hb
  obtain ⟨x, k, rfl⟩ := Side.exists_ptr p
  obtain ⟨re, s, hk, -, hphase, rfl⟩ := hc.of_ptr hp
  exact (hphase.parked_of_leftDraining hleft).notDown (hre re (List.mem_of_getElem? hk))

/-! ## What cannot be freed -/

/-- In drain mode without a socket: nothing can happen to it. -/
def Stranded (p : BevPtr) (h : State) : Prop :=
  ∃ b : Bufferevent Callbacks, h[p]? = some b ∧ LeftDraining b ∧ b.link = .down

theorem LeftDraining.not_admits {b : Bufferevent Callbacks} (hb : LeftDraining b)
    (hdown : b.link = .down) (e : SocketEvent) : ¬ b.Admits e := by
  intro he
  cases e with
  | recv data => cases hdown.symm.trans he.2.1
  | eof | readError | writeError => cases hdown.symm.trans he.2.1
  | connected | connectError => cases hdown.symm.trans he.2
  | timeout => cases hb.readDisabled.symm.trans he.2.1
  | flush n => cases hdown.symm.trans he.2.1

theorem Phase.other_dead (hp : Phase T k re s) (hx : LeftDraining (s x)) :
    (s x.other).live = false := by
  cases hp with
  | joined joined _ => exact absurd hx (joined x).not_leftDraining
  | draining y dead _ _ =>
      rcases x.eq_or_eq_other y with rfl | rfl
      · exact absurd hx (not_leftDraining_of_dead dead)
      · exact dead
  | closed dead _ => exact dead x.other

/-- The only event left for it, a read callback that is due, changes nothing else. -/
theorem Stranded.step {p : BevPtr} (hp : Stranded p h) (hc : Connections T es h)
    (hs : Step T h e h') : Stranded p h' := by
  obtain ⟨b, hb, hleft, hdown⟩ := hp
  obtain ⟨x, k, rfl⟩ := Side.exists_ptr p
  obtain ⟨re, s, hk, hpair, hphase, rfl⟩ := hc.of_ptr hb
  have hother := hphase.other_dead hleft
  have hfired := hc.fired hs
  generalize hr : Except.ok h' = r at hfired
  cases hfired with
  | accept re =>
      rw [listenCb_eq re hc.length] at hr
      obtain rfl := Except.ok.inj hr
      exact ⟨s x, by rw [List.getElem?_append_left (List.getElem?_eq_some_iff.1 hb).1, hb],
        hleft, hdown⟩
  | @socket y j _ t _ _ htpair htphase hadmits =>
      obtain ⟨c, d, hnotify, -⟩ := htphase.socket htpair hadmits
      obtain rfl := Except.ok.inj (hr.trans hnotify)
      by_cases hjk : k = j
      · subst hjk
        obtain rfl := hpair.unique htpair
        rcases x.eq_or_eq_other y with rfl | rfl
        · exact absurd hadmits (hleft.not_admits hdown _)
        · exact absurd (live_of_admits hadmits) (by simp [hother])
      · exact ⟨s x, hpair.frame hjk y c d x, hleft, hdown⟩
  | @readCb y j _ t _ htpair htphase hdue =>
      obtain ⟨c, d, hread, -⟩ := htphase.readCb htpair hdue
      by_cases hjk : k = j
      · subst hjk
        obtain rfl := hpair.unique htpair
        rcases x.eq_or_eq_other y with rfl | rfl
        · -- no read callback is registered
          rw [(hphase.parked_of_leftDraining hleft).callbacks] at hr
          obtain rfl := Except.ok.inj hr
          exact ⟨(s y).takeRead, hpair.set_self y _, { hleft with }, hdown⟩
        · simp [Bufferevent.readDue, hother] at hdue
      · obtain rfl := Except.ok.inj (hr.trans hread)
        exact ⟨s x, hpair.frame hjk y c d x, hleft, hdown⟩

/-- **A stranded side stays for ever.**  Whatever happens afterwards, it is not freed. -/
theorem stranded_forever {p : BevPtr} {es' : List Event} (hr : Run (Step T) [] es h)
    (hp : Stranded p h) (hr' : Run (Step T) h es' h') : Stranded p h' := by
  refine hr'.history (I := fun _ g => Stranded p g) hp ?_
  intro ms u e v hu hpu hs
  exact hpu.step (connections_run (hr.append hu)) hs

end Stranded

/-! ## A connect attempt that fails at once -/

/-- The application closes before it has sent anything. -/
theorem run_unused (T : Table) : ∃ h,
    Run (Guarded (fun h e => ¬ Strands h e) (Step T)) [] [.accept (-1), .socket 0 .eof] h := by
  have hpair := hasPair_two (accepted (-1) 0 .localSide) (accepted (-1) 0 .remoteSide)
  have hlocal := joined_accepted (-1) 0 .localSide
  have hadmits : (accepted (-1) 0 .localSide).Admits .eof := ⟨rfl, rfl, rfl⟩
  have heof := Step.of_notify (hpair .localSide) hadmits
    (hlocal.notify_ends (T := T) hpair rfl trivial)
  refine ⟨_, .cons ⟨?_, rfl⟩ (.single ⟨?_, heof⟩)⟩
  · intro hst
    cases hst
  · intro hst
    cases hst with
    | intro ends side partner other down waiting =>
        obtain rfl := Option.some.inj (side.symm.trans (hpair .localSide))
        obtain rfl := Option.some.inj partner
        obtain rfl := Option.some.inj (other.symm.trans (hpair .remoteSide))
        rcases waiting with hw | hw
        · exact hw rfl
        · exact hw rfl

/-- The application sends one byte and closes. -/
theorem run_stranding (T : Table) : ∃ h,
    Run (Step T) [] [.accept (-1), .socket 0 (.recv [0x68]), .socket 0 .eof] h ∧
      Stranded 1 h := by
  set l := (accepted (-1) 0 .localSide).socket (.recv [0x68]) with hl
  set r := accepted (-1) 0 .remoteSide with hr
  have hpair := hasPair_two l r
  have hlocal : Joined .localSide 0 (-1) l := { joined_accepted (-1) 0 .localSide with }
  have hremote : Joined .remoteSide 0 (-1) r := joined_accepted (-1) 0 .remoteSide
  obtain ⟨b, d, hnotify, hleft, hdown⟩ := hlocal.notify_strands (T := T) (e := .eof) hpair hremote
    trivial rfl (.inl (List.cons_ne_nil _ _))
  have heof : Step T [l, r] (.socket 0 .eof) (setPair [l, r] 0 .localSide b d) :=
    .of_notify (hpair .localSide) ⟨rfl, rfl, rfl⟩ hnotify
  exact ⟨_, .cons rfl (.cons rfl (.single heof)), d, hpair.setPair .localSide b d .remoteSide,
    hleft, hdown⟩

/-- With nothing to write the two sides are freed together. -/
theorem client_drains_finish_unused : Throughout (Step Key.identity.table) []
    [.accept (-1), .socket 0 .eof] (DrainsCanFinish Key.identity.table) := by
  obtain ⟨h, hr⟩ := run_unused Key.identity.table
  exact (client_drains_finish hr.of_guarded).2 hr

/-- With one byte to write the remote side stays for ever. -/
theorem client_strands : ∃ h, Run (Step Key.identity.table) []
    [.accept (-1), .socket 0 (.recv [0x68]), .socket 0 .eof] h ∧
      ¬ DrainsCanFinish Key.identity.table h ∧
      ∀ es h', Run (Step Key.identity.table) h es h' → Stranded 1 h' := by
  obtain ⟨h, hr, hst⟩ := run_stranding Key.identity.table
  refine ⟨h, hr, ?_, fun es h' hr' => stranded_forever hr hst hr'⟩
  intro hall
  obtain ⟨b, hb, hleft, hdown⟩ := hst
  exact (hall 1 b hb hleft).link hdown

end Client

end LightSocks
