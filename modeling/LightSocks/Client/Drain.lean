import LightSocks.Client.Simulation

/-!
# How the client closes a connection

* `client_links` — in every reachable state the two bufferevents of a connection
  point at each other, or one of them is in drain mode with a null argument; no
  callback touches a freed bufferevent or frees one twice.
* `client_flushes` — after EOF on one side, everything received there is written
  out on the other before that one is freed, and it is freed once.
-/

namespace LightSocks

open Cipher Transition

namespace Client

/-! ## The partner links -/

/-- The callback argument of every live bufferevent is a live bufferevent whose own
argument points back, or null, and null exactly in drain mode. -/
structure LinksSound (h : State) : Prop where
  partner : ∀ (p q : BevPtr) (b : Bufferevent Callbacks), h[p]? = some b → b.live = true →
    b.callbacks.cbarg = some q →
    ∃ d : Bufferevent Callbacks, h[q]? = some d ∧ d.live = true ∧ d.callbacks.cbarg = some p
  null : ∀ (p : BevPtr) (b : Bufferevent Callbacks), h[p]? = some b → b.live = true →
    (b.callbacks.cbarg = none ↔ InDrainMode b)

section Drain

variable {T : Table} {es : List Event} {h : State} {k : ℕ} {re : ℤ} {s : Pair} {x : Side}

/-- A live side of a connection is joined to the other, or in drain mode. -/
theorem Phase.live_cases (hp : Phase T k re s) (hl : (s x).live = true) :
    (Joined x k re (s x) ∧ Joined x.other k re (s x.other)) ∨ Parked x re (s x) := by
  cases hp with
  | joined joined _ => exact .inl ⟨joined x, joined x.other⟩
  | draining y dead _ parked =>
      rcases y.eq_or_eq_other x with rfl | rfl
      · rw [dead] at hl
        cases hl
      · exact .inr parked
  | closed dead _ =>
      rw [dead x] at hl
      cases hl

theorem Connections.linksSound (hc : Connections T es h) : LinksSound h := by
  constructor
  · intro p q b hb hl hq
    obtain ⟨x, k, rfl⟩ := Side.exists_ptr p
    obtain ⟨re, s, -, hs, hp, rfl⟩ := hc.of_ptr hb
    rcases hp.live_cases hl with ⟨hx, hy⟩ | hx
    · rw [hx.callbacks] at hq
      obtain rfl : x.other.ptr k = q := Option.some.inj hq
      refine ⟨s x.other, hs x.other, hy.live, ?_⟩
      rw [hy.callbacks, Side.other_other]
      rfl
    · rw [hx.callbacks] at hq
      cases hq
  · intro p b hb hl
    obtain ⟨x, k, rfl⟩ := Side.exists_ptr p
    obtain ⟨re, s, -, hs, hp, rfl⟩ := hc.of_ptr hb
    rcases hp.live_cases hl with ⟨hx, -⟩ | hx
    · constructor
      · intro hnull
        rw [hx.callbacks] at hnull
        cases hnull
      · intro hmode
        exact absurd (hmode.1.symm.trans hx.readEnabled) (by decide)
    · refine ⟨fun _ => hx.inDrainMode, ?_⟩
      intro _
      rw [hx.callbacks]
      rfl

/-- **Partner links are never dangling.**  In every reachable state the links are
sound, and whatever happens next, no callback dereferences a null argument,
touches a freed bufferevent or frees one twice. -/
theorem client_links (hr : Run (Step T) [] es h) : LinksSound h ∧ ∀ e f, ¬ Faults T h e f := by
  have hc := connections_run hr
  refine ⟨hc.linksSound, ?_⟩
  intro e f hf
  obtain ⟨h', heq, -⟩ := hc.fire hf
  cases heq

/-! ## EOF -/

/-- The bufferevent `p` has been freed. -/
def Freed (p : BevPtr) (h : State) : Prop :=
  ∃ b : Bufferevent Callbacks, h[p]? = some b ∧ b.live = false

/-- What has been freed stays as it is. -/
theorem Connections.dead (hc : Connections T es h) {e : Event} {h' : State} (hs : Step T h e h')
    {p : BevPtr} {b : Bufferevent Callbacks} (hb : h[p]? = some b) (hl : b.live = false) :
    h'[p]? = some b := by
  obtain ⟨x, k, rfl⟩ := Side.exists_ptr p
  obtain ⟨re, s, hk, hpair, -, rfl⟩ := hc.of_ptr hb
  obtain ⟨t, ht, hn⟩ := (hc.step hs).2 k re s hk hpair
  rw [ht x, hn.dead x hl]

theorem dead_run {es' : List Event} {h' : State} (hr : Run (Step T) [] es h)
    (hr' : Run (Step T) h es' h') {p : BevPtr} {b : Bufferevent Callbacks} (hb : h[p]? = some b)
    (hl : b.live = false) : h'[p]? = some b := by
  refine hr'.history (I := fun _ g => g[p]? = some b) hb ?_
  intro ms u e v hu hg hs
  exact (connections_run (hr.append hu)).dead hs hg hl

/-- How the surviving side `x.other` of the connection `k` may be freed: by
`close_on_finished_write_cb` when its output has drained, or together with the side
that has ended when nothing is queued. -/
inductive FreedProperly (x : Side) (k : ℕ) (u : State) (e : Event) (v : State) : Prop where
  | drained (n : ℕ) (d : Bufferevent Callbacks) (event : e = .socket (x.other.ptr k) (.flush n))
      (before : u[x.other.ptr k]? = some d) (mode : InDrainMode d)
  | atOnce (d : Bufferevent Callbacks) (event : e = .socket (x.ptr k) .eof)
      (after : v[x.other.ptr k]? = some d) (empty : d.output.pending = [])

/-- A side of a connection that has ended by EOF: everything received there has been
taken over to the other side. -/
theorem Phase.conveyed_of_eof (hp : Phase T k re s) (heof : (s x).reported.eof = true) :
    (s x).live = false ∧ Conveyed T x s ∧ (s x.other).reported.eof = false ∧
      (Parked x.other re (s x.other) ∨ (s x.other).live = false ∧
        ((s x.other).reported.error = false → (s x.other).output.pending = [])) := by
  cases hp with
  | joined joined _ =>
      rw [(joined x).noEof] at heof
      cases heof
  | draining y dead conveyed parked =>
      rcases y.eq_or_eq_other x with rfl | rfl
      · exact ⟨dead, conveyed, parked.noEof, .inl parked⟩
      · rw [parked.noEof] at heof
        cases heof
  | closed dead flushed =>
      obtain ⟨hconveyed, hother, hpending⟩ := flushed x heof
      exact ⟨dead x, hconveyed, hother, .inr ⟨dead x.other, hpending⟩⟩

/-- A bufferevent that a step leaves freed was there before it. -/
theorem Connections.exists_before (hc : Connections T es h) {e : Event} {h' : State}
    (hs : Step T h e h') {p : BevPtr} {d : Bufferevent Callbacks} (hd : h'[p]? = some d)
    (hl : d.live = false) : ∃ c : Bufferevent Callbacks, h[p]? = some c := by
  by_cases hlt : p < h.length
  · exact ⟨h[p], List.getElem?_eq_getElem hlt⟩
  have hold : connectResults [e] = [] → ∃ c : Bufferevent Callbacks, h[p]? = some c := by
    intro hnone
    have hlen := (hc.step hs).1.length
    rw [connectResults_append, hnone, List.append_nil, ← hc.length] at hlen
    exact absurd (hlen ▸ (List.getElem?_eq_some_iff.1 hd).1) hlt
  cases e with
  | socket p e => exact hold rfl
  | readCb p => exact hold rfl
  | accept re =>
      -- what `listen_cb` creates is live
      have heq : h' = h ++ [accepted re (connectResults es).length .localSide,
          accepted re (connectResults es).length .remoteSide] :=
        Except.ok.inj ((Option.some.inj hs).symm.trans (listenCb_eq re hc.length))
      rw [heq, List.getElem?_append_right (not_lt.1 hlt)] at hd
      have hmem := List.mem_of_getElem? hd
      simp only [List.mem_cons, List.not_mem_nil, or_false] at hmem
      rcases hmem with rfl | rfl
      · cases hl
      · cases hl

/-- The step that frees the surviving side, when that side has reported no error. -/
theorem freedProperly {u v : State} {n : ℕ} {e : Event} {b d : Bufferevent Callbacks}
    (hr : Run (Step T) [] es h) (hb : h[x.ptr k]? = some b) (hd : h[x.other.ptr k]? = some d)
    (heof : b.reported.eof = true) (hnoEof : d.reported.eof = false)
    (herr : d.reported.error = false) (hat : StepAt (Step T) [] es h n u e v)
    (hu : ¬ Freed (x.other.ptr k) u) (hv : Freed (x.other.ptr k) v) :
    FreedProperly x k u e v := by
  obtain ⟨es₁, es₂, rfl, -, hr₁, hs, hr₂⟩ := hat
  have hcu := connections_run hr₁
  obtain ⟨d', hd', hdead⟩ := hv
  obtain ⟨c, hc⟩ := hcu.exists_before hs hd' hdead
  obtain ⟨re, s, hk, hpair, -, rfl⟩ := hcu.of_ptr hc
  obtain ⟨t, ht, hn⟩ := (hcu.step hs).2 k re s hk hpair
  -- a freed side is the same at the end of the run
  have hkept : ∀ {y : Side} {c : Bufferevent Callbacks}, (t y).live = false →
      h[y.ptr k]? = some c → c = t y := by
    intro y c hl hc
    have hc' := dead_run (hr₁.snoc hs) hr₂ (ht y) hl
    exact Option.some.inj (hc.symm.trans hc')
  have hlive : (s x.other).live = true := by
    by_contra hl
    exact hu ⟨s x.other, hpair x.other, by simpa using hl⟩
  have hdeadt : (t x.other).live = false := by
    rw [Option.some.inj ((ht x.other).symm.trans hd')]
    exact hdead
  obtain rfl := hkept hdeadt hd
  cases hn.cause x.other hlive hdeadt with
  | drained n event mode empty =>
      exact .drained n (s x.other) event (hpair x.other) mode
  | nothingQueued dead empty event =>
      rw [Side.other_other] at dead event
      obtain rfl := hkept dead hb
      exact .atOnce (t x.other) (event heof) (ht x.other) empty
  | ended reported =>
      rcases reported with h | h
      · rw [hnoEof] at h
        cases h
      · rw [herr] at h
        cases h
  | timedOut dead reported =>
      rw [Side.other_other] at dead reported
      obtain rfl := hkept dead hb
      rw [heof] at reported
      cases reported

/-- The surviving side `q`, as long as it is there: in drain mode over a socket that
is connected or connecting, and freed by the write of all that is left. -/
structure StillDraining (T : Table) (h : State) (q : BevPtr) (d : Bufferevent Callbacks) :
    Prop where
  mode : InDrainMode d
  link : d.link ≠ .down
  queued : d.output.pending ≠ []
  possible : d.link = .up → ∃ h', Step T h (.socket q (.flush d.output.pending.length)) h'
  frees : ∀ h', Step T h (.socket q (.flush d.output.pending.length)) h' → Freed q h'

theorem Parked.stillDraining (hpair : HasPair h k s) (hx : Parked x 0 (s x)) :
    StillDraining T h (x.ptr k) (s x) := by
  have hempty : ((s x).socket (.flush (s x).output.pending.length)).output.pending = [] := by
    simp [Bufferevent.socket]
  have hnotify := hx.notify_drained (T := T) hpair hempty
  refine ⟨hx.inDrainMode, hx.notDown rfl, hx.queued, ?_, ?_⟩
  · intro hup
    have hadmits : (s x).Admits (.flush (s x).output.pending.length) :=
      ⟨hx.live, hup, hx.writeEnabled, List.length_pos_of_ne_nil hx.queued, le_rfl⟩
    exact ⟨_, .of_notify (hpair x) hadmits hnotify⟩
  · intro h' hs
    obtain rfl := Except.ok.inj (hnotify.symm.trans (hs.notify_eq (hpair x)))
    exact ⟨_, by rw [hpair.setPair, pairOf_self], rfl⟩

/-- **The client flushes before it closes.**  When the side `x` of a connection
whose connect has started has reported EOF, everything received there has been
taken over, translated and in order, to the other side.  As long as that one is
there it is in drain mode with a socket that can still be written to, and the write
of all that is left frees it.  If it has been freed and has reported no error,
everything has been written out, and it was freed in exactly one step: by
`close_on_finished_write_cb`, or at once because nothing was queued. -/
theorem client_flushes {b d : Bufferevent Callbacks} (hr : Run (Step T) [] es h)
    (hre : (connectResults es)[k]? = some 0) (hb : h[x.ptr k]? = some b)
    (hd : h[x.other.ptr k]? = some d) (heof : b.reported.eof = true)
    (herr : d.reported.error = false) :
    (b.live = false ∧ b.input.pending = [] ∧
      d.output.stream = b.input.stream.map (x.code T)) ∧
    (d.live = true → StillDraining T h (x.other.ptr k) d) ∧
    (d.live = false → d.output.past = b.input.stream.map (x.code T) ∧
      (∃! n, ∃ u e v, StepAt (Step T) [] es h n u e v ∧ ¬ Freed (x.other.ptr k) u ∧
        Freed (x.other.ptr k) v) ∧
      ∀ n u e v, StepAt (Step T) [] es h n u e v → ¬ Freed (x.other.ptr k) u →
        Freed (x.other.ptr k) v → FreedProperly x k u e v) := by
  have hc := connections_run hr
  obtain ⟨re, s, hk, hpair, hphase, rfl⟩ := hc.of_ptr hb
  obtain rfl : s x.other = d := Option.some.inj ((hpair x.other).symm.trans hd)
  obtain rfl : re = 0 := Option.some.inj (hk.symm.trans hre)
  obtain ⟨hdead, ⟨hpending, hstream⟩, hnoEof, hother⟩ := hphase.conveyed_of_eof heof
  refine ⟨⟨hdead, hpending, hstream⟩, ?_, ?_⟩
  · intro hl
    rcases hother with hparked | ⟨hother, -⟩
    · exact hparked.stillDraining hpair
    · rw [hother] at hl
      cases hl
  · intro hl
    rcases hother with hparked | ⟨-, hflushed⟩
    · rw [hparked.live] at hl
      cases hl
    · refine ⟨?_, ?_, fun n u e v => freedProperly hr hb hd heof hnoEof herr⟩
      · rw [Fifo.past_eq_stream (hflushed herr), hstream]
      · refine hr.existsUnique_onset (step_deterministic T) ?_ ?_ ⟨_, hd, hl⟩
        · rintro es' u e v hu hs ⟨c, hc, hcl⟩
          exact ⟨c, (connections_run hu).dead hs hc hcl, hcl⟩
        · rintro ⟨c, hc, -⟩
          simp at hc

end Drain

/-! ## A run -/

/-- The application sends one byte and closes before the server is connected. -/
def uploadEvents : List Event :=
  [.accept 0, .socket 0 (.recv [0x68]), .socket 0 .eof, .socket 1 .connected,
    .socket 1 (.flush 1)]

theorem run_upload (T : Table) : ∃ b d : Bufferevent Callbacks, b.reported.eof = true ∧
    d.reported.error = false ∧ d.live = false ∧ Run (Step T) [] uploadEvents [b, d] := by
  set l := (accepted 0 0 .localSide).socket (.recv [0x68]) with hl
  set r := accepted 0 0 .remoteSide with hr
  have hends := callEvent_ends (T := T) (x := .localSide) (hasPair_two l r) rfl
    (w := { reading := true, eof := true }) (.inl rfl) rfl
    (c := (l.socket .eof).takeEvent { reading := true, eof := true }) rfl
  have hend : Step T [l, r] (.socket 0 .eof)
      [((l.socket .eof).takeEvent { reading := true, eof := true }).drained.release,
        parked .remoteSide (r.queue [T.lookup 0x68])] := congrArg some hends
  exact ⟨_, _, rfl, rfl, rfl, .cons rfl (.cons rfl (.cons hend (.cons rfl (.single rfl))))⟩

/-- The links after that run. -/
theorem client_links_upload : ∃ h, Run (Step Key.identity.table) [] uploadEvents h ∧
    LinksSound h ∧ ∀ e f, ¬ Faults Key.identity.table h e f := by
  obtain ⟨b, d, -, -, -, hr⟩ := run_upload Key.identity.table
  exact ⟨_, hr, client_links hr⟩

/-- What that run has written out. -/
theorem client_flushes_upload : ∃ b d : Bufferevent Callbacks,
    Run (Step Key.identity.table) [] uploadEvents [b, d] ∧ d.live = false ∧
      d.output.past = b.input.stream.map (Side.localSide.code Key.identity.table) := by
  obtain ⟨b, d, heof, herr, hdead, hr⟩ := run_upload Key.identity.table
  exact ⟨b, d, hr, hdead,
    ((client_flushes (x := .localSide) (k := 0) hr rfl rfl rfl heof herr).2.2 hdead).1⟩

end Client

end LightSocks
