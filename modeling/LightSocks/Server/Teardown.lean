import LightSocks.Server.Delivery

/-!
# The end of a session

What becomes of the context and the bufferevents of a session when it ends:

* `relay_teardown` — once a partner is attached all is well: every callback
  finds the context, both pointers and both bufferevents live, the first terminal
  event releases all three, and nothing runs after that.
* `no_leak` — a session that is over has released everything exactly when it
  never took an `ATYP = 1` request and was never given an address.
-/

namespace LightSocks

open Transition

variable {P : Key}

/-! ## With a partner -/

/-- The context points at the client and the remote host; both are live and call
back with the context. -/
def Intact (s : Session) : Prop :=
  ∃ ctx c r, s.context = some ctx ∧ ctx.self = some 0 ∧ ctx.partner = some 1 ∧
    s.bevs = [c, r] ∧ c.live = true ∧ r.live = true ∧
    c.callbacks = clientCallbacks .handleLast (some .socks5Ctx) ∧ r.callbacks = remoteCallbacks

/-- The context is deleted and every bufferevent freed. -/
def Released (s : Session) : Prop := s.context = none ∧ ∀ b ∈ s.bevs, b.live = false

/-- A partner is attached. -/
def HasPartner (s : Session) : Prop := ∃ ctx, s.context = some ctx ∧ ctx.partner ≠ none

theorem Shape.intact {target : Target} {s : Session} (h : Shape P (.relay target) s) :
    Intact s := by
  cases h with
  | relay hc hr _ =>
      exact ⟨_, _, _, rfl, rfl, rfl, rfl, hc.live, hr.live, hc.callbacks, hr.callbacks⟩

theorem Shape.released {target : Option Target} {s : Session} (h : Shape P (.closed target) s) :
    Released s := by
  cases h with
  | closedAlone hc _ _ => exact ⟨rfl, by simpa [Session.alone] using hc⟩
  | closedPaired hc hr _ => exact ⟨rfl, by simp [Session.paired, hc, hr]⟩

/-- Only a relay session has a partner. -/
theorem Shape.relay_of_hasPartner {m : Mode} {s : Session} (h : Shape P m s)
    (hp : HasPartner s) : ∃ target, m = .relay target := by
  obtain ⟨ctx, hctx, hpartner⟩ := hp
  cases h with
  | relay _ _ _ => exact ⟨_, rfl⟩
  | orphaned _ _ | abandoned _ _ _ | closedAlone _ _ _ | closedPaired _ _ _ => cases hctx
  | _ =>
      cases hctx
      exact absurd rfl hpartner

/-- The events that do not end anything. -/
def NotTerminal (P : Key) (s : Session) (e : Event) : Prop := kind P s e ≠ .terminal

/-- Without a terminal event a relay session goes on. -/
theorem relay_goes_on {target : Target} {s t : Session} {es : List Event}
    (hr : Run (Guarded (NotTerminal P) (Step P)) s es t) (h : Shape P (.relay target) s) :
    Shape P (.relay target) t ∧ Relayed P s t := by
  have hstep : ∀ s e t, Shape P (.relay target) s → Guarded (NotTerminal P) (Step P) s e t →
      Shape P (.relay target) t ∧ Relayed P s t := by
    intro s e t hs hst
    rcases fire_relay hs hst.2 with ⟨_, ht, -, hshape, hrelayed⟩ | ⟨_, -, hk, -⟩
    · cases ht
      exact ⟨hshape, hrelayed⟩
    · exact absurd hk hst.1
  exact ⟨hr.invariant (fun s e t hs hst => (hstep s e t hs hst).1) h,
    hr.relates Relayed.refl (fun _ _ _ => Relayed.trans) hstep h⟩

/-- A terminal event closes a relay session. -/
theorem relay_ends {target : Target} {s t : Session} {e : Event} (h : Shape P (.relay target) s)
    (hk : kind P s e = .terminal) (hs : Step P s e t) :
    Shape P (.closed (some target)) t ∧ EndedBy e s t := by
  rcases fire_relay h hs with ⟨_, -, hk', -⟩ | ⟨_, ht, -, hclosed⟩
  · rw [hk] at hk'
    cases hk'
  · cases ht
    exact hclosed

/-- **A relay session goes on or has just ended.**  Either no event of the run
was terminal, or the last one was the first. -/
theorem relay_run {target : Target} {s t : Session} {es : List Event} (hr : Run (Step P) s es t)
    (h : Shape P (.relay target) s) :
    Run (Guarded (NotTerminal P) (Step P)) s es t ∨
      ∃ es' e u, es = es' ++ [e] ∧ Run (Guarded (NotTerminal P) (Step P)) s es' u ∧
        kind P u e = .terminal ∧ Step P u e t := by
  rcases hr.guarded_or_first (C := NotTerminal P) with
    hg | ⟨es₁, e, es₂, u, v, rfl, hg, hn, hstep, hrest⟩
  · exact .inl hg
  · have hk : kind P u e = .terminal := not_not.1 hn
    have hv := (relay_ends (relay_goes_on hg h).1 hk hstep).1
    -- nothing follows the terminal event
    cases hrest with
    | nil => exact .inr ⟨es₁, e, u, rfl, hg, hk, hstep⟩
    | cons h _ =>
        rw [Step, fire_closed hv] at h
        cases h

/-- **Relay teardown releases everything exactly once.**  From the moment a
partner is attached, a run either has met no terminal event, everything is
intact and no callback can fail; or its last event was its first terminal one,
which found everything intact, released all of it, and left nothing that could
still run. -/
theorem relay_teardown {s t : Session} {es : List Event} (hs : Reachable P s)
    (hp : HasPartner s) (hr : Run (Step P) s es t) :
    (Run (Guarded (NotTerminal P) (Step P)) s es t ∧ Intact t ∧ (∀ e f, ¬ Faults P t e f) ∧
        ∀ e u, Step P t e u → kind P t e = .terminal → Released u) ∨
      ∃ es' e u, es = es' ++ [e] ∧ Run (Guarded (NotTerminal P) (Step P)) s es' u ∧ Intact u ∧
        kind P u e = .terminal ∧ Step P u e t ∧ Released t ∧ ∀ e', t.fire P.table e' = none := by
  obtain ⟨m, hm⟩ := hs.shape
  obtain ⟨target, rfl⟩ := hm.relay_of_hasPartner hp
  rcases relay_run hr hm with hg | ⟨es', e, u, rfl, hg, hk, hstep⟩
  · have ht := (relay_goes_on hg hm).1
    refine .inl ⟨hg, ht.intact, fun e f hf => ?_,
      fun e u hu hk => (relay_ends ht hk hu).1.released⟩
    cases hf.fails ht with
    | overflow h => simp at h
  · have hu := (relay_goes_on hg hm).1
    have ht := (relay_ends hu hk hstep).1
    exact .inr ⟨es', e, u, rfl, hg, hu.intact, hk, hstep, ht.released, fire_closed ht⟩

/-- A session whose client leaves right after the partner has been attached. -/
theorem relay_teardown_hangup : ∃ s t, Reachable Key.identity s ∧ HasPartner s ∧
    Run (Step Key.identity) s hangup t ∧
    ∃ es' e u, hangup = es' ++ [e] ∧ Run (Guarded (NotTerminal Key.identity) (Step Key.identity)) s
      es' u ∧ Intact u ∧ kind Key.identity u e = .terminal ∧ Step Key.identity u e t ∧
      Released t ∧ ∀ e', t.fire Key.identity.table e' = none := by
  obtain ⟨c, hr, hc⟩ := reach_relay Key.identity [0x61] 0x00 0x50 .example
    ⟨127, 0, 0, 1⟩
  refine ⟨_, _, ⟨_, hr⟩, ⟨_, rfl, by simp⟩, run_hangup_paired hc rfl, ?_⟩
  rcases relay_teardown ⟨_, hr⟩ ⟨_, rfl, by simp⟩ (run_hangup_paired hc rfl) with
    ⟨-, hintact, -⟩ | h
  · obtain ⟨ctx, -, -, hctx, -⟩ := hintact
    cases hctx
  · exact h

/-! ## What is left behind -/

/-- The client has reported EOF or ERROR, or a terminal event of the remote host
has been handled. -/
def Ended (s : Session) : Prop :=
  (∃ c, s.bevs[0]? = some c ∧ (c.reported.eof = true ∨ c.reported.error = true)) ∨
    ∃ r, s.bevs[1]? = some r ∧ r.reported.terminal = true

/-- The session is over, no lookup is outstanding and no callback is due. -/
structure Quiescent (P : Key) (s : Session) : Prop where
  ended : Ended s
  dns : s.dns = []
  noRead : ∀ p choice, s.fire P.table (.readCb p choice) = none
  noEvent : ∀ p, s.fire P.table (.eventCb p) = none

/-- Everything allocated for the session has been released: the context, the
bufferevents, the answers of the resolver. -/
structure LedgerEmpty (s : Session) : Prop where
  context : s.context = none
  bevs : ∀ b ∈ s.bevs, b.live = false
  addrinfos : s.addrinfos = 0

/-- The condition: the event is no `ATYP = 1` request and no answer with an
address. -/
def NoIpv4NoAnswer (P : Key) (s : Session) (e : Event) : Prop :=
  kind P s e ≠ .takesIpv4 ∧ ∀ addr, kind P s e ≠ .getsAddress addr

/-- The phases a session is in before it takes an `ATYP = 1` request or is given
an address. -/
def Mode.Clean : Mode → Prop
  | .greeting | .request | .resolving _ _ | .unresolved | .orphaned | .closed none => True
  | _ => False

theorem Move.clean {m m' : Mode} {k : Kind} (h : Move m k m') (h4 : k ≠ .takesIpv4)
    (ha : ∀ addr, k ≠ .getsAddress addr) (hm : m.Clean) : m'.Clean := by
  cases h with
  | tookIpv4 => exact absurd rfl h4
  | attachedAtOnce _ | strandedAtOnce _ | attached | stranded => exact absurd rfl (ha _)
  | stay _ => exact hm
  | released h => rcases h with rfl | rfl <;> exact absurd hm id
  | ignored | abandoned => exact hm
  | _ => trivial

/-- There is no way back. -/
theorem Move.not_clean {m m' : Mode} {k : Kind} (h : Move m k m') (hm : ¬ m.Clean) :
    ¬ m'.Clean := by
  cases h with
  | stay _ => exact hm
  | closed h => rcases h with rfl | rfl | rfl <;> exact absurd trivial hm
  | released _ | ignored | abandoned | tookIpv4 | attachedAtOnce _ | strandedAtOnce _ | attached
  | stranded => exact id
  | _ => exact absurd trivial hm

/-- Such an event is what leads out of the clean phases. -/
theorem Move.not_clean_of {m m' : Mode} {k : Kind} (h : Move m k m')
    (hk : k = .takesIpv4 ∨ ∃ addr, k = .getsAddress addr) : ¬ m'.Clean := by
  rcases hk with rfl | ⟨addr, rfl⟩ <;> cases h <;> exact id

/-- A run that meets the condition stays in the clean phases. -/
theorem clean_of_guarded {s : Session} {es : List Event}
    (hr : Run (Guarded (NoIpv4NoAnswer P) (Step P)) .accepted es s) :
    ∃ m, m.Clean ∧ Shape P m s :=
  guarded_modes (fun _ _ _ _ _ hC hmove hm => hmove.clean hC.1 hC.2 hm) hr accepted_shape trivial

/-- A run that does not has left them for good. -/
theorem guarded_or_not_clean {s : Session} {es : List Event} (hr : Run (Step P) .accepted es s) :
    Run (Guarded (NoIpv4NoAnswer P) (Step P)) .accepted es s ∨ ∃ m, ¬ m.Clean ∧ Shape P m s := by
  rcases hr.guarded_or_first (C := NoIpv4NoAnswer P) with
    hg | ⟨es₁, e, es₂, u, v, rfl, hg, hn, hstep, hrest⟩
  · exact .inl hg
  · obtain ⟨m, -, hu⟩ := clean_of_guarded hg
    obtain ⟨m', hmove, hv⟩ := hstep.move hu
    have hk : kind P u e = .takesIpv4 ∨ ∃ addr, kind P u e = .getsAddress addr := by
      by_contra h
      push Not at h
      exact hn h
    exact .inr (run_modes (fun _ _ _ hmove => hmove.not_clean) hrest hv (hmove.not_clean_of hk))

/-- A live client has reported nothing. -/
theorem Served.not_ended {c : Bufferevent Callbacks} {rd : ReadCb}
    (h : Served c rd (some .socks5Ctx)) {ctx : Option Socks5ctx}
    {dns queries replies : List (List UInt8)} : ¬ Ended (.alone ctx c dns queries replies) := by
  rintro (⟨b, hb, hrep⟩ | ⟨b, hb, -⟩)
  · obtain ⟨-, rfl⟩ := getElem?_one hb
    have hsilent := h.silent (by simp)
    rcases hrep with h | h
    · rw [hsilent.1] at h; cases h
    · rw [hsilent.2] at h; cases h
  · cases hb

theorem ledgerEmpty_of_clean {m : Mode} {s : Session} (h : Shape P m s) (hm : m.Clean)
    (hq : Quiescent P s) : LedgerEmpty s := by
  cases h with
  | greeting hc _ | request hc _ | resolving hc _ | unresolved hc _ =>
      exact absurd hq.ended hc.not_ended
  | orphaned _ _ => exact absurd hq.dns (List.cons_ne_nil _ _)
  | closedAlone hc _ _ => exact ⟨rfl, by simpa [Session.alone] using hc, rfl⟩
  | ipv4 _ _ | stranded _ _ _ | relay _ _ _ | abandoned _ _ _ | closedPaired _ _ _ =>
      exact absurd hm id

theorem not_ledgerEmpty_of_not_clean {m : Mode} {s : Session} (h : Shape P m s)
    (hm : ¬ m.Clean) : ¬ LedgerEmpty s := by
  rintro ⟨hctx, -, hinfos⟩
  cases h with
  | ipv4 _ _ | stranded _ _ _ | relay _ _ _ => cases hctx
  | abandoned _ _ _ | closedPaired _ _ _ => cases hinfos
  | _ => exact absurd trivial hm

/-- **Which sessions leak.**  A session that is over and quiet has released
everything exactly when it never took an `ATYP = 1` request and was never given
an address. -/
theorem no_leak {s : Session} {es : List Event} (hr : Run (Step P) .accepted es s)
    (hq : Quiescent P s) :
    LedgerEmpty s ↔ Run (Guarded (NoIpv4NoAnswer P) (Step P)) .accepted es s := by
  constructor
  · intro hempty
    rcases guarded_or_not_clean hr with hg | ⟨m, hm, hs⟩
    · exact hg
    · exact absurd hempty (not_ledgerEmpty_of_not_clean hs hm)
  · intro hg
    obtain ⟨m, hm, hs⟩ := clean_of_guarded hg
    exact ledgerEmpty_of_clean hs hm hq

theorem Session.accepted_hangup : ∃ c,
    Run (Step P) .accepted hangup (.alone none (hungUp c) [] [] []) := by
  obtain ⟨c, hacc, hc⟩ := accepted_idle
  exact ⟨c, hacc ▸ run_hangup_alone hc⟩

/-- A client that leaves before it has sent anything leaks nothing. -/
theorem no_leak_hangup : ∃ s, Run (Step Key.identity) .accepted hangup s ∧
    Quiescent Key.identity s ∧ LedgerEmpty s := by
  obtain ⟨c, hr⟩ := Session.accepted_hangup (P := Key.identity)
  have hq : Quiescent Key.identity (.alone none (hungUp c) [] [] []) :=
    ⟨.inl ⟨_, rfl, .inl (reported_hungUp c)⟩, rfl, fun _ _ => alone_closed rfl,
      fun _ => alone_closed rfl⟩
  refine ⟨_, hr, hq, (no_leak hr hq).2 ?_⟩
  rcases guarded_or_not_clean hr with hg | ⟨m, hm, hs⟩
  · exact hg
  · cases hs with
    | closedAlone _ _ _ => exact absurd trivial hm

/-- A client that is served and leaves: the answer of the resolver stays behind. -/
theorem leak_served : ∃ s, Run (Step Key.identity) .accepted
      (lookupEvents Key.identity [0x61] 0x00 0x50 ⟨127, 0, 0, 1⟩ ++ hangup) s ∧
    Quiescent Key.identity s ∧ s.addrinfos = 1 ∧ ¬ LedgerEmpty s := by
  obtain ⟨c, hr, hc⟩ := reach_relay Key.identity [0x61] 0x00 0x50 .example ⟨127, 0, 0, 1⟩
  refine ⟨_, hr.append (run_hangup_paired hc rfl), ⟨.inl ⟨_, rfl, .inl (reported_hungUp c)⟩, rfl,
    fun _ _ => paired_closed rfl rfl, fun _ => paired_closed rfl rfl⟩, rfl, ?_⟩
  rintro ⟨-, -, hinfos⟩
  cases hinfos

end LightSocks
