import LightSocks.Server.Replies

/-!
# What is registered on the client

`bufferevent_setcb` is called in four places on the client's bufferevent, each
time with a read callback and an argument.

* `phaseHandler` — the read callback the handshake calls for, as told from what
  the session has answered and asked so far.
* `Registered` — the live client has that callback and the session's context;
  no callback dereferences null, the handshake never goes back, and a disconnect
  reaches the context.
* `callback_registration` — that holds in every state of a session exactly when
  it takes no `ATYP = 1` request.
-/

namespace LightSocks

open Transition

variable {P : Key} {m : Mode} {s : Session}

/-- The greeting has been answered. -/
def AcceptedGreeting (s : Session) : Prop := methodReply.toList ∈ s.replies

/-- A request has led to a lookup or to the CONNECT reply. -/
def AcceptedRequest (s : Session) : Prop := s.queries ≠ [] ∨ connectReply.toList ∈ s.replies

instance (s : Session) : Decidable (AcceptedGreeting s) := inferInstanceAs (Decidable (_ ∈ _))

instance (s : Session) : Decidable (AcceptedRequest s) := inferInstanceAs (Decidable (_ ∨ _))

/-- The read callback for the phase of the handshake. -/
def phaseHandler (s : Session) : ReadCb :=
  if AcceptedRequest s then .handleLast
  else if AcceptedGreeting s then .handleSecond
  else .localReadCb

/-- The order of the phases. -/
def ReadCb.rank : ReadCb → ℕ
  | .localReadCb => 0
  | .handleSecond => 1
  | .handleLast | .remoteReadCb => 2

/-- The client's bufferevent is live. -/
def ClientLive (s : Session) : Prop := ∃ c, s.bevs[0]? = some c ∧ c.live = true

/-- The callbacks match the session. -/
structure Registered (P : Key) (s : Session) : Prop where
  callbacks : ∀ c, s.bevs[0]? = some c → c.live = true →
    c.callbacks = clientCallbacks (phaseHandler s) (some .socks5Ctx) ∧
      ∃ ctx, s.context = some ctx ∧ ctx.self = some 0
  noNull : ∀ e, ¬ Faults P s e .nullDeref
  forward : ∀ e t, Step P s e t → ClientLive t → (phaseHandler s).rank ≤ (phaseHandler t).rank
  disconnect : ∀ r, s.fire P.table (.eventCb 0) = some r →
    ∃ t, r = .ok t ∧ t.context = none ∧ ¬ ClientLive t

/-- The read callback of each phase of the automaton. -/
def Mode.handler : Mode → ReadCb
  | .greeting => .localReadCb
  | .request => .handleSecond
  | _ => .handleLast

/-- The phases in which the client is live. -/
def Mode.Live : Mode → Prop
  | .orphaned | .abandoned _ | .closed _ => False
  | _ => True

theorem Move.rank_le {m' : Mode} {k : Kind} (h : Move m k m') (hm' : m'.Live) :
    m.handler.rank ≤ m'.handler.rank := by
  cases h <;> simp_all [Mode.Live, Mode.handler, ReadCb.rank]

theorem Move.live_of_live {m' : Mode} {k : Kind} (h : Move m k m') (hm' : m'.Live) :
    m.Live := by
  cases h with
  | stay _ => exact hm'
  | closed _ | released _ | orphaned | abandoned | ended => exact absurd hm' id
  | _ => trivial

theorem Shape.live_iff (h : Shape P m s) : ClientLive s ↔ m.Live := by
  cases h with
  | orphaned hc _ | abandoned hc _ _ | closedAlone hc _ _ | closedPaired hc _ _ =>
      refine iff_of_false ?_ id
      rintro ⟨c, h0, hl⟩
      cases h0
      rw [hc] at hl
      cases hl
  | greeting hc _ | request hc _ | ipv4 hc _ | resolving hc _ | unresolved hc _
  | stranded hc _ _ | relay hc _ _ => exact iff_of_true ⟨_, rfl, hc.live⟩ trivial

theorem Shape.phaseHandler_eq (h : Shape P m s) (hm : m.Live) : phaseHandler s = m.handler := by
  cases h with
  | greeting _ _ =>
      exact (if_neg (not_or.2 ⟨not_not.2 rfl, List.not_mem_nil⟩)).trans (if_neg List.not_mem_nil)
  | request _ _ =>
      exact (if_neg (not_or.2 ⟨not_not.2 rfl, not_announced rfl rfl⟩)).trans
        (if_pos List.mem_cons_self)
  | ipv4 _ _ => exact if_pos (.inr (List.mem_cons_of_mem _ List.mem_cons_self))
  | resolving _ _ | unresolved _ _ | stranded _ _ _ | relay _ _ _ =>
      exact if_pos (.inl (List.cons_ne_nil _ _))
  | orphaned _ _ | abandoned _ _ _ | closedAlone _ _ _ | closedPaired _ _ _ => exact absurd hm id

/-- A live client has the callbacks of its phase. -/
theorem Shape.client (h : Shape P m s) (hm : m.Live) (h4 : m ≠ .ipv4) :
    ∃ c ctx, s.bevs[0]? = some c ∧ Served c m.handler (some .socks5Ctx) ∧ s.context = some ctx ∧
      ctx.self = some 0 := by
  cases h with
  | greeting hc _ | request hc _ | resolving hc _ | unresolved hc _ | stranded hc _ _
  | relay hc _ _ => exact ⟨_, _, rfl, hc, rfl, rfl⟩
  | ipv4 _ _ => exact absurd rfl h4
  | orphaned _ _ | abandoned _ _ _ | closedAlone _ _ _ | closedPaired _ _ _ => exact absurd hm id

theorem Shape.context_of_not_live (h : Shape P m s) (hm : ¬ m.Live) : s.context = none := by
  cases h with
  | orphaned _ _ | abandoned _ _ _ | closedAlone _ _ _ | closedPaired _ _ _ => rfl
  | _ => exact absurd trivial hm

/-- Nothing is due on a client that is not live. -/
theorem Session.fire_dead {p : BevPtr} {T : Table} {r : Except Fault Session}
    (hf : s.fire T (.eventCb p) = some r) : ∃ b, s.bevs[p]? = some b ∧ b.live = true := by
  obtain ⟨b, w, hb, hw, -⟩ := Session.fire_eventCb hf
  exact ⟨b, hb, (Bufferevent.nextEvent_cases hw).1⟩

/-- A terminal event takes the client along, except with the null argument. -/
theorem Move.not_live {m' : Mode} (h : Move m .terminal m') (h4 : m ≠ .ipv4) : ¬ m'.Live := by
  cases h with
  | ignored => exact absurd rfl h4
  | closed _ | released _ | orphaned | abandoned => exact id

theorem Shape.registered (h : Shape P m s) (h4 : m ≠ .ipv4) : Registered P s := by
  refine ⟨fun c h0 hl => ?_, fun e hf => ?_, fun e t hs hl => ?_, fun r hf => ?_⟩
  · have hlive := h.live_iff.1 ⟨c, h0, hl⟩
    obtain ⟨c', ctx, h0', hc, hctx, hself⟩ := h.client hlive h4
    cases h0.symm.trans h0'
    rw [h.phaseHandler_eq hlive]
    exact ⟨hc.callbacks, ctx, hctx, hself⟩
  · generalize hn : Fault.nullDeref = f at hf
    cases hf.fails h with
    | nullArgument => exact h4 rfl
    | deleted h => rcases h with rfl | rfl <;> cases hn
    | _ => cases hn
  · obtain ⟨m', hmove, ht⟩ := hs.move h
    have hlive' := ht.live_iff.1 hl
    rw [ht.phaseHandler_eq hlive', h.phaseHandler_eq (hmove.live_of_live hlive')]
    exact hmove.rank_le hlive'
  · obtain ⟨c, h0, hl⟩ := Session.fire_dead hf
    have hlive := h.live_iff.1 ⟨c, h0, hl⟩
    obtain ⟨c', ctx, h0', hc, hctx, hself⟩ := h.client hlive h4
    obtain ⟨b, w, hb, hw, -⟩ := Session.fire_eventCb hf
    cases h0'.symm.trans hb
    have hk : kind P s (.eventCb 0) = .terminal := by
      rw [kind_eventCb hb hw, if_pos (hc.nextEvent hw).2.2.1]
    cases fire_outcome h hf with
    | ok hk' hmove ht =>
        rw [← hk', hk] at hmove
        have hdead := hmove.not_live h4
        exact ⟨_, rfl, ht.context_of_not_live hdead, fun hl => hdead (ht.live_iff.1 hl)⟩
    | error hfail => cases hfail

/-- The null argument of the `ATYP = 1` phase. -/
theorem Shape.not_registered (h : Shape P .ipv4 s) : ¬ Registered P s := by
  intro hreg
  cases h with
  | ipv4 hc _ =>
      have hcb := (hreg.callbacks _ rfl hc.live).1
      rw [hc.callbacks] at hcb
      cases hcb

/-- **When the registered callbacks match the session.**  In every state of a
session of any run of the server, exactly when the session takes no `ATYP = 1`
request. -/
theorem callback_registration {es : List (ℕ × Event)} {σ : ServerState}
    (h : Run (ServerStep P) .start es σ) (i : ℕ) :
    Throughout (Step P) .accepted (eventsOf i es) (Registered P) ↔
      Run (Guarded (NoIpv4 P) (Step P)) .accepted (eventsOf i es) (σ i) := by
  refine (session_run h i).throughout_iff (step_deterministic P) ?_ ?_
  · intro es' u hu
    obtain ⟨m, hm, hshape⟩ := not_ipv4_of_guarded hu
    exact hshape.registered hm
  · intro es' u e v hu hn hs
    obtain ⟨m, -, hshape⟩ := not_ipv4_of_guarded hu
    exact (ipv4_of_not_guarded hshape hn hs).not_registered

/-- A client that asks for a host name, is connected and leaves. -/
theorem callback_registration_hangup : ∃ σ,
    Run (ServerStep Key.identity) .start
      ((lookupEvents Key.identity [0x61] 0x00 0x50 ⟨127, 0, 0, 1⟩ ++ hangup).map
        fun e => (0, e)) σ ∧
    Throughout (Step Key.identity) .accepted
      (lookupEvents Key.identity [0x61] 0x00 0x50 ⟨127, 0, 0, 1⟩ ++ hangup)
      (Registered Key.identity) := by
  obtain ⟨c, hr, hc⟩ := reach_relay Key.identity [0x61] 0x00 0x50 .example ⟨127, 0, 0, 1⟩
  have hall := hr.append (run_hangup_paired hc rfl)
  have hσ := hall.interleave (f := ServerState.start) (i := 0) rfl
  have hiff := callback_registration hσ 0
  rw [eventsOf_self, Function.update_self] at hiff
  exact ⟨_, hσ, hiff.2 (guarded_of_not_ipv4 hall nofun)⟩

/-- After an `ATYP = 1` request the client's next byte dereferences null, and its
EOF is not noticed. -/
theorem callback_registration_ipv4 : ∃ s, Run (Step Key.identity) .accepted
      (delivery (Key.identity.encrypt greetingMessage) .later ++
        delivery (Key.identity.encrypt (ipv4Request ⟨127, 0, 0, 1⟩ 0x00 0x50)) .later) s ∧
    ¬ Registered Key.identity s ∧
    (∃ t, Step Key.identity s (.socket 0 (.recv [0x00])) t ∧
      Faults Key.identity t (.readCb 0 .later) .nullDeref) ∧
    ∃ t, Run (Step Key.identity) s hangup t ∧ ClientLive t ∧ t.context ≠ none := by
  obtain ⟨c, ip, hr, hc⟩ := reach_ipv4 Key.identity 0x00 0x50 ⟨127, 0, 0, 1⟩
  refine ⟨_, hr, fun hreg => ?_, ⟨_, .socket (b := c) rfl ⟨hc.live, hc.link, hc.readEnabled,
    List.cons_ne_nil _ _⟩, ?_⟩, _, run_hangup_null hc, ⟨_, rfl, hc.live⟩, Option.some_ne_none _⟩
  · have hcb := (hreg.callbacks _ rfl hc.live).1
    rw [hc.callbacks] at hcb
    cases hcb
  · refine .readCb (b := arrived c [0x00]) rfl hc.readDue_arrived ?_
    rw [(hc.arrived (List.cons_ne_nil _ _)).callbacks]
    rfl

end LightSocks
