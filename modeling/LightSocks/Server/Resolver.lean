import LightSocks.Server.CrossWiring

/-!
# The resolver and the context

`evdns_getaddrinfo` is given the address of the context, and neither teardown function
cancels a lookup that is still outstanding.

* `ResolverSafe` — whenever `dns_cb` runs, the context it is given is the one its lookup was
  made with, and has not been deleted.
* `NotWhileResolving` — what happens next does not delete a context that an outstanding lookup
  was made with.
* `resolver_context_live` — the first holds in every state of a run of the server exactly when
  the second does at every step.
-/

namespace LightSocks

open Transition

variable {P : Key} {w w' : World} {a a' : Addr} {o : Occupant} {p : BevPtr}
  {b : Bufferevent Callbacks} {s t : Session} {ctx : Socks5ctx}

/-- `dns_cb` may run: the resolver answers, or `handle_second` reads a message and the resolver
answers at once. -/
def MayRunDnsCb (w : World) : WorldEvent → Prop
  | .answer _ _ _ => True
  | .event (.readCb p _) =>
      ∃ b : Bufferevent Callbacks, w.bevs[p]? = some b ∧ b.callbacks.readcb = some .handleSecond
  | _ => False

/-- An outstanding lookup refers to the context it was made with. -/
def Outstanding (w : World) : Prop :=
  ∀ l ∈ w.dns, ∃ o, w.contexts l.arg = some o ∧ o.session = l.session

/-- Every outstanding lookup refers to the context it was made with, and so does every lookup
that is made and answered on the spot. -/
structure ResolverSafe (P : Key) (w : World) : Prop where
  outstanding : Outstanding w
  runs : ∀ e a e' r, MayRunDnsCb w e → w.callback e = some (a, e') →
    w.fire P.table e = some r →
      (∃ o, w.contexts a = some o ∧ e.session w = some o.session) ∧ r ≠ .error .useAfterFree

/-- The condition: an event callback that is told EOF, ERROR or TIMEOUT does not find a context
that an outstanding lookup was made with. -/
def NotWhileResolving (w : World) (e : WorldEvent) : Prop :=
  ∀ a e', w.callback e = some (a, e') → Ends (w.view a e'.lookups) e' → ∀ l ∈ w.dns, l.arg ≠ a

/-! ## Where `dns_cb` runs -/

/-- Only a client waits for a request, and while it is live its context is there. -/
theorem Consistent.of_handleSecond {origin : Origin} (hw : Consistent w)
    (hb : w.bevs[p]? = some b) (hl : b.live = true) (horigin : w.origins[p]? = some origin)
    (hcb : b.callbacks.readcb = some .handleSecond) : ∃ o, w.contexts origin.arg = some o ∧
      o.session = origin.purpose.session ∧ o.context.self = some p := by
  obtain ⟨arg, purpose⟩ := origin
  cases purpose with
  | client k => exact (hw.client p b arg k hb horigin).2 hl
  | remote l target =>
      rw [hw.remote p b arg l target hb horigin] at hcb
      cases hcb

/-! ## A step that meets the condition -/

/-- A callback that ends nothing keeps every context. -/
theorem Called.keeps {e : Event} {lookup : Lookup} {session : ℕ} (h : Called P w a lookup e t)
    (hends : ¬ Ends (w.view a e.lookups) e) (ho : w.contexts a' = some o) :
    ∃ o', (w.absorb a session lookup t).contexts a' = some o' ∧ o'.session = o.session := by
  by_cases ha : a' = a
  · subst ha
    have hview : (w.view a' e.lookups).context = some o.context := congrArg (Option.map _) ho
    obtain ⟨ctx, hctx⟩ := Option.ne_none_iff_exists'.1
      (mt (h.aftermath.context_none_iff hview).1 hends)
    exact ⟨_, World.absorb_contexts_self ho hctx, rfl⟩
  · exact ⟨o, (World.absorb_contexts_ne ha).trans ho, rfl⟩

/-- **A step that meets the condition leaves every lookup its context.** -/
theorem WorldStep.outstanding {e : WorldEvent} (h : WorldStep P w e w') (hw : Consistent w)
    (hout : Outstanding w) (hC : NotWhileResolving w e) : Outstanding w' := by
  cases h.cases with
  | accept free =>
      intro l hl
      obtain ⟨o, ho, hsession⟩ := hout l hl
      exact ⟨o, World.accepting_contexts_old free ho, hsession⟩
  | @event e p origin t bev origin_eq step =>
      have hcalled := Called.of_event hw bev origin_eq step
      intro l hl
      rcases List.mem_append.1 hl with hl | hl
      · obtain ⟨o, ho, hsession⟩ := hout l hl
        by_cases ha : l.arg = origin.arg
        · have hruns : w.callback (.event e) = some (origin.arg, e) := by
            simp [World.callback, bev, origin_eq]
          obtain ⟨o', ho', hsame⟩ := hcalled.keeps (fun hends => hC _ _ hruns hends l hl ha) ho
          exact ⟨o', ho', hsame.trans hsession⟩
        · exact ⟨o, (World.absorb_contexts_ne ha).trans ho, hsession⟩
      · -- the lookup `handle_second` has just made
        obtain ⟨host, hhost, rfl⟩ := List.mem_map.1 hl
        obtain ⟨q, b, choice, ctx, rfl, hb, hl, hcb, hctx⟩ :=
          hcalled.aftermath.of_dns (List.ne_nil_of_mem hhost)
        cases bev
        obtain ⟨o, ho, hsession, -⟩ := hw.of_handleSecond hb hl origin_eq hcb
        exact ⟨_, World.absorb_contexts_self ho hctx, hsession⟩
  | @answer lookup result re t mem step =>
      have hcalled := Called.of_answer hw mem step
      intro l hl
      rcases List.mem_append.1 hl with hl | hl
      · obtain ⟨o, ho, hsession⟩ := hout l (List.mem_of_mem_erase hl)
        obtain ⟨o', ho', hsame⟩ := hcalled.keeps not_ends_dnsDone ho
        exact ⟨o', ho', hsame.trans hsession⟩
      · obtain ⟨host, hhost, -⟩ := List.mem_map.1 hl
        obtain ⟨q, b, choice, ctx, he, -⟩ := hcalled.aftermath.of_dns (List.ne_nil_of_mem hhost)
        cases he

/-- **A step that fails the condition leaves a lookup without its context.** -/
theorem WorldStep.not_outstanding {e : WorldEvent} (h : WorldStep P w e w') (hw : Consistent w)
    (hout : Outstanding w) (hn : ¬ NotWhileResolving w e) : ¬ Outstanding w' := by
  simp only [NotWhileResolving, not_forall, not_not] at hn
  obtain ⟨a, e', hruns, hends, l, hl, rfl⟩ := hn
  obtain ⟨o, ho, -⟩ := hout l hl
  cases h.cases with
  | accept free => cases hruns
  | @event e p origin t bev origin_eq step =>
      obtain ⟨rfl, q, origin', hbev, horigin, harg⟩ := World.callback_event hruns
      cases bev.symm.trans hbev
      cases origin_eq.symm.trans horigin
      intro hout'
      obtain ⟨o', ho', -⟩ := hout' l (List.mem_append_left _ hl)
      have hnone := Event.lookups_of_bev bev
      have hview : (w.view origin.arg e'.lookups).context = some o.context := by
        rw [World.view, harg, ho]
        rfl
      have hdeleted := ((Called.of_event hw bev origin_eq step).aftermath.context_none_iff hview).2
        (harg.symm ▸ hends)
      rcases World.absorb_contexts ho' with ⟨hne, -⟩ | ⟨-, -, context, -, hctx, -⟩
      · exact hne harg.symm
      · cases hdeleted.symm.trans hctx
  | answer mem step =>
      obtain rfl := congrArg Prod.snd (Option.some.inj hruns)
      exact absurd hends not_ends_dnsDone

/-! ## Nothing is used after it has been deleted -/

/-- With its context, an answer does not touch anything that has been released. -/
theorem resolve_live {re : ℤ} {result : DnsResult} (hctx : s.context = some ctx) :
    Server.resolve re result s ≠ .error .useAfterFree := by
  rcases resolve_cases hctx re result with ⟨e, -, h⟩ | ⟨addr, -, h⟩ | ⟨-, h⟩
  all_goals
    rw [h]
    simp

/-- Nor does a lookup, which may be answered on the spot. -/
theorem askAndRegister_live {host : List UInt8} {choice : Choice} (hctx : s.context = some ctx)
    (hb : s.bevs[p]? = some b) (hl : b.live = true) :
    askAndRegister p host choice s ≠ .error .useAfterFree := by
  cases hu : Server.evdnsGetaddrinfo host choice s with
  | error f =>
      intro h
      rw [askAndRegister, hu] at h
      cases h
      unfold Server.evdnsGetaddrinfo at hu
      split at hu
      · exact resolve_live (by exact hctx) hu
      · cases hu
  | ok u =>
      have hbu : u.bevs[p]? = some b := by
        rcases evdnsGetaddrinfo_ok hctx hu with ⟨-, hbevs, -⟩ | ⟨addr, -, rfl⟩
        · rw [hbevs, hb]
        · exact (List.getElem?_append_left (List.getElem?_eq_some_iff.1 hb).1).trans hb
      rw [askAndRegister_eq hu hbu hl]
      simp

/-- Nor does a request. -/
theorem handleSecond_live {arg : Option CtxPtr} {choice : Choice} (hctx : s.context = some ctx)
    (hself : ctx.self = some p) (hb : s.bevs[p]? = some b) (hl : b.live = true) :
    Socks5.handleSecond P.table p arg choice s ≠ .error .useAfterFree := by
  cases arg with
  | none => simp [Socks5.handleSecond, nonnull]
  | some _ =>
      have hlt : p < s.bevs.length := (List.getElem?_eq_some_iff.1 hb).1
      rw [handleSecond_eq hctx hself hb hl]
      rcases parseRequest_cases (readPlain P b) with
        hparse | ⟨-, ⟨hparse, -⟩ | ⟨hparse, -⟩ | ⟨hparse, -⟩⟩
      all_goals rw [hparse]
      · simp
      · simp
      · simp
      · exact askAndRegister_live (b := b.consume 63) rfl (List.getElem?_set_self hlt) hl

/-- As long as every lookup has its context, `dns_cb` finds one whenever it runs. -/
theorem Outstanding.resolverSafe (hout : Outstanding w) (hw : Consistent w) : ResolverSafe P w := by
  refine ⟨hout, ?_⟩
  intro e a e' r hmay hruns hfire
  cases e with
  | accept a => exact absurd hmay id
  | answer lookup result re =>
      by_cases hmem : lookup ∈ w.dns
      swap
      · simp [World.fire, hmem] at hfire
      obtain ⟨o, ho, hsession⟩ := hout lookup hmem
      refine ⟨?_, ?_⟩
      · cases hruns
        exact ⟨o, ho, congrArg some hsession.symm⟩
      · rintro rfl
        obtain ⟨-, hr⟩ := Session.fire_dnsDone ((worldFaults_answer hmem).1 hfire)
        exact resolve_live (congrArg (Option.map _) ho) hr.symm
  | event e =>
      cases e with
      | socket | eventCb | dnsDone => exact absurd hmay id
      | readCb p choice =>
          obtain ⟨b, hb, hcb⟩ := hmay
          obtain ⟨rfl, q, origin, hbev, horigin, rfl⟩ := World.callback_event hruns
          cases hbev
          rw [World.fire_event rfl horigin] at hfire
          obtain ⟨r', hr', rfl⟩ := Option.map_eq_some_iff.1 hfire
          obtain ⟨b', hb', hdue, hcall⟩ := Session.fire_readCb hr'
          cases hb.symm.trans hb'
          have hl : b.live = true := by
            simp only [Bufferevent.readDue, Bool.and_eq_true] at hdue
            exact hdue.1.1
          obtain ⟨o, ho, hsession, hself⟩ := hw.of_handleSecond hb hl horigin hcb
          refine ⟨⟨o, ho, ?_⟩, ?_⟩
          · simp [WorldEvent.session, Event.bev, horigin, hsession]
          · intro hfault
            cases r' with
            | ok t => cases hfault
            | error f =>
                cases hfault
                rw [Session.callRead, hcb] at hcall
                exact handleSecond_live (b := b.takeRead) (congrArg (Option.map _) ho) hself
                  (List.getElem?_set_self (List.getElem?_eq_some_iff.1 hb).1) hl hcall.symm

/-! ## Over a whole run -/

theorem outstanding_of_guarded {es : List WorldEvent}
    (h : Run (Guarded NotWhileResolving (WorldStep P)) .start es w) :
    Consistent w ∧ Outstanding w := by
  refine h.invariant (I := fun w => Consistent w ∧ Outstanding w)
    (fun _ _ _ hw hs => ⟨hs.2.consistent hw.1, hs.2.outstanding hw.1 hw.2 hs.1⟩)
    ⟨Consistent.start, ?_⟩
  intro l hl
  cases hl

/-- **When a DNS completion meets a live context.**  For any number of sessions, in any order
of their events and with any reuse of addresses, `dns_cb` finds the context its lookup was made
with exactly when no event callback deletes a context that a lookup is outstanding for. -/
theorem resolver_context_live {es : List WorldEvent} (h : Run (WorldStep P) .start es w) :
    Throughout (WorldStep P) .start es (ResolverSafe P) ↔
      Run (Guarded NotWhileResolving (WorldStep P)) .start es w := by
  refine h.throughout_iff (worldStep_deterministic P) ?_ ?_
  · intro es' u hu
    obtain ⟨hw, hout⟩ := outstanding_of_guarded hu
    exact hout.resolverSafe hw
  · intro es' u e v hu hn hs hsafe
    obtain ⟨hw, hout⟩ := outstanding_of_guarded hu
    exact hs.not_outstanding hw hout hn hsafe.outstanding

/-- A client that asks for a host name ends nothing. -/
theorem requestEvents_notWhileResolving {host : List UInt8} {hi lo : UInt8} :
    ∀ e ∈ requestEvents P host hi lo, ∀ w, NotWhileResolving w e := by
  intro e he w a e' hruns hends
  simp only [requestEvents, delivery, List.cons_append, List.nil_append, List.map_cons,
    List.map_nil, List.mem_cons, List.not_mem_nil, or_false] at he
  obtain ⟨p, b, what, rfl, -⟩ := hends
  rcases he with rfl | rfl | rfl | rfl | rfl
  · cases hruns
  all_goals cases (World.callback_event hruns).1

/-- A client that is given the address it has asked for. -/
theorem resolver_context_live_lookup : ∃ w,
    Run (WorldStep Key.identity) .start (requestEvents Key.identity [0x61] 0x00 0x50 ++
      [.answer (requestedLookup [0x61] 0x00 0x50) (.found ⟨.inet, ⟨127, 0, 0, 1⟩⟩) 0]) w ∧
    Throughout (WorldStep Key.identity) .start (requestEvents Key.identity [0x61] 0x00 0x50 ++
      [.answer (requestedLookup [0x61] 0x00 0x50) (.found ⟨.inet, ⟨127, 0, 0, 1⟩⟩) 0])
      (ResolverSafe Key.identity) := by
  obtain ⟨c, w, hr, -⟩ := run_answered Key.identity [0x61] 0x00 0x50 .example ⟨127, 0, 0, 1⟩ 0
  refine ⟨w, hr, (resolver_context_live hr).2 (hr.guarded_of_forall ?_)⟩
  intro e he u
  rcases List.mem_append.1 he with he | he
  · exact requestEvents_notWhileResolving e he u
  · obtain rfl := List.mem_singleton.1 he
    intro a e' hruns hends
    cases hruns
    exact absurd hends not_ends_dnsDone

/-- A client that leaves while its lookup is outstanding. -/
theorem resolver_context_deleted : ∃ w,
    Run (WorldStep Key.identity) .start
      (requestEvents Key.identity [0x61] 0x00 0x50 ++ hangup.map .event) w ∧
    w.dns = [requestedLookup [0x61] 0x00 0x50] ∧ w.contexts 0 = none ∧
    ¬ ResolverSafe Key.identity w ∧
    WorldFaults Key.identity w (.answer (requestedLookup [0x61] 0x00 0x50)
      (.found ⟨.inet, ⟨127, 0, 0, 1⟩⟩) 0) .useAfterFree := by
  obtain ⟨c, ip, hr, hc⟩ := run_requestEvents Key.identity [0x61] 0x00 0x50 .example
  refine ⟨_, hr.append (run_hangup_world hc), rfl, rfl, ?_,
    (worldFaults_answer List.mem_cons_self).2 (congrArg some (dnsCb_deleted rfl))⟩
  intro hsafe
  obtain ⟨o, ho, -⟩ := hsafe.outstanding _ List.mem_cons_self
  cases ho

end LightSocks
