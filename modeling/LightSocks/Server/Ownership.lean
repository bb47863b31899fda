import LightSocks.Server.CrossWiring

/-!
# Who owns a bufferevent

Both teardown functions find what there is to free through the two pointers of the
context.  `dns_cb` registers the context on a new bufferevent before it knows
whether the connect has started, sets the second pointer only if it has, and does not
look at what it held before.

* `Owned` — every live bufferevent that calls back with a context is one of the two it
  points at, so that deleting the context leaves none behind.
* `PartnersLive` — in every state that can be reached, the second pointer is to a remote
  that is live.
* `RemotesPointed` — every live remote is the one its context points at, which is what
  ownership comes to.
* `callbacks_owned` — ownership holds in every state of a run of the server exactly when
  every connect starts, for a context that has no partner yet.
-/

namespace LightSocks

open Transition

variable {P : Key} {w w' : World} {a : Addr} {o : Occupant} {p q : BevPtr} {t : Session}
  {e : Event} {lookup : Lookup} {session : ℕ}

/-- Every live bufferevent that calls back with a context is owned by it, and a step that
deletes the context leaves none of them behind. -/
structure Owned (P : Key) (w : World) : Prop where
  pointed : ∀ (p : BevPtr) (b : Bufferevent Callbacks) (origin : Origin), w.bevs[p]? = some b →
    w.origins[p]? = some origin → b.live = true → b.callbacks.cbarg ≠ none →
      ∃ o, w.contexts origin.arg = some o ∧
        (o.context.self = some p ∨ o.context.partner = some p)
  freed : ∀ e w' a, WorldStep P w e w' → w.contexts a ≠ none → w'.contexts a = none →
    ∀ (p : BevPtr) (b : Bufferevent Callbacks) (origin : Origin), w'.bevs[p]? = some b →
      w'.origins[p]? = some origin → origin.arg = a → b.callbacks.cbarg ≠ none → b.live = false

/-- The condition: the connect that `dns_cb` makes starts, and the context it finds has no
partner yet. -/
def ConnectStarts (P : Key) (w : World) (e : WorldEvent) : Prop :=
  ∀ a e' addr, w.callback e = some (a, e') →
    kind P (w.view a e'.lookups) e' = .getsAddress addr →
      e'.connectResult = 0 ∧ ∀ o, w.contexts a = some o → o.context.partner = none

/-! ## Where the second pointer leads -/

/-- The second pointer of a context is to a remote that `dns_cb` has created with that context,
and that has not been freed. -/
def PartnersLive (w : World) : Prop :=
  ∀ a o q, w.contexts a = some o → o.context.partner = some q →
    Heap.Live w.bevs q ∧ ∃ l target, w.origins[q]? = some ⟨a, .remote l target⟩

/-- Every remote that has not been freed is the one its context points at. -/
def RemotesPointed (w : World) : Prop :=
  ∀ a q l target, Heap.Live w.bevs q → w.origins[q]? = some ⟨a, .remote l target⟩ →
    ∃ o, w.contexts a = some o ∧ o.context.partner = some q

theorem PartnersLive.lt (h : PartnersLive w) (hw : Consistent w) (ho : w.contexts a = some o)
    (hq : o.context.partner = some q) : q < w.bevs.length := by
  obtain ⟨-, l, target, horigin⟩ := h a o q ho hq
  exact hw.length ▸ (List.getElem?_eq_some_iff.1 horigin).1

/-- The context a callback finds is that of the session at its address. -/
theorem World.of_view_context {lookups : List (List UInt8)} {ctx : Socks5ctx}
    (h : (w.view a lookups).context = some ctx) :
    ∃ o, w.contexts a = some o ∧ o.context = ctx := Option.map_eq_some_iff.1 h

/-- The partner of a client is not the client. -/
theorem Consistent.self_ne (hw : Consistent w) {l : Lookup} {target : Target} {a' : Addr}
    (ho : w.contexts a = some o) (hq : w.origins[q]? = some ⟨a', .remote l target⟩) :
    o.context.self ≠ some q := by
  intro hself
  obtain ⟨p, hp, horigin⟩ := hw.self a o ho
  cases hself.symm.trans hp
  cases hq.symm.trans horigin

/-- Only a remote has the callbacks of one. -/
theorem Consistent.remote_of {b : Bufferevent Callbacks} {purpose : Purpose} (hw : Consistent w)
    (hb : w.bevs[p]? = some b) (horigin : w.origins[p]? = some ⟨a, purpose⟩)
    (hcb : b.callbacks = remoteCallbacks) : ∃ l target, purpose = .remote l target := by
  cases purpose with
  | client k =>
      obtain ⟨⟨rd, arg, hrd, hclient⟩, -⟩ := hw.client p b a k hb horigin
      exact absurd (hclient.symm.trans hcb) (clientCallbacks_ne hrd)
  | remote l target => exact ⟨l, target, rfl⟩

/-- What is freed along with a context has been registered with it. -/
theorem Called.freed_at {second : Option BevPtr} (h : Called P w a lookup (.eventCb p) t)
    (hw : Consistent w) (hpartners : PartnersLive w) (ho : w.contexts a = some o)
    (hsecond : second = o.context.partner ∨ second = some p ∧ ∃ b, w.bevs[p]? = some b ∧
      b.callbacks = remoteCallbacks) (hq : o.context.self = some q ∨ second = some q) :
    ∃ purpose, w.origins[q]? = some ⟨a, purpose⟩ := by
  rcases hq with hq | rfl
  · obtain ⟨p', hself, horigin⟩ := hw.self a o ho
    cases hq.symm.trans hself
    exact ⟨_, horigin⟩
  · rcases hsecond with hpartner | ⟨hp, -⟩
    · obtain ⟨-, l, target, horigin⟩ := hpartners a o q ho hpartner.symm
      exact ⟨_, horigin⟩
    · obtain ⟨b, purpose, -, -, horigin⟩ := h.ran.bev p rfl
      cases hp
      exact ⟨purpose, horigin⟩

/-- Where the bufferevent comes from that `dns_cb` has created. -/
theorem Ran.origins_attached {target : Target} (hw : Consistent w) (h : t.connects = [target]) :
    (w.absorb a session lookup t).origins[w.bevs.length]? = some ⟨a, .remote lookup target⟩ := by
  rw [World.absorb, h, ← hw.length]
  exact List.getElem?_concat_length ..

/-- A callback leaves the second pointers as good as they were. -/
theorem Called.partnersLive (h : Called P w a lookup e t) (hw : Consistent w)
    (hpartners : PartnersLive w) : PartnersLive (w.absorb a session lookup t) := by
  -- a remote that is live stays where it is
  have hkeep : ∀ {a' o' q}, w.contexts a' = some o' → o'.context.partner = some q →
      Heap.Live t.bevs q → Heap.Live t.bevs q ∧ ∃ l target,
        (w.absorb a session lookup t).origins[q]? = some ⟨a', .remote l target⟩ := by
    intro a' o' q ho hq hlive
    obtain ⟨-, l, target, horigin⟩ := hpartners a' o' q ho hq
    exact ⟨hlive, l, target, (Ran.origins hw (hpartners.lt hw ho hq)).2 horigin⟩
  intro a' o' q ho' hq
  rcases World.absorb_contexts ho' with ⟨hne, ho⟩ | ⟨rfl, o, context, ho, hcontext, rfl⟩
  · refine hkeep ho hq ?_
    obtain ⟨hlive, l, target, horigin⟩ := hpartners a' o' q ho hq
    cases h.aftermath.pointers with
    | kept _ _ _ live _ => exact (live q).2 hlive
    | attached _ _ _ _ _ live _ => exact (live q).2 (.inl hlive)
    | released event context _ live second_eq _ =>
        subst event
        obtain ⟨o, ho₁, rfl⟩ := World.of_view_context context
        -- what is freed is at another address
        have hother : ¬ (o.context.self = some q ∨ _) := fun hfreed => by
          obtain ⟨purpose, hat⟩ := h.freed_at hw hpartners ho₁ second_eq hfreed
          cases horigin.symm.trans hat
          exact hne rfl
        exact (live q).2 ⟨hlive, not_or.1 hother⟩
  · cases h.aftermath.pointers with
    | kept _ _ partner live _ =>
        rw [World.view, ho, hcontext] at partner
        have hq' : o.context.partner = some q := (Option.some.inj partner).symm.trans hq
        exact hkeep ho hq' ((live q).2 (hpartners a' o q ho hq').1)
    | @attached _ _ _ target _ hctx hctx' _ partner live connects =>
        obtain ⟨o₁, ho₁, rfl⟩ := World.of_view_context hctx
        cases ho.symm.trans ho₁
        cases hcontext.symm.trans hctx'
        split at partner
        · obtain rfl : w.bevs.length = q := Option.some.inj (partner.symm.trans hq)
          exact ⟨(live _).2 (.inr rfl), lookup, target, Ran.origins_attached hw connects⟩
        · have hq' : o.context.partner = some q := partner.symm.trans hq
          exact hkeep ho hq' ((live q).2 (.inl (hpartners a' o q ho hq').1))
    | released _ _ hnone _ _ _ => cases hcontext.symm.trans hnone

/-- **The second pointer of a context is always to a remote that is live.** -/
theorem WorldStep.partnersLive {e : WorldEvent} (h : WorldStep P w e w') (hw : Consistent w)
    (hpartners : PartnersLive w) : PartnersLive w' := by
  cases h.callbackCase hw with
  | @accept a free =>
      intro a' o q ho hq
      rcases World.accepting_contexts ho with ho | ⟨-, rfl⟩
      · obtain ⟨⟨b, hb, hl⟩, l, target, horigin⟩ := hpartners a' o q ho hq
        have hold : (w.accepting a).bevs[q]? = w.bevs[q]? :=
          List.getElem?_append_left (List.getElem?_eq_some_iff.1 hb).1
        exact ⟨⟨b, hold.trans hb, hl⟩, l, target, World.accepting_origins_old horigin⟩
      · cases hq
  | callback runs consistent called => exact called.partnersLive consistent hpartners

/-! ## As long as every connect starts -/

/-- Nothing that is registered with a context outlives it. -/
theorem Called.dead_of_deleted (h : Called P w a lookup e t) (hw : Consistent w)
    (hpointed : RemotesPointed w) (hsome : w.contexts a ≠ none) (hnone : t.context = none) :
    ∀ q purpose, (w.absorb a session lookup t).origins[q]? = some ⟨a, purpose⟩ →
      ¬ Heap.Live t.bevs q := by
  intro q purpose horigin hlive
  cases h.aftermath.pointers with
  | kept _ self _ _ _ =>
      rw [hnone, World.view] at self
      exact hsome (Option.map_eq_none_iff.1 (Option.map_eq_none_iff.1 self.symm))
  | attached _ _ hctx' _ _ _ _ => cases hnone.symm.trans hctx'
  | released event context _ live second_eq connects =>
      subst event
      rw [World.absorb, connects, List.map_nil, List.append_nil] at horigin
      obtain ⟨o, ho, rfl⟩ := World.of_view_context context
      obtain ⟨⟨b, hb, hl⟩, hself, hsecond⟩ := (live q).1 hlive
      cases purpose with
      | client k =>
          obtain ⟨o₁, ho₁, -, hself₁⟩ := (hw.client q b a k hb horigin).2 hl
          cases ho.symm.trans ho₁
          exact hself hself₁
      | remote l target =>
          obtain ⟨o₁, ho₁, hq⟩ := hpointed a q l target ⟨b, hb, hl⟩ horigin
          cases ho.symm.trans ho₁
          rcases second_eq with rfl | ⟨rfl, b', hb', hcb⟩
          · exact hsecond hq
          · -- `remote_event_cb` has timed out, and frees the bufferevent it was called with
            obtain ⟨b₁, purpose, hb₁, hl₁, horigin₁⟩ := h.ran.bev _ rfl
            cases hb'.symm.trans hb₁
            obtain ⟨l', target', rfl⟩ := hw.remote_of hb' horigin₁ hcb
            obtain ⟨o₂, ho₂, hp⟩ := hpointed a _ l' target' ⟨b', hb', hl₁⟩ horigin₁
            cases ho.symm.trans ho₂
            exact hsecond (hp.symm.trans hq)

/-- A callback whose connect starts leaves every remote pointed at. -/
theorem Called.remotesPointed (h : Called P w a lookup e t) (hw : Consistent w)
    (hpointed : RemotesPointed w)
    (hC : ∀ addr, kind P (w.view a e.lookups) e = .getsAddress addr →
      e.connectResult = 0 ∧ ∀ o, w.contexts a = some o → o.context.partner = none) :
    RemotesPointed (w.absorb a session lookup t) := by
  intro a' q l target hlive horigin
  replace hlive : Heap.Live t.bevs q := hlive
  by_cases hq : q < w.bevs.length
  · have hbefore := (Ran.origins hw hq).1 horigin
    have hold : Heap.Live w.bevs q := by
      cases h.aftermath.pointers with
      | kept _ _ _ live _ => exact (live q).1 hlive
      | attached _ _ _ _ _ live _ => exact ((live q).1 hlive).resolve_right hq.ne
      | released _ _ _ live _ _ => exact ((live q).1 hlive).1
    obtain ⟨o, ho, hpartner⟩ := hpointed a' q l target hold hbefore
    by_cases ha : a' = a
    swap
    · exact ⟨o, (World.absorb_contexts_ne ha).trans ho, hpartner⟩
    subst ha
    cases h.aftermath.pointers with
    | kept _ _ partner live _ =>
        rw [World.view, ho] at partner
        obtain ⟨ctx, hctx, hsame⟩ := Option.map_eq_some_iff.1 partner
        exact ⟨_, World.absorb_contexts_self ho hctx, hsame.trans hpartner⟩
    | attached kind _ _ _ _ _ _ => cases ((hC _ kind).2 o ho).symm.trans hpartner
    | released _ _ hnone _ _ _ =>
        exact absurd hlive (h.dead_of_deleted hw hpointed (by simp [ho]) hnone q _ horigin)
  · -- the one that has just been created
    obtain ⟨target', htarget, heq⟩ := Ran.origins_new hw (not_lt.1 hq) horigin
    cases heq
    cases h.aftermath.pointers with
    | kept _ _ _ _ connects | released _ _ _ _ _ connects =>
        rw [connects] at htarget
        cases htarget
    | attached kind hctx hctx' _ partner live _ =>
        obtain ⟨o, ho, rfl⟩ := World.of_view_context hctx
        have hnew : q = w.bevs.length := by
          refine ((live q).1 hlive).resolve_left ?_
          rintro ⟨b, hb, -⟩
          exact hq (List.getElem?_eq_some_iff.1 hb).1
        refine ⟨_, World.absorb_contexts_self ho hctx', ?_⟩
        rw [hnew]
        exact partner.trans (if_pos (hC _ kind).1)

/-- What holds as long as every connect starts. -/
structure Partnered (w : World) : Prop where
  consistent : Consistent w
  partners : PartnersLive w
  remotes : RemotesPointed w

theorem Partnered.start : Partnered World.start := by
  refine ⟨.start, ?_, ?_⟩
  · intro a o q ho
    cases ho
  · intro a q l target _ horigin
    cases horigin

/-- **A step whose connect starts leaves every remote pointed at.** -/
theorem WorldStep.partnered {e : WorldEvent} (h : WorldStep P w e w') (hw : Partnered w)
    (hC : ConnectStarts P w e) : Partnered w' := by
  refine ⟨h.consistent hw.consistent, h.partnersLive hw.consistent hw.partners, ?_⟩
  cases h.callbackCase hw.consistent with
  | @accept a free =>
      intro a' q l target hlive horigin
      rcases getElem?_snoc horigin with horigin | ⟨-, heq⟩
      · obtain ⟨b, hb, hl⟩ := hlive
        have hold := hw.consistent.accepting_bevs_old horigin hb
        obtain ⟨o, ho, hq⟩ := hw.remotes a' q l target ⟨b, hold, hl⟩ horigin
        exact ⟨o, World.accepting_contexts_old free ho, hq⟩
      · cases heq
  | callback runs consistent called =>
      exact called.remotesPointed consistent hw.remotes fun addr => hC _ _ addr runs

/-- Pointed at, everything has an owner. -/
theorem Partnered.owned (hw : Partnered w) : Owned P w := by
  refine ⟨?_, ?_⟩
  · rintro p b ⟨a, purpose⟩ hb horigin hl -
    cases purpose with
    | client k =>
        obtain ⟨o, ho, -, hself⟩ := (hw.consistent.client p b a k hb horigin).2 hl
        exact ⟨o, ho, .inl hself⟩
    | remote l target =>
        obtain ⟨o, ho, hq⟩ := hw.remotes a p l target ⟨b, hb, hl⟩ horigin
        exact ⟨o, ho, .inr hq⟩
  · rintro e w' a hs hsome hnone p b ⟨a', purpose⟩ hb horigin rfl -
    cases h : b.live with
    | false => rfl
    | true =>
        exfalso
        cases hs.callbackCase hw.consistent with
        | accept free =>
            obtain ⟨o, ho⟩ := Option.ne_none_iff_exists'.1 hsome
            cases hnone.symm.trans (World.accepting_contexts_old free ho)
        | @callback e a₁ e' session lookup dns t runs consistent called =>
            obtain ⟨rfl, hdeleted⟩ := World.absorb_contexts_none (w := { w with dns }) hsome hnone
            exact called.dead_of_deleted consistent hw.remotes hsome hdeleted p purpose horigin
              ⟨b, hb, h⟩

/-! ## A connect that does not start, or comes second -/

/-- In a world where everything has an owner, every remote is pointed at. -/
theorem Owned.remotesPointed (h : Owned P w) (hw : Consistent w) : RemotesPointed w := by
  rintro a q l target ⟨b, hb, hl⟩ horigin
  have harg : b.callbacks.cbarg ≠ none := by
    rw [hw.remote q b a l target hb horigin]
    exact Option.some_ne_none _
  obtain ⟨o, ho, hptr⟩ := h.pointed q b _ hb horigin hl harg
  exact ⟨o, ho, hptr.resolve_left (hw.self_ne ho horigin)⟩

/-- **A connect that does not start, or that comes second, leaves a remote nobody points at.** -/
theorem WorldStep.not_owned {e : WorldEvent} (h : WorldStep P w e w') (hw : Consistent w)
    (hpartners : PartnersLive w) (hn : ¬ ConnectStarts P w e) : ¬ Owned P w' := by
  intro hown
  have hpointed := hown.remotesPointed (h.consistent hw)
  simp only [ConnectStarts, not_forall] at hn
  obtain ⟨a, e', addr, hruns, hkind, hn⟩ := hn
  cases h.callbackCase hw with
  | accept free => cases hruns
  | @callback e a₁ e₁ session lookup dns t runs consistent called =>
      cases hruns.symm.trans runs
      have haddr : kind P (World.view { w with dns } a e'.lookups) e' = .getsAddress addr := hkind
      cases called.aftermath.pointers with
      | kept kind _ _ _ _ => exact kind addr haddr
      | released event _ _ _ _ _ =>
          subst event
          rcases kind_eventCb_cases P (World.view { w with dns } a (Event.eventCb _).lookups) _ with
            h | h <;> cases h.symm.trans haddr
      | @attached _ _ _ target _ hctx hctx' _ partner live connects =>
          obtain ⟨o, ho, rfl⟩ := World.of_view_context hctx
          -- the new bufferevent is pointed at, so the connect has started
          obtain ⟨o', ho', hnew⟩ := hpointed a w.bevs.length lookup target
            ((live _).2 (.inr rfl)) (Ran.origins_attached consistent connects)
          cases ho'.symm.trans (World.absorb_contexts_self ho hctx')
          have hre : e'.connectResult = 0 := by
            by_contra hre
            rw [if_neg hre] at partner
            exact (hpartners.lt hw ho (partner.symm.trans hnew)).false
          -- and an old one would be, if there had been one
          refine hn ⟨hre, fun o₁ ho₁ => Option.eq_none_iff_forall_ne_some.2 ?_⟩
          intro q hq
          cases ho.symm.trans ho₁
          obtain ⟨hlive, l, target', horigin⟩ := hpartners a o q ho hq
          have hlt := hpartners.lt hw ho hq
          obtain ⟨o₂, ho₂, hold⟩ := hpointed a q l target' ((live q).2 (.inl hlive))
            ((Ran.origins consistent hlt).2 horigin)
          cases ho₂.symm.trans (World.absorb_contexts_self ho hctx')
          cases hnew.symm.trans hold
          exact hlt.false

/-! ## Over a whole run -/

theorem partnersLive_of_run {es : List WorldEvent} (h : Run (WorldStep P) .start es w) :
    Consistent w ∧ PartnersLive w :=
  h.invariant (I := fun w => Consistent w ∧ PartnersLive w)
    (fun _ _ _ hw hs => ⟨hs.consistent hw.1, hs.partnersLive hw.1 hw.2⟩)
    ⟨Partnered.start.consistent, Partnered.start.partners⟩

theorem partnered_of_guarded {es : List WorldEvent}
    (h : Run (Guarded (ConnectStarts P) (WorldStep P)) .start es w) : Partnered w :=
  h.invariant (fun _ _ _ hw hs => hs.2.partnered hw hs.1) .start

/-- **When every bufferevent that can reach a context is owned by it.**  For any number of
sessions, in any order of their events and with any reuse of addresses, exactly when every
connect of `dns_cb` starts and none comes second. -/
theorem callbacks_owned {es : List WorldEvent} (h : Run (WorldStep P) .start es w) :
    Throughout (WorldStep P) .start es (Owned P) ↔
      Run (Guarded (ConnectStarts P) (WorldStep P)) .start es w := by
  refine h.throughout_iff (worldStep_deterministic P) ?_ ?_
  · intro es' u hu
    exact (partnered_of_guarded hu).owned
  · intro es' u e v hu hn hs
    have hw := partnered_of_guarded hu
    exact hs.not_owned hw.consistent hw.partners hn

/-- A client that asks for a host name makes nothing connect. -/
theorem requestEvents_connectStarts {host : List UInt8} {hi lo : UInt8} :
    ∀ e ∈ requestEvents P host hi lo, ∀ w, ConnectStarts P w e := by
  intro e he w a e' addr hruns hkind
  simp only [requestEvents, delivery, List.cons_append, List.nil_append, List.map_cons,
    List.map_nil, List.mem_cons, List.not_mem_nil, or_false] at he
  rcases he with rfl | rfl | rfl | rfl | rfl
  · cases hruns
  all_goals
    obtain ⟨rfl, -⟩ := World.callback_event hruns
    first
    | cases hkind
    | exact absurd hkind kind_later_ne

/-- A client whose lookup is answered and whose remote host is being connected to. -/
theorem callbacks_owned_lookup : ∃ w,
    Run (WorldStep Key.identity) .start (requestEvents Key.identity [0x61] 0x00 0x50 ++
      [.answer (requestedLookup [0x61] 0x00 0x50) (.found ⟨.inet, ⟨127, 0, 0, 1⟩⟩) 0]) w ∧
    Throughout (WorldStep Key.identity) .start (requestEvents Key.identity [0x61] 0x00 0x50 ++
      [.answer (requestedLookup [0x61] 0x00 0x50) (.found ⟨.inet, ⟨127, 0, 0, 1⟩⟩) 0])
      (Owned Key.identity) := by
  obtain ⟨c, ip, hr, -⟩ := run_requestEvents Key.identity [0x61] 0x00 0x50 .example
  have hcontext := World.alone_contexts 0 ⟨some 0, none, portOf 0x00 0x50, ip⟩ c
    [requestedLookup [0x61] 0x00 0x50] [⟨0, 0, methodReply.toList⟩]
  have hanswer := step_answered (P := Key.identity) (requestedLookup [0x61] 0x00 0x50)
    List.mem_cons_self hcontext ⟨127, 0, 0, 1⟩ 0
  refine ⟨_, hr.snoc hanswer, (callbacks_owned (hr.snoc hanswer)).2
    ((hr.guarded_of_forall requestEvents_connectStarts).snoc ⟨?_, hanswer⟩)⟩
  intro a e' addr hruns _
  cases hruns
  refine ⟨rfl, fun o ho => ?_⟩
  cases hcontext.symm.trans ho
  rfl

/-! ## A connect that fails -/

/-- The read timeout of a remote whose connect has failed, and whose context has been deleted. -/
theorem timeout_abandoned {origin : Origin} {re : ℤ}
    (horigin : w.origins[p]? = some origin) (hb : w.bevs[p]? = some (newRemote re))
    (hdeleted : w.contexts origin.arg = none) : ∃ w',
      WorldStep P w (.event (.socket p .timeout)) w' ∧
        WorldFaults P w' (.event (.eventCb p)) .useAfterFree := by
  have hadmits : (newRemote re).Admits .timeout := ⟨rfl, rfl, by simp [newRemote]⟩
  refine ⟨_, step_socket hb horigin hadmits, (worldFaults_event rfl (by exact horigin)).2 ?_⟩
  have hdue : ((newRemote re).socket .timeout).nextEvent =
      some ((newRemote re).socket .timeout).eventPending := by
    simp [newRemote, Bufferevent.socket, Bufferevent.raise, Bufferevent.nextEvent, What.merge,
      What.any]
  have hends : ((newRemote re).socket .timeout).eventPending.terminal = true := by
    simp [newRemote, Bufferevent.socket, Bufferevent.raise, What.merge, What.terminal]
  have hnone : (w.view origin.arg []).context = none := congrArg (Option.map _) hdeleted
  refine .eventCb (List.getElem?_set_self (List.getElem?_eq_some_iff.1 hb).1) hdue ?_
  exact remoteEventCb_deleted (P := P) (by exact hnone) (.inr hends)

/-- The connect fails at once and the client leaves: the read timeout of the remote
bufferevent calls back with the deleted context. -/
theorem callbacks_owned_stranded : ∃ w v u,
    Run (WorldStep Key.identity) .start (requestEvents Key.identity [0x61] 0x00 0x50 ++
      [.answer (requestedLookup [0x61] 0x00 0x50) (.found ⟨.inet, ⟨127, 0, 0, 1⟩⟩) (-1)]) w ∧
    ¬ Owned Key.identity w ∧
    Run (WorldStep Key.identity) w (hangup.map .event) v ∧ v.contexts 0 = none ∧
    (∃ b purpose, v.bevs[1]? = some b ∧ v.origins[1]? = some ⟨0, purpose⟩ ∧ b.live = true ∧
      b.callbacks.cbarg ≠ none) ∧
    WorldStep Key.identity v (.event (.socket 1 .timeout)) u ∧
    WorldFaults Key.identity u (.event (.eventCb 1)) .useAfterFree := by
  obtain ⟨c, w, hr, hw⟩ := run_answered Key.identity [0x61] 0x00 0x50 .example ⟨127, 0, 0, 1⟩ (-1)
  obtain ⟨o, ho, -, hself, hpartner⟩ := hw.context
  have horigin₀ : w.origins[0]? = some ⟨0, .client 0⟩ := by rw [hw.origins]; rfl
  have horigin₁ : w.origins[1]? = some ⟨0, .remote (requestedLookup [0x61] 0x00 0x50)
      (⟨127, 0, 0, 1⟩, 80)⟩ := by rw [hw.origins]; rfl
  have hb₀ : w.bevs[0]? = some c := by rw [hw.bevs]; rfl
  have hb₁ : w.bevs[1]? = some (newRemote (-1)) := by rw [hw.bevs]; rfl
  have hleft := run_leaves (P := Key.identity) ho hself hpartner horigin₀ hb₀ hw.idle
  have hb₁' : (w.bevs.set 0 (hungUp c))[1]? = some (newRemote (-1)) :=
    (List.getElem?_set_ne (by decide)).trans hb₁
  have hdeleted : Function.update w.contexts 0 none 0 = none := Function.update_self ..
  obtain ⟨u, htimeout, hfault⟩ := timeout_abandoned (P := Key.identity) (w := { w with
    contexts := Function.update w.contexts 0 none
    bevs := w.bevs.set 0 (hungUp c) }) horigin₁ hb₁' hdeleted
  refine ⟨w, _, u, hr, ?_, hleft, hdeleted, ⟨_, _, hb₁', horigin₁, rfl, Option.some_ne_none _⟩,
    htimeout, hfault⟩
  intro hown
  obtain ⟨o₁, ho₁, hptr⟩ := hown.pointed 1 _ _ hb₁ horigin₁ rfl (Option.some_ne_none _)
  cases ho.symm.trans ho₁
  rw [hself, hpartner] at hptr
  rcases hptr with h | h <;> cases h

end LightSocks
