import LightSocks.Server.CrossWiring
import LightSocks.Server.Replies
import LightSocks.Server.SharedHeap

/-!
# Sessions on one heap run by themselves

As long as no callback finds another session's context at its address, a server whose
sessions share the heap is one independent session per client all the same.

* `SessionCase`, `Isolated.session_cases` — what a step of the server is for one session.
* `Isolated`, `WorldStep.isolated` — the world is made of sessions that run alone, and stays
  so.
* `SideBySide`, `sideBySide_of_apart` — the server refines its sessions side by side.
* `FreshAddress`, `Settled.apart` — it is enough that the allocator does not give an address
  away that a live bufferevent or a lookup still refers to.
* `Traced`, `traced_of_apart` — the steps of a session in a run of the server, one by one.
* `isolated_run`, `worldFaults_iff`, `isolated_complete` — over whole runs: each session does
  what it could do alone, the server fails exactly when a session alone would, and nothing a
  session could do alone is lost.
* `client_sent_own` — a client gets the replies and the bytes of its own session only.
-/

namespace LightSocks

open Transition

variable {P : Key} {w w' : World} {a a' : Addr} {j k : ℕ} {s t : Session}

/-! ## The whole world -/

/-- The world is made of sessions that run alone. -/
structure Isolated (P : Key) (w : World) : Prop where
  consistent : Consistent w
  heard : ∀ r ∈ w.replies, r.client < w.accepted
  session : ∀ k < w.accepted, ∃ a es s, Run (Step P) Session.accepted es s ∧ Holds w a k s

theorem Isolated.start (P : Key) : Isolated P World.start := by
  refine ⟨Consistent.start, ?_, ?_⟩
  · intro r hr
    cases hr
  · intro k hk
    cases hk

/-- What a step of the world is for the session `j`: it is accepted, or takes a step, or stays
as it is. -/
inductive SessionCase (P : Key) (w : World) (e : WorldEvent) (w' : World) (j : ℕ) : Prop where
  | accepted {a : Addr} (new : j = w.accepted) (holds : Holds w' a j Session.accepted)
      (nobody : e.session w = none)
  | moves (old : j < w.accepted) (own : e.session w = some j)
      (step : ∀ a s, Holds w a j s → ∃ e' s', Lifts w j e' e ∧ Step P s e' s' ∧ Holds w' a j s')
  | stays (old : j < w.accepted) (other : e.session w ≠ some j)
      (holds : ∀ a s, Holds w a j s → Reachable P s → Holds w' a j s)

/-- **What a step is for a session**, if it finds no other session's context. -/
theorem Isolated.session_cases {e : WorldEvent} (hw : Isolated P w) (h : WorldStep P w e w')
    (hapart : Apart w e) (hj : j < w'.accepted) : SessionCase P w e w' j := by
  have hcons := hw.consistent
  rcases h.session_lt hcons with ⟨a, rfl, hfree, rfl⟩ | ⟨k, hk, hsession, haccepted, -⟩
  · rcases Nat.lt_succ_iff_lt_or_eq.1 hj with hlt | rfl
    · exact .stays hlt (by simp [WorldEvent.session]) fun a' s hs hreach =>
        hs.accepting hcons hreach.enclosed hlt hfree
    · exact .accepted rfl (.accepted hcons hw.heard) rfl
  · rw [haccepted] at hj
    by_cases hjk : j = k
    · subst hjk
      exact .moves hk hsession fun a s hs => h.session_step hcons hapart hsession hs
    · obtain ⟨a, es, s, -, hs⟩ := hw.session k hk
      refine .stays hj ?_ fun a' s' hs' hreach =>
        h.session_stays hcons hapart hsession hs hjk hs' hreach.enclosed
      rw [hsession]
      exact fun heq => hjk (Option.some.inj heq).symm

/-- **A step leaves every session as it could be alone.** -/
theorem WorldStep.isolated {e : WorldEvent} (h : WorldStep P w e w') (hw : Isolated P w)
    (hapart : Apart w e) : Isolated P w' := by
  refine ⟨h.consistent hw.consistent, ?_, ?_⟩
  · intro r hr
    rcases h.session_lt hw.consistent with ⟨a, -, -, rfl⟩ | ⟨k, -, -, haccepted, hreplies⟩
    · exact (hw.heard r hr).trans (Nat.lt_succ_self _)
    · rw [haccepted]
      exact (hreplies r hr).elim (hw.heard r) id
  · intro j hj
    cases hw.session_cases h hapart hj with
    | accepted new holds nobody => exact ⟨_, [], _, .nil _, holds⟩
    | moves old own step =>
        obtain ⟨a, es, s, hrun, hs⟩ := hw.session j old
        obtain ⟨e', s', -, hstep, hs'⟩ := step a s hs
        exact ⟨a, _, s', hrun.snoc hstep, hs'⟩
    | stays old other holds =>
        obtain ⟨a, es, s, hrun, hs⟩ := hw.session j old
        exact ⟨a, es, s, hrun, holds a s hs ⟨es, hrun⟩⟩

/-! ## The sessions side by side -/

/-- The world is the sessions `σ` side by side: of each session that has been accepted it has
what that session is alone, and the others have not begun. -/
structure SideBySide (P : Key) (w : World) (σ : ServerState) : Prop where
  consistent : Consistent w
  heard : ∀ r ∈ w.replies, r.client < w.accepted
  reachable : ∀ k, Reachable P (σ k)
  holds : ∀ k < w.accepted, ∃ a, Holds w a k (σ k)
  waiting : ∀ k, w.accepted ≤ k → σ k = Session.accepted

theorem SideBySide.start (P : Key) : SideBySide P World.start ServerState.start := by
  refine ⟨Consistent.start, ?_, fun k => .accepted P, ?_, fun k _ => rfl⟩
  · intro r hr
    cases hr
  · intro k hk
    cases hk

theorem SideBySide.isolated {σ : ServerState} (h : SideBySide P w σ) : Isolated P w := by
  refine ⟨h.consistent, h.heard, fun k hk => ?_⟩
  obtain ⟨a, hs⟩ := h.holds k hk
  obtain ⟨es, hrun⟩ := h.reachable k
  exact ⟨a, es, σ k, hrun, hs⟩

/-- **A step is a step of one session, or of none.** -/
theorem WorldStep.sideBySide {e : WorldEvent} {σ : ServerState} (h : WorldStep P w e w')
    (hapart : Apart w e) (hσ : SideBySide P w σ) :
    ∃ ses σ', Run (ServerStep P) σ ses σ' ∧ SideBySide P w' σ' := by
  have hiso := hσ.isolated
  have hiso' := h.isolated hiso hapart
  rcases h.session_lt hiso.consistent with ⟨a, rfl, -, rfl⟩ | ⟨k, hk, hsession, haccepted, -⟩
  · -- a client that connects
    refine ⟨[], σ, .nil σ, hiso'.consistent, hiso'.heard, hσ.reachable, fun j hj => ?_,
      fun j hj => hσ.waiting j ((Nat.le_succ _).trans hj)⟩
    cases hiso.session_cases h hapart hj with
    | accepted new holds nobody =>
        rw [hσ.waiting j new.ge]
        exact ⟨_, holds⟩
    | moves old own step => cases own
    | stays old other holds =>
        obtain ⟨a', hs⟩ := hσ.holds j old
        exact ⟨a', holds a' _ hs (hσ.reachable j)⟩
  · -- an event of the session `k`
    obtain ⟨a, hs⟩ := hσ.holds k hk
    obtain ⟨e', s', -, hstep, hs'⟩ := h.session_step hiso.consistent hapart hsession hs
    refine ⟨[(k, e')], Function.update σ k s', .single ⟨s', hstep, rfl⟩, hiso'.consistent,
      hiso'.heard, fun j => ?_, fun j hj => ?_, fun j hj => ?_⟩
    · by_cases hjk : j = k
      · subst hjk
        rw [Function.update_self]
        exact (hσ.reachable j).run (.single hstep)
      · rw [Function.update_of_ne hjk]
        exact hσ.reachable j
    · by_cases hjk : j = k
      · subst hjk
        rw [Function.update_self]
        exact ⟨a, hs'⟩
      · rw [Function.update_of_ne hjk]
        obtain ⟨a', hother⟩ := hσ.holds j (haccepted ▸ hj)
        exact ⟨a', h.session_stays hiso.consistent hapart hsession hs hjk hother
          (hσ.reachable j).enclosed⟩
    · rw [haccepted] at hj
      rw [Function.update_of_ne (hk.trans_le hj).ne']
      exact hσ.waiting j hj

/-- **The server refines its sessions side by side**, in every run in which no callback finds
another session's context at its address. -/
theorem sideBySide_of_apart {es : List WorldEvent}
    (h : Run (Guarded Apart (WorldStep P)) .start es w) :
    ∃ ses σ, Run (ServerStep P) .start ses σ ∧ SideBySide P w σ :=
  h.refines (R := SideBySide P) (fun _ _ _ _ hσ hs => hs.2.sideBySide hs.1 hσ) (.start P)

/-! ## Faults -/

/-- **A callback that does not return** would not return in its session alone either. -/
theorem Isolated.faults {e : WorldEvent} {f : Fault} (hw : Isolated P w) (hapart : Apart w e)
    (h : WorldFaults P w e f) : ∃ k < w.accepted, e.session w = some k ∧
      ∃ a es s e', Run (Step P) Session.accepted es s ∧ Holds w a k s ∧ Faults P s e' f := by
  have hcons := hw.consistent
  cases e with
  | accept a =>
      simp only [WorldFaults, World.fire] at h
      split at h
      · cases h
      · rw [World.accept_eq] at h
        cases h
  | event e =>
      obtain ⟨p, origin, hbev, horigin⟩ : ∃ p origin, e.bev = some p ∧
          w.origins[p]? = some origin := by
        simp only [WorldFaults, World.fire] at h
        split at h
        · cases h
        · rename_i origin horigin
          obtain ⟨p, hbev, horigin⟩ := Option.bind_eq_some_iff.1 horigin
          exact ⟨p, origin, hbev, horigin⟩
      rw [worldFaults_event hbev horigin] at h
      have hlt := hcons.fresh.1 _ (List.mem_of_getElem? horigin)
      obtain ⟨a, es, s, hrun, hs⟩ := hw.session _ hlt
      obtain rfl := hs.home.origins origin (List.mem_of_getElem? horigin) rfl
      refine ⟨_, hlt, by simp [WorldEvent.session, hbev, horigin], origin.arg, es, s, ?_⟩
      cases e with
      | dnsDone nodename result re => cases hbev
      | socket q e =>
          obtain ⟨b, -, -, hr⟩ := Session.fire_socket h
          cases hr
      | _ =>
          have hown : ∀ o, w.contexts origin.arg = some o → o.session = origin.purpose.session :=
            fun o ho => hapart _ origin o hbev horigin ho
          obtain ⟨e', -, hrel⟩ := hs.fire_event (P := P) hcons hbev horigin rfl hown
          exact ⟨e', hrun, hs, (Related.rel_error_iff hrel).2 h⟩
  | answer lookup result re =>
      by_cases hmem : lookup ∈ w.dns
      swap
      · simp [WorldFaults, World.fire, hmem] at h
      rw [worldFaults_answer hmem] at h
      have hlt := hcons.fresh.2 lookup hmem
      obtain ⟨a, es, s, hrun, hs⟩ := hw.session _ hlt
      obtain rfl := hs.home.dns lookup hmem rfl
      refine ⟨_, hlt, rfl, _, es, s, .dnsDone lookup.host result re, hrun, hs, ?_⟩
      cases result with
      | error code =>
          obtain ⟨-, hr⟩ := Session.fire_dnsDone h
          cases hr
      | found answer =>
          have hrel := hs.fire_answer (P := P) (.found answer) re hcons hmem rfl hapart
          exact (Related.rel_error_iff hrel).2 h

/-! ## Nothing is lost -/

theorem Event.bev_rename {e : Event} {i : BevPtr} (ρ : ℕ → ℕ) (hbev : e.bev = some i) :
    (e.rename ρ).bev = some (ρ i) := by
  cases e with
  | dnsDone nodename result re => cases hbev
  | _ =>
      cases hbev
      rfl

/-- An event that is possible concerns a bufferevent that there is. -/
theorem Session.fire_bev_lt {T : Table} {e : Event} {i : BevPtr} (hbev : e.bev = some i)
    (h : s.fire T e ≠ none) : i < s.bevs.length := by
  by_contra hi
  have hnone : s.bevs[i]? = none := List.getElem?_eq_none (not_lt.1 hi)
  apply h
  cases e with
  | dnsDone nodename result re => cases hbev
  | _ =>
      obtain rfl := Option.some.inj hbev
      simp only [Session.fire, hnone]

/-- **What a session can do alone it can do among others**, if the context at its address is
its own: return with the same result, or fail in the same way. -/
theorem Holds.lift {e : Event} (hs : Holds w a k s) (hw : Consistent w)
    (hown : ∀ o, w.contexts a = some o → o.session = k) (hpossible : s.fire P.table e ≠ none) :
    ∃ e' : WorldEvent, e'.session w = some k ∧ Lifts w k e e' ∧
      (∀ s', Step P s e s' → ∃ w', WorldStep P w e' w' ∧ Holds w' a k s') ∧
      ∀ f, Faults P s e f → WorldFaults P w e' f := by
  cases hbev : e.bev with
  | some i =>
      have hi := Session.fire_bev_lt hbev hpossible
      rw [hs.length] at hi
      have hplace := List.getElem?_eq_getElem hi
      obtain ⟨origin, horigin, hk⟩ := World.mem_places.1 (List.getElem_mem hi)
      obtain rfl := hs.home.origins origin (List.mem_of_getElem? horigin) hk
      have hbev' : (e.rename (w.placeOf k)).bev = some (w.places k)[i] := by
        rw [Event.bev_rename _ hbev, World.placeOf, place_of_getElem? hplace]
      have hrel := (hs.mirrors hw hown).fire P.table hbev
      refine ⟨.event (e.rename (w.placeOf k)), ?_, .event (by simp [hbev]), ?_, ?_⟩
      · simp [WorldEvent.session, hbev', horigin, hk]
      · intro s' hstep
        obtain ⟨t, ht, hm⟩ := Related.rel_of_ok hrel hstep
        subst hk
        exact ⟨_, .event hbev' horigin ht, hs.absorb_event hw hbev' horigin hown ht hm⟩
      · intro f hf
        exact (worldFaults_event hbev' horigin).2 ((Related.rel_error_iff hrel).1 hf)
  | none =>
      cases e with
      | socket | readCb | eventCb => cases hbev
      | dnsDone nodename result re =>
          have hmem : nodename ∈ s.dns := by
            by_contra hmem
            exact hpossible (if_neg hmem)
          obtain ⟨lookup, hlookup, rfl⟩ := List.mem_map.1 (hs.dns.mem_iff.1 hmem)
          obtain ⟨hdns, hk⟩ := List.mem_filter.1 hlookup
          obtain rfl : lookup.session = k := of_decide_eq_true hk
          obtain rfl := hs.home.dns lookup hdns rfl
          have hrel := hs.fire_answer (P := P) result re hw hdns rfl hown
          refine ⟨.answer lookup result re, rfl, .answer hdns rfl, ?_, ?_⟩
          · intro s' hstep
            obtain ⟨t, ht, hm⟩ := Related.rel_of_ok hrel hstep
            exact ⟨_, .answer hdns ht, hs.absorb_answer hw hdns hown ht hm⟩
          · intro f hf
            exact (worldFaults_answer hdns).2 ((Related.rel_error_iff hrel).1 hf)

/-! ## What the allocator has to do for that -/

/-- A new context is not put where a live bufferevent or a lookup still points. -/
def FreshAddress (w : World) : WorldEvent → Prop
  | .accept a =>
      (∀ (p : BevPtr) (b : Bufferevent Callbacks) (origin : Origin), w.bevs[p]? = some b →
        b.live = true → w.origins[p]? = some origin → origin.arg ≠ a) ∧ ∀ l ∈ w.dns, l.arg ≠ a
  | _ => True

/-- The context at an address that something still refers to is the one it was made for. -/
structure Settled (w : World) : Prop where
  bevs : ∀ (p : BevPtr) (b : Bufferevent Callbacks) (origin : Origin) (o : Occupant),
    w.bevs[p]? = some b → b.live = true → w.origins[p]? = some origin →
    w.contexts origin.arg = some o → o.session = origin.purpose.session
  dns : ∀ l ∈ w.dns, ∀ o, w.contexts l.arg = some o → o.session = l.session

theorem Settled.start : Settled World.start := by
  refine ⟨?_, ?_⟩
  · intro p b origin o hb
    cases hb
  · intro l hl
    cases hl

/-- An event that is possible finds its bufferevent live. -/
theorem Session.fire_bev_live {T : Table} {e : Event} {p : BevPtr} {r : Except Fault Session}
    (h : s.fire T e = some r) (hbev : e.bev = some p) :
    ∃ b, s.bevs[p]? = some b ∧ b.live = true := by
  cases e with
  | dnsDone nodename result re => cases hbev
  | socket q e =>
      obtain rfl := Option.some.inj hbev
      obtain ⟨b, hb, hadmits, -⟩ := Session.fire_socket h
      refine ⟨b, hb, ?_⟩
      cases e <;> exact hadmits.1
  | readCb q choice =>
      obtain rfl := Option.some.inj hbev
      obtain ⟨b, hb, hdue, -⟩ := Session.fire_readCb h
      simp only [Bufferevent.readDue, Bool.and_eq_true] at hdue
      exact ⟨b, hb, hdue.1.1⟩
  | eventCb q =>
      obtain rfl := Option.some.inj hbev
      obtain ⟨b, what, hb, hwhat, -⟩ := Session.fire_eventCb h
      exact ⟨b, hb, (Bufferevent.nextEvent_cases hwhat).1⟩

/-- In a settled world whatever is possible finds the context of its own session. -/
theorem Settled.apart {T : Table} {e : WorldEvent} {r : Except Fault World} (h : Settled w)
    (hfire : w.fire T e = some r) : Apart w e := by
  cases e with
  | accept a => trivial
  | answer lookup result re =>
      cases result with
      | error code => trivial
      | found answer =>
          by_cases hmem : lookup ∈ w.dns
          · exact h.dns lookup hmem
          · simp [World.fire, hmem] at hfire
  | event e =>
      have hown : ∀ p origin o, e.bev = some p → w.origins[p]? = some origin →
          w.contexts origin.arg = some o → o.session = origin.purpose.session := by
        intro p origin o hbev horigin ho
        rw [World.fire_event hbev horigin] at hfire
        obtain ⟨r', hr', -⟩ := Option.map_eq_some_iff.1 hfire
        obtain ⟨b, hb, hl⟩ := Session.fire_bev_live hr' hbev
        exact h.bevs p b origin o hb hl horigin ho
      cases e with
      | socket q e => trivial
      | _ => exact hown

theorem Settled.accepting (h : Settled w) (hw : Consistent w)
    (hfresh : FreshAddress w (.accept a)) : Settled (w.accepting a) := by
  constructor
  · intro p b origin o hb hl horigin ho
    rcases getElem?_snoc horigin with hold | ⟨-, rfl⟩
    · have hb' := hw.accepting_bevs_old hold hb
      rcases World.accepting_contexts ho with ho' | ⟨ha, -⟩
      · exact h.bevs p b origin o hb' hl hold ho'
      · exact absurd ha (hfresh.1 p b origin hb' hl hold)
    · have hctx : (w.accepting a).contexts a =
          some ⟨w.accepted, ⟨some w.bevs.length, none, 0, []⟩⟩ := Function.update_self ..
      cases hctx.symm.trans ho
      rfl
  · intro l hl o ho
    rcases World.accepting_contexts ho with ho' | ⟨ha, -⟩
    · exact h.dns l hl o ho'
    · exact absurd ha (hfresh.2 l hl)

/-- A callback that finds the context of its own session leaves everything settled. -/
theorem Ran.settled {lookup : Lookup} {sp : Option BevPtr} {re : ℤ} {speaks : Prop}
    (hran : Ran w a lookup sp re speaks t) (h : Settled w) (hw : Consistent w)
    (hown : ∀ o, w.contexts a = some o → o.session = lookup.session) :
    Settled (w.absorb a k lookup t) := by
  obtain ⟨lookups, heff⟩ := hran.effect
  constructor
  · intro p b' origin o' hb' hl horigin ho'
    obtain ⟨o, ho, hsession⟩ := World.absorb_session ho'
    rw [← hsession]
    rcases lt_or_ge p w.bevs.length with hp | hp
    · obtain ⟨b, hb, hlive, -⟩ := heff.old p b' hp hb'
      exact h.bevs p b origin o hb (hlive hl) ((Ran.origins hw hp).1 horigin) ho
    · obtain ⟨target, -, rfl⟩ := Ran.origins_new hw hp horigin
      exact hown o ho
  · intro l hl o' ho'
    obtain ⟨o, ho, hsession⟩ := World.absorb_session ho'
    rw [← hsession]
    rcases List.mem_append.1 hl with hl | hl
    · exact h.dns l hl o ho
    · obtain ⟨host, hhost, rfl⟩ := List.mem_map.1 hl
      obtain ⟨rfl, -⟩ := hran.asked (List.ne_nil_of_mem hhost)
      exact hown o ho

theorem Settled.erase (h : Settled w) (lookup : Lookup) :
    Settled { w with dns := w.dns.erase lookup } :=
  ⟨h.bevs, fun l hl => h.dns l (List.mem_of_mem_erase hl)⟩

/-- **As long as the allocator keeps off the addresses in use, every step leaves the world
settled.** -/
theorem WorldStep.settled {e : WorldEvent} (h : WorldStep P w e w') (hs : Settled w)
    (hw : Consistent w) (hfresh : FreshAddress w e) : Settled w' := by
  cases h.cases with
  | accept free => exact hs.accepting hw hfresh
  | event hbev horigin hstep =>
      obtain ⟨b, hb, hl⟩ := hstep.bev_live hbev
      exact (Called.of_event hw hbev horigin hstep).ran.settled hs hw
        fun o ho => hs.bevs _ b _ o hb hl horigin ho
  | answer hmem hstep =>
      exact (Called.of_answer hw hmem hstep).ran.settled (hs.erase _) (hw.erase _)
        fun o ho => hs.dns _ hmem o ho

theorem isolated_of_fresh {es : List WorldEvent}
    (h : Run (Guarded FreshAddress (WorldStep P)) .start es w) : Isolated P w ∧ Settled w :=
  h.invariant (I := fun w => Isolated P w ∧ Settled w)
    (fun _ _ _ hw hs => ⟨hs.2.isolated hw.1 (hw.2.apart hs.2),
      hs.2.settled hw.2 hw.1.consistent hs.1⟩) ⟨Isolated.start P, Settled.start⟩

/-- **It is enough that the allocator keeps off the addresses in use**: then no callback finds
another session's context. -/
theorem apart_of_fresh {es : List WorldEvent}
    (h : Run (Guarded FreshAddress (WorldStep P)) .start es w) :
    Run (Guarded Apart (WorldStep P)) .start es w := by
  refine h.reguard (I := fun w => Consistent w ∧ Settled w) ?_ ⟨Consistent.start, Settled.start⟩
  intro w e w' hw hfresh hs
  exact ⟨hw.2.apart hs, hs.consistent hw.1, hs.settled hw.2 hw.1 hfresh⟩

/-! ## Two clients -/

/-- The one client of the server waits for its lookup. -/
def World.asking (c : Bufferevent Callbacks) (ip : List UInt8) : World :=
  .alone 0 (some ⟨some 0, none, portOf 0x00 0x50, ip⟩) c [requestedLookup [0x61] 0x00 0x50]
    [⟨0, 0, methodReply.toList⟩]

/-- A client asks for a host name. -/
theorem run_request_fresh (P : Key) : ∃ c ip,
    Run (Guarded FreshAddress (WorldStep P)) .start (requestEvents P [0x61] 0x00 0x50)
      (.asking c ip) ∧ Idle c .handleLast (some .socks5Ctx) := by
  obtain ⟨c, ip, hr, hc⟩ := run_requestEvents P [0x61] 0x00 0x50 .example
  refine ⟨c, ip, ?_, hc⟩
  cases hr with
  | cons haccept hrest =>
      refine .cons ⟨⟨?_, ?_⟩, haccept⟩ (hrest.guarded_of_forall ?_)
      · intro p b origin hb
        cases hb
      · intro l hl
        cases hl
      · intro e he w
        obtain ⟨e, -, rfl⟩ := List.mem_map.1 he
        trivial

/-- Another one connects while its lookup is outstanding. -/
theorem run_two_fresh (P : Key) : ∃ c ip,
    Run (Guarded FreshAddress (WorldStep P)) .start
      (requestEvents P [0x61] 0x00 0x50 ++ [.accept 1]) ((World.asking c ip).accepting 1) ∧
    Idle c .handleLast (some .socks5Ctx) ∧
    Holds ((World.asking c ip).accepting 1) 1 1 Session.accepted := by
  obtain ⟨c, ip, hr, hc⟩ := run_request_fresh P
  have hfree : (World.asking c ip).contexts 1 = none := rfl
  obtain ⟨hiso, -⟩ := isolated_of_fresh hr
  have hnew : Holds ((World.asking c ip).accepting 1) 1 (World.asking c ip).accepted _ :=
    .accepted hiso.consistent hiso.heard
  refine ⟨c, ip, hr.snoc ⟨⟨?_, ?_⟩, step_accept hfree⟩, hc, hnew⟩
  · intro p b origin hb _ horigin
    obtain ⟨rfl, -⟩ := getElem?_one hb
    cases horigin
    decide
  · intro l hl
    rw [List.mem_singleton.1 hl]
    decide

/-! ## Over a whole run -/

/-- **Sessions that share the heap run by themselves.**  In every run of the server in which no
callback finds another session's context at its address, what the world has of each session is
what that session can come to alone. -/
theorem isolated_run {es : List WorldEvent} (h : Run (Guarded Apart (WorldStep P)) .start es w) :
    Isolated P w :=
  h.invariant (I := Isolated P) (fun _ _ _ hw hs => hs.2.isolated hw hs.1) (Isolated.start P)

/-- A client that waits for its lookup, and one that has just connected. -/
theorem isolated_run_two : ∃ w, w.accepted = 2 ∧ w.dns = [requestedLookup [0x61] 0x00 0x50] ∧
    Isolated Key.identity w := by
  obtain ⟨c, ip, hr, -⟩ := run_two_fresh Key.identity
  exact ⟨_, rfl, rfl, isolated_run (apart_of_fresh hr)⟩

/-! ## The steps of a session -/

/-- The event `e` of the session `k`, in the state `s`, is the event `e'` of the server. -/
structure Counterpart (w : World) (k : ℕ) (s : Session) (e : Event) (e' : WorldEvent) : Prop where
  consistent : Consistent w
  holds : ∃ a, Holds w a k s
  session : e'.session w = some k
  lifts : Lifts w k e e'

/-- **The session `k` in a run of the server**: alone it would have come to `s` by the steps
`ses`, each of which is a step of the server, and each step of the server for it is one of
them. -/
structure Traced (P : Key) (es : List WorldEvent) (w : World) (k : ℕ) (a : Addr)
    (ses : List Event) (s : Session) : Prop where
  run : Run (Step P) Session.accepted ses s
  holds : Holds w a k s
  there : ∀ n u e v, StepAt (Step P) Session.accepted ses s n u e v →
    SomeStep (WorldStep P) .start es w fun w₁ e' => Counterpart w₁ k u e e'
  back : ∀ n w₁ e' w₂, StepAt (WorldStep P) .start es w n w₁ e' w₂ → e'.session w₁ = some k →
    SomeStep (Step P) Session.accepted ses s fun u e => Counterpart w₁ k u e e'

/-- Only a session that has been accepted takes steps. -/
def Numbering (P : Key) (es : List WorldEvent) (w : World) : Prop :=
  ∀ n w₁ e w₂ k, StepAt (WorldStep P) .start es w n w₁ e w₂ → e.session w₁ = some k →
    k < w.accepted

namespace Traced

variable {es : List WorldEvent} {ses : List Event} {e : WorldEvent}

/-- The session has just been accepted. -/
theorem accepted (hr : Run (WorldStep P) .start es w) (h : WorldStep P w e w')
    (hnew : Numbering P es w) (hnobody : e.session w = none)
    (hs : Holds w' a w.accepted Session.accepted) :
    Traced P (es ++ [e]) w' w.accepted a [] Session.accepted := by
  refine ⟨.nil _, hs, ?_, ?_⟩
  · rintro n u e v ⟨ls₁, ls₂, heq, -⟩
    simp at heq
  · intro n w₁ e' w₂ hat hsession
    rcases hat.snoc_cases (worldStep_deterministic P) hr h with hat | ⟨rfl, rfl, rfl⟩
    · exact absurd (hnew n w₁ e' w₂ _ hat hsession) (lt_irrefl _)
    · cases hnobody.symm.trans hsession

/-- The session takes a step. -/
theorem moves {e' : Event} (ht : Traced P es w k a ses s) (hr : Run (WorldStep P) .start es w)
    (h : WorldStep P w e w') (hw : Consistent w) (hsession : e.session w = some k)
    (hlift : Lifts w k e' e) (hstep : Step P s e' t) (ht' : Holds w' a k t) :
    Traced P (es ++ [e]) w' k a (ses ++ [e']) t := by
  have hcounter : Counterpart w k s e' e := ⟨hw, ⟨a, ht.holds⟩, hsession, hlift⟩
  refine ⟨ht.run.snoc hstep, ht', ?_, ?_⟩
  · intro n u e₁ v hat
    rcases hat.snoc_cases (step_deterministic P) ht.run hstep with hat | ⟨rfl, rfl, rfl⟩
    · exact (ht.there n u e₁ v hat).snoc h
    · exact .last hr h hcounter
  · intro n w₁ e₁ w₂ hat hk
    rcases hat.snoc_cases (worldStep_deterministic P) hr h with hat | ⟨rfl, rfl, rfl⟩
    · exact (ht.back n w₁ e₁ w₂ hat hk).snoc hstep
    · exact .last ht.run hstep hcounter

/-- Something else takes a step. -/
theorem stays (ht : Traced P es w k a ses s) (hr : Run (WorldStep P) .start es w)
    (h : WorldStep P w e w') (hsession : e.session w ≠ some k) (hs : Holds w' a k s) :
    Traced P (es ++ [e]) w' k a ses s := by
  refine ⟨ht.run, hs, fun n u e v hat => (ht.there n u e v hat).snoc h, ?_⟩
  intro n w₁ e' w₂ hat hk
  rcases hat.snoc_cases (worldStep_deterministic P) hr h with hat | ⟨rfl, rfl, rfl⟩
  · exact ht.back n w₁ e' w₂ hat hk
  · exact absurd hk hsession

end Traced

/-- A session that something can still happen to has its address to itself. -/
theorem Holds.owner {T : Table} {e : Event} {r : Except Fault Session} (hs : Holds w a k s)
    (hset : Settled w) (hpossible : s.fire T e = some r) :
    ∀ o, w.contexts a = some o → o.session = k := by
  intro o ho
  cases hbev : e.bev with
  | some i =>
      obtain ⟨b, hb, hl⟩ := Session.fire_bev_live hpossible hbev
      have hi := (List.getElem?_eq_some_iff.1 hb).1
      rw [hs.length] at hi
      obtain ⟨origin, horigin, hk⟩ := World.mem_places.1 (List.getElem_mem hi)
      have hcell := (hs.bevs i _ (List.getElem?_eq_getElem hi)).trans hb
      obtain rfl := hs.home.origins origin (List.mem_of_getElem? horigin) hk
      exact (hset.bevs _ b origin o hcell hl horigin ho).trans hk
  | none =>
      cases e with
      | socket | readCb | eventCb => cases hbev
      | dnsDone nodename result re =>
          obtain ⟨hmem, -⟩ := Session.fire_dnsDone hpossible
          obtain ⟨lookup, hlookup, -⟩ := List.mem_map.1 (hs.dns.mem_iff.1 hmem)
          obtain ⟨hdns, hk⟩ := List.mem_filter.1 hlookup
          obtain rfl := hs.home.dns lookup hdns (of_decide_eq_true hk)
          exact (hset.dns lookup hdns o ho).trans (of_decide_eq_true hk)

/-- **The server can fail exactly when one of its sessions can.**  The runs are those in which
no new context is put where something still points. -/
theorem worldFaults_iff {es : List WorldEvent} {f : Fault}
    (h : Run (Guarded FreshAddress (WorldStep P)) .start es w) :
    (∃ e, WorldFaults P w e f) ↔ ∃ k < w.accepted, ∃ a es s e',
      Run (Step P) Session.accepted es s ∧ Holds w a k s ∧ Faults P s e' f := by
  obtain ⟨hiso, hset⟩ := isolated_of_fresh h
  constructor
  · rintro ⟨e, hf⟩
    obtain ⟨k, hk, -, hrest⟩ := hiso.faults (hset.apart hf) hf
    exact ⟨k, hk, hrest⟩
  · rintro ⟨k, -, a, es, s, e', -, hs, hf⟩
    obtain ⟨e, -, -, -, hlift⟩ := hs.lift (P := P) hiso.consistent (hs.owner hset hf)
      (by rw [hf]; simp)
    exact ⟨e, hlift f hf⟩

/-- One of two clients leaves while its lookup is outstanding: then an answer finds the context
deleted, in the server as in the session alone. -/
theorem worldFaults_iff_deleted : ∃ w : World, w.accepted = 2 ∧ ∃ k < w.accepted, ∃ a es s e',
    Run (Step Key.identity) Session.accepted es s ∧ Holds w a k s ∧
      Faults Key.identity s e' .useAfterFree := by
  obtain ⟨c, ip, hr, hc, -⟩ := run_two_fresh Key.identity
  have hself : ((World.asking c ip).accepting 1).contexts 0 =
      some ⟨0, ⟨some 0, none, portOf 0x00 0x50, ip⟩⟩ := rfl
  have horigin : ((World.asking c ip).accepting 1).origins[0]? = some ⟨0, .client 0⟩ := rfl
  have hleft := run_leaves (P := Key.identity) hself rfl rfl horigin rfl hc
  have hfresh := hleft.guarded_of_forall (C := FreshAddress) (by
    intro e he w
    obtain ⟨e, -, rfl⟩ := List.mem_map.1 he
    trivial)
  refine ⟨_, rfl, (worldFaults_iff (hr.append hfresh)).1
    ⟨.answer (requestedLookup [0x61] 0x00 0x50) (.found ⟨.inet, ⟨127, 0, 0, 1⟩⟩) 0, ?_⟩⟩
  exact (worldFaults_answer List.mem_cons_self).2 (congrArg some (dnsCb_deleted rfl))

/-- **Sharing takes nothing from a session**: what it could do next alone it can do next among
the others, with the same result. -/
theorem isolated_complete {es : List WorldEvent} {e : Event} {s' : Session}
    (h : Run (Guarded FreshAddress (WorldStep P)) .start es w) (hs : Holds w a k s)
    (hstep : Step P s e s') :
    ∃ e' w', e'.session w = some k ∧ Lifts w k e e' ∧ WorldStep P w e' w' ∧ Holds w' a k s' := by
  obtain ⟨hiso, hset⟩ := isolated_of_fresh h
  obtain ⟨e', hsession, he', hlift, -⟩ := hs.lift (P := P) hiso.consistent (hs.owner hset hstep)
    (by rw [hstep]; simp)
  obtain ⟨w', hw', hs'⟩ := hlift s' hstep
  exact ⟨e', w', hsession, he', hw', hs'⟩

/-- A client that has just connected may leave while another one waits for its lookup. -/
theorem isolated_complete_eof : ∃ w e' w' s', w.accepted = 2 ∧
    w.dns = [requestedLookup [0x61] 0x00 0x50] ∧ e'.session w = some 1 ∧
    Lifts w 1 (.socket 0 .eof) e' ∧ WorldStep Key.identity w e' w' ∧ Holds w' 1 1 s' := by
  obtain ⟨c, ip, hr, -, hs⟩ := run_two_fresh Key.identity
  obtain ⟨e', w', hsession, he', hstep, hs'⟩ :=
    isolated_complete hr hs (Step.socket (p := 0) (e := .eof) rfl ⟨rfl, rfl, rfl⟩)
  exact ⟨_, e', w', _, rfl, rfl, hsession, he', hstep, hs'⟩

/-! ## What a client is sent -/

/-- What the target of the session `k` has sent, if it has one. -/
def World.receivedFor (w : World) (k : ℕ) : List UInt8 :=
  (((w.places k)[1]?.bind fun p => w.bevs[p]?).map fun r => r.input.stream).getD []

theorem Holds.receivedFor_eq (hs : Holds w a k s) : w.receivedFor k = s.received := by
  rw [World.receivedFor, Session.received]
  cases hp : (w.places k)[1]? with
  | none =>
      have hnone : s.bevs[1]? = none := by
        rw [List.getElem?_eq_none_iff, hs.length]
        exact List.getElem?_eq_none_iff.1 hp
      rw [hnone]
      rfl
  | some p => rw [Option.bind_some, hs.bevs 1 p hp]

/-- **No client is sent anything of another session**, as long as no new context is put where
something still points.  Whatever the others do in the meantime, what a client has been sent is,
decrypted, a prefix of the method reply, the CONNECT reply and the bytes of the target of its
own session. -/
theorem client_sent_own {es : List WorldEvent} {p : BevPtr} {b : Bufferevent Callbacks}
    (h : Run (Guarded FreshAddress (WorldStep P)) .start es w) (hb : w.bevs[p]? = some b)
    (horigin : w.origins[p]? = some ⟨a, .client k⟩) :
    P.decrypt b.output.stream <+:
      methodReply.toList ++ connectReply.toList ++ w.receivedFor k := by
  obtain ⟨hiso, -⟩ := isolated_of_fresh h
  have hk : k < w.accepted := hiso.consistent.fresh.1 _ (List.mem_of_getElem? horigin)
  obtain ⟨a', es', s, hrun, hs⟩ := hiso.session k hk
  obtain ⟨m, hshape⟩ := Reachable.shape ⟨es', hrun⟩
  have hsent : s.sent = b.output.stream := by
    rw [Session.sent, ← hs.bevs 0 p (hs.client p a horigin), hb]
    rfl
  rw [← hsent, hs.receivedFor_eq]
  exact hshape.followsGrammar

/-- A client that waits for its lookup, and one that has just connected. -/
theorem client_sent_own_two : ∃ (w : World) (b : Bufferevent Callbacks), w.accepted = 2 ∧
    w.bevs[0]? = some b ∧ Key.identity.decrypt b.output.stream <+:
      methodReply.toList ++ connectReply.toList ++ w.receivedFor 0 := by
  obtain ⟨c, ip, hr, -⟩ := run_two_fresh Key.identity
  have hb : ((World.asking c ip).accepting 1).bevs[0]? = some c := rfl
  have horigin : ((World.asking c ip).accepting 1).origins[0]? = some ⟨0, .client 0⟩ := rfl
  exact ⟨_, c, rfl, hb, client_sent_own hr hb horigin⟩

end LightSocks
