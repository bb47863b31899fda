import LightSocks.Client.Relay
import LightSocks.Server.Flow
import LightSocks.Server.Isolation
import LightSocks.Server.Teardown

/-!
# The two programs and the network between them

Applications talk to the client program, the client program to the server, the server to the
targets.  Here are all of them at once: any number of connections of the client and of
sessions of the server, some of which belong to other clients, their callbacks in any order,
and a network that delivers what has been sent when it likes, cut as it likes, or not at all.

* `System`, `SystemStep` — the two programs side by side, and which session each connection
  has become.
* `Delivers`, `Allocates` — what is asked of the network and of the server's allocator.
* `System.Sound`, `SystemStep.sound` — what is known of the bytes on the way.
* `application_receives`, `target_receives` — from end to end, in both directions.
-/

namespace LightSocks

open Transition

variable {P : Key} {w w' : World} {a : Addr} {j k : ℕ} {s : Session}

/-! ## The queues of a session -/

namespace World

/-- What has arrived from the client of the session `j`. -/
def clientInput (w : World) (j : ℕ) : Fifo UInt8 := w.bevs.inputOf (w.placeOf j 0)

/-- What has been written to the client of the session `j`. -/
def clientOutput (w : World) (j : ℕ) : Fifo UInt8 := w.bevs.outputOf (w.placeOf j 0)

/-- What has arrived from the target of the session `j`. -/
def targetInput (w : World) (j : ℕ) : Fifo UInt8 := w.bevs.inputOf (w.placeOf j 1)

/-- What has been written to the target of the session `j`. -/
def targetOutput (w : World) (j : ℕ) : Fifo UInt8 := w.bevs.outputOf (w.placeOf j 1)

/-- The session `j` has a partner. -/
def HasPartner (w : World) (j : ℕ) : Prop :=
  ∃ a o, w.contexts a = some o ∧ o.session = j ∧ o.context.partner ≠ none

/-- Nothing has gone wrong with the connection to the target of the session `j`: it is up, or
on its way. -/
def Reaches (w : World) (j : ℕ) : Prop :=
  ∃ r, w.bevs[w.placeOf j 1]? = some r ∧ r.link ≠ .down ∧ r.writeEnabled = true

end World

/-- A session with a partner has one alone, too. -/
theorem Holds.hasPartner_iff (hs : Holds w a k s) : w.HasPartner k ↔ HasPartner s := by
  have hctx := hs.context
  rw [World.contextOf] at hctx
  constructor
  · rintro ⟨a', o, ho, hk, hpartner⟩
    obtain rfl := hs.elsewhere a' o ho hk
    rw [ho] at hctx
    obtain ⟨ctx, hctx, hrename⟩ : ∃ ctx, s.context = some ctx ∧
        ctx.rename (w.placeOf k) = o.context := by
      simpa [Option.filter_some, hk, eq_comm] using hctx
    refine ⟨ctx, hctx, fun hnone => hpartner ?_⟩
    rw [← hrename, Socks5ctx.rename, hnone]
    rfl
  · rintro ⟨ctx, hsome, hpartner⟩
    rw [hsome, Option.map_some] at hctx
    obtain ⟨o, ho, hrename⟩ := Option.map_eq_some_iff.1 hctx
    obtain ⟨ho, hk⟩ := Option.filter_eq_some_iff.1 ho
    refine ⟨a, o, ho, of_decide_eq_true hk, ?_⟩
    rw [hrename, Socks5ctx.rename]
    simpa using hpartner

section Queues

variable (hs : Holds w a k s) (hw : Consistent w)

include hs hw

theorem Holds.inputOf (i : BevPtr) : w.bevs.inputOf (w.placeOf k i) = s.bevs.inputOf i := by
  rw [Heap.inputOf, (hs.window hw).inside i, Heap.inputOf]
  cases s.bevs[i]? <;> rfl

theorem Holds.outputOf (i : BevPtr) : w.bevs.outputOf (w.placeOf k i) = s.bevs.outputOf i := by
  rw [Heap.outputOf, (hs.window hw).inside i, Heap.outputOf]
  cases s.bevs[i]? <;> rfl

theorem Holds.sent_eq : s.sent = (w.clientOutput k).stream := by
  rw [World.clientOutput, hs.outputOf hw, Session.sent, Heap.outputOf]
  cases s.bevs[0]? <;> rfl

theorem Holds.consumed_eq : s.consumed = (w.clientInput k).past := by
  rw [World.clientInput, hs.inputOf hw, Session.consumed, Heap.inputOf]
  cases s.bevs[0]? <;> rfl

theorem Holds.received_eq : s.received = (w.targetInput k).stream := by
  rw [World.targetInput, hs.inputOf hw, Session.received, Heap.inputOf]
  cases s.bevs[1]? <;> rfl

theorem Holds.forwarded_eq : s.forwarded = (w.targetOutput k).stream := by
  rw [World.targetOutput, hs.outputOf hw, Session.forwarded, Heap.outputOf]
  cases s.bevs[1]? <;> rfl

end Queues

/-- The bytes that arrive at the bufferevent `p`. -/
def WorldEvent.arriving (p : BevPtr) : WorldEvent → List UInt8
  | .event e => e.arriving p
  | _ => []

/-- **What any event does to the queues of the server.** -/
theorem WorldStep.streams {e : WorldEvent} (h : WorldStep P w e w') :
    Streams (fun _ => True) (fun p => e.arriving p) w.bevs w'.bevs := by
  cases h.cases with
  | accept free => exact (Evolves.push (b := newClient) _ w.bevs rfl rfl rfl rfl).streams
  | event hbev horigin hstep =>
      exact hstep.streams (fun _ _ _ _ => trivial) fun _ _ _ _ => trivial
  | answer hmem hstep =>
      exact hstep.streams (fun _ _ _ _ => trivial) fun _ _ _ _ => trivial

/-- Nothing but an error of its socket keeps a bufferevent from sending. -/
theorem WorldStep.writeEnabled {e : WorldEvent} {p : BevPtr} {b : Bufferevent Callbacks}
    (h : WorldStep P w e w') (he : e ≠ .event (.socket p .writeError)) (hb : w.bevs[p]? = some b)
    (hwrite : b.writeEnabled = true) : ∃ b', w'.bevs[p]? = some b' ∧ b'.writeEnabled = true := by
  cases h.cases with
  | accept free =>
      exact ⟨b, (List.getElem?_append_left (List.getElem?_eq_some_iff.1 hb).1).trans hb, hwrite⟩
  | event hbev horigin hstep =>
      exact hstep.writeEnabled (fun heq => he (congrArg WorldEvent.event heq)) hb hwrite
  | answer hmem hstep => exact hstep.writeEnabled (by simp) hb hwrite

theorem run_writeEnabled {es : List WorldEvent} {p : BevPtr} (h : Run (WorldStep P) w es w')
    (hes : ∀ e ∈ es, e ≠ .event (.socket p .writeError))
    (hw : ∃ b, w.bevs[p]? = some b ∧ b.writeEnabled = true) :
    ∃ b, w'.bevs[p]? = some b ∧ b.writeEnabled = true := by
  have hguarded := h.guarded_of_forall (C := fun _ e => e ≠ .event (.socket p .writeError))
    fun e he _ => hes e he
  refine hguarded.invariant (I := fun w => ∃ b, w.bevs[p]? = some b ∧ b.writeEnabled = true) ?_ hw
  rintro w e w' ⟨b, hb, hwrite⟩ ⟨hne, hstep⟩
  exact hstep.writeEnabled hne hb hwrite

/-- The bufferevents of a session stay where they are. -/
theorem WorldStep.places {e : WorldEvent} (h : WorldStep P w e w') (hj : j < w.accepted) :
    w.places j <+: w'.places j := by
  have habsorb : ∀ (v : World) (a : Addr) (k : ℕ) (lookup : Lookup) (t : Session),
      lookup.session = k → v.origins = w.origins →
        w.places j <+: (v.absorb a k lookup t).places j := by
    intro v a k lookup t hlookup horigins
    have hv : v.places j = w.places j := by
      rw [World.places, horigins, World.places]
    rw [← hv]
    by_cases hjk : j = k
    · subst hjk
      rw [World.absorb_places_own hlookup]
      exact List.prefix_append _ _
    · rw [World.absorb_places_other hlookup hjk]
  cases h.cases with
  | accept free => rw [World.accepting_places_other w _ hj.ne]
  | event hbev horigin hstep => exact habsorb w _ _ _ _ rfl rfl
  | answer hmem hstep => exact habsorb _ _ _ _ _ rfl rfl

/-- A session has a client. -/
theorem Reachable.bevs_pos (h : Reachable P s) : 0 < s.bevs.length := by
  obtain ⟨m, hs⟩ := h.shape
  cases hs <;> simp [Session.alone, Session.paired]

theorem Isolated.places_pos (hw : Isolated P w) (hj : j < w.accepted) :
    0 < (w.places j).length := by
  obtain ⟨a, es, s, hrun, hs⟩ := hw.session j hj
  rw [← hs.length]
  exact Reachable.bevs_pos ⟨es, hrun⟩

/-- The client of a session is one of the bufferevents. -/
theorem Isolated.placeOf_lt (hw : Isolated P w) (hj : j < w.accepted) :
    w.placeOf j 0 < w.bevs.length := by
  have hpos := hw.places_pos hj
  have hplace := List.getElem?_eq_getElem hpos
  obtain ⟨origin, horigin, -⟩ := World.mem_places.1 (List.getElem_mem hpos)
  rw [World.placeOf, place_of_getElem? hplace, ← hw.consistent.length]
  exact (List.getElem?_eq_some_iff.1 horigin).1

theorem WorldStep.placeOf {e : WorldEvent} (h : WorldStep P w e w') (hw : Isolated P w)
    (hj : j < w.accepted) : w'.placeOf j 0 = w.placeOf j 0 := by
  obtain ⟨rest, hrest⟩ := h.places hj
  obtain ⟨p, hplace⟩ : ∃ p, (w.places j)[0]? = some p :=
    ⟨_, List.getElem?_eq_getElem (hw.places_pos hj)⟩
  have hplace' : (w'.places j)[0]? = some p := by
    rw [← hrest]
    exact (List.getElem?_append_left (hw.places_pos hj)).trans hplace
  rw [World.placeOf, World.placeOf, place_of_getElem? hplace, place_of_getElem? hplace']

/-! ## The system -/

/-- The two programs, and what connects them. -/
structure System where
  client : Client.State
  server : World
  /-- The session that a connection of the client has become. -/
  peer : ℕ → Option ℕ

/-- The connection `k` is up and has become the session `j`, the session has its partner, and
nobody has closed. -/
structure System.Open (σ : System) (k j : ℕ) : Prop where
  peer : σ.peer k = some j
  live : ∀ x : Client.Side, ∃ b, σ.client[x.ptr k]? = some b ∧ b.live = true
  up : ∃ b, σ.client[Client.Side.remoteSide.ptr k]? = some b ∧ b.link = .up
  partner : σ.server.HasPartner j
  attended : ∃ c, σ.server.bevs[σ.server.placeOf j 0]? = some c ∧ c.readEnabled = true ∧
    c.writeEnabled = true

/-- What happens next. -/
inductive SystemEvent where
  | client (e : Client.Event)
  | server (e : WorldEvent)
  /-- The server accepts the connection `k` of the client, and puts its context at `addr`. -/
  | meet (k : ℕ) (addr : Addr)

namespace System

/-- Nothing has happened yet. -/
def start : System := { client := [], server := World.start, peer := fun _ => none }

/-- What the client program has received on the side `x` of the connection `k`. -/
def input (σ : System) (x : Client.Side) (k : ℕ) : Fifo UInt8 := σ.client.inputOf (x.ptr k)

/-- What the client program has written to the side `x` of the connection `k`. -/
def output (σ : System) (x : Client.Side) (k : ℕ) : Fifo UInt8 := σ.client.outputOf (x.ptr k)

end System

/-- One of the programs takes a step; both have the same key. -/
inductive SystemStep (P : Key) (σ : System) : SystemEvent → System → Prop where
  | client {e : Client.Event} {h : Client.State} (step : Client.Step P.table σ.client e h) :
      SystemStep P σ (.client e) { σ with client := h }
  | server {e : WorldEvent} {w : World} (step : WorldStep P σ.server e w) :
      SystemStep P σ (.server e) { σ with server := w }
  | meet {k : ℕ} {a : Addr} {w : World} (unmet : σ.peer k = none)
      (there : Client.Side.remoteSide.ptr k < σ.client.length)
      (step : WorldStep P σ.server (.accept a) w) :
      SystemStep P σ (.meet k a)
        { σ with server := w, peer := Function.update σ.peer k (some σ.server.accepted) }

/-- **The network**: what arrives at one of the programs has been sent by the other, and comes
in order. -/
def Delivers (σ : System) : SystemEvent → Prop
  | .client e => ∀ k, e.arriving (Client.Side.remoteSide.ptr k) ≠ [] → ∃ j, σ.peer k = some j ∧
      (σ.input .remoteSide k).stream ++ e.arriving (Client.Side.remoteSide.ptr k) <+:
        (σ.server.clientOutput j).past
  | .server e => ∀ k j, σ.peer k = some j → e.arriving (σ.server.placeOf j 0) ≠ [] →
      (σ.server.clientInput j).stream ++ e.arriving (σ.server.placeOf j 0) <+:
        (σ.output .remoteSide k).past
  | .meet _ _ => True

/-- **The allocator of the server**: no context is put where something still points. -/
def Allocates (σ : System) : SystemEvent → Prop
  | .client _ => True
  | .server e => FreshAddress σ.server e
  | .meet _ a => FreshAddress σ.server (.accept a)

/-- The network and the allocator do what is expected of them. -/
def Regular (σ : System) (e : SystemEvent) : Prop := Delivers σ e ∧ Allocates σ e

/-! ## What is on the way -/

/-- What is known of the two programs and the bytes between them. -/
structure System.Sound (P : Key) (σ : System) : Prop where
  client : ∃ es, Run (Client.Step P.table) [] es σ.client
  isolated : Isolated P σ.server
  settled : Settled σ.server
  met : ∀ k j, σ.peer k = some j →
    j < σ.server.accepted ∧ Client.Side.remoteSide.ptr k < σ.client.length
  /-- A session has one client. -/
  single : ∀ k k' j, σ.peer k = some j → σ.peer k' = some j → k = k'
  down : ∀ k j, σ.peer k = some j →
    (σ.server.clientOutput j).Feeds id (σ.input .remoteSide k)
  up : ∀ k j, σ.peer k = some j → (σ.output .remoteSide k).Feeds id (σ.server.clientInput j)
  unmet : ∀ k, σ.peer k = none → (σ.input .remoteSide k).stream = []

theorem System.Sound.start (P : Key) : System.start.Sound P where
  client := ⟨[], .nil _⟩
  isolated := Isolated.start P
  settled := Settled.start
  met := by
    rintro k j ⟨⟩
  single := by
    rintro k k' j ⟨⟩
  down := by
    rintro k j ⟨⟩
  up := by
    rintro k j ⟨⟩
  unmet := fun _ _ => rfl

section Steps

variable {σ σ' : System} {e : SystemEvent}

/-- **A step of the client program.** -/
theorem System.Sound.clientStep {e : Client.Event} {h : Client.State} (hσ : σ.Sound P)
    (hstep : Client.Step P.table σ.client e h) (hnet : Delivers σ (.client e)) :
    System.Sound P { σ with client := h } := by
  obtain ⟨es, hrun⟩ := hσ.client
  have hstreams := (Client.connections_run hrun).streams hstep
  refine ⟨⟨_, hrun.snoc hstep⟩, hσ.isolated, hσ.settled, ?_, hσ.single, ?_, ?_, ?_⟩
  · intro k j hkj
    obtain ⟨hj, hk⟩ := hσ.met k j hkj
    exact ⟨hj, hstreams.length_le hk⟩
  · intro k j hkj
    have harrived := hstreams.input_stream (hσ.met k j hkj).2
    refine (hσ.down k j hkj).arrives harrived fun hne => ?_
    obtain ⟨j', hkj', hsent⟩ := hnet k hne
    obtain rfl := Option.some.inj (hkj.symm.trans hkj')
    exact hsent
  · intro k j hkj
    exact (hσ.up k j hkj).mono (hstreams.output_past _) rfl
  · intro k hk
    rcases lt_or_ge (Client.Side.remoteSide.ptr k) σ.client.length with hlt | hge
    · have hnone : e.arriving (Client.Side.remoteSide.ptr k) = [] := by
        by_contra hne
        obtain ⟨j, hkj, -⟩ := hnet k hne
        rw [hk] at hkj
        cases hkj
      have harrived := hstreams.input_stream hlt
      have hbefore := hσ.unmet k hk
      rw [System.input] at hbefore
      rw [hnone, hbefore] at harrived
      exact harrived
    · exact hstreams.input_new hge

/-- **A step of the server.** -/
theorem System.Sound.serverStep {e : WorldEvent} {w : World} (hσ : σ.Sound P)
    (hstep : WorldStep P σ.server e w) (hnet : Delivers σ (.server e))
    (hfresh : FreshAddress σ.server e) : System.Sound P { σ with server := w } := by
  have hcons := hσ.isolated.consistent
  have hstreams := hstep.streams
  refine ⟨hσ.client, hstep.isolated hσ.isolated (hσ.settled.apart hstep),
    hstep.settled hσ.settled hcons hfresh, ?_, hσ.single, ?_, ?_, hσ.unmet⟩
  · intro k j hkj
    obtain ⟨hj, hk⟩ := hσ.met k j hkj
    refine ⟨?_, hk⟩
    rcases hstep.session_lt hcons with ⟨a, -, -, rfl⟩ | ⟨i, -, -, haccepted, -⟩
    · exact hj.trans (Nat.lt_succ_self _)
    · exact haccepted.symm ▸ hj
  · intro k j hkj
    have hplace := hstep.placeOf hσ.isolated (hσ.met k j hkj).1
    refine (hσ.down k j hkj).mono ?_ rfl
    rw [World.clientOutput, World.clientOutput, hplace]
    exact hstreams.output_past _
  · intro k j hkj
    have hj := (hσ.met k j hkj).1
    have hplace := hstep.placeOf hσ.isolated hj
    have harrived := hstreams.input_stream (hσ.isolated.placeOf_lt hj)
    refine (hσ.up k j hkj).arrives ?_ (hnet k j hkj)
    rw [World.clientInput, World.clientInput, hplace]
    exact harrived

/-- **The server accepts a connection of the client.** -/
theorem System.Sound.meetStep {k : ℕ} {w : World} (hσ : σ.Sound P) (hunmet : σ.peer k = none)
    (hthere : Client.Side.remoteSide.ptr k < σ.client.length)
    (hstep : WorldStep P σ.server (.accept a) w) (hfresh : FreshAddress σ.server (.accept a)) :
    System.Sound P
      { σ with server := w, peer := Function.update σ.peer k (some σ.server.accepted) } := by
  have hserver := hσ.serverStep hstep (fun _ _ _ hne => absurd rfl hne) hfresh
  have hcons := hσ.isolated.consistent
  obtain rfl : w = σ.server.accepting a := by
    rcases hstep.session_lt hcons with ⟨a', heq, -, rfl⟩ | ⟨i, -, hnone, -⟩
    · cases heq
      rfl
    · cases hnone
  -- the session that has just been accepted is nobody else's
  have hnew : ∀ k', σ.peer k' ≠ some σ.server.accepted := fun k' hk' =>
    absurd (hσ.met k' _ hk').1 (lt_irrefl _)
  have hpeer : ∀ {k' j}, Function.update σ.peer k (some σ.server.accepted) k' = some j →
      k' = k ∧ j = σ.server.accepted ∨ σ.peer k' = some j := by
    intro k' j hj
    by_cases hk' : k' = k
    · subst hk'
      rw [Function.update_self] at hj
      exact .inl ⟨rfl, (Option.some.inj hj).symm⟩
    · rw [Function.update_of_ne hk'] at hj
      exact .inr hj
  refine ⟨hσ.client, hserver.isolated, hserver.settled, ?_, ?_, ?_, ?_, ?_⟩
  · intro k' j hj
    rcases hpeer hj with ⟨rfl, rfl⟩ | hold
    · exact ⟨Nat.lt_succ_self _, hthere⟩
    · exact hserver.met k' j hold
  · intro k₁ k₂ j h₁ h₂
    rcases hpeer h₁ with ⟨rfl, rfl⟩ | hold₁ <;> rcases hpeer h₂ with ⟨rfl, hj⟩ | hold₂
    · rfl
    · exact absurd hold₂ (hnew k₂)
    · exact absurd (hj ▸ hold₁) (hnew k₁)
    · exact hσ.single k₁ k₂ j hold₁ hold₂
  · intro k' j hj
    rcases hpeer hj with ⟨rfl, rfl⟩ | hold
    · exact .empty id _ (hσ.unmet k' hunmet)
    · exact hserver.down k' j hold
  · intro k' j hj
    rcases hpeer hj with ⟨rfl, rfl⟩ | hold
    · refine .empty id _ ?_
      rw [World.clientInput, World.accepting_placeOf hcons]
      exact hstep.streams.input_new le_rfl
    · exact hserver.up k' j hold
  · intro k' hk'
    by_cases hkk : k' = k
    · subst hkk
      simp at hk'
    · exact hσ.unmet k' ((Function.update_of_ne hkk _ _).symm.trans hk')

/-- **The step lemma.** -/
theorem SystemStep.sound (h : SystemStep P σ e σ') (hσ : σ.Sound P) (hreg : Regular σ e) :
    σ'.Sound P := by
  cases h with
  | client step => exact hσ.clientStep step hreg.1
  | server step => exact hσ.serverStep step hreg.1 hreg.2
  | meet unmet there step => exact hσ.meetStep unmet there step hreg.2

/-- **The run lemma.** -/
theorem System.Sound.run {es : List SystemEvent} (hσ : σ.Sound P)
    (h : Run (Guarded Regular (SystemStep P)) σ es σ') : σ'.Sound P :=
  h.invariant (I := System.Sound P) (fun _ _ _ hσ hs => hs.2.sound hσ hs.1) hσ

theorem system_sound {es : List SystemEvent}
    (h : Run (Guarded Regular (SystemStep P)) .start es σ) : σ.Sound P :=
  (System.Sound.start P).run h

end Steps

/-! ## One application -/

section Example

variable {σ : System}

/-- Whatever the server can do with what has been sent it can do in the system. -/
theorem System.Sound.run_server {es : List WorldEvent} {w' : World} (hσ : σ.Sound P)
    (hrun : Run (Guarded FreshAddress (WorldStep P)) σ.server es w')
    (hsent : ∀ k j, σ.peer k = some j →
      (σ.server.clientInput j).stream ++ es.flatMap (·.arriving (σ.server.placeOf j 0)) <+:
        (σ.output .remoteSide k).past) :
    Run (Guarded Regular (SystemStep P)) σ (es.map .server) { σ with server := w' } := by
  generalize hw : σ.server = w at hrun
  induction hrun generalizing σ with
  | nil w =>
      subst hw
      exact .nil σ
  | @cons w v w' e es hstep _ ih =>
      subst hw
      have hdelivers : Delivers σ (.server e) := by
        intro k j hkj _
        refine List.IsPrefix.trans ?_ (hsent k j hkj)
        rw [List.flatMap_cons, ← List.append_assoc]
        exact List.prefix_append _ _
      refine .cons ⟨⟨hdelivers, hstep.1⟩, .server hstep.2⟩ (ih
        (hσ.serverStep hstep.2 hdelivers hstep.1) (fun k j hkj => ?_) rfl)
      -- what has arrived by now is part of it
      have hj := (hσ.met k j hkj).1
      have harrived := hstep.2.streams.input_stream (hσ.isolated.placeOf_lt hj)
      have hplace := hstep.2.placeOf hσ.isolated hj
      have hall := hsent k j hkj
      rw [List.flatMap_cons, ← List.append_assoc] at hall
      dsimp only
      rw [World.clientInput, hplace, harrived]
      exact hall

/-- As long as nothing arrives from the server, the client program goes on as it would alone. -/
theorem System.Sound.run_client {es : List Client.Event} {h' : Client.State} (hσ : σ.Sound P)
    (hrun : Run (Client.Step P.table) σ.client es h')
    (hnone : ∀ e ∈ es, ∀ k, e.arriving (Client.Side.remoteSide.ptr k) = []) :
    Run (Guarded Regular (SystemStep P)) σ (es.map .client) { σ with client := h' } := by
  generalize hh : σ.client = h at hrun
  induction hrun generalizing σ with
  | nil h =>
      subst hh
      exact .nil σ
  | @cons h g h' e es hstep _ ih =>
      subst hh
      have hdelivers : Delivers σ (.client e) := fun k hne =>
        absurd (hnone e List.mem_cons_self k) hne
      exact .cons ⟨⟨hdelivers, trivial⟩, .client hstep⟩ (ih (hσ.clientStep hstep hdelivers)
        (fun e' he' => hnone e' (List.mem_cons_of_mem _ he')) rfl)

/-- What the application sends first: the greeting, and a request for `a:80`. -/
def openingBytes : List UInt8 := greetingMessage ++ domainRequest [0x61] 0x00 0x50

/-- The client program takes it over and sends it on. -/
def openingEvents : List Client.Event :=
  [.accept 0, .socket 0 (.recv openingBytes), .readCb 0, .socket 1 .connected,
    .socket 1 (.flush openingBytes.length)]

theorem run_opening (P : Key) : ∃ l r : Bufferevent Client.Callbacks,
    Run (Client.Step P.table) [] openingEvents [l, r] ∧ l.live = true ∧ r.live = true ∧
      r.link = .up ∧ l.input.stream = openingBytes ∧ r.output.past = P.encrypt openingBytes := by
  set l := (Client.accepted 0 0 .localSide).socket (.recv openingBytes) with hl
  set r := Client.accepted 0 0 .remoteSide with hr
  have hjoined : Client.Joined .localSide 0 0 l :=
    { Client.joined_accepted 0 0 .localSide with }
  have hread := hjoined.readCb (T := P.table) (s := Client.pairOf .localSide l r)
    (Client.hasPair_two l r) rfl
  have hstep : Client.Step P.table [l, r] (.readCb 0)
      [l.takeRead.drained, r.queue (P.encrypt openingBytes)] := congrArg some hread
  set r₁ := ((r.queue (P.encrypt openingBytes)).socket .connected).takeEvent
    { connected := true } with hr₁
  have hflush : Client.Step P.table [l.takeRead.drained, r₁]
      (.socket 1 (.flush openingBytes.length))
      [l.takeRead.drained, r₁.socket (.flush openingBytes.length)] := rfl
  exact ⟨_, _, .cons rfl (.cons rfl (.cons hstep (.cons rfl (.single hflush)))), rfl, rfl, rfl, rfl,
    rfl⟩

/-- The server accepts the connection. -/
theorem run_meet (P : Key) : ∃ (σ : System) (es : List SystemEvent),
    Run (Guarded Regular (SystemStep P)) .start es σ ∧ σ.server = World.start.accepting 0 ∧
      (∀ k j, σ.peer k = some j ↔ k = 0 ∧ j = 0) ∧
      (∀ x : Client.Side, ∃ b, σ.client[x.ptr 0]? = some b ∧ b.live = true) ∧
      (∃ b, σ.client[Client.Side.remoteSide.ptr 0]? = some b ∧ b.link = .up) ∧
      (σ.input .localSide 0).stream = openingBytes ∧
      (σ.output .remoteSide 0).past = P.encrypt openingBytes := by
  obtain ⟨l, r, hclient, hl, hr, hup, hin, hout⟩ := run_opening P
  have hnone : ∀ e ∈ openingEvents, ∀ k, e.arriving (Client.Side.remoteSide.ptr k) = [] := by
    intro e he k
    have hk : ¬ 0 = Client.Side.remoteSide.ptr k := by
      show ¬ 0 = 2 * k + 1
      omega
    simp only [openingEvents, List.mem_cons, List.not_mem_nil, or_false] at he
    rcases he with rfl | rfl | rfl | rfl | rfl <;>
      simp [Client.Event.arriving, SocketEvent.arriving, hk]
  have hmeet : SystemStep P { System.start with client := [l, r] } (.meet 0 0)
      { client := [l, r], server := World.start.accepting 0,
        peer := Function.update (fun _ => none) 0 (some 0) } :=
    .meet rfl Nat.one_lt_two (step_accept rfl)
  have hregular : Regular { System.start with client := [l, r] } (.meet 0 0) := by
    refine ⟨trivial, ?_, ?_⟩
    · intro p b origin hb
      cases hb
    · intro l hl
      cases hl
  refine ⟨_, _, ((System.Sound.start P).run_client hclient hnone).snoc ⟨hregular, hmeet⟩, rfl, ?_,
    ?_, ⟨r, rfl, hup⟩, hin, hout⟩
  · intro k j
    by_cases hk : k = 0
    · subst hk
      simp [eq_comm]
    · simp [hk]
  · intro x
    cases x with
    | localSide => exact ⟨l, rfl, hl⟩
    | remoteSide => exact ⟨r, rfl, hr⟩

/-- The application asks for a host, the server looks it up, and the answer comes. -/
theorem run_reaching (P : Key) : ∃ (σ : System) (es : List SystemEvent),
    Run (Guarded Regular (SystemStep P)) .start es σ ∧ σ.Open 0 0 ∧
      (σ.input .localSide 0).stream = openingBytes ∧ σ.server.Reaches 0 := by
  obtain ⟨σ, es, hmet, hserver, hpeer, hlive, hup, hin, hout⟩ := run_meet P
  obtain ⟨c, ip, hrun, hc⟩ := run_requestEvents P [0x61] 0x00 0x50 .example
  cases hrun with
  | @cons _ w₁ _ _ _ haccept hrest =>
      obtain rfl := worldStep_deterministic P _ _ _ _ haccept (step_accept rfl)
      have hplace : σ.server.placeOf 0 0 = 0 := by
        rw [hserver]
        rfl
      have hempty : (σ.server.clientInput 0).stream = [] := by
        rw [hserver]
        rfl
      have hwrite : ∃ b, (World.start.accepting 0).bevs[0]? = some b ∧ b.writeEnabled = true :=
        ⟨newClient, rfl, rfl⟩
      rw [← hserver] at hrest hwrite
      -- everything the application has sent can reach the server
      have hrequested := (system_sound hmet).run_server (hrest.guarded_of_forall (by
        intro e he w
        obtain ⟨e, -, rfl⟩ := List.mem_map.1 he
        trivial)) (by
        intro k j hkj
        obtain ⟨rfl, rfl⟩ := (hpeer k j).1 hkj
        rw [hout, openingBytes, Key.encrypt_append, hplace, hempty]
        simp [delivery, WorldEvent.arriving, Event.arriving, SocketEvent.arriving])
      have hanswer := step_answered (P := P) (requestedLookup [0x61] 0x00 0x50)
        (w := .alone 0 (some ⟨some 0, none, portOf 0x00 0x50, ip⟩) c
          [requestedLookup [0x61] 0x00 0x50] [⟨0, 0, methodReply.toList⟩])
        List.mem_cons_self (World.alone_contexts ..) ⟨127, 0, 0, 1⟩ 0
      have hquiet : ∀ σ : System, Regular σ (.server (.answer (requestedLookup [0x61] 0x00 0x50)
          (.found ⟨.inet, ⟨127, 0, 0, 1⟩⟩) 0)) :=
        fun σ => ⟨fun _ _ _ hne => absurd rfl hne, trivial⟩
      -- nothing has kept the session from writing to its client
      obtain ⟨b, hb, hwrite⟩ := run_writeEnabled hrest (p := 0) (by
        rintro e he rfl
        simp [delivery] at he) hwrite
      obtain rfl := (getElem?_one hb).2
      refine ⟨_, _, (hmet.append hrequested).snoc ⟨hquiet _, .server hanswer⟩,
        ⟨(hpeer 0 0).2 ⟨rfl, rfl⟩, hlive, hup, ?_, b, rfl, hc.readEnabled, hwrite⟩, hin,
        _, rfl, ?_, rfl⟩
      · refine ⟨0, _, World.absorb_contexts_self (World.alone_contexts ..) rfl, rfl, ?_⟩
        simp
      · intro hdown
        cases hdown

theorem run_relaying (P : Key) : ∃ (σ : System) (es : List SystemEvent),
    Run (Guarded Regular (SystemStep P)) .start es σ ∧ σ.Open 0 0 ∧
      (σ.input .localSide 0).stream = openingBytes := by
  obtain ⟨σ, es, hr, ho, hin, -⟩ := run_reaching P
  exact ⟨σ, es, hr, ho, hin⟩

end Example

/-! ## From end to end -/

section EndToEnd

variable {σ : System}

/-- A connection of the client, in terms of its queues. -/
theorem System.Sound.relaying (hσ : σ.Sound P) (hk : Client.Side.remoteSide.ptr k < σ.client.length)
    (x : Client.Side) : (σ.output x.other k).stream = (σ.input x k).past.map (x.code P.table) := by
  obtain ⟨es, hrun⟩ := hσ.client
  obtain ⟨re, s, hre, hs, -, -⟩ :=
    (Client.connections_run hrun).of_ptr (List.getElem?_eq_getElem hk)
  rw [System.output, System.input, Heap.outputOf_eq (hs x.other), Heap.inputOf_eq (hs x)]
  exact (Client.relaying_run hrun hre hs).1 x

/-- From what the server has written to what the application gets. -/
theorem System.Sound.feeds_down (hσ : σ.Sound P) (hk : σ.peer k = some j) :
    (σ.server.clientOutput j).Feeds P.dec (σ.output .localSide k) := by
  have hhop := hσ.relaying (hσ.met k j hk).2 .remoteSide
  exact (hσ.down k j hk).trans (.of_eq hhop)

/-- From what the application has sent to what the server gets. -/
theorem System.Sound.feeds_up (hσ : σ.Sound P) (hk : σ.peer k = some j) :
    (σ.input .localSide k).Feeds P.enc (σ.server.clientInput j) := by
  have hhop := hσ.relaying (hσ.met k j hk).2 .localSide
  have hfirst : (σ.input .localSide k).Feeds P.enc (σ.output .remoteSide k) := .of_eq hhop
  exact hfirst.trans (hσ.up k j hk)

/-- What the server has taken is a beginning of what the application has sent. -/
theorem System.Sound.taken (hσ : σ.Sound P) (hk : σ.peer k = some j) :
    P.decrypt (σ.server.clientInput j).past <+: (σ.input .localSide k).stream := by
  have hpast : (σ.server.clientInput j).past <+: (σ.server.clientInput j).stream :=
    List.prefix_append _ _
  have hfed := (hσ.feeds_up hk).prefix_stream
  have hdecrypted := (hpast.trans hfed).map P.dec
  rw [List.map_map] at hdecrypted
  simpa [Function.comp_def, Key.decrypt] using hdecrypted

/-- The session that a connection has become, as it would be alone. -/
theorem System.Sound.session (hσ : σ.Sound P) (hk : σ.peer k = some j) :
    ∃ a s, Reachable P s ∧ Holds σ.server a j s := by
  obtain ⟨a, es, s, hrun, hs⟩ := hσ.isolated.session j (hσ.met k j hk).1
  exact ⟨a, s, ⟨es, hrun⟩, hs⟩

/-- **What an application gets.**  Before its connection is accepted by the server it is
nothing; afterwards it is a beginning of the method reply, the CONNECT reply and the bytes of
the target of the one session that is its own. -/
theorem application_receives {es : List SystemEvent}
    (h : Run (Guarded Regular (SystemStep P)) .start es σ) (k : ℕ) :
    (σ.peer k = none → (σ.output .localSide k).stream = []) ∧
      ∀ j, σ.peer k = some j → (∀ k', σ.peer k' = some j → k' = k) ∧
        (σ.output .localSide k).stream <+:
          methodReply.toList ++ connectReply.toList ++ (σ.server.targetInput j).stream := by
  have hσ := system_sound h
  refine ⟨fun hk => ?_, fun j hk => ⟨fun k' hk' => hσ.single k' k j hk' hk, ?_⟩⟩
  · rcases lt_or_ge (Client.Side.remoteSide.ptr k) σ.client.length with hlt | hge
    · have hnone := hσ.unmet k hk
      have hpast : (σ.input .remoteSide k).past = [] := (List.append_eq_nil_iff.1 hnone).1
      have hhop := hσ.relaying hlt .remoteSide
      rw [hpast] at hhop
      exact hhop
    · -- the connection has not been made either
      obtain ⟨ces, hrun⟩ := hσ.client
      have hlen := (Client.connections_run hrun).length
      have hge' : σ.client.length ≤ Client.Side.localSide.ptr k := by
        have hge' : σ.client.length ≤ 2 * k + 1 := hge
        show σ.client.length ≤ 2 * k
        omega
      rw [System.output, Heap.outputOf, List.getElem?_eq_none hge']
      rfl
  · obtain ⟨a, s, hreach, hs⟩ := hσ.session hk
    have hcons := hσ.isolated.consistent
    obtain ⟨m, hshape⟩ := hreach.shape
    have hgrammar : P.decrypt s.sent <+: methodReply.toList ++ connectReply.toList ++ s.received :=
      hshape.followsGrammar
    rw [hs.sent_eq hcons, hs.received_eq hcons] at hgrammar
    exact (hσ.feeds_down hk).prefix_stream.trans hgrammar

/-- An application that has asked for a host. -/
theorem application_receives_asked : ∃ σ : System, σ.peer 0 = some 0 ∧
    (σ.input .localSide 0).stream = openingBytes ∧ (σ.output .localSide 0).stream <+:
      methodReply.toList ++ connectReply.toList ++ (σ.server.targetInput 0).stream := by
  obtain ⟨σ, es, hr, ho, hin⟩ := run_relaying Key.identity
  exact ⟨σ, ho.peer, hin, ((application_receives hr 0).2 0 ho.peer).2⟩

/-- **What a target gets.**  It is an unbroken part of what the application has sent whose
connection has become the session. -/
theorem target_receives {es : List SystemEvent}
    (h : Run (Guarded Regular (SystemStep P)) .start es σ) (hk : σ.peer k = some j) :
    (σ.server.targetOutput j).stream <:+: (σ.input .localSide k).stream := by
  have hσ := system_sound h
  obtain ⟨a, s, hreach, hs⟩ := hσ.session hk
  have hcons := hσ.isolated.consistent
  obtain ⟨-, -, -, huploads⟩ := reachable_uploads hreach
  rw [hs.forwarded_eq hcons, hs.consumed_eq hcons] at huploads
  exact huploads.isInfix.trans (hσ.taken hk).isInfix

/-- An application that has asked for a host. -/
theorem target_receives_asked : ∃ σ : System, σ.peer 0 = some 0 ∧
    (σ.input .localSide 0).stream = openingBytes ∧
      (σ.server.targetOutput 0).stream <:+: (σ.input .localSide 0).stream := by
  obtain ⟨σ, es, hr, ho, hin⟩ := run_relaying Key.identity
  exact ⟨σ, ho.peer, hin, target_receives hr ho.peer⟩

end EndToEnd

end LightSocks
