import LightSocks.Progress
import LightSocks.Server.Delivery

/-!
# Everything can be closed

An application that hangs up ends its connection at both programs.  Nothing need get lost by
that, and nothing need stay behind: from any state in which the connection is open and the
target can be reached, all that is on the way can be sent first, and then all four bufferevents
and the context are freed.

* `Queues.sendTarget`, `Queues.sendLocal` — what is queued for the two ends is sent.
* `System.Open.hangUp` — the application hangs up.
* `run_close` — the session, once its client has gone.
* `shutdown_possible` — from one end to the other.
-/

namespace LightSocks

open Transition

variable {P : Key} {σ : System} {q : Queues} {a : Addr} {j k : ℕ} {s t : Session}

/-! ## What is queued is sent -/

namespace Queues

/-- What is queued for the target is sent. -/
def sendTarget (q : Queues) : Queues := { q with targetOut := q.targetOut.drain }

/-- What is queued for the application is sent. -/
def sendLocal (q : Queues) : Queues := { q with localOut := q.localOut.drain }

end Queues

/-- The connection to the target comes up, if it is not. -/
theorem System.Open.connect (ho : σ.Open k j) (hσ : σ.Sound P) (hreach : σ.server.Reaches j) :
    ∃ connecting, Leads P k j σ { σ.queues k j with connecting, writable := true } := by
  obtain ⟨a, c, r, host, target, port, ip, hs, hc, hr, hread, hwrite⟩ := ho.relay hσ
  have hq : σ.queues k j = (σ.queues k j).withSession _ :=
    System.queues_server hs hσ.isolated.consistent
  obtain ⟨r', hr', hlink, hwritable⟩ := hreach
  rw [(hs.window hσ.isolated.consistent).inside 1] at hr'
  obtain rfl : r = r' := Option.some.inj hr'
  cases hup : r.link with
  | up =>
      refine ⟨(σ.queues k j).connecting, ?_⟩
      have hsame : { σ.queues k j with writable := true } = σ.queues k j := by
        have hw : (σ.queues k j).writable = true := by
          rw [hq]
          show (decide (r.link = .up) && r.writeEnabled) = true
          rw [hup, hwritable]
          rfl
        rw [← hw]
      rw [hsame]
      exact ho.stays
  | connecting =>
      have hgoes := ho.serverStep hσ hs (.socket (p := 1) rfl (e := .connected) ⟨hr.live, hup⟩)
        (by simp [Event.bev]) (fun hne => absurd rfl hne) ⟨_, rfl, by simp⟩ rfl hread hwrite
      refine ⟨(r.socket .connected).eventPending.connected, ?_⟩
      rw [hq, ← hwritable]
      exact hgoes
  | down => exact absurd hup hlink

theorem System.Open.sendTarget (ho : σ.Open k j) (hσ : σ.Sound P)
    (hwritable : (σ.queues k j).writable = true) : Leads P k j σ (σ.queues k j).sendTarget := by
  obtain ⟨a, c, r, host, target, port, ip, hs, hc, hr, hread, hwrite⟩ := ho.relay hσ
  have hq : σ.queues k j = (σ.queues k j).withSession _ :=
    System.queues_server hs hσ.isolated.consistent
  by_cases hempty : r.output.pending = []
  · have hsame : (σ.queues k j).sendTarget = σ.queues k j := by
      have hnone : (σ.queues k j).targetOut.pending = [] := by
        rw [hq]
        exact hempty
      rw [Queues.sendTarget, Fifo.drain_eq_self hnone]
    rw [hsame]
    exact ho.stays
  · obtain ⟨hlink, henabled⟩ : r.link = .up ∧ r.writeEnabled = true := by
      rw [hq] at hwritable
      obtain ⟨hlink, henabled⟩ := Bool.and_eq_true_iff.1 hwritable
      exact ⟨of_decide_eq_true hlink, henabled⟩
    have hflush := ho.serverStep hσ hs (.socket (p := 1) rfl (e := .flush r.output.pending.length)
      ⟨hr.live, hlink, henabled, List.length_pos_of_ne_nil hempty, le_rfl⟩) (by simp [Event.bev])
      (fun hne => absurd rfl hne) ⟨_, rfl, by simp⟩ rfl hread hwrite
    rw [hq, Queues.sendTarget, ← Fifo.pop_eq_drain le_rfl]
    exact hflush

theorem System.Open.sendLocal (ho : σ.Open k j) (hσ : σ.Sound P) :
    Leads P k j σ (σ.queues k j).sendLocal := by
  obtain ⟨s, hq, h⟩ := ho.send hσ .localSide
  rw [hq]
  exact h

/-- What is queued at the two ends is sent. -/
theorem System.Open.sendOut (ho : σ.Open k j) (hσ : σ.Sound P)
    (hwritable : (σ.queues k j).writable = true) :
    Leads P k j σ (σ.queues k j).sendTarget.sendLocal :=
  (ho.sendTarget hσ hwritable).andThen hσ fun _ hσ' ho' _ => ho'.sendLocal hσ'

/-! ## The application hangs up -/

/-- Both bufferevents of the connection `k` have been freed by the client program. -/
def System.ClientClosed (σ : System) (k : ℕ) : Prop :=
  ∀ x : Client.Side, ∃ b, σ.client[x.ptr k]? = some b ∧ b.live = false

/-- **The application hangs up** when nothing is left to be sent for it. -/
theorem System.Open.hangUp (ho : σ.Open k j) (hσ : σ.Sound P)
    (hread : (σ.queues k j).localIn.pending = [])
    (hsent : (σ.queues k j).remoteOut.pending = []) :
    ∃ e h, Guarded Regular (SystemStep P) σ e { σ with client := h } ∧
      System.ClientClosed { σ with client := h } k ∧
      System.queues { σ with client := h } k j = σ.queues k j := by
  obtain ⟨re, s, hs, hjoined, -, -⟩ := ho.pair hσ
  have hq : σ.queues k j = (σ.queues k j).withPair s := System.queues_client hs
  have hnone : (s .localSide).input.pending = [] := by
    rw [hq] at hread
    exact hread
  have hempty : (s Client.Side.localSide.other).output.pending = [] := by
    rw [hq] at hsent
    exact hsent
  have hadmits : (s .localSide).Admits .eof :=
    ⟨(hjoined _).live, (hjoined _).localUp rfl, (hjoined _).readEnabled⟩
  -- nothing is left to be read, and nothing to drain
  have hnotify := (hjoined .localSide).notify_ends (T := P.table) hs (hjoined .remoteSide).live
    (e := .eof) trivial
  rw [hnone, List.map_nil, Bufferevent.queue_nil, Client.finish, if_pos hempty] at hnotify
  have hpair := hs.setPair .localSide (((s .localSide).socket .eof).takeEvent
    ((s .localSide).socket .eof).eventPending).drained.release
    (s Client.Side.localSide.other).release
  refine ⟨.client (.socket (Client.Side.localSide.ptr k) .eof), _,
    ⟨⟨.of_socket rfl, trivial⟩, .client (.of_notify (hs _) hadmits hnotify)⟩, ?_, ?_⟩
  · intro x
    refine ⟨_, hpair x, ?_⟩
    cases x <;> rfl
  · have hdrained : (s .localSide).input.drain = (s .localSide).input := Fifo.drain_eq_self hnone
    rw [System.queues_client hpair, hq]
    show { (σ.queues k j).withPair s with localIn := (s .localSide).input.drain } = _
    rw [hdrained]
    rfl

/-! ## The session ends -/

/-- All bufferevents of the session `j` have been freed by the server, and so has its context. -/
structure World.Ended (w : World) (j : ℕ) : Prop where
  bevs : ∀ p ∈ w.places j, ∃ b, w.bevs[p]? = some b ∧ b.live = false
  context : ∀ a o, w.contexts a = some o → o.session ≠ j

/-- A session of which nothing is left is one of which the server has nothing left. -/
theorem Holds.ended {w : World} (hs : Holds w a j s) (hbevs : ∀ b ∈ s.bevs, b.live = false)
    (hcontext : s.context = none) : w.Ended j := by
  constructor
  · intro p hp
    obtain ⟨i, hi⟩ := List.mem_iff_getElem?.1 hp
    have hlt : i < s.bevs.length := hs.length ▸ (List.getElem?_eq_some_iff.1 hi).1
    refine ⟨s.bevs[i], ?_, hbevs _ (List.getElem_mem hlt)⟩
    rw [hs.bevs i p hi, List.getElem?_eq_getElem hlt]
  · rintro a' o ho rfl
    obtain rfl := hs.elsewhere a' o ho rfl
    have hnone := hs.context
    rw [hcontext, World.contextOf, ho] at hnone
    simp at hnone

section Session

variable {c r : Bufferevent Callbacks} {port : ℕ} {ip host : List UInt8} {target : Target}
  {replies : List (List UInt8)}

/-- The client has gone; a read that is due comes first. -/
theorem run_close (hc : Served c .handleLast (some .socks5Ctx)) (hread : c.readEnabled = true)
    (hempty : c.input.pending = []) (hr : r.live = true) : ∃ es c',
    Run (Step P) (.paired (some ⟨some 0, some 1, port, ip⟩) c r host target replies) es
        (.paired none c' r.release host target replies) ∧ c'.live = false ∧
      ∀ e ∈ es, e.bev ≠ none ∧ e.arriving 0 = [] := by
  have hhangup : ∀ e ∈ hangup, e.bev ≠ none ∧ e.arriving 0 = [] := by
    simp [hangup, Event.bev, Event.arriving, SocketEvent.arriving]
  cases hpending : c.readPending with
  | false =>
      exact ⟨hangup, hungUp c, run_hangup_paired ⟨hc, hread, hpending⟩ hr, rfl, hhangup⟩
  | true =>
      have hdue : c.readDue = true := by
        simp [Bufferevent.readDue, hc.live, hpending, hc.noConnected]
      -- there is nothing left for it to read
      have hcall : Session.callRead P.table 0 c.callbacks .later
          (.paired (some ⟨some 0, some 1, port, ip⟩) c.takeRead r host target replies) =
            .ok (.paired (some ⟨some 0, some 1, port, ip⟩) c.takeRead.drained r host target
              replies) := by
        rw [paired_upload hc hr, hempty, Key.decrypt_nil, Bufferevent.queue_nil]
      refine ⟨.readCb 0 .later :: hangup, hungUp c.takeRead.drained, .cons
        (.readCb (b := c) rfl hdue hcall) (run_hangup_paired ⟨hc.read, hread, rfl⟩ hr), rfl, ?_⟩
      intro e he
      rcases List.mem_cons.1 he with rfl | he
      · exact ⟨by simp [Event.bev], rfl⟩
      · exact hhangup e he

end Session

/-- What a session does when nothing arrives for it. -/
theorem System.Sound.sessionRun {es : List Event} (hσ : σ.Sound P) (hk : σ.peer k = some j)
    (hs : Holds σ.server a j s) (hr : Run (Step P) s es t)
    (hes : ∀ e ∈ es, e.bev ≠ none ∧ e.arriving 0 = []) :
    ∃ es' w', Run (Guarded Regular (SystemStep P)) σ es' { σ with server := w' } ∧
      Holds w' a j t := by
  induction hr generalizing σ with
  | nil s => exact ⟨[], σ.server, .nil σ, hs⟩
  | @cons s u t e es hstep _ ih =>
      obtain ⟨hbev, hquiet⟩ := hes e List.mem_cons_self
      obtain ⟨e', w₁, hguarded, hs₁, -⟩ := hσ.sessionStep hk hs hstep hbev
        fun hne => absurd hquiet hne
      obtain ⟨es', w', hr', hs'⟩ := ih (hσ.run (.single hguarded)) hk hs₁
        fun e he => hes e (List.mem_cons_of_mem _ he)
      exact ⟨_, w', .cons hguarded hr', hs'⟩

/-- **The session of a connection ends** when nothing is left that its client has sent. -/
theorem System.Open.sessionEnds {h : Client.State} (ho : σ.Open k j) (hσ : σ.Sound P)
    (hread : (σ.queues k j).clientIn.pending = [])
    (hσ' : System.Sound P { σ with client := h }) :
    ∃ es w', Run (Guarded Regular (SystemStep P)) { σ with client := h } es
        { σ with client := h, server := w' } ∧ w'.Ended j ∧
      w'.repliesTo j = σ.server.repliesTo j ∧ w'.targetInput j = σ.server.targetInput j ∧
      w'.targetOutput j = σ.server.targetOutput j := by
  obtain ⟨a, c, r, host, target, port, ip, hs, hc, hr, hreads, -⟩ := ho.relay hσ
  have hcons := hσ.isolated.consistent
  have hempty : c.input.pending = [] := by
    rw [System.queues_server (σ := σ) (k := k) hs hcons] at hread
    exact hread
  obtain ⟨es, c', hrun, hdead, hes⟩ := run_close (P := P) hc hreads hempty hr.live
  obtain ⟨es', w', hr', hs'⟩ := hσ'.sessionRun ho.peer hs hrun hes
  have hcons' := (hσ'.run hr').isolated.consistent
  refine ⟨es', w', hr', hs'.ended ?_ rfl, ?_, ?_, ?_⟩
  · intro b hb
    simp only [Session.paired, List.mem_cons, List.not_mem_nil, or_false] at hb
    rcases hb with rfl | rfl
    · exact hdead
    · rfl
  · rw [← hs'.replies, ← hs.replies]
    rfl
  · rw [World.targetInput, hs'.inputOf hcons', World.targetInput, hs.inputOf hcons]
    rfl
  · rw [World.targetOutput, hs'.outputOf hcons', World.targetOutput, hs.outputOf hcons]
    rfl

/-! ## From end to end -/

/-- Nothing is on the way, and nothing is queued at the two ends. -/
theorem System.Open.allSent (ho : σ.Open k j) (hσ : σ.Sound P) (hreach : σ.server.Reaches j) :
    ∃ es σ', Run (Guarded Regular (SystemStep P)) σ es σ' ∧ σ'.Open k j ∧
      (σ'.queues k j).Still ∧
      (σ'.input .localSide k).stream = (σ.input .localSide k).stream ∧
      (σ'.server.targetInput j).stream = (σ.server.targetInput j).stream ∧
      (σ'.output .localSide k).past =
        (σ'.server.repliesTo j).flatten ++ (σ.server.targetInput j).stream ∧
      (σ'.server.targetOutput j).past = (σ.server.targetOutput j).stream ++
        (σ.input .localSide k).stream.drop (σ.server.clientInput j).past.length := by
  obtain ⟨connecting, es₀, σ₀, hr₀, ho₀, hq₀⟩ := ho.connect hσ hreach
  have hσ₀ := hσ.run hr₀
  obtain ⟨es₁, σ₁, hr₁, ho₁, hwritable, hstill, hlocal, htarget, hforwarded⟩ := ho₀.settles hσ₀
  have hσ₁ := hσ₀.run hr₁
  rw [hq₀] at hwritable
  obtain ⟨es₂, σ₂, hr₂, ho₂, hq₂⟩ := ho₁.sendOut hσ₁ hwritable
  have hstill₂ : (σ₂.queues k j).Still := by
    rw [hq₂]
    exact { hstill with }
  -- what the connect has left as it was
  have hlocalIn : σ₀.input .localSide k = σ.input .localSide k := congrArg Queues.localIn hq₀
  have hclientIn : σ₀.server.clientInput j = σ.server.clientInput j :=
    congrArg Queues.clientIn hq₀
  have htargetIn : σ₀.server.targetInput j = σ.server.targetInput j :=
    congrArg Queues.targetIn hq₀
  have htargetOut : σ₀.server.targetOutput j = σ.server.targetOutput j :=
    congrArg Queues.targetOut hq₀
  rw [hlocalIn] at hlocal hforwarded
  rw [htargetIn] at htarget
  rw [hclientIn, htargetOut] at hforwarded
  -- what has been sent at the two ends
  have hlocal₂ : σ₂.input .localSide k = σ₁.input .localSide k := congrArg Queues.localIn hq₂
  have htarget₂ : σ₂.server.targetInput j = σ₁.server.targetInput j :=
    congrArg Queues.targetIn hq₂
  have hlocalSent : σ₂.output .localSide k = (σ₁.output .localSide k).drain :=
    congrArg Queues.localOut hq₂
  have htargetSent : σ₂.server.targetOutput j = (σ₁.server.targetOutput j).drain :=
    congrArg Queues.targetOut hq₂
  obtain ⟨hheard, -⟩ := hstill₂.delivered (hσ₁.run hr₂) ho₂.peer ho₂.partner
  refine ⟨_, σ₂, (hr₀.append hr₁).append hr₂, ho₂, hstill₂, by rw [hlocal₂, hlocal],
    by rw [htarget₂, htarget], ?_, ?_⟩
  · rw [← htarget, ← htarget₂, ← hheard, hlocalSent]
    exact Fifo.past_eq_stream rfl
  · rw [htargetSent, Fifo.past_drain]
    exact hforwarded

/-- **Everything can be closed, and nothing need get lost.**  From any state in which a
connection is open and its target can be reached the system can go on, without anything new from
the application or the target, until both have been sent all there is for them; then the
application hangs up, and both programs free all that they have of the connection. -/
theorem shutdown_possible {es : List SystemEvent}
    (h : Run (Guarded Regular (SystemStep P)) .start es σ) (ho : σ.Open k j)
    (hreach : σ.server.Reaches j) :
    ∃ es' σ', Run (Guarded Regular (SystemStep P)) σ es' σ' ∧
      (σ'.ClientClosed k ∧ σ'.server.Ended j) ∧
      (σ'.input .localSide k).stream = (σ.input .localSide k).stream ∧
      (σ'.server.targetInput j).stream = (σ.server.targetInput j).stream ∧
      (σ'.output .localSide k).past =
        (σ'.server.repliesTo j).flatten ++ (σ.server.targetInput j).stream ∧
      (σ'.server.targetOutput j).past = (σ.server.targetOutput j).stream ++
        (σ.input .localSide k).stream.drop (σ.server.clientInput j).past.length := by
  have hσ := system_sound h
  obtain ⟨es₁, σ₁, hr₁, ho₁, hstill, hlocal, htarget, hheard, hforwarded⟩ := ho.allSent hσ hreach
  have hσ₁ := hσ.run hr₁
  obtain ⟨e, g, hguarded, hclosed, hqueues⟩ := ho₁.hangUp hσ₁ hstill.localIn hstill.queuedUp
  obtain ⟨es₂, w', hr₂, hended, hreplies, hin, hout⟩ :=
    ho₁.sessionEnds hσ₁ hstill.clientIn (hσ₁.run (.single hguarded))
  -- the client program has kept what went through its buffers
  have hinput : (System.queues { σ₁ with client := g } k j).localIn = σ₁.input .localSide k :=
    congrArg Queues.localIn hqueues
  have houtput : (System.queues { σ₁ with client := g } k j).localOut = σ₁.output .localSide k :=
    congrArg Queues.localOut hqueues
  refine ⟨_, { σ₁ with client := g, server := w' }, hr₁.append (.cons hguarded hr₂),
    ⟨hclosed, hended⟩, (congrArg Fifo.stream hinput).trans hlocal,
    (congrArg Fifo.stream hin).trans htarget, ?_, (congrArg Fifo.past hout).trans hforwarded⟩
  rw [hreplies, ← hheard]
  exact congrArg Fifo.past houtput

/-- An application that has asked for a host. -/
theorem shutdown_possible_asked : ∃ σ : System, (σ.Open 0 0 ∧ σ.server.Reaches 0 ∧
    (σ.input .localSide 0).stream = openingBytes) ∧ ∃ es' σ',
      Run (Guarded Regular (SystemStep Key.identity)) σ es' σ' ∧
      (σ'.ClientClosed 0 ∧ σ'.server.Ended 0) ∧
      (σ'.input .localSide 0).stream = (σ.input .localSide 0).stream ∧
      (σ'.server.targetInput 0).stream = (σ.server.targetInput 0).stream ∧
      (σ'.output .localSide 0).past =
        (σ'.server.repliesTo 0).flatten ++ (σ.server.targetInput 0).stream ∧
      (σ'.server.targetOutput 0).past = (σ.server.targetOutput 0).stream ++
        (σ.input .localSide 0).stream.drop (σ.server.clientInput 0).past.length := by
  obtain ⟨σ, es, hr, ho, hin, hreach⟩ := run_reaching Key.identity
  exact ⟨σ, ⟨ho, hreach, hin⟩, shutdown_possible hr ho hreach⟩

end LightSocks
