import LightSocks.Server.Flow
import LightSocks.Server.Footprint
import LightSocks.Server.Messages

/-!
# Nothing is looked up or connected to unasked

Whatever a session asks the resolver, and whatever it connects to, goes back to one message
of its client.

* `Quiet` — what every callback but the two that matter leaves alone.
* `Event.Asks`, `Event.Answers` — the events at which a host is looked up, and at which the
  resolver gives an address for it.
* `Demanded` — the one request of a session and all that has come of it.
* `request_accounted` — in every run there is such a request, or nothing has been asked.
-/

namespace LightSocks

open Transition

variable {P : Key} {s t : Session} {e : Event} {es : List Event} {m host : List UInt8}
  {mode : Mode} {addr : InAddr}

/-! ## Callbacks that ask for nothing -/

/-- Nothing is asked and nothing connected to. -/
structure Quiet (s t : Session) : Prop where
  queries : t.queries = s.queries
  connects : t.connects = s.connects
  dns : ∀ nodename ∈ t.dns, nodename ∈ s.dns
  port : ∀ ctx', t.context = some ctx' →
    ∃ ctx, s.context = some ctx ∧ ctx'.requestPort = ctx.requestPort

namespace Quiet

theorem of_bevs (hqueries : t.queries = s.queries) (hconnects : t.connects = s.connects)
    (hdns : ∀ nodename ∈ t.dns, nodename ∈ s.dns)
    (hctx : t.context = s.context ∨ t.context = none) : Quiet s t := by
  refine ⟨hqueries, hconnects, hdns, ?_⟩
  intro ctx' h
  rcases hctx with hsame | hnone
  · exact ⟨ctx', hsame ▸ h, rfl⟩
  · cases hnone.symm.trans h

theorem refl (s : Session) : Quiet s s := .of_bevs rfl rfl (fun _ h => h) (.inl rfl)

theorem setBev (s : Session) (p : BevPtr) (b : Bufferevent Callbacks) : Quiet s (s.setBev p b) :=
  .of_bevs rfl rfl (fun _ h => h) (.inl rfl)

theorem trans {u : Session} (h₁ : Quiet s t) (h₂ : Quiet t u) : Quiet s u := by
  refine ⟨h₂.queries.trans h₁.queries, h₂.connects.trans h₁.connects,
    fun n hn => h₁.dns n (h₂.dns n hn), ?_⟩
  intro ctx'' h
  obtain ⟨ctx', hctx', hport'⟩ := h₂.port ctx'' h
  obtain ⟨ctx, hctx, hport⟩ := h₁.port ctx' hctx'
  exact ⟨ctx, hctx, hport'.trans hport⟩

end Quiet

theorem Releases.quiet {ctx : Socks5ctx} {second : Option BevPtr} (h : Releases s ctx second t) :
    Quiet s t := by
  rw [h.rest]
  exact .of_bevs rfl rfl (fun _ h => h) (.inr rfl)

theorem quiet_callEvent {p : BevPtr} {c : Callbacks} {w : What}
    (h : Session.callEvent P.table p c w s = .ok t) : Quiet s t := by
  unfold Session.callEvent at h
  split at h
  · cases h
    exact .refl s
  · rcases localEventCb_cases h with ⟨rfl, -⟩ | ⟨-, -, ctx, hreleased⟩
    · exact .refl t
    · exact hreleased.quiet
  · rcases remoteEventCb_cases h with
      ⟨rfl, -⟩ | ⟨-, -, -, ctx, second, hreleased, -⟩ | ⟨-, bevs, rfl, -⟩
    · exact .refl t
    · exact hreleased.quiet
    · exact .of_bevs rfl rfl (fun _ h => h) (.inl rfl)

theorem quiet_handleFirst {p : BevPtr} : Ensures (Quiet s) (Socks5.handleFirst P.table p s) := by
  unfold Socks5.handleFirst
  refine .bind_eq fun ctx _ => .bind_eq fun self _ => .bind_eq fun r _ =>
    .bind_eq fun request _ => ?_
  refine .ite (fun _ => ?_) fun _ => .ok (.of_bevs rfl rfl (fun _ h => h) (.inl rfl))
  refine .bind_eq fun u hu => .bind_eq fun bevs _ => .ok ?_
  unfold Session.reply at hu
  obtain ⟨coded, -, hu⟩ := bind_eq_ok.1 hu
  obtain ⟨bevs', -, hu⟩ := bind_eq_ok.1 hu
  cases hu
  exact .of_bevs rfl rfl (fun _ h => h) (.inl rfl)

theorem quiet_callRead {p : BevPtr} {c : Callbacks} {choice : Choice}
    (hsecond : c.readcb ≠ some .handleSecond)
    (h : Session.callRead P.table p c choice s = .ok t) : Quiet s t := by
  unfold Session.callRead at h
  split at h
  · cases h
    exact .refl s
  · unfold Server.localReadCb at h
    split at h
    · cases h
      exact .refl s
    · exact quiet_handleFirst t h
  · rename_i hcb
    exact absurd hcb hsecond
  · obtain ⟨bevs, rfl, -⟩ := faces_handleLast h
    exact .of_bevs rfl rfl (fun _ h => h) (.inl rfl)
  · obtain ⟨bevs, rfl, -⟩ := faces_remoteReadCb h
    exact .of_bevs rfl rfl (fun _ h => h) (.inl rfl)

/-! ## What a step can ask for -/

/-- A request is read from the client only. -/
theorem Shape.handleSecond_client (h : Shape P mode s) {p : BevPtr} {b : Bufferevent Callbacks}
    (hb : s.bevs[p]? = some b) (hl : b.live = true)
    (hcb : b.callbacks.readcb = some .handleSecond) : p = 0 := by
  cases h with
  | relay _ hr _ | stranded _ hr _ | abandoned _ hr _ =>
      rcases getElem?_two hb with ⟨rfl, -⟩ | ⟨-, rfl⟩
      · rfl
      · rw [hr.callbacks] at hcb
        cases hcb
  | closedPaired hc hr =>
      rcases getElem?_two hb with ⟨rfl, -⟩ | ⟨-, rfl⟩
      · rfl
      · rw [hr] at hl
        cases hl
  | _ => exact (getElem?_one hb).1

/-- Where `handle_second` runs it is due. -/
theorem Step.due_of_handleSecond {p : BevPtr} {choice : Choice} {b : Bufferevent Callbacks}
    (h : Step P s (.readCb p choice) t) (hs : Reachable P s) (hb : s.bevs[p]? = some b)
    (hcb : b.callbacks.readcb = some .handleSecond) :
    p = 0 ∧ Due s b .handleSecond b.input.pending := by
  obtain ⟨mode, hshape⟩ := hs.shape
  obtain ⟨b', hb', hdue, -⟩ := Session.fire_readCb h
  obtain rfl := Option.some.inj (hb.symm.trans hb')
  have hl : b.live = true := by
    simp only [Bufferevent.readDue, Bool.and_eq_true] at hdue
    exact hdue.1.1
  obtain rfl := hshape.handleSecond_client hb hl hcb
  exact ⟨rfl, hb, hdue, hcb, rfl⟩

/-- The event has `host` looked up: `handle_second` reads a request for it. -/
def Event.Asks (P : Key) (s : Session) (host : List UInt8) : Event → Prop
  | .readCb p _ => ∃ b : Bufferevent Callbacks, s.bevs[p]? = some b ∧
      b.callbacks.readcb = some .handleSecond ∧ AsksDomain (readPlain P b) ∧
        hostOf (readPlain P b) = host
  | _ => False

/-- The event hands the address `addr` for `host` to `dns_cb`: it has `host` looked up and is
answered at once, or it completes a lookup of `host`. -/
def Event.Answers (P : Key) (s : Session) (host : List UInt8) (addr : InAddr) : Event → Prop
  | .readCb p choice => (Event.readCb p choice).Asks P s host ∧
      choice.resolved = some (.found ⟨.inet, addr⟩)
  | .dnsDone nodename result _ => nodename = host ∧ result = .found ⟨.inet, addr⟩
  | _ => False

/-- In the run along `es` the resolver has answered `addr` for `host`. -/
def Answered (P : Key) (es : List Event) (s : Session) (host : List UInt8) (addr : InAddr) :
    Prop :=
  SomeStep (Step P) Session.accepted es s fun u e => e.Answers P u host addr

/-- The event asks for nothing, or it reads a request, or it completes a lookup. -/
theorem Step.quiet_or (h : Step P s e t) (hs : Reachable P s) :
    Quiet s t ∨ (∃ c choice, e = .readCb 0 choice ∧ Due s c .handleSecond c.input.pending) ∨
      ∃ nodename addr re ctx, e = .dnsDone nodename (.found ⟨.inet, addr⟩) re ∧
        nodename ∈ s.dns ∧ s.context = some ctx ∧ t = attachRemote re addr ctx
          { s with dns := s.dns.erase nodename, addrinfos := s.addrinfos + 1 } := by
  cases e with
  | socket p e =>
      obtain ⟨b, -, -, hr⟩ := Session.fire_socket h
      cases hr
      exact .inl (.setBev s p _)
  | eventCb p =>
      obtain ⟨b, w, -, -, hr⟩ := Session.fire_eventCb h
      exact .inl ((Quiet.setBev s p _).trans (quiet_callEvent hr.symm))
  | readCb p choice =>
      obtain ⟨b, hb, -, hr⟩ := Session.fire_readCb h
      by_cases hcb : b.callbacks.readcb = some .handleSecond
      · obtain ⟨rfl, hdue⟩ := h.due_of_handleSecond hs hb hcb
        exact .inr (.inl ⟨b, choice, rfl, hdue⟩)
      · exact .inl ((Quiet.setBev s p _).trans (quiet_callRead hcb hr.symm))
  | dnsDone nodename result re =>
      obtain ⟨hdns, hr⟩ := Session.fire_dnsDone h
      have herase : Quiet s { s with dns := s.dns.erase nodename } :=
        .of_bevs rfl rfl (fun _ h => List.mem_of_mem_erase h) (.inl rfl)
      cases hctx : s.context with
      | none =>
          have hsame := resolve_deleted (s := { s with dns := s.dns.erase nodename }) hctx hr.symm
          exact .inl (hsame ▸ herase)
      | some ctx =>
          rcases resolve_cases (s := { s with dns := s.dns.erase nodename }) hctx re result with
            ⟨_, -, hok⟩ | ⟨addr, rfl, hok⟩ | ⟨-, hexit⟩
          · cases hr.trans hok
            exact .inl herase
          · exact .inr (.inr ⟨nodename, addr, re, ctx, rfl, hdns, rfl,
              Except.ok.inj (hr.trans hok)⟩)
          · cases hr.trans hexit

/-! ## The request of a session -/

/-- Nothing has been asked, connected to or forwarded. -/
structure Undemanding (s : Session) : Prop where
  queries : s.queries = []
  dns : s.dns = []
  connects : s.connects = []
  forwarded : s.forwarded = []

/-- **The one request of a session.**  The message `m` has come from the client, all lookups and
connects are for it, and all that is forwarded has come after it. -/
structure Demanded (P : Key) (es : List Event) (s : Session) (m : List UInt8) : Prop where
  asks : AsksDomain m
  fits : m.length ≤ 32
  sent : ∃ before after, P.decrypt s.consumed = before ++ m ++ after ∧ s.forwarded <:+ after
  queries : s.queries = [hostOf m]
  dns : ∀ nodename ∈ s.dns, nodename = hostOf m
  port : ∀ ctx, s.context = some ctx → ctx.requestPort = portAtEnd m
  connects : s.connects = [] ∨ ∃ addr, Answered P es s (hostOf m) addr ∧
    s.connects = [(addr, UInt16.ofNat (portAtEnd m))]

/-- What callbacks take from the client they keep. -/
theorem Streams.consumed {W : BevPtr → Prop} {arriving : BevPtr → List UInt8}
    (h : Streams W arriving s.bevs t.bevs) : s.consumed <+: t.consumed := by
  rw [Session.consumed, Session.consumed]
  cases h0 : s.bevs[0]? with
  | none => exact List.nil_prefix
  | some c =>
      obtain ⟨c', hc', -, htaken, -⟩ := h.old 0 c h0
      rw [hc']
      exact htaken

/-- **What is forwarded comes after the request**, step by step. -/
theorem Step.sent (h : Step P s e t) (hshape : Shape P mode s) (hu : Uploads P mode s)
    (hsent : ∃ before after, P.decrypt s.consumed = before ++ m ++ after ∧
      s.forwarded <:+ after) :
    ∃ before after, P.decrypt t.consumed = before ++ m ++ after ∧ t.forwarded <:+ after := by
  obtain ⟨before, after, htaken, hafter⟩ := hsent
  by_cases hrelay : ∃ target, mode = .relay target
  · obtain ⟨target, rfl⟩ := hrelay
    rcases fire_relay hshape h with ⟨t', heq, -, -, hrelayed⟩ | ⟨t', heq, -, -, hended⟩
    · obtain rfl := Except.ok.inj heq
      obtain ⟨bytes, hconsumed, hforwarded⟩ := hrelayed
      obtain ⟨gap, hgap⟩ := hafter
      refine ⟨before, after ++ P.decrypt bytes, ?_, gap, ?_⟩
      · rw [hconsumed, Key.decrypt_append, htaken, List.append_assoc]
      · rw [hforwarded, ← hgap, List.append_assoc]
    · obtain rfl := Except.ok.inj heq
      obtain ⟨hforwarded, hconsumed⟩ := hended.queues
      exact ⟨before, after, by rw [hconsumed, htaken], by rwa [hforwarded]⟩
  · have hne : ∀ target, mode ≠ .relay target := fun target hm => hrelay ⟨target, hm⟩
    have hnil : s.forwarded = [] := by
      cases mode with
      | relay target => exact absurd rfl (hne target)
      | closed target =>
          have hnone := fire_closed hshape e
          rw [h] at hnone
          cases hnone
      | _ => exact hu
    have hstreams := hshape.streams hne h
    obtain ⟨bytes, hbytes⟩ := hstreams.consumed
    refine ⟨before, after ++ P.decrypt bytes, ?_, ?_⟩
    · rw [← hbytes, Key.decrypt_append, htaken, List.append_assoc]
    · rw [hstreams.forwarded hnil]
      exact List.nil_suffix

/-- Without a connect there is no target to forward anything to. -/
theorem Shape.forwarded_of_connects (h : Shape P mode s) (hnone : s.connects = []) :
    s.forwarded = [] := by
  cases h with
  | stranded | relay | abandoned | closedPaired => cases hnone
  | _ => rfl

/-- As long as a lookup is outstanding nothing has been connected to. -/
theorem Shape.connects_of_dns (h : Shape P mode s) (hdns : host ∈ s.dns) : s.connects = [] := by
  cases h with
  | resolving | orphaned => rfl
  | _ => cases hdns

/-- A step after the request. -/
theorem Demanded.step (hd : Demanded P es s m) (h : Step P s e t)
    (hrun : Run (Step P) Session.accepted es s) : Demanded P (es ++ [e]) t m := by
  have hs : Reachable P s := ⟨es, hrun⟩
  obtain ⟨mode, hshape, hu, -⟩ := reachable_uploads hs
  have hsent := h.sent hshape hu hd.sent
  rcases h.quiet_or hs with hquiet | ⟨c, choice, -, hdue⟩ |
    ⟨nodename, addr, re, ctx, rfl, hdns, hctx, rfl⟩
  · refine ⟨hd.asks, hd.fits, hsent, hquiet.queries.trans hd.queries,
      fun n hn => hd.dns n (hquiet.dns n hn), ?_, ?_⟩
    · intro ctx' hctx'
      obtain ⟨ctx, hctx, hport⟩ := hquiet.port ctx' hctx'
      exact hport.trans (hd.port ctx hctx)
    · rw [hquiet.connects]
      rcases hd.connects with hnone | ⟨addr, hanswer, hone⟩
      · exact .inl hnone
      · exact .inr ⟨addr, SomeStep.snoc hanswer h, hone⟩
  · -- there is no second request
    obtain ⟨port, ip, rfl, -⟩ := hdue.request hs
    cases hd.queries
  · obtain rfl := hd.dns nodename hdns
    refine ⟨hd.asks, hd.fits, hsent, hd.queries,
      fun n hn => hd.dns n (List.mem_of_mem_erase hn), ?_, ?_⟩
    · rintro ctx' ⟨⟩
      exact hd.port ctx hctx
    · refine .inr ⟨addr, SomeStep.last hrun h ⟨rfl, rfl⟩, ?_⟩
      show s.connects ++ [(addr, UInt16.ofNat ctx.requestPort)] = _
      rw [hshape.connects_of_dns hdns, hd.port ctx hctx]
      rfl

/-- What has become of a message that has just been read, and that asks for a host. -/
theorem Demanded.of_read {c : Bufferevent Callbacks} {choice : Choice} {u : Session}
    (hrun : Run (Step P) Session.accepted es s) (hdue : Due s c .handleSecond c.input.pending)
    (h : Step P s (.readCb 0 choice) u)
    (hasks : AsksDomain (readPlain P c)) (hfits : (readPlain P c).length ≤ 32)
    (hread : readPlain P c = P.decrypt c.input.pending)
    (hconsumed : u.consumed = c.input.past ++ c.input.pending) (hforwarded : u.forwarded = [])
    (hqueries : u.queries = [hostOf (readPlain P c)])
    (hdns : ∀ nodename ∈ u.dns, nodename = hostOf (readPlain P c))
    (hport : ∃ ctx, u.context = some ctx ∧ ctx.requestPort = portAtEnd (readPlain P c))
    (hconnects : u.connects = [] ∨ ∃ addr, choice.resolved = some (.found ⟨.inet, addr⟩) ∧
      u.connects = [(addr, UInt16.ofNat (portAtEnd (readPlain P c)))]) :
    Demanded P (es ++ [.readCb 0 choice]) u (readPlain P c) := by
  refine ⟨hasks, hfits, ⟨P.decrypt c.input.past, [], ?_, by rw [hforwarded]⟩, hqueries, hdns,
    ?_, hconnects.imp_right ?_⟩
  · rw [hconsumed, Key.decrypt_append, hread, List.append_nil]
  · intro ctx hctx
    obtain ⟨ctx', hctx', hport⟩ := hport
    cases hctx.symm.trans hctx'
    exact hport
  · rintro ⟨addr, hres, hone⟩
    have hanswers : Event.Answers P s (hostOf (readPlain P c)) addr (.readCb 0 choice) :=
      ⟨⟨c, hdue.client, hdue.readcb, hasks, rfl⟩, hres⟩
    exact ⟨addr, SomeStep.last hrun h hanswers, hone⟩

/-- **Reading the request.** -/
theorem demanded_of_due {c : Bufferevent Callbacks} {choice : Choice}
    (hrun : Run (Step P) Session.accepted es s) (hdue : Due s c .handleSecond c.input.pending)
    (h : Step P s (.readCb 0 choice) t) :
    ¬ AsksDomain (readPlain P c) ∧ Undemanding t ∨
      Demanded P (es ++ [.readCb 0 choice]) t (readPlain P c) := by
  have hcall := (hdue.step_iff P choice t).1 h
  obtain ⟨port, ip, rfl, hc⟩ := hdue.request ⟨es, hrun⟩
  rcases readCb_request hc hcall with
    ⟨-, hr⟩ | ⟨hlen, ⟨-, hnot, hr⟩ | ⟨h4, ip', hr⟩ | ⟨hasks, -, hask⟩⟩
  · cases hr
  · cases hr
    exact .inl ⟨hnot, rfl, rfl, rfl, rfl⟩
  · cases hr
    exact .inl ⟨h4.not_asksDomain, rfl, rfl, rfl, rfl⟩
  right
  have hread := readPlain_eq (P := P) hlen
  have hfits : (readPlain P c).length ≤ 32 := by rwa [hread, Key.length_decrypt]
  -- an address of a family that is not known would have ended the program
  have hanswer : ∀ {result addr}, choice.resolved = some result → result.kind = .getsAddress addr →
      choice.resolved = some (.found ⟨.inet, addr⟩) := by
    intro result addr hres hkind
    cases result with
    | error code => cases hkind
    | found answer =>
        obtain ⟨family, addr'⟩ := answer
        cases family with
        | unknown => cases hask.trans (askAndRegister_unknown hres)
        | inet =>
            cases hkind
            exact hres
  rcases askAndRegister_alone (c := c.takeRead.drained) _ choice hc.live hask.symm with
    ⟨-, hr⟩ | ⟨result, -, -, hr⟩ | ⟨result, addr, hres, hkind, ⟨-, hr⟩ | ⟨-, hr⟩⟩ | ⟨-, hr⟩
  · cases hr
    exact .of_read hrun hdue h hasks hfits hread rfl rfl rfl (fun _ => List.mem_singleton.1)
      ⟨_, rfl, rfl⟩ (.inl rfl)
  · cases hr
    exact .of_read hrun hdue h hasks hfits hread rfl rfl rfl (fun _ h => by cases h) ⟨_, rfl, rfl⟩
      (.inl rfl)
  · cases hr
    exact .of_read hrun hdue h hasks hfits hread rfl rfl rfl (fun _ h => by cases h) ⟨_, rfl, rfl⟩
      (.inr ⟨addr, hanswer hres hkind, rfl⟩)
  · cases hr
    exact .of_read hrun hdue h hasks hfits hread rfl rfl rfl (fun _ h => by cases h) ⟨_, rfl, rfl⟩
      (.inr ⟨addr, hanswer hres hkind, rfl⟩)
  · cases hr

/-- **The step lemma.** -/
theorem Undemanding.step (hnone : Undemanding s) (h : Step P s e t)
    (hrun : Run (Step P) Session.accepted es s) :
    Undemanding t ∨ ∃ m, Demanded P (es ++ [e]) t m := by
  have ht : Reachable P t := ⟨_, hrun.snoc h⟩
  rcases h.quiet_or ⟨es, hrun⟩ with
    hquiet | ⟨c, choice, rfl, hdue⟩ | ⟨nodename, _, _, _, -, hdns, -⟩
  · have hconnects := hquiet.connects.trans hnone.connects
    obtain ⟨mode, hshape⟩ := ht.shape
    refine .inl ⟨hquiet.queries.trans hnone.queries, ?_, hconnects,
      hshape.forwarded_of_connects hconnects⟩
    refine List.eq_nil_iff_forall_not_mem.2 fun n hn => ?_
    have hold := hquiet.dns n hn
    rw [hnone.dns] at hold
    cases hold
  · exact (demanded_of_due hrun hdue h).imp (·.2) fun hd => ⟨_, hd⟩
  · rw [hnone.dns] at hdns
    cases hdns

theorem Undemanding.accepted : Undemanding Session.accepted := ⟨rfl, rfl, rfl, rfl⟩

/-- What is asked is accounted for, step by step. -/
theorem Step.accounted (h : Step P s e t) (hrun : Run (Step P) Session.accepted es s)
    (hs : Undemanding s ∨ ∃ m, Demanded P es s m) :
    Undemanding t ∨ ∃ m, Demanded P (es ++ [e]) t m := by
  rcases hs with hnone | ⟨m, hd⟩
  · exact hnone.step h hrun
  · exact .inr ⟨m, hd.step h hrun⟩

/-- A message that asks for a host has it looked up. -/
theorem Step.asked (h : Step P s e t) (hrun : Run (Step P) Session.accepted es s)
    (hasks : e.Asks P s host) : host ∈ t.queries := by
  cases e with
  | socket | eventCb | dnsDone => exact hasks.elim
  | readCb p choice =>
      obtain ⟨b, hb, hcb, hdomain, rfl⟩ := hasks
      obtain ⟨rfl, hdue⟩ := h.due_of_handleSecond ⟨es, hrun⟩ hb hcb
      rcases demanded_of_due hrun hdue h with ⟨hnot, -⟩ | hd
      · exact absurd hdomain hnot
      · rw [hd.queries]
        exact List.mem_singleton_self _

/-- **Nothing is looked up or connected to unasked**, in any run of a session. -/
theorem request_accounted (h : Run (Step P) Session.accepted es s) :
    Undemanding s ∨ ∃ m, Demanded P es s m :=
  h.history (I := fun es s => Undemanding s ∨ ∃ m, Demanded P es s m) (.inl .accepted)
    fun _ _ _ _ hrun hI hstep => hstep.accounted hrun hI

/-- A session that has asked for `a:80` and been answered. -/
theorem request_accounted_relay : ∃ s es, Run (Step Key.identity) Session.accepted es s ∧
    s.connects = [(⟨127, 0, 0, 1⟩, 80)] ∧ ∃ m, Demanded Key.identity es s m := by
  obtain ⟨c, hr, hc⟩ := reach_relay Key.identity [0x61] 0x00 0x50 ShortName.example ⟨127, 0, 0, 1⟩
  refine ⟨_, _, hr, rfl, ?_⟩
  rcases request_accounted hr with hnone | hd
  · cases hnone.connects
  · exact hd

end LightSocks
