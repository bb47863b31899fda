import LightSocks.Server.AddressReuse

/-!
# Cross-wired sessions

An answer of the resolver finds its session by the address of the context it was asked
with, and so does the CONNECTED event of a remote bufferevent.  When the session is gone
and its address has been given to another one, both find that one.

* `Wired` — the remote a session has is the one it asked for, and every success reply is
  for the client that gets it.
* `NotStale` — what happens next does not reach another session's context.
* `wired_throughout` — the first holds in every state of a run exactly when the second
  does at every step.
* `wired_throughout_reused` — a client leaves while its lookup is outstanding, and the next
  one is connected to the host it asked for.
-/

namespace LightSocks

open Transition

variable {P : Key} {w w' : World} {a : Addr} {p : BevPtr} {b : Bufferevent Callbacks}
  {o : Occupant} {s t : Session}

/-- The remote of a session is the answer to what that session has asked for, and a success
reply answers the client it is sent to. -/
structure Wired (w : World) : Prop where
  partner : ∀ a o q, w.contexts a = some o → o.context.partner = some q →
    ∃ l target, w.origins[q]? = some ⟨a, .remote l target⟩ ∧ l.session = o.session ∧
      target.2 = UInt16.ofNat l.port
  replies : ∀ r ∈ w.replies, r.bytes = connectReply.toList → r.client = r.answers

/-- Whoever has a context at the address that comes with an answer whose connect starts, or
with a CONNECTED event, is the session that asked. -/
def NotStale (w : World) : WorldEvent → Prop
  | .answer lookup (.found _) re =>
      re = 0 → ∀ o, w.contexts lookup.arg = some o → o.session = lookup.session
  | .event (.eventCb p) =>
      ∀ b origin, w.bevs[p]? = some b → w.origins[p]? = some origin →
        b.nextEvent = some { connected := true } →
        ∀ o, w.contexts origin.arg = some o → o.session = origin.purpose.session
  | _ => True

/-! ## A step that is not stale -/

theorem Wired.start : Wired World.start := by
  refine ⟨?_, ?_⟩
  · intro a o q h
    cases h
  · intro r h
    cases h

theorem Wired.accepting (hwired : Wired w) : Wired (w.accepting a) := by
  refine ⟨?_, hwired.replies⟩
  intro a' o q ho hq
  rcases World.accepting_contexts ho with ho | ⟨-, rfl⟩
  · obtain ⟨l, target, horigin, hrest⟩ := hwired.partner a' o q ho hq
    exact ⟨l, target, World.accepting_origins_old horigin, hrest⟩
  · cases hq

section Ran

variable {session : ℕ} {lookup : Lookup} {sp : Option BevPtr} {re : ℤ} {speaks : Prop}

/-- What a callback leaves wired: what it attaches must be what the session it finds has
asked for, and what it says must be for that session. -/
theorem Ran.wired (h : Ran w a lookup sp re speaks t) (hw : Consistent w) (hwired : Wired w)
    (hattach : ∀ lookups o ctx, w.contexts a = some o → t.context = some ctx →
      t.connects ≠ [] → re = 0 → (sp = none ∨ Requests (w.view a lookups) sp) →
      lookup.session = o.session ∧ ctx.requestPort = lookup.port)
    (hspeaks : speaks → ∀ o, w.contexts a = some o → o.session = session) :
    Wired (w.absorb a session lookup t) := by
  obtain ⟨lookups, heff⟩ := h.effect
  have hkeep : ∀ {a' o q}, w.contexts a' = some o → o.context.partner = some q →
      ∃ l target, (w.absorb a session lookup t).origins[q]? = some ⟨a', .remote l target⟩ ∧
        l.session = o.session ∧ target.2 = UInt16.ofNat l.port := by
    intro a' o q ho hq
    obtain ⟨l, target, horigin, hrest⟩ := hwired.partner a' o q ho hq
    have hlt : q < w.bevs.length := hw.length ▸ (List.getElem?_eq_some_iff.1 horigin).1
    exact ⟨l, target, (Ran.origins hw hlt).2 horigin, hrest⟩
  constructor
  · intro a' o' q ho' hq
    rcases World.absorb_contexts ho' with ⟨-, ho⟩ | ⟨rfl, o, ctx', ho, hctx', rfl⟩
    · exact hkeep ho hq
    obtain ⟨ctx, hctx, -, -, hpartner⟩ := heff.kept ctx' hctx'
    rw [World.view, ho] at hctx
    cases hctx
    rcases hpartner with hsame | ⟨hnew, hre, hsp, addr, hconnects⟩
    · have hold := hkeep ho (hsame.symm.trans hq)
      exact hold
    · -- the bufferevent that has just been created
      obtain ⟨hsession, hport⟩ := hattach lookups o ctx' ho hctx' (by simp [hconnects]) hre hsp
      refine ⟨lookup, (addr, _), ?_, hsession, congrArg UInt16.ofNat hport⟩
      obtain rfl : w.bevs.length = q := Option.some.inj (hnew.symm.trans hq)
      rw [World.absorb, ← hw.length, hconnects]
      exact List.getElem?_concat_length ..
  · intro r hr hbytes
    rcases List.mem_append.1 hr with hr | hr
    · exact hwired.replies r hr hbytes
    · obtain ⟨o, ho, hr⟩ := List.mem_flatMap.1 hr
      obtain ⟨bytes, hmem, rfl⟩ := List.mem_map.1 hr
      exact hspeaks (heff.replied (List.ne_nil_of_mem hmem)) o (Option.mem_toList.1 ho)

/-- The callback of a client finds the context of its own session. -/
theorem Consistent.session_eq (hw : Consistent w) {origin : Origin} (hb : w.bevs[p]? = some b)
    (hl : b.live = true) (horigin : w.origins[p]? = some origin)
    (hcb : b.callbacks ≠ remoteCallbacks) (ho : w.contexts origin.arg = some o) :
    o.session = origin.purpose.session := by
  obtain ⟨arg, purpose⟩ := origin
  cases purpose with
  | client k =>
      obtain ⟨o', ho', hk, -⟩ := (hw.client p b arg k hb horigin).2 hl
      cases ho.symm.trans ho'
      exact hk
  | remote l target => exact absurd (hw.remote p b arg l target hb horigin) hcb

/-- An event that is not stale. -/
theorem Wired.event (hwired : Wired w) (hw : Consistent w) {e : Event} {origin : Origin}
    (hstale : NotStale w (.event e)) (hbev : e.bev = some p)
    (horigin : w.origins[p]? = some origin) (hstep : Step P (w.view origin.arg []) e t) :
    Wired (w.absorb origin.arg origin.purpose.session
      (World.request origin.purpose.session origin.arg t) t) := by
  have hran := (Called.of_event hw hbev horigin hstep).ran
  refine hran.wired hw hwired ?_ ?_
  · intro lookups o ctx ho hctx _ _ hreq
    -- the session requests, and is answered at once
    rcases hreq with hnone | hreq
    · cases hbev.symm.trans hnone
    obtain ⟨q, b, o', hq, -, -, ho', horigin', -⟩ := hran.of_requests hw hreq
    cases hbev.symm.trans hq
    cases ho.symm.trans ho'
    have hown := congrArg (·.purpose.session) (Option.some.inj (horigin.symm.trans horigin'))
    exact ⟨hown, by simp [World.request, hctx]⟩
  · intro hspeaks o ho
    cases e with
    | socket q e => cases hspeaks
    | dnsDone nodename result re => cases hspeaks
    | readCb q choice =>
        cases hbev
        obtain ⟨b, hb, hl, hcb⟩ := hspeaks
        exact hw.session_eq hb hl horigin hcb ho
    | eventCb q =>
        cases hbev
        obtain ⟨b, hb, hconn⟩ := hspeaks
        exact hstale b origin hb horigin hconn o ho

/-- An answer that is not stale. -/
theorem Wired.answer (hwired : Wired w) (hw : Consistent w) {result : DnsResult}
    (hstale : NotStale w (.answer lookup result re)) (hmem : lookup ∈ w.dns)
    (hstep : Step P (w.view lookup.arg [lookup.host]) (.dnsDone lookup.host result re) t) :
    Wired ({ w with dns := w.dns.erase lookup }.absorb lookup.arg lookup.session lookup t) := by
  have hran := (Called.of_answer hw hmem hstep).ran
  refine hran.wired (hw.erase lookup) ⟨hwired.partner, hwired.replies⟩
    ?_ fun hspeaks => hspeaks.elim
  intro lookups o ctx' ho hctx' hconnects hre _
  replace ho : w.contexts lookup.arg = some o := ho
  cases result with
  | error code =>
      -- nothing is connected
      obtain ⟨-, hr⟩ := Session.fire_dnsDone hstep
      cases hr
      exact absurd rfl hconnects
  | found answer =>
      have hsession := hstale hre o ho
      refine ⟨hsession.symm, ?_⟩
      obtain ⟨lookups', heff⟩ := hran.effect
      obtain ⟨ctx, hctx, -, hport, -⟩ := heff.kept ctx' hctx'
      have hview : (w.view lookup.arg lookups').context = some o.context := by
        rw [World.view, ho]
        rfl
      cases hview.symm.trans hctx
      rcases hport with hsame | ⟨q, _, hq, -, -⟩
      · exact hsame.trans (hw.lookup lookup hmem o ho hsession).1
      · cases hq

end Ran

/-- **A step that is not stale leaves every session wired to itself.** -/
theorem WorldStep.wired {e : WorldEvent} (h : WorldStep P w e w') (hw : Consistent w)
    (hwired : Wired w) (hstale : NotStale w e) : Wired w' := by
  cases h.cases with
  | accept free => exact hwired.accepting
  | event bev origin_eq step => exact hwired.event hw hstale bev origin_eq step
  | answer mem step => exact hwired.answer hw hstale mem step

/-! ## A step that is stale -/

/-- What CONNECTED leaves behind when its callback returns. -/
theorem remoteEventCb_connected_ok {q : BevPtr} {what : What} {ctx : Socks5ctx}
    (hconn : what.connected = true) (hctx : s.context = some ctx) (hself : ctx.self = some q)
    (h : Server.remoteEventCb P.table p what (some .socks5Ctx) s = .ok t) :
    t.replies = s.replies ++ [connectReply.toList] := by
  simp only [Server.remoteEventCb, hconn, if_true, getContext_eq hctx, ok_bind, hself] at h
  unfold Session.reply at h
  obtain ⟨coded, -, h⟩ := bind_eq_ok.1 h
  obtain ⟨bevs, -, h⟩ := bind_eq_ok.1 h
  cases h
  rfl

/-- The reply goes to whoever has the context, in the name of the session that asked. -/
theorem not_wired_of_connected {origin : Origin} {lookup : Lookup} (hw : Consistent w)
    (horigin : w.origins[p]? = some origin) (hb : w.bevs[p]? = some b)
    (hconn : b.nextEvent = some { connected := true }) (ho : w.contexts origin.arg = some o)
    (hne : o.session ≠ origin.purpose.session)
    (hstep : Step P (w.view origin.arg []) (.eventCb p) t) :
    ¬ Wired (w.absorb origin.arg origin.purpose.session lookup t) := by
  intro hwired
  have hl : b.live = true := (Bufferevent.nextEvent_cases hconn).1
  have hcb : b.callbacks = remoteCallbacks := by
    by_contra hcb
    exact hne (hw.session_eq hb hl horigin hcb ho)
  obtain ⟨b', what, hb', hwhat, hr⟩ := Session.fire_eventCb hstep
  cases hb.symm.trans hb'
  cases hconn.symm.trans hwhat
  rw [hcb] at hr
  change _ = Server.remoteEventCb P.table p { connected := true } (some .socks5Ctx) _ at hr
  obtain ⟨q, hself, -⟩ := hw.self _ o ho
  have hctx : (w.view origin.arg []).context = some o.context := by
    rw [World.view, ho]
    rfl
  have hreplies : t.replies = [] ++ [connectReply.toList] :=
    remoteEventCb_connected_ok rfl (by exact hctx) hself hr.symm
  have hmem : (⟨o.session, origin.purpose.session, connectReply.toList⟩ : Reply) ∈
      (w.absorb origin.arg origin.purpose.session lookup t).replies := by
    simp [World.absorb, ho, hreplies]
  exact hne (hwired.replies _ hmem rfl)

/-- The remote is attached to whoever has the context. -/
theorem not_wired_of_answer {lookup : Lookup} {answer : Addrinfo} (hw : Consistent w)
    (ho : w.contexts lookup.arg = some o) (hne : o.session ≠ lookup.session)
    (hstep : Step P (w.view lookup.arg [lookup.host]) (.dnsDone lookup.host (.found answer) 0) t) :
    ¬ Wired ({ w with dns := w.dns.erase lookup }.absorb lookup.arg lookup.session lookup t) := by
  intro hwired
  have hctx : (w.view lookup.arg [lookup.host]).context = some o.context := by
    rw [World.view, ho]
    rfl
  obtain ⟨-, hr⟩ := Session.fire_dnsDone hstep
  rcases resolve_cases (s := { w.view lookup.arg [lookup.host] with
    dns := [lookup.host].erase lookup.host }) hctx 0 (.found answer) with
    ⟨_, herr, -⟩ | ⟨addr, -, hattach⟩ | ⟨-, hexit⟩
  · cases herr
  · cases hr.trans hattach
    obtain ⟨l, target, horigin, hsession, -⟩ := hwired.partner lookup.arg _ w.bevs.length
      (World.absorb_contexts_self ho rfl) rfl
    have hnew : (w.origins ++ [(⟨lookup.arg, .remote lookup
        (addr, UInt16.ofNat o.context.requestPort)⟩ : Origin)])[w.bevs.length]? =
          some ⟨lookup.arg, .remote l target⟩ := horigin
    rw [← hw.length, List.getElem?_concat_length] at hnew
    cases hnew
    exact hne hsession.symm
  · cases hr.trans hexit

/-- **A stale step crosses two sessions.** -/
theorem WorldStep.not_wired {e : WorldEvent} (h : WorldStep P w e w') (hw : Consistent w)
    (hstale : ¬ NotStale w e) : ¬ Wired w' := by
  cases h.cases with
  | accept free => exact absurd trivial hstale
  | @event e p origin t hbev horigin hstep =>
      cases e with
      | socket q e => exact absurd trivial hstale
      | readCb q choice => exact absurd trivial hstale
      | dnsDone nodename result re => cases hbev
      | eventCb q =>
          cases hbev
          simp only [NotStale, not_forall] at hstale
          obtain ⟨b, origin', hb, horigin', hconn, o, ho, hne⟩ := hstale
          cases horigin.symm.trans horigin'
          exact not_wired_of_connected hw horigin hb hconn ho hne hstep
  | @answer lookup result re t hmem hstep =>
      cases result with
      | error code => exact absurd trivial hstale
      | found answer =>
          simp only [NotStale, not_forall] at hstale
          obtain ⟨rfl, o, ho, hne⟩ := hstale
          exact not_wired_of_answer hw ho hne hstep

/-! ## One client on its own -/

/-- The world of one session, whose context is or was at `a`. -/
def World.alone (a : Addr) (context : Option Socks5ctx) (c : Bufferevent Callbacks)
    (dns : List Lookup) (replies : List Reply) : World where
  contexts := Function.update (fun _ => none) a (context.map fun context => ⟨0, context⟩)
  bevs := [c]
  origins := [⟨a, .client 0⟩]
  dns := dns
  replies := replies
  accepted := 1

theorem World.alone_contexts (a : Addr) (ctx : Socks5ctx) (c : Bufferevent Callbacks)
    (dns : List Lookup) (replies : List Reply) :
    (World.alone a (some ctx) c dns replies).contexts a = some ⟨0, ctx⟩ := by
  simp [World.alone]

section Alone

variable {ctx : Socks5ctx} {context : Option Socks5ctx} {c c' : Bufferevent Callbacks}
  {dns : List Lookup} {replies : List Reply} {hosts queries texts : List (List UInt8)}

/-- What is still to be looked up for the session, and has been said to it. -/
def World.aloneAfter (a : Addr) (context : Option Socks5ctx) (c : Bufferevent Callbacks)
    (dns : List Lookup) (replies : List Reply) (hosts texts : List (List UInt8)) : World :=
  .alone a context c
    (dns ++ hosts.map fun host => ⟨0, a, host, (context.map (·.requestPort)).getD 0⟩)
    (replies ++ texts.map fun bytes => ⟨0, 0, bytes⟩)

/-- A step of the session is a step of the world. -/
theorem WorldStep.alone (a : Addr) (dns : List Lookup) (replies : List Reply) {e : Event}
    (hbev : e.bev = some 0)
    (h : Step P (.alone (some ctx) c [] [] []) e (.alone context c' hosts queries texts)) :
    WorldStep P (.alone a (some ctx) c dns replies) (.event e)
      (World.aloneAfter a context c' dns replies hosts texts) := by
  have hview : (World.alone a (some ctx) c dns replies).view a [] =
      .alone (some ctx) c [] [] [] := by
    simp [World.view, World.alone, Session.alone]
  have habsorb : (World.alone a (some ctx) c dns replies).absorb a 0
      (World.request 0 a (.alone context c' hosts queries texts))
      (.alone context c' hosts queries texts) =
        World.aloneAfter a context c' dns replies hosts texts := by
    simp [World.absorb, World.alone, World.aloneAfter, World.request, Session.alone]
  have horigin : (World.alone a (some ctx) c dns replies).origins[0]? = some ⟨a, .client 0⟩ := rfl
  rw [← habsorb]
  exact .event hbev horigin (hview ▸ h)

/-- Something happens to the socket of the client, and then to its bufferevent. -/
theorem run_alone (a : Addr) (dns : List Lookup) (replies : List Reply) {e : SocketEvent}
    {e' : Event} (hbev : e'.bev = some 0)
    (h : Run (Step P) (.alone (some ctx) c [] [] []) [.socket 0 e, e']
      (.alone context c' hosts queries texts)) :
    Run (WorldStep P) (.alone a (some ctx) c dns replies) [.event (.socket 0 e), .event e']
      (World.aloneAfter a context c' dns replies hosts texts) := by
  cases h with
  | cons hsocket h =>
      cases h with
      | cons hcb h =>
          cases h
          obtain ⟨b, hb, -, hr⟩ := Session.fire_socket hsocket
          cases hb
          cases hr
          have hmoved : Step P (.alone (some ctx) c [] [] []) (.socket 0 e)
              (.alone (some ctx) (c.socket e) [] [] []) := hsocket
          have hfirst := WorldStep.alone a dns replies rfl hmoved
          rw [World.aloneAfter, List.map_nil, List.append_nil, List.map_nil, List.append_nil]
            at hfirst
          exact .cons hfirst (.single (.alone a dns replies hbev hcb))

/-- The event callback of a client that has no partner, whoever else there is. -/
theorem step_leaves {rd : ReadCb} {what : What} (hctx : s.context = some ctx)
    (hself : ctx.self = some p) (hpartner : ctx.partner = none) (hb : s.bevs[p]? = some c)
    (hc : Served c rd (some .socks5Ctx)) (hw : c.nextEvent = some what) :
    Step P s (.eventCb p)
      { s with context := none, bevs := s.bevs.set p (c.takeEvent what).release } := by
  obtain ⟨htimeout, hend, -, -⟩ := hc.nextEvent hw
  have htaken : (s.setBev p (c.takeEvent what)).bevs[p]? = some (c.takeEvent what) :=
    List.getElem?_set_self (List.getElem?_eq_some_iff.1 hb).1
  have hreleased := releaseLocal_alone (s := s.setBev p (c.takeEvent what)) hctx hself hpartner
    htaken hc.live
  rw [Session.setBev, List.set_set] at hreleased
  refine .eventCb hb hw ?_
  rw [Session.callEvent, hc.callbacks]
  exact (localEventCb_terminal htimeout hend).trans hreleased

/-- A client that has no partner leaves. -/
theorem run_leaves {rd : ReadCb} {purpose : Purpose} (ho : w.contexts a = some o)
    (hself : o.context.self = some 0) (hpartner : o.context.partner = none)
    (horigin : w.origins[0]? = some ⟨a, purpose⟩) (hb : w.bevs[0]? = some c)
    (hc : Idle c rd (some .socks5Ctx)) :
    Run (WorldStep P) w (hangup.map .event) { w with
      contexts := Function.update w.contexts a none
      bevs := w.bevs.set 0 (hungUp c) } := by
  obtain ⟨hserved, hw⟩ := hc.eof
  let moved : World := { w with bevs := w.bevs.set 0 (c.socket .eof) }
  have hctx : (moved.view a []).context = some o.context := congrArg (Option.map _) ho
  have hmoved : (moved.view a []).bevs[0]? = some (c.socket .eof) :=
    List.getElem?_set_self (List.getElem?_eq_some_iff.1 hb).1
  have horigin' : moved.origins[0]? = some ⟨a, purpose⟩ := horigin
  have hleft := WorldStep.event rfl horigin'
    (step_leaves (P := P) hctx hself hpartner hmoved hserved hw)
  have hset : (moved.view a []).bevs.set 0 (hungUp c) = w.bevs.set 0 (hungUp c) := List.set_set ..
  rw [World.absorb_deleted] at hleft
  rw [← hset]
  exact .cons (step_socket hb horigin ⟨hc.live, hc.link, hc.readEnabled⟩) (.single hleft)

/-- The client leaves, and there is nobody else. -/
theorem run_hangup_world {rd : ReadCb} {port : ℕ} {ip : List UInt8}
    (h : Idle c rd (some .socks5Ctx)) :
    Run (WorldStep P) (.alone a (some ⟨some 0, none, port, ip⟩) c dns replies)
      (hangup.map .event) (.alone a none (hungUp c) dns replies) := by
  have hleft := run_leaves (P := P)
    (World.alone_contexts a ⟨some 0, none, port, ip⟩ c dns replies) rfl rfl rfl rfl h
  have hworld : { World.alone a (some ⟨some 0, none, port, ip⟩) c dns replies with
      contexts := Function.update
        (World.alone a (some ⟨some 0, none, port, ip⟩) c dns replies).contexts a none
      bevs := [hungUp c] } = World.alone a none (hungUp c) dns replies := by
    simp [World.alone]
  rw [← hworld]
  exact hleft

end Alone

/-- A client connects, and its context is allocated at address 0. -/
theorem step_accept_first (P : Key) : WorldStep P .start (.accept 0)
    (.alone 0 (some ⟨some 0, none, 0, []⟩) newClient [] []) := by
  have haccept : World.start.accepting 0 =
      .alone 0 (some ⟨some 0, none, 0, []⟩) newClient [] [] := rfl
  rw [WorldStep, World.fire, ← haccept, ← World.accept_eq]
  rfl

theorem newClient_idle : Idle newClient .localReadCb (some .socks5Ctx) :=
  ⟨⟨rfl, rfl, rfl, rfl, rfl, rfl, fun _ => rfl, fun _ => ⟨rfl, rfl⟩⟩, rfl, rfl⟩

/-- The events of a client that asks for a host name. -/
def requestEvents (P : Key) (host : List UInt8) (hi lo : UInt8) : List WorldEvent :=
  .accept 0 :: (delivery (P.encrypt greetingMessage) .later ++
    delivery (P.encrypt (domainRequest host hi lo)) .later).map .event

theorem requestEvents_notStale {host : List UInt8} {hi lo : UInt8} :
    ∀ e ∈ requestEvents P host hi lo, ∀ w, NotStale w e := by
  intro e he w
  simp only [requestEvents, delivery, List.cons_append, List.nil_append, List.map_cons,
    List.map_nil, List.mem_cons, List.not_mem_nil, or_false] at he
  rcases he with rfl | rfl | rfl | rfl | rfl
  all_goals trivial

/-- A client connects and greets. -/
theorem run_greeted_world (P : Key) : ∃ c,
    Run (WorldStep P) .start
      (.accept 0 :: (delivery (P.encrypt greetingMessage) .later).map .event)
      (.alone 0 (some ⟨some 0, none, 0, []⟩) c [] [⟨0, 0, methodReply.toList⟩]) ∧
    Idle c .handleSecond (some .socks5Ctx) := by
  have hgreeting : P.encrypt greetingMessage ≠ [] := encrypt_ne_nil P (by simp [greetingMessage])
  have hlen : (P.encrypt greetingMessage).length ≤ 32 := by simp [greetingMessage]
  obtain ⟨c, hr, hc, -⟩ :=
    delivery_greeting (P := P) 0 [] .later newClient_idle hgreeting hlen
  have hg : IsGreeting (P.decrypt (P.encrypt greetingMessage)) := by
    rw [Key.decrypt_encrypt]
    decide
  rw [if_pos hg] at hr hc
  exact ⟨c, .cons (step_accept_first P) (run_alone 0 [] [] rfl hr), hc⟩

/-- The lookup that leads to. -/
def requestedLookup (host : List UInt8) (hi lo : UInt8) : Lookup := ⟨0, 0, host, portOf hi lo⟩

theorem run_requestEvents (P : Key) (host : List UInt8) (hi lo : UInt8)
    (hhost : ShortName host) : ∃ c ip,
      Run (WorldStep P) .start (requestEvents P host hi lo)
        (.alone 0 (some ⟨some 0, none, portOf hi lo, ip⟩) c [requestedLookup host hi lo]
          [⟨0, 0, methodReply.toList⟩]) ∧
      Idle c .handleLast (some .socks5Ctx) := by
  obtain ⟨c, hr, hc⟩ := run_greeted_world P
  obtain ⟨c', ip, hr', hc'⟩ := run_domainRequest (P := P) host hi lo 0 [] hc hhost []
  refine ⟨c', ip, ?_, hc'⟩
  rw [requestEvents, List.map_append]
  exact hr.append (run_alone 0 _ _ rfl hr')

/-- An answer creates a remote for whoever has the context, and attaches it if the connect has
started. -/
theorem step_answered (lookup : Lookup) (hmem : lookup ∈ w.dns)
    (ho : w.contexts lookup.arg = some o) (addr : InAddr) (re : ℤ) :
    WorldStep P w (.answer lookup (.found ⟨.inet, addr⟩) re)
      ({ w with dns := w.dns.erase lookup }.absorb lookup.arg lookup.session lookup
        (attachRemote re addr o.context { w.view lookup.arg [] with addrinfos := 1 })) := by
  have hctx : (w.view lookup.arg [lookup.host]).context = some o.context := by
    rw [World.view, ho]
    rfl
  have hfire : (w.view lookup.arg [lookup.host]).fire P.table
      (.dnsDone lookup.host (.found ⟨.inet, addr⟩) re) = some (Server.resolve re
        (.found ⟨.inet, addr⟩) { w.view lookup.arg [lookup.host] with
          dns := [lookup.host].erase lookup.host }) := if_pos List.mem_cons_self
  refine .answer hmem ?_
  rw [Step, hfire, List.erase_cons_head, Server.resolve, dnsCb_found (by exact hctx)]
  rfl

/-- The world of a client whose lookup has been answered with `addr`, by a connect that has
returned `re`. -/
structure AnsweredWorld (addr : InAddr) (re : ℤ) (lookup : Lookup) (c : Bufferevent Callbacks)
    (w : World) : Prop where
  context : ∃ o, w.contexts 0 = some o ∧ o.session = 0 ∧ o.context.self = some 0 ∧
    o.context.partner = if re = 0 then some 1 else none
  bevs : w.bevs = [c, newRemote re]
  origins : w.origins =
    [⟨0, .client 0⟩, ⟨0, .remote lookup (addr, UInt16.ofNat lookup.port)⟩]
  dns : w.dns = []
  replies : w.replies = [⟨0, 0, methodReply.toList⟩]
  idle : Idle c .handleLast (some .socks5Ctx)

/-- A client asks for a host name, and is given an address. -/
theorem run_answered (P : Key) (host : List UInt8) (hi lo : UInt8) (hhost : ShortName host)
    (addr : InAddr) (re : ℤ) : ∃ c w,
      Run (WorldStep P) .start (requestEvents P host hi lo ++
        [.answer (requestedLookup host hi lo) (.found ⟨.inet, addr⟩) re]) w ∧
      AnsweredWorld addr re (requestedLookup host hi lo) c w := by
  obtain ⟨c, ip, hr, hc⟩ := run_requestEvents P host hi lo hhost
  have hcontext := World.alone_contexts 0 ⟨some 0, none, portOf hi lo, ip⟩ c
    [requestedLookup host hi lo] [⟨0, 0, methodReply.toList⟩]
  have hanswer := step_answered (P := P) (requestedLookup host hi lo) List.mem_cons_self hcontext
    addr re
  refine ⟨c, _, hr.snoc hanswer, ⟨_, World.absorb_contexts_self hcontext rfl, rfl, rfl, rfl⟩, rfl,
    rfl, ?_, ?_, hc⟩
  · simp [World.absorb, attachRemote, World.view, World.alone]
  · simp [World.absorb, attachRemote, World.view, World.alone]

/-- An address is given to a new client while the answer to a lookup that has it is still to
come: the answer is for that client. -/
theorem run_reused (lookup : Lookup) (hlen : w.origins.length = w.bevs.length)
    (hmem : lookup ∈ w.dns) (hfree : w.contexts lookup.arg = none) (addr : InAddr) :
    ∃ w' o target,
      Run (WorldStep P) w [.accept lookup.arg, .answer lookup (.found ⟨.inet, addr⟩) 0] w' ∧
      w'.contexts lookup.arg = some o ∧ o.session = w.accepted ∧
      o.context.partner = some (w.bevs.length + 1) ∧
      w'.origins[w.bevs.length + 1]? = some ⟨lookup.arg, .remote lookup target⟩ := by
  have haccept : WorldStep P w (.accept lookup.arg) (w.accepting lookup.arg) := step_accept hfree
  have hnew : (w.accepting lookup.arg).contexts lookup.arg =
      some ⟨w.accepted, ⟨some w.bevs.length, none, 0, []⟩⟩ := Function.update_self ..
  have hanswer := step_answered (P := P) (w := w.accepting lookup.arg) lookup hmem hnew addr 0
  have hgrown : (w.accepting lookup.arg).bevs.length = w.bevs.length + 1 := List.length_append
  refine ⟨_, _, (addr, 0), .cons haccept (.single hanswer),
    World.absorb_contexts_self hnew rfl, rfl, congrArg some hgrown, ?_⟩
  have hold : (w.accepting lookup.arg).origins.length = w.bevs.length + 1 := by
    simp [World.accepting, hlen]
  rw [← hold]
  exact List.getElem?_concat_length ..

/-- A client asks for a host name and leaves; another one connects and gets the address of
its context; the answer comes. -/
def reusedEvents (P : Key) (host : List UInt8) (hi lo : UInt8) (addr : InAddr) :
    List WorldEvent :=
  requestEvents P host hi lo ++ hangup.map .event ++
    [.accept 0, .answer (requestedLookup host hi lo) (.found ⟨.inet, addr⟩) 0]

/-! ## Over a whole run -/

theorem guarded_wired {es : List WorldEvent}
    (h : Run (Guarded NotStale (WorldStep P)) .start es w) : Consistent w ∧ Wired w :=
  h.invariant (I := fun w => Consistent w ∧ Wired w)
    (fun _ _ _ hw hs => ⟨hs.2.consistent hw.1, hs.2.wired hw.1 hw.2 hs.1⟩)
    ⟨Consistent.start, Wired.start⟩

/-- **When no two sessions are ever cross-wired.**  For any number of sessions in any
order of accepts, requests, disconnects and answers, exactly when no answer and no
CONNECTED event comes with an address that has been given to another session. -/
theorem wired_throughout {es : List WorldEvent} (h : Run (WorldStep P) .start es w) :
    Throughout (WorldStep P) .start es Wired ↔
      Run (Guarded NotStale (WorldStep P)) .start es w := by
  refine h.throughout_iff (worldStep_deterministic P) ?_ ?_
  · intro es' u hu
    exact (guarded_wired hu).2
  · intro es' u e v hu hn hs
    exact hs.not_wired (guarded_wired hu).1 hn

/-- A client that is connected to the host it has asked for. -/
theorem wired_throughout_lookup : ∃ w,
    Run (WorldStep Key.identity) .start (requestEvents Key.identity [0x61] 0x00 0x50 ++
      [.answer (requestedLookup [0x61] 0x00 0x50) (.found ⟨.inet, ⟨127, 0, 0, 1⟩⟩) 0]) w ∧
    Throughout (WorldStep Key.identity) .start (requestEvents Key.identity [0x61] 0x00 0x50 ++
      [.answer (requestedLookup [0x61] 0x00 0x50) (.found ⟨.inet, ⟨127, 0, 0, 1⟩⟩) 0]) Wired := by
  obtain ⟨c, ip, hr, -⟩ := run_requestEvents Key.identity [0x61] 0x00 0x50 .example
  have hcontext := World.alone_contexts 0 ⟨some 0, none, portOf 0x00 0x50, ip⟩ c
    [requestedLookup [0x61] 0x00 0x50] [⟨0, 0, methodReply.toList⟩]
  have hanswer := step_answered (P := Key.identity) (requestedLookup [0x61] 0x00 0x50)
    List.mem_cons_self hcontext ⟨127, 0, 0, 1⟩ 0
  have hown : NotStale (.alone 0 (some ⟨some 0, none, portOf 0x00 0x50, ip⟩) c
      [requestedLookup [0x61] 0x00 0x50] [⟨0, 0, methodReply.toList⟩])
      (.answer (requestedLookup [0x61] 0x00 0x50) (.found ⟨.inet, ⟨127, 0, 0, 1⟩⟩) 0) := by
    intro _ o ho
    obtain rfl := Option.some.inj ho
    rfl
  exact ⟨_, hr.snoc hanswer, (wired_throughout (hr.snoc hanswer)).2
    ((hr.guarded_of_forall requestEvents_notStale).snoc ⟨hown, hanswer⟩)⟩

/-- A client leaves while its lookup is outstanding, and the next one gets the address of its
context: it is connected to the host the first one has asked for. -/
theorem wired_throughout_reused : ∃ w o target,
    Run (WorldStep Key.identity) .start
      (reusedEvents Key.identity [0x61] 0x00 0x50 ⟨127, 0, 0, 1⟩) w ∧
    w.contexts 0 = some o ∧ o.session = 1 ∧ o.context.partner = some 2 ∧
    w.origins[2]? = some ⟨0, .remote ⟨0, 0, [0x61], 80⟩ target⟩ ∧ ¬ Wired w := by
  obtain ⟨c, ip, hr, hc⟩ := run_requestEvents Key.identity [0x61] 0x00 0x50 .example
  obtain ⟨w, o, target, hreused, ho, hsession, hpartner, horigin⟩ := run_reused
    (P := Key.identity) (requestedLookup [0x61] 0x00 0x50)
    (w := .alone 0 none (hungUp c) _ _) rfl List.mem_cons_self rfl ⟨127, 0, 0, 1⟩
  refine ⟨w, o, target, (hr.append (run_hangup_world hc)).append hreused, ho, hsession, hpartner,
    horigin, ?_⟩
  intro hwired
  obtain ⟨l, target', horigin', hl, -⟩ := hwired.partner 0 o 2 ho hpartner
  cases horigin.symm.trans horigin'
  rw [hsession] at hl
  cases hl

end LightSocks
