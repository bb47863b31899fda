import LightSocks.Flow
import LightSocks.Server.Simulation

/-!
# What the server's callbacks write to

The callbacks of a session write to the two bufferevents its context points at, and to no
other.  What has come in and what has gone out is not up to them.

* `Writable` — where the callbacks of a session may write.
* `evolves_callRead`, `evolves_callEvent`, `evolves_resolve` — callback by callback, on
  whatever heap.
* `Step.streams` — whatever happens next.
* `Step.reported` — who has been told what of its socket.
* `Uploads`, `reachable_uploads` — the remote host is sent what was taken from the client,
  from some point on without a gap.
-/

namespace LightSocks

open Memory Transition

variable {P : Key} {T : Table} {W : BevPtr → Prop} {s t : Session} {p : BevPtr}

/-- The pointers of the context are to bufferevents that may be written to. -/
def Writable (W : BevPtr → Prop) (s : Session) : Prop :=
  ∀ ctx p, s.context = some ctx → ctx.self = some p ∨ ctx.partner = some p → W p

/-- The callback does to the heap what `Evolves` allows. -/
abbrev Moderate (W : BevPtr → Prop) (s : Session) (r : Except Fault Session) : Prop :=
  Ensures (fun t => Evolves W s.bevs t.bevs) r

theorem Moderate.andThen {x : Except Fault Session} {f : Session → Except Fault Session}
    (hx : Moderate W s x) (hf : ∀ t, Moderate W t (f t)) : Moderate W s (x >>= f) :=
  hx.bind fun t ht => (hf t).mono fun _ hu => ht.trans hu

theorem Moderate.same (hbevs : t.bevs = s.bevs) : Moderate W s (.ok t) := by
  refine .ok ?_
  rw [hbevs]
  exact .refl W s.bevs

/-- An operation on the heap. -/
theorem Moderate.bevs {x : Except Fault (Heap Callbacks)} (hx : Ensures (Evolves W s.bevs) x)
    {f : Heap Callbacks → Session} (hf : ∀ bevs, (f bevs).bevs = bevs) :
    Moderate W s (x >>= fun bevs => .ok (f bevs)) := by
  refine hx.bind fun bevs hb => .ok ?_
  rw [hf]
  exact hb

theorem moderate_reply {n : ℕ} {bytes : Vector UInt8 n} (hp : W p) :
    Moderate W s (s.reply T p bytes) := by
  unfold Session.reply
  exact .bind_eq fun coded _ => Moderate.bevs (evolves_write hp coded.toList) fun _ => rfl

/-! ## The resolver -/

theorem moderate_dnsCb (re : ℤ) (result : DnsResult) (ctx : Option CtxPtr) :
    Moderate W s (Server.dnsCb re result ctx s) := by
  cases ctx with
  | none => exact .same rfl
  | some ctx =>
      cases result with
      | error errcode => exact .same rfl
      | found answer =>
          obtain ⟨family, addr⟩ := answer
          cases family with
          | unknown => exact .error _ _
          | inet =>
              refine .bind_eq fun context _ => ?_
              have hnew := evolves_socketNew W s.bevs ⟨none, none, none⟩ .down
              refine Ensures.bind (Q := Evolves W _) (evolves_setTimeouts 15) fun b₁ h₁ => ?_
              refine Ensures.bind (Q := Evolves W _) (evolves_setcb _) fun b₂ h₂ => ?_
              refine Ensures.bind (Q := Evolves W _) evolves_enable fun b₃ h₃ => ?_
              refine Ensures.bind (Q := Evolves W _) (evolves_socketConnect re) fun b₄ h₄ => ?_
              have hall := (((hnew.trans h₁).trans h₂).trans h₃).trans h₄
              exact .ite (fun _ => .ok hall) fun _ => .ok hall

theorem moderate_resolve (re : ℤ) (result : DnsResult) :
    Moderate W s (Server.resolve re result s) := by
  unfold Server.resolve
  cases result with
  | error errcode => exact moderate_dnsCb re _ _
  | found answer => exact moderate_dnsCb (s := { s with addrinfos := s.addrinfos + 1 }) re _ _

theorem moderate_evdnsGetaddrinfo (nodename : List UInt8) (choice : Choice) :
    Moderate W s (Server.evdnsGetaddrinfo nodename choice s) := by
  unfold Server.evdnsGetaddrinfo
  dsimp only
  cases choice.resolved with
  | none => exact .same rfl
  | some result =>
      exact moderate_resolve (s := { s with queries := s.queries ++ [nodename] }) choice.re result

/-! ## The handshake -/

theorem moderate_handleFirst (hw : Writable W s) : Moderate W s (Socks5.handleFirst T p s) := by
  unfold Socks5.handleFirst
  refine .bind_eq fun ctx hctx => .bind_eq fun self hself => ?_
  have hW := hw ctx self (getContext_ok hctx) (.inl (nonnull_ok hself))
  refine (evolves_read W s.bevs self 63).bind fun r hread => .bind_eq fun request _ => ?_
  refine .ite (fun _ => ?_) fun _ => .ok hread
  refine Ensures.bind (moderate_reply hW) fun t ht => ?_
  exact (evolves_setcb _).bind fun b hb => .ok ((hread.trans ht).trans hb)

theorem moderate_requestIpv4 (hp : W p) (choice : Choice) (ctx : Socks5ctx)
    (connect : Vector UInt8 64) (dataLen : ℕ) :
    Moderate W s (Socks5.requestIpv4 T p choice ctx connect dataLen s) := by
  unfold Socks5.requestIpv4
  refine .bind_eq fun ip2 _ => .bind_eq fun hi _ => .bind_eq fun lo _ => ?_
  refine Moderate.andThen (moderate_reply (s := { s with context := some _ }) hp) fun t => ?_
  exact .bevs (evolves_setcb _) fun _ => rfl

theorem moderate_requestDomain (choice : Choice) (ctx : Socks5ctx) (connect : Vector UInt8 64)
    (dataLen : ℕ) : Moderate W s (Socks5.requestDomain p choice ctx connect dataLen s) := by
  unfold Socks5.requestDomain
  refine .bind_eq fun size _ => .bind_eq fun hostname _ => .bind_eq fun hi _ => ?_
  refine .bind_eq fun lo _ => ?_
  refine Moderate.andThen
    (moderate_evdnsGetaddrinfo (s := { s with context := some _ }) _ choice) fun t => ?_
  exact .bevs (evolves_setcb _) fun _ => rfl

theorem moderate_handleSecond (hp : W p) (arg : Option CtxPtr) (choice : Choice) :
    Moderate W s (Socks5.handleSecond T p arg choice s) := by
  unfold Socks5.handleSecond
  refine .bind_eq fun _ _ => .bind_eq fun ctx _ => .bind_eq fun self _ => ?_
  refine (evolves_read W s.bevs self 63).bind fun r hread => ?_
  refine .ite (fun _ => .ok hread) fun _ => .bind_eq fun connect _ => ?_
  refine .ite (fun _ => .ok hread) fun _ => ?_
  refine .ite (fun _ => ?_) fun _ => .ite (fun _ => ?_) fun _ => ?_
  · exact (moderate_requestIpv4 (s := { s with bevs := r.2 }) hp choice ctx connect _).mono
      fun t ht => hread.trans ht
  · exact (moderate_requestDomain (s := { s with bevs := r.2 }) choice ctx connect _).mono
      fun t ht => hread.trans ht
  · exact .ok hread

theorem moderate_handleLast (hw : Writable W s) (arg : Option CtxPtr) :
    Moderate W s (Socks5.handleLast T arg s) := by
  unfold Socks5.handleLast
  refine .bind_eq fun _ _ => .bind_eq fun ctx hctx => ?_
  cases hpartner : ctx.partner with
  | none =>
      refine .bind_eq fun self _ => .bind_eq fun len _ => ?_
      exact Moderate.bevs (evolves_drainInput len) fun _ => rfl
  | some q =>
      have hW : ∀ q', some q = some q' → W q' := by
        rintro q' ⟨⟩
        exact hw ctx q (getContext_ok hctx) (.inr hpartner)
      exact Moderate.bevs (evolves_relay T.inverse ctx.self (some q) hW s.bevs) fun _ => rfl

/-! ## The two connections -/

theorem moderate_releaseLocal : Moderate W s (Server.releaseLocal s) := by
  unfold Server.releaseLocal
  refine .bind_eq fun ctx _ => ?_
  obtain ⟨self, partner, port, ip⟩ := ctx
  have hrest : ∀ b, Evolves W s.bevs b → Moderate W s (do
      let self ← nonnull self
      let bevs ← b.free self
      return { s with bevs }.deleteContext) := by
    intro b hb
    refine .bind_eq fun self _ => ?_
    exact evolves_free.bind fun c hc => .ok (hb.trans hc)
  cases partner with
  | none => exact hrest _ (.refl W _)
  | some q => exact evolves_free.bind hrest

theorem moderate_localEventCb (what : What) (ctx : Option CtxPtr) :
    Moderate W s (Server.localEventCb what ctx s) := by
  unfold Server.localEventCb
  cases ctx with
  | none => exact .same rfl
  | some ctx =>
      have hrest : ∀ (context : Option CtxPtr) (t : Session), Moderate W t
          (if what.eof ∨ what.error then do
              let _ ← nonnull context
              Server.releaseLocal t
            else return t) := by
        intro context t
        exact .ite (fun _ => .bind_eq fun _ _ => moderate_releaseLocal) fun _ => Moderate.same rfl
      refine .ite (fun _ => ?_) fun _ => hrest (some ctx) s
      exact Moderate.andThen moderate_releaseLocal fun t => hrest none t

theorem moderate_releaseRemote (remote : Option BevPtr) (ctx : Socks5ctx) :
    Moderate W s (Server.releaseRemote remote ctx s) := by
  unfold Server.releaseRemote
  obtain ⟨self, partner, port, ip⟩ := ctx
  have hrest : ∀ b, Evolves W s.bevs b → Moderate W s (do
      let remote ← nonnull remote
      let bevs ← b.free remote
      return { s with bevs }.deleteContext) := by
    intro b hb
    refine .bind_eq fun q _ => ?_
    exact evolves_free.bind fun c hc => .ok (hb.trans hc)
  cases self with
  | none => exact hrest _ (.refl W _)
  | some self => exact evolves_free.bind hrest

theorem moderate_remoteEventCb (hw : Writable W s) (what : What) (ctx : Option CtxPtr) :
    Moderate W s (Server.remoteEventCb T p what ctx s) := by
  unfold Server.remoteEventCb
  cases ctx with
  | none => exact .same rfl
  | some ctx =>
      refine .ite (fun _ => .bind_eq fun context hcontext => ?_) fun _ => ?_
      · cases hself : context.self with
        | none => exact Moderate.same rfl
        | some self => exact moderate_reply (hw context self (getContext_ok hcontext) (.inl hself))
      · refine .ite (fun _ => .bind_eq fun context _ => moderate_releaseRemote _ _) fun _ => ?_
        refine .ite (fun _ => .bind_eq fun context _ => moderate_releaseRemote _ _) fun _ => ?_
        exact Moderate.same rfl

theorem moderate_remoteReadCb (hw : Writable W s) (arg : Option CtxPtr) :
    Moderate W s (Server.remoteReadCb T arg s) := by
  unfold Server.remoteReadCb
  cases arg with
  | none => exact .same rfl
  | some arg =>
      refine .bind_eq fun ctx hctx => ?_
      obtain ⟨self, partner, port, ip⟩ := ctx
      have hW : ∀ q, self = some q → W q := fun q hq => hw _ q (getContext_ok hctx) (.inl hq)
      have hrest : ∀ b, Evolves W s.bevs b → Moderate W s (do
          let bevs ← Cipher.encrypt T self partner b
          return { s with bevs }) := by
        intro b hb
        exact (evolves_relay T partner self hW b).bind fun c hc => .ok (hb.trans hc)
      cases self with
      | none =>
          refine .bind_eq fun remote _ => .bind_eq fun len _ => ?_
          exact (evolves_drainInput len).bind hrest
      | some self => exact hrest _ (.refl W _)

/-! ## One event -/

theorem moderate_callRead {c : Callbacks} (hw : Writable W s)
    (hp : c.readcb = some .handleSecond → W p) (choice : Choice) :
    Moderate W s (Session.callRead T p c choice s) := by
  unfold Session.callRead
  cases hcb : c.readcb with
  | none => exact .same rfl
  | some cb =>
      cases cb with
      | localReadCb =>
          show Moderate W s (Server.localReadCb T p c.cbarg s)
          unfold Server.localReadCb
          cases c.cbarg with
          | none => exact .same rfl
          | some arg => exact moderate_handleFirst hw
      | handleSecond => exact moderate_handleSecond (hp hcb) c.cbarg choice
      | handleLast => exact moderate_handleLast hw c.cbarg
      | remoteReadCb => exact moderate_remoteReadCb hw c.cbarg

theorem moderate_callEvent {c : Callbacks} (hw : Writable W s) (what : What) :
    Moderate W s (Session.callEvent T p c what s) := by
  unfold Session.callEvent
  cases c.eventcb with
  | none => exact .same rfl
  | some cb =>
      cases cb with
      | localEventCb => exact moderate_localEventCb what c.cbarg
      | remoteEventCb => exact moderate_remoteEventCb hw what c.cbarg

/-- The bytes that arrive at the bufferevent `p`. -/
def Event.arriving (p : BevPtr) : Event → List UInt8
  | .socket q e => if q = p then e.arriving else []
  | _ => []

/-- The callback an event runs is taken off the schedule first. -/
inductive Takes (h : Heap Callbacks) : Event → Heap Callbacks → Prop where
  | read {p : BevPtr} {b : Bufferevent Callbacks} {choice : Choice} (bev : h[p]? = some b) :
      Takes h (.readCb p choice) (h.set p b.takeRead)
  | event {p : BevPtr} {b : Bufferevent Callbacks} {w : What} (bev : h[p]? = some b)
      (due : b.nextEvent = some w) : Takes h (.eventCb p) (h.set p (b.takeEvent w))
  | answer {nodename : List UInt8} {result : DnsResult} {re : ℤ} :
      Takes h (.dnsDone nodename result re) h

section Takes

variable {h h' : Heap Callbacks} {e : Event} {b : Bufferevent Callbacks}

/-- The event callback of `b` has been told the bits it runs with. -/
structure Told (e : Event) (p : BevPtr) (b b' : Bufferevent Callbacks) : Prop where
  told : ∀ w, e = .eventCb p → b.nextEvent = some w → b'.reported = b.reported.merge w
  others : e ≠ .eventCb p → b'.reported = b.reported

/-- Any other event tells nobody anything. -/
theorem Told.none {b' : Bufferevent Callbacks} (hne : e ≠ .eventCb p)
    (h : b'.reported = b.reported) : Told e p b b' :=
  ⟨fun _ he => absurd he hne, fun _ => h⟩

/-- What it is taken off changes nothing but the schedule. -/
theorem Takes.get (ht : Takes h e h') (hb : h[p]? = some b) : ∃ b', h'[p]? = some b' ∧
    b'.input = b.input ∧ b'.output = b.output ∧ b'.writeEnabled = b.writeEnabled ∧
    Told e p b b' := by
  have hset : ∀ {q : BevPtr} {c : Bufferevent Callbacks} (c' : Bufferevent Callbacks),
      h[q]? = some c → q ≠ p ∧
        (h.set q c')[p]? = some b ∨ q = p ∧ c = b ∧ (h.set q c')[p]? = some c' := by
    intro q c c' hc
    by_cases hqp : q = p
    · subst hqp
      exact .inr ⟨rfl, Option.some.inj (hc.symm.trans hb),
        List.getElem?_set_self (List.getElem?_eq_some_iff.1 hb).1⟩
    · exact .inl ⟨hqp, (List.getElem?_set_ne hqp).trans hb⟩
  cases ht with
  | @read q c choice hc =>
      rcases hset c.takeRead hc with ⟨-, hsame⟩ | ⟨rfl, rfl, hnew⟩
      · exact ⟨b, hsame, rfl, rfl, rfl, .none (by simp) rfl⟩
      · exact ⟨_, hnew, rfl, rfl, rfl, .none (by simp) rfl⟩
  | @event q c w hc hw =>
      rcases hset (c.takeEvent w) hc with ⟨hqp, hsame⟩ | ⟨rfl, rfl, hnew⟩
      · exact ⟨b, hsame, rfl, rfl, rfl, .none (by simpa using hqp) rfl⟩
      · refine ⟨_, hnew, rfl, rfl, rfl, ⟨?_, fun hne => absurd rfl hne⟩⟩
        intro w' _ hw'
        cases hw.symm.trans hw'
        rfl
  | answer => exact ⟨b, hb, rfl, rfl, rfl, .none (by simp) rfl⟩

theorem Takes.length (ht : Takes h e h') : h'.length = h.length := by
  cases ht with
  | read _ | event _ _ => exact List.length_set
  | answer => rfl

end Takes

/-- An event is one of a socket, or one of a callback. -/
theorem Step.evolves {e : Event} (h : Step P s e t) (hw : Writable W s)
    (hsecond : ∀ (p : BevPtr) (b : Bufferevent Callbacks), s.bevs[p]? = some b →
      b.callbacks.readcb = some .handleSecond → W p) :
    (∃ p b se, e = .socket p se ∧ s.bevs[p]? = some b ∧ t = s.setBev p (b.socket se)) ∨
      (∀ p, e.arriving p = []) ∧ ∃ bevs, Takes s.bevs e bevs ∧ Evolves W bevs t.bevs := by
  cases e with
  | socket p e =>
      obtain ⟨b, hb, -, hr⟩ := Session.fire_socket h
      exact .inl ⟨p, b, e, rfl, hb, Except.ok.inj hr⟩
  | readCb p choice =>
      obtain ⟨b, hb, -, hr⟩ := Session.fire_readCb h
      have hcall := moderate_callRead (s := s.setBev p b.takeRead) hw (hsecond p b hb) choice t
        hr.symm
      exact .inr ⟨fun _ => rfl, _, .read hb, hcall⟩
  | eventCb p =>
      obtain ⟨b, w, hb, hw', hr⟩ := Session.fire_eventCb h
      have hcall := moderate_callEvent (s := s.setBev p (b.takeEvent w)) hw w t hr.symm
      exact .inr ⟨fun _ => rfl, _, .event hb hw', hcall⟩
  | dnsDone nodename result re =>
      obtain ⟨-, hr⟩ := Session.fire_dnsDone h
      exact .inr ⟨fun _ => rfl, _, .answer,
        moderate_resolve (s := { s with dns := s.dns.erase nodename }) re result t hr.symm⟩

/-- **What any event does to the queues.** -/
theorem Step.streams {e : Event} (h : Step P s e t) (hw : Writable W s)
    (hsecond : ∀ (p : BevPtr) (b : Bufferevent Callbacks), s.bevs[p]? = some b →
      b.callbacks.readcb = some .handleSecond → W p) :
    Streams W (fun p => e.arriving p) s.bevs t.bevs := by
  rcases h.evolves hw hsecond with ⟨p, b, se, rfl, hb, rfl⟩ | ⟨hnone, bevs, htake, he⟩
  · exact .socket W hb se
  · simp only [hnone]
    refine ⟨?_, fun p b' hp => he.streams.new p b' (htake.length.trans_le hp)⟩
    intro p b hb
    obtain ⟨c, hc, hin, hout, -⟩ := htake.get hb
    obtain ⟨b', hb', hrest⟩ := he.streams.old p c hc
    rw [hin, hout] at hrest
    exact ⟨b', hb', hrest⟩

/-- Nothing but an error of its socket keeps a bufferevent from sending. -/
theorem Step.writeEnabled {e : Event} {b : Bufferevent Callbacks} (h : Step P s e t)
    (he : e ≠ .socket p .writeError) (hb : s.bevs[p]? = some b) (hwrite : b.writeEnabled = true) :
    ∃ b', t.bevs[p]? = some b' ∧ b'.writeEnabled = true := by
  rcases h.evolves (W := fun _ => True) (fun _ _ _ _ => trivial) fun _ _ _ _ => trivial with
    ⟨q, c, se, rfl, hc, rfl⟩ | ⟨-, bevs, htake, hevolves⟩
  · by_cases hqp : q = p
    · subst hqp
      obtain rfl := Option.some.inj (hb.symm.trans hc)
      refine ⟨_, List.getElem?_set_self (List.getElem?_eq_some_iff.1 hb).1, ?_⟩
      cases se with
      | writeError => exact absurd rfl he
      | _ => exact hwrite
    · exact ⟨b, (List.getElem?_set_ne hqp).trans hb, hwrite⟩
  · obtain ⟨c, hc, -, -, henabled, -⟩ := htake.get hb
    obtain ⟨b', hb', htouched⟩ := hevolves.old p c hc
    exact ⟨b', hb', htouched.enabled (henabled.trans hwrite)⟩

/-- **Who has been told what.**  An event callback is told the bits it runs with, and nobody
is told anything else. -/
theorem Step.reported {e : Event} {b : Bufferevent Callbacks} (h : Step P s e t)
    (hb : s.bevs[p]? = some b) : ∃ b', t.bevs[p]? = some b' ∧ Told e p b b' := by
  rcases h.evolves (W := fun _ => True) (fun _ _ _ _ => trivial) fun _ _ _ _ => trivial with
    ⟨q, c, se, rfl, hc, rfl⟩ | ⟨-, bevs, htake, hevolves⟩
  · by_cases hqp : q = p
    · subst hqp
      obtain rfl := Option.some.inj (hb.symm.trans hc)
      refine ⟨_, List.getElem?_set_self (List.getElem?_eq_some_iff.1 hb).1, .none (by simp) ?_⟩
      cases se <;> rfl
    · exact ⟨b, (List.getElem?_set_ne hqp).trans hb, .none (by simp) rfl⟩
  · obtain ⟨c, hc, -, -, -, htold⟩ := htake.get hb
    obtain ⟨b', hb', htouched⟩ := hevolves.old p c hc
    exact ⟨b', hb', fun w he hw => htouched.reported.trans (htold.told w he hw),
      fun hne => htouched.reported.trans (htold.others hne)⟩

/-- Of a new bufferevent nobody has been told anything. -/
theorem Step.reported_new {e : Event} {b' : Bufferevent Callbacks} (h : Step P s e t)
    (hp : s.bevs.length ≤ p) (hb' : t.bevs[p]? = some b') : b'.reported = {} := by
  rcases h.evolves (W := fun _ => True) (fun _ _ _ _ => trivial) fun _ _ _ _ => trivial with
    ⟨q, c, se, rfl, hc, rfl⟩ | ⟨-, bevs, htake, hevolves⟩
  · have hlt := (List.getElem?_eq_some_iff.1 hb').1
    rw [Session.setBev, List.length_set] at hlt
    exact absurd hlt (not_lt.2 hp)
  · exact (hevolves.idle p b' (htake.length.trans_le hp) hb').2

/-! ## What the remote host is sent -/

/-- What the remote host has been sent: nothing before the relay, then what was taken from the
client, without a gap. -/
def Uploads (P : Key) (m : Mode) (s : Session) : Prop :=
  match m with
  | .relay _ | .closed _ => s.forwarded <:+ P.decrypt s.consumed
  | _ => s.forwarded = []

/-- A relay only adds to it what it takes from the client. -/
theorem Relayed.suffix (h : Relayed P s t) (hs : s.forwarded <:+ P.decrypt s.consumed) :
    t.forwarded <:+ P.decrypt t.consumed := by
  obtain ⟨bytes, hconsumed, hforwarded⟩ := h
  obtain ⟨pre, hpre⟩ := hs
  exact ⟨pre, by rw [hforwarded, hconsumed, Key.decrypt_append, ← hpre, List.append_assoc]⟩

theorem EndedBy.queues {e : Event} (h : EndedBy e s t) :
    t.forwarded = s.forwarded ∧ t.consumed = s.consumed := by
  obtain ⟨p, b, w, -, -, -, rfl⟩ := h
  constructor
  · cases h1 : s.bevs[1]? with
    | none => simp [Session.forwarded, Session.ended, List.getElem?_modify, h1]
    | some r =>
        by_cases hp : p = 1 <;>
          simp [Session.forwarded, Session.ended, h1, hp,
            Bufferevent.takeEvent, Bufferevent.release]
  · cases h0 : s.bevs[0]? with
    | none => simp [Session.consumed, Session.ended, List.getElem?_modify, h0]
    | some c =>
        by_cases hp : p = 0 <;>
          simp [Session.consumed, Session.ended, h0, hp,
            Bufferevent.takeEvent, Bufferevent.release]

/-- Callbacks that write to the client only do not write to a remote host. -/
theorem Streams.forwarded {arriving : BevPtr → List UInt8}
    (h : Streams (· = 0) arriving s.bevs t.bevs) (hs : s.forwarded = []) : t.forwarded = [] := by
  rw [Session.forwarded] at hs ⊢
  cases h1 : s.bevs[1]? with
  | some r =>
      obtain ⟨r', hr', -, -, -, houtput⟩ := h.old 1 r h1
      rw [h1] at hs
      rw [hr']
      exact (houtput one_ne_zero).trans hs
  | none =>
      cases h1' : t.bevs[1]? with
      | none => rfl
      | some r' => exact (h.new 1 r' (List.getElem?_eq_none_iff.1 h1) h1').2.2 one_ne_zero

/-- Without a partner the callbacks write to the client only. -/
theorem Shape.streams {m : Mode} {e : Event} (h : Shape P m s)
    (hm : ∀ target, m ≠ .relay target) (hstep : Step P s e t) :
    Streams (· = 0) (fun p => e.arriving p) s.bevs t.bevs := by
  have hwritable : Writable (· = 0) s := by
    intro ctx p hctx hp
    cases h with
    | relay => exact absurd rfl (hm _)
    | orphaned | abandoned | closedAlone | closedPaired => cases hctx
    | _ =>
        cases hctx
        rcases hp with hp | hp <;> cases hp
        rfl
  refine hstep.streams hwritable fun p b hb hcb => ?_
  cases h with
  | relay => exact absurd rfl (hm _)
  | stranded hc hr | abandoned hc hr =>
      rcases getElem?_two hb with ⟨rfl, -⟩ | ⟨-, rfl⟩
      · rfl
      · rw [hr.callbacks] at hcb
        cases hcb
  | closedPaired hc hr => exact absurd hstep (by rw [Step, paired_closed hc hr]; simp)
  | _ => exact (getElem?_one hb).1

theorem Step.uploads {m : Mode} {e : Event} (hstep : Step P s e t) (h : Shape P m s)
    (hu : Uploads P m s) : ∃ m', Shape P m' t ∧ Uploads P m' t := by
  by_cases hrelay : ∃ target, m = .relay target
  · obtain ⟨target, rfl⟩ := hrelay
    rcases fire_relay h hstep with ⟨t', heq, -, ht, hrelayed⟩ | ⟨t', heq, -, ht, hended⟩
    · obtain rfl := Except.ok.inj heq
      exact ⟨_, ht, hrelayed.suffix hu⟩
    · obtain rfl := Except.ok.inj heq
      obtain ⟨hforwarded, hconsumed⟩ := hended.queues
      refine ⟨_, ht, ?_⟩
      rw [Uploads, hforwarded, hconsumed]
      exact hu
  · have hne : ∀ target, m ≠ .relay target := fun target hm => hrelay ⟨target, hm⟩
    have hclosed : ∀ target, m ≠ .closed target := by
      rintro target rfl
      have hnone := fire_closed h e
      rw [hstep] at hnone
      cases hnone
    have hnil : s.forwarded = [] := by
      cases m with
      | relay target => exact absurd rfl (hne target)
      | closed target => exact absurd rfl (hclosed target)
      | _ => exact hu
    have ht := (h.streams hne hstep).forwarded hnil
    obtain ⟨m', -, hshape⟩ := hstep.move h
    refine ⟨m', hshape, ?_⟩
    cases m' with
    | relay target | closed target =>
        rw [Uploads, ht]
        exact List.nil_suffix
    | _ => exact ht

/-- **In every state that can be reached** the remote host has been sent an unbroken part of
what was taken from the client. -/
theorem reachable_uploads (h : Reachable P s) :
    ∃ m, Shape P m s ∧ Uploads P m s ∧ s.forwarded <:+ P.decrypt s.consumed := by
  obtain ⟨es, hr⟩ := h
  obtain ⟨m, hshape, hu⟩ : ∃ m, Shape P m s ∧ Uploads P m s := by
    refine hr.invariant (I := fun s => ∃ m, Shape P m s ∧ Uploads P m s) ?_
      ⟨.greeting, accepted_shape, rfl⟩
    rintro s e t ⟨m, hs, hu⟩ hstep
    exact hstep.uploads hs hu
  refine ⟨m, hshape, hu, ?_⟩
  cases m with
  | relay target | closed target => exact hu
  | _ =>
      have hnil : s.forwarded = [] := hu
      rw [hnil]
      exact List.nil_suffix

end LightSocks
