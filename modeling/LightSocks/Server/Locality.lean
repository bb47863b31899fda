import LightSocks.HeapWindow
import LightSocks.Server.Footprint

/-!
# The callbacks of a session do not look elsewhere

The bufferevents of a session lie on a heap that other sessions use, at addresses the
session has no influence on.  None of its callbacks can tell: run on the heap of the
session alone and run on the whole, they keep step.

* `Socks5ctx.rename` — a context with the addresses it has on the whole heap.
* `Mirrors` — a session on its own, and the same session as part of a larger heap.
* `Mirrors.callRead`, `Mirrors.callEvent`, `Mirrors.resolve` — callback by callback.
* `Mirrors.fire` — whatever happens next.
-/

namespace LightSocks

open Memory

/-- The same context, with other addresses. -/
def Socks5ctx.rename (ρ : ℕ → ℕ) (c : Socks5ctx) : Socks5ctx :=
  { c with self := c.self.map ρ, partner := c.partner.map ρ }

/-- The same event, with other addresses. -/
def Event.rename (ρ : ℕ → ℕ) : Event → Event
  | .socket p e => .socket (ρ p) e
  | .readCb p choice => .readCb (ρ p) choice
  | .eventCb p => .eventCb (ρ p)
  | .dnsDone nodename result re => .dnsDone nodename result re

/-- `s` is a session on its own and `t` the same session on a larger heap, at the addresses
`ρ 0, ρ 1, …`.  The logs of `s` are those of `t` behind those of `log`, and outside of the
session the heap of `t` is `g₀`. -/
structure Mirrors (log : Session) (ρ : ℕ → ℕ) (g₀ : Heap Callbacks) (s t : Session) : Prop where
  bevs : HeapWindow ρ id g₀ s.bevs t.bevs
  context : t.context = s.context.map (Socks5ctx.rename ρ)
  dns : s.dns = log.dns ++ t.dns
  addrinfos : s.addrinfos = log.addrinfos + t.addrinfos
  queries : s.queries = log.queries ++ t.queries
  connects : s.connects = log.connects ++ t.connects
  replies : s.replies = log.replies ++ t.replies

namespace Mirrors

variable {log s t : Session} {ρ : ℕ → ℕ} {g₀ : Heap Callbacks} {table : Table} {p : BevPtr}

/-- The heaps have changed. -/
theorem setBevs (h : Mirrors log ρ g₀ s t) {b c : Heap Callbacks}
    (hw : HeapWindow ρ id g₀ b c) : Mirrors log ρ g₀ { s with bevs := b } { t with bevs := c } :=
  { h with bevs := hw }

/-- The contexts have changed. -/
theorem setContext (h : Mirrors log ρ g₀ s t) (c : Socks5ctx) :
    Mirrors log ρ g₀ { s with context := some c } { t with context := some (c.rename ρ) } :=
  { h with context := rfl }

theorem deleteContext (h : Mirrors log ρ g₀ s t) :
    Mirrors log ρ g₀ s.deleteContext t.deleteContext :=
  { h with context := rfl }

theorem getContext (h : Mirrors log ρ g₀ s t) :
    Related (fun c d => d = c.rename ρ) s.getContext t.getContext := by
  unfold Session.getContext
  rw [h.context]
  cases s.context with
  | none => exact .error _
  | some c => exact .ok rfl

/-- What does not depend on the session is the same on both sides. -/
theorem same {α : Type} (x : Except Fault α) : Related Eq x x := Related.refl (fun _ => rfl) x

theorem reply (h : Mirrors log ρ g₀ s t) (p : BevPtr) {n : ℕ} (bytes : Vector UInt8 n) :
    Related (Mirrors log ρ g₀) (s.reply table p bytes) (t.reply table (ρ p) bytes) := by
  unfold Session.reply
  refine (same _).bind ?_
  rintro coded _ rfl
  refine (h.bevs.write p coded.toList).bind ?_
  intro b c hw
  refine .ok { h with bevs := hw, replies := ?_ }
  rw [h.replies, List.append_assoc]

/-! ## The resolver -/

theorem dnsCb (h : Mirrors log ρ g₀ s t) (re : ℤ) (result : DnsResult) (ctx : Option CtxPtr) :
    Related (Mirrors log ρ g₀) (Server.dnsCb re result ctx s) (Server.dnsCb re result ctx t) := by
  cases ctx with
  | none => exact .ok h
  | some ctx =>
      cases result with
      | error errcode => exact .ok h
      | found answer =>
          obtain ⟨family, addr⟩ := answer
          cases family with
          | unknown => exact .error _
          | inet =>
              change Related _ (s.getContext >>= _) (t.getContext >>= _)
              refine h.getContext.bind ?_
              rintro c _ rfl
              obtain ⟨hnew, hw⟩ := h.bevs.socketNew ⟨none, none, none⟩ .down
              dsimp only [id_eq] at hnew hw ⊢
              rw [hnew]
              refine (hw.setTimeouts _ 15).bind fun b c hw => ?_
              refine (hw.setcb _ _).bind fun b c hw => ?_
              refine (hw.enable _).bind fun b c hw => ?_
              refine (hw.socketConnect _ re).bind fun b c hw => ?_
              have hconnects : ∀ target, s.connects ++ [target] =
                  log.connects ++ (t.connects ++ [target]) := by
                intro target
                rw [h.connects, List.append_assoc]
              by_cases hre : re = 0
              · rw [if_pos hre, if_pos hre]
                exact .ok { h with bevs := hw, context := rfl, connects := hconnects _ }
              · rw [if_neg hre, if_neg hre]
                exact .ok { h with bevs := hw, context := rfl, connects := hconnects _ }

theorem resolve (h : Mirrors log ρ g₀ s t) (re : ℤ) (result : DnsResult) :
    Related (Mirrors log ρ g₀) (Server.resolve re result s) (Server.resolve re result t) := by
  unfold Server.resolve
  cases result with
  | error errcode => exact h.dnsCb re _ _
  | found answer =>
      have hanswer : Mirrors log ρ g₀ { s with addrinfos := s.addrinfos + 1 }
          { t with addrinfos := t.addrinfos + 1 } := by
        refine { h with addrinfos := ?_ }
        rw [h.addrinfos, Nat.add_assoc]
      exact hanswer.dnsCb re _ _

theorem evdnsGetaddrinfo (h : Mirrors log ρ g₀ s t) (nodename : List UInt8) (choice : Choice) :
    Related (Mirrors log ρ g₀) (Server.evdnsGetaddrinfo nodename choice s)
      (Server.evdnsGetaddrinfo nodename choice t) := by
  unfold Server.evdnsGetaddrinfo
  have hq : Mirrors log ρ g₀ { s with queries := s.queries ++ [nodename] }
      { t with queries := t.queries ++ [nodename] } := by
    refine { h with queries := ?_ }
    rw [h.queries, List.append_assoc]
  dsimp only
  cases choice.resolved with
  | some result => exact hq.resolve _ _
  | none =>
      refine .ok { hq with dns := ?_ }
      rw [h.dns, List.append_assoc]

/-! ## The handshake -/

theorem setcb (h : Mirrors log ρ g₀ s t) (p : BevPtr) (c : Callbacks) :
    Related (Mirrors log ρ g₀)
      (do let bevs ← s.bevs.setcb p c
          return { s with bevs })
      (do let bevs ← t.bevs.setcb (ρ p) c
          return { t with bevs }) := by
  refine (h.bevs.setcb p c).bind ?_
  intro b c hw
  exact .ok (h.setBevs hw)

theorem handleFirst (h : Mirrors log ρ g₀ s t) (p : BevPtr) :
    Related (Mirrors log ρ g₀) (Socks5.handleFirst table p s)
      (Socks5.handleFirst table (ρ p) t) := by
  unfold Socks5.handleFirst
  refine h.getContext.bind ?_
  rintro c _ rfl
  refine (HeapWindow.nonnull ρ c.self).bind ?_
  rintro self _ rfl
  refine (h.bevs.read self 63).bind ?_
  rintro ⟨data, b⟩ ⟨_, b'⟩ ⟨rfl, hw⟩
  refine (same _).bind ?_
  rintro request _ rfl
  refine .ite Iff.rfl ?_ (.ok (h.setBevs hw))
  refine ((h.setBevs hw).reply self methodReply).bind ?_
  intro s t h
  exact h.setcb p _

theorem requestIpv4 (h : Mirrors log ρ g₀ s t) (p : BevPtr) (choice : Choice) (c : Socks5ctx)
    (connect : Vector UInt8 64) (dataLen : ℕ) :
    Related (Mirrors log ρ g₀) (Socks5.requestIpv4 table p choice c connect dataLen s)
      (Socks5.requestIpv4 table (ρ p) choice (c.rename ρ) connect dataLen t) := by
  unfold Socks5.requestIpv4
  refine (same _).bind ?_
  rintro ip2 _ rfl
  refine (same _).bind ?_
  rintro hi _ rfl
  refine (same _).bind ?_
  rintro lo _ rfl
  refine ((h.setContext _).reply p connectReply).bind ?_
  intro s t h
  exact h.setcb p _

theorem requestDomain (h : Mirrors log ρ g₀ s t) (p : BevPtr) (choice : Choice) (c : Socks5ctx)
    (connect : Vector UInt8 64) (dataLen : ℕ) :
    Related (Mirrors log ρ g₀) (Socks5.requestDomain p choice c connect dataLen s)
      (Socks5.requestDomain (ρ p) choice (c.rename ρ) connect dataLen t) := by
  unfold Socks5.requestDomain
  refine (same _).bind ?_
  rintro size _ rfl
  refine (same _).bind ?_
  rintro hostname _ rfl
  refine (same _).bind ?_
  rintro hi _ rfl
  refine (same _).bind ?_
  rintro lo _ rfl
  refine ((h.setContext _).evdnsGetaddrinfo _ choice).bind ?_
  intro s t h
  exact h.setcb p _

theorem handleSecond (h : Mirrors log ρ g₀ s t) (p : BevPtr) (arg : Option CtxPtr)
    (choice : Choice) :
    Related (Mirrors log ρ g₀) (Socks5.handleSecond table p arg choice s)
      (Socks5.handleSecond table (ρ p) arg choice t) := by
  unfold Socks5.handleSecond
  refine (same _).bind ?_
  rintro _ _ -
  refine h.getContext.bind ?_
  rintro c _ rfl
  refine (HeapWindow.nonnull ρ c.self).bind ?_
  rintro self _ rfl
  refine (h.bevs.read self 63).bind ?_
  rintro ⟨data, b⟩ ⟨_, b'⟩ ⟨rfl, hw⟩
  have hread := h.setBevs hw
  refine .ite Iff.rfl (.ok hread) ?_
  refine (same _).bind ?_
  rintro connect _ rfl
  refine .ite Iff.rfl (.ok hread) ?_
  refine .ite Iff.rfl (hread.requestIpv4 p choice c connect _) ?_
  exact .ite Iff.rfl (hread.requestDomain p choice c connect _) (.ok hread)

theorem handleLast (h : Mirrors log ρ g₀ s t) (arg : Option CtxPtr) :
    Related (Mirrors log ρ g₀) (Socks5.handleLast table arg s)
      (Socks5.handleLast table arg t) := by
  unfold Socks5.handleLast
  refine (same _).bind ?_
  rintro _ _ -
  refine h.getContext.bind ?_
  rintro ⟨self, partner, port, ip⟩ _ rfl
  cases partner with
  | none =>
      refine (HeapWindow.nonnull ρ self).bind ?_
      rintro self _ rfl
      refine (h.bevs.inputLength self).bind ?_
      rintro len _ rfl
      refine (h.bevs.drainInput self len).bind ?_
      intro b c hw
      exact .ok (h.setBevs hw)
  | some q =>
      refine (h.bevs.relay table.inverse self (some q)).bind ?_
      intro b c hw
      exact .ok (h.setBevs hw)

/-! ## The two connections -/

theorem localReadCb (h : Mirrors log ρ g₀ s t) (p : BevPtr) (arg : Option CtxPtr) :
    Related (Mirrors log ρ g₀) (Server.localReadCb table p arg s)
      (Server.localReadCb table (ρ p) arg t) := by
  cases arg with
  | none => exact .ok h
  | some _ => exact h.handleFirst p

theorem releaseLocal (h : Mirrors log ρ g₀ s t) :
    Related (Mirrors log ρ g₀) (Server.releaseLocal s) (Server.releaseLocal t) := by
  unfold Server.releaseLocal
  refine h.getContext.bind ?_
  rintro ⟨self, partner, port, ip⟩ _ rfl
  have hrest : ∀ b b', HeapWindow ρ id g₀ b b' → Related (Mirrors log ρ g₀)
      (do let self ← nonnull self
          let bevs ← b.free self
          return { s with bevs }.deleteContext)
      (do let self ← nonnull (self.map ρ)
          let bevs ← b'.free self
          return { t with bevs }.deleteContext) := by
    intro b b' hw
    refine (HeapWindow.nonnull ρ self).bind ?_
    rintro self _ rfl
    refine (hw.free self).bind ?_
    intro b b' hw
    exact .ok (h.setBevs hw).deleteContext
  cases partner with
  | none => exact hrest _ _ h.bevs
  | some q => exact (h.bevs.free q).bind hrest

theorem localEventCb (h : Mirrors log ρ g₀ s t) (what : What) (ctx : Option CtxPtr) :
    Related (Mirrors log ρ g₀) (Server.localEventCb what ctx s)
      (Server.localEventCb what ctx t) := by
  unfold Server.localEventCb
  cases ctx with
  | none => exact .ok h
  | some ctx =>
      have hrest : ∀ (context : Option CtxPtr) (s t : Session), Mirrors log ρ g₀ s t →
          Related (Mirrors log ρ g₀)
          (if what.eof ∨ what.error then do
              let _ ← nonnull context
              Server.releaseLocal s
            else return s)
          (if what.eof ∨ what.error then do
              let _ ← nonnull context
              Server.releaseLocal t
            else return t) := by
        intro context s t h
        refine .ite Iff.rfl ?_ (.ok h)
        refine (same (nonnull context)).bind ?_
        rintro _ _ -
        exact h.releaseLocal
      exact .ite Iff.rfl (h.releaseLocal.bind (hrest none)) (hrest (some ctx) s t h)

theorem releaseRemote (h : Mirrors log ρ g₀ s t) (remote : Option BevPtr) (c : Socks5ctx) :
    Related (Mirrors log ρ g₀) (Server.releaseRemote remote c s)
      (Server.releaseRemote (remote.map ρ) (c.rename ρ) t) := by
  unfold Server.releaseRemote
  have hrest : ∀ b b', HeapWindow ρ id g₀ b b' → Related (Mirrors log ρ g₀)
      (do let remote ← nonnull remote
          let bevs ← b.free remote
          return { s with bevs }.deleteContext)
      (do let remote ← nonnull (remote.map ρ)
          let bevs ← b'.free remote
          return { t with bevs }.deleteContext) := by
    intro b b' hw
    refine (HeapWindow.nonnull ρ remote).bind ?_
    rintro q _ rfl
    refine (hw.free q).bind ?_
    intro b b' hw
    exact .ok (h.setBevs hw).deleteContext
  obtain ⟨self, partner, port, ip⟩ := c
  cases self with
  | none => exact hrest _ _ h.bevs
  | some self => exact (h.bevs.free self).bind hrest

theorem remoteEventCb (h : Mirrors log ρ g₀ s t) (p : BevPtr) (what : What)
    (ctx : Option CtxPtr) :
    Related (Mirrors log ρ g₀) (Server.remoteEventCb table p what ctx s)
      (Server.remoteEventCb table (ρ p) what ctx t) := by
  unfold Server.remoteEventCb
  cases ctx with
  | none => exact .ok h
  | some ctx =>
      refine .ite Iff.rfl ?_ (.ite Iff.rfl ?_ (.ite Iff.rfl ?_ (.ok h)))
      · refine h.getContext.bind ?_
        rintro ⟨self, partner, port, ip⟩ _ rfl
        cases self with
        | none => exact .ok h
        | some self => exact h.reply self connectReply
      · refine h.getContext.bind ?_
        rintro c _ rfl
        exact h.releaseRemote c.partner c
      · refine h.getContext.bind ?_
        rintro c _ rfl
        exact h.releaseRemote (some p) c

theorem remoteReadCb (h : Mirrors log ρ g₀ s t) (arg : Option CtxPtr) :
    Related (Mirrors log ρ g₀) (Server.remoteReadCb table arg s)
      (Server.remoteReadCb table arg t) := by
  unfold Server.remoteReadCb
  cases arg with
  | none => exact .ok h
  | some _ =>
      refine h.getContext.bind ?_
      rintro ⟨self, partner, port, ip⟩ _ rfl
      have hrest : ∀ b b', HeapWindow ρ id g₀ b b' → Related (Mirrors log ρ g₀)
          (do let bevs ← Cipher.encrypt table self partner b
              return { s with bevs })
          (do let bevs ← Cipher.encrypt table (self.map ρ) (partner.map ρ) b'
              return { t with bevs }) := by
        intro b b' hw
        refine (hw.relay table partner self).bind ?_
        intro b b' hw
        exact .ok (h.setBevs hw)
      cases self with
      | some self => exact hrest _ _ h.bevs
      | none =>
          refine (HeapWindow.nonnull ρ partner).bind ?_
          rintro q _ rfl
          refine (h.bevs.inputLength q).bind ?_
          rintro len _ rfl
          exact (h.bevs.drainInput q len).bind hrest

/-! ## Whatever happens next -/

theorem callRead (h : Mirrors log ρ g₀ s t) (p : BevPtr) (c : Callbacks) (choice : Choice) :
    Related (Mirrors log ρ g₀) (Session.callRead table p c choice s)
      (Session.callRead table (ρ p) c choice t) := by
  unfold Session.callRead
  cases c.readcb with
  | none => exact .ok h
  | some cb =>
      cases cb with
      | localReadCb => exact h.localReadCb p c.cbarg
      | handleSecond => exact h.handleSecond p c.cbarg choice
      | handleLast => exact h.handleLast c.cbarg
      | remoteReadCb => exact h.remoteReadCb c.cbarg

theorem callEvent (h : Mirrors log ρ g₀ s t) (p : BevPtr) (c : Callbacks) (what : What) :
    Related (Mirrors log ρ g₀) (Session.callEvent table p c what s)
      (Session.callEvent table (ρ p) c what t) := by
  unfold Session.callEvent
  cases c.eventcb with
  | none => exact .ok h
  | some cb =>
      cases cb with
      | localEventCb => exact h.localEventCb what c.cbarg
      | remoteEventCb => exact h.remoteEventCb p what c.cbarg

theorem setBev (h : Mirrors log ρ g₀ s t) (p : BevPtr) (b : Bufferevent Callbacks) :
    Mirrors log ρ g₀ (s.setBev p b) (t.setBev (ρ p) b) :=
  h.setBevs (h.bevs.set p b)

/-- **An event on a bufferevent** is possible on both sides or on none, and then does the
same. -/
theorem fire (h : Mirrors log ρ g₀ s t) (table : Table) {e : Event} (hbev : e.bev = some p) :
    Option.Rel (Related (Mirrors log ρ g₀)) (s.fire table e) (t.fire table (e.rename ρ)) := by
  have hcell : t.bevs[ρ p]? = s.bevs[p]? := by
    rw [h.bevs.inside]
    exact Option.map_id_apply
  cases e with
  | dnsDone nodename result re => cases hbev
  | socket q e =>
      obtain rfl := Option.some.inj hbev
      simp only [Session.fire, Event.rename, hcell]
      cases s.bevs[q]? with
      | none => exact .none
      | some b =>
          dsimp only
          by_cases he : b.Admits e
          · rw [if_pos he, if_pos he]
            exact .some (.ok (h.setBev q _))
          · rw [if_neg he, if_neg he]
            exact .none
  | readCb q choice =>
      obtain rfl := Option.some.inj hbev
      simp only [Session.fire, Event.rename, hcell]
      cases s.bevs[q]? with
      | none => exact .none
      | some b =>
          dsimp only
          by_cases hdue : b.readDue = true
          · rw [if_pos hdue, if_pos hdue]
            exact .some ((h.setBev q _).callRead q _ choice)
          · rw [if_neg hdue, if_neg hdue]
            exact .none
  | eventCb q =>
      obtain rfl := Option.some.inj hbev
      simp only [Session.fire, Event.rename, hcell]
      cases s.bevs[q]? with
      | none => exact .none
      | some b =>
          dsimp only
          cases b.nextEvent with
          | none => exact .none
          | some w => exact .some ((h.setBev q _).callEvent q _ w)

end Mirrors

end LightSocks
