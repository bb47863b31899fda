import LightSocks.Server.Delivery

/-!
# How the handshake depends on segmentation

TCP is free to cut the stream of the client anywhere.  A read callback of the
handshake takes whatever has arrived for one complete message.

* `Delivered` — the deliveries one after another, with a record of the read
  callback that took each.
* `Delivered.phase` — a read callback takes deliveries until it accepts one.
* `Handshakes` — the session has understood the greeting and the request, and
  every byte of the two was taken by the callback it was meant for.
* `handshakes_iff` — that happens for exactly one way of cutting the stream.
-/

namespace LightSocks

open Transition

variable {P : Key}

/-! ## Deliveries one after another -/

/-- The bytes of each delivery, and what happens outside of the program while
its read callback runs. -/
abbrev Cut := List (List UInt8 × Choice)

/-- The stream that was cut. -/
def Cut.stream (ds : Cut) : List UInt8 := (ds.map Prod.fst).flatten

@[simp] theorem Cut.stream_nil : Cut.stream [] = [] := rfl

@[simp] theorem Cut.stream_cons (d : List UInt8 × Choice) (ds : Cut) :
    Cut.stream (d :: ds) = d.1 ++ Cut.stream ds := rfl

@[simp] theorem Cut.stream_append (ds es : Cut) :
    Cut.stream (ds ++ es) = Cut.stream ds ++ Cut.stream es := by
  simp [Cut.stream]

/-- The deliveries `ds` lead from `s` to `t`; `log` says which read callback was
called each time and what it took out of the input buffer. -/
inductive Delivered (P : Key) : Session → Cut → List (ReadCb × List UInt8) → Session → Prop
  | nil (s : Session) : Delivered P s [] [] s
  | cons {s t u : Session} {b : Bufferevent Callbacks} {rd : ReadCb} {data taken : List UInt8}
      {choice : Choice} {ds : Cut} {log : List (ReadCb × List UInt8)}
      (hb : s.bevs[0]? = some b) (hrd : b.callbacks.readcb = some rd)
      (hr : Run (Step P) s (delivery data choice) t) (htaken : t.consumed = s.consumed ++ taken)
      (hrest : Delivered P t ds log u) : Delivered P s ((data, choice) :: ds) ((rd, taken) :: log) u

/-- The bytes `rd` has taken. -/
def attributed (rd : ReadCb) (log : List (ReadCb × List UInt8)) : List UInt8 :=
  (log.filterMap fun entry => if entry.1 = rd then some entry.2 else none).flatten

@[simp] theorem attributed_nil (rd : ReadCb) : attributed rd [] = [] := rfl

@[simp] theorem attributed_cons_self (rd : ReadCb) (data : List UInt8)
    (log : List (ReadCb × List UInt8)) :
    attributed rd ((rd, data) :: log) = data ++ attributed rd log := by
  simp [attributed]

theorem attributed_cons_of_ne {rd rd' : ReadCb} (h : rd' ≠ rd) (data : List UInt8)
    (log : List (ReadCb × List UInt8)) :
    attributed rd ((rd', data) :: log) = attributed rd log := by
  simp [attributed, h]

/-- The record of a callback that takes one delivery after another. -/
def takenBy (rd : ReadCb) (ds : Cut) : List (ReadCb × List UInt8) := ds.map fun d => (rd, d.1)

theorem attributed_takenBy (rd : ReadCb) (ds : Cut) (log : List (ReadCb × List UInt8)) :
    attributed rd (takenBy rd ds ++ log) = ds.stream ++ attributed rd log := by
  induction ds with
  | nil => rfl
  | cons d ds ih =>
      rw [takenBy, List.map_cons, List.cons_append, attributed_cons_self, ← takenBy, ih,
        Cut.stream_cons, List.append_assoc]

/-- Non-empty deliveries that add up to nothing are none. -/
theorem Cut.eq_nil {ds : Cut} (hne : ∀ d ∈ ds, d.1 ≠ []) (h : ds.stream = []) : ds = [] := by
  cases ds with
  | nil => rfl
  | cons d ds =>
      have hd : d.1 = [] := by
        rw [Cut.stream_cons, List.append_eq_nil_iff] at h
        exact h.1
      exact absurd hd (hne d List.mem_cons_self)

/-! ## The phases of the handshake -/

/-- **A read callback takes whole deliveries until it accepts one.**  `I` holds
as long as it has not, `A` says what acceptance means. -/
theorem Delivered.phase {I : Session → Prop} {A : List UInt8 → Choice → Session → Prop}
    {rd : ReadCb} {s t : Session} {ds : Cut} {log : List (ReadCb × List UInt8)}
    (hstep : ∀ s data choice t, I s → data ≠ [] → Run (Step P) s (delivery data choice) t →
      t.consumed = s.consumed ++ data ∧ (I t ∨ A data choice t))
    (hcb : ∀ s b, I s → s.bevs[0]? = some b → b.callbacks.readcb = some rd)
    (hd : Delivered P s ds log t) (hne : ∀ d ∈ ds, d.1 ≠ []) (hs : I s) :
    I t ∨ ∃ pre data choice rest log' u, ds = pre ++ (data, choice) :: rest ∧
      log = takenBy rd pre ++ (rd, data) :: log' ∧ A data choice u ∧ Delivered P u rest log' t := by
  induction hd with
  | nil s => exact .inl hs
  | @cons s t u b rd' data taken choice ds log hb hrd hr htaken hrest ih =>
      obtain rfl : rd' = rd := Option.some.inj (hrd.symm.trans (hcb s b hs hb))
      have hne' : ∀ d ∈ ds, d.1 ≠ [] := fun d h => hne d (List.mem_cons_of_mem _ h)
      obtain ⟨hconsumed, ht⟩ := hstep s data choice t hs (hne _ List.mem_cons_self) hr
      obtain rfl : taken = data := List.append_cancel_left (htaken.symm.trans hconsumed)
      rcases ht with ht | ht
      · rcases ih hne' ht with hu | ⟨pre, data', choice', rest, log', v, rfl, rfl, hA, hlast⟩
        · exact .inl hu
        · exact .inr ⟨(taken, choice) :: pre, data', choice', rest, log', v, rfl, rfl, hA, hlast⟩
      · exact .inr ⟨[], taken, choice, ds, log, t, rfl, rfl, ht, hrest⟩

/-- A session that waits for the greeting, with nothing due. -/
def AwaitsGreeting (P : Key) (s : Session) : Prop :=
  Reachable P s ∧ ∃ c port ip, s = .alone (some ⟨some 0, none, port, ip⟩) c [] [] [] ∧
    Idle c .localReadCb (some .socks5Ctx)

/-- A session that has answered the greeting and waits, with nothing due. -/
def AnsweredGreeting (P : Key) (s : Session) : Prop :=
  Reachable P s ∧ ∃ c port ip,
    s = .alone (some ⟨some 0, none, port, ip⟩) c [] [] [methodReply.toList] ∧
    Idle c .handleSecond (some .socks5Ctx)

theorem awaitsGreeting_accepted : AwaitsGreeting P .accepted := by
  obtain ⟨c, hacc, hc⟩ := accepted_idle
  exact ⟨.accepted P, c, 0, [], hacc, hc⟩

/-- What a delivery does while the greeting is awaited. -/
theorem AwaitsGreeting.step {s t : Session} {data : List UInt8} {choice : Choice}
    (hs : AwaitsGreeting P s) (hdata : data ≠ []) (hr : Run (Step P) s (delivery data choice) t) :
    t.consumed = s.consumed ++ data ∧
      (AwaitsGreeting P t ∨ IsGreeting (P.decrypt data) ∧ AnsweredGreeting P t) := by
  obtain ⟨hreach, c, port, ip, rfl, hc⟩ := hs
  have hlen := length_of_delivery_greeting hc hdata hr
  obtain ⟨c', hr', hc', hpast⟩ := delivery_greeting (P := P) port ip choice hc hdata hlen
  obtain rfl := hr.deterministic (step_deterministic P) hr'
  refine ⟨hpast, ?_⟩
  by_cases hg : IsGreeting (P.decrypt data)
  · rw [if_pos hg] at hc'
    exact .inr ⟨hg, hreach.run hr', c', port, ip, by rw [if_pos hg], hc'⟩
  · rw [if_neg hg] at hc'
    exact .inl ⟨hreach.run hr', c', port, ip, by rw [if_neg hg], hc'⟩

/-- What a delivery does while the request is awaited. -/
theorem AnsweredGreeting.step {s t : Session} {data : List UInt8} {choice : Choice}
    (hs : AnsweredGreeting P s) (hdata : data ≠ [])
    (hr : Run (Step P) s (delivery data choice) t) :
    t.consumed = s.consumed ++ data ∧ (AnsweredGreeting P t ∨
      Reachable P t ∧ RequestOutcome P (P.decrypt data) choice t ∧
        (AsksIpv4 (P.decrypt data) ∨ AsksDomain (P.decrypt data))) := by
  obtain ⟨hreach, c, port, ip, rfl, hc⟩ := hs
  obtain ⟨hout, hpast⟩ := delivery_request hc hdata hr
  have hreach' := hreach.run hr
  refine ⟨hpast, ?_⟩
  cases hout with
  | ignored h4 hd hc' => exact .inl ⟨hreach', _, _, _, rfl, hc'⟩
  | ipv4 h4 hc' => exact .inr ⟨hreach', .ipv4 h4 hc', .inl h4⟩
  | asked hd hres hc' => exact .inr ⟨hreach', .asked hd hres hc', .inr hd⟩
  | answered hd hres hctx hport hbev hc' hq hrep hdns hconn =>
      exact .inr ⟨hreach', .answered hd hres hctx hport hbev hc' hq hrep hdns hconn, .inr hd⟩

theorem AwaitsGreeting.readcb {s : Session} {b : Bufferevent Callbacks} (hs : AwaitsGreeting P s)
    (hb : s.bevs[0]? = some b) : b.callbacks.readcb = some .localReadCb := by
  obtain ⟨-, c, port, ip, rfl, hc⟩ := hs
  obtain ⟨-, rfl⟩ := getElem?_one hb
  rw [hc.callbacks]
  rfl

theorem AnsweredGreeting.readcb {s : Session} {b : Bufferevent Callbacks}
    (hs : AnsweredGreeting P s) (hb : s.bevs[0]? = some b) :
    b.callbacks.readcb = some .handleSecond := by
  obtain ⟨-, c, port, ip, rfl, hc⟩ := hs
  obtain ⟨-, rfl⟩ := getElem?_one hb
  rw [hc.callbacks]
  rfl

/-- **There is no way back.**  A callback that the phases from some point on do
not register takes nothing any more. -/
theorem Delivered.attributed_eq_nil {I : Mode → Prop} {rd : ReadCb} {s t : Session} {ds : Cut}
    {log : List (ReadCb × List UInt8)} (hmove : ∀ m k m', Move m k m' → I m → I m')
    (hcb : ∀ m s b, Shape P m s → I m → s.bevs[0]? = some b → b.live = true →
      b.callbacks.readcb ≠ some rd)
    (hd : Delivered P s ds log t) {m : Mode} (hs : Shape P m s) (hI : I m) :
    attributed rd log = [] := by
  induction hd generalizing m with
  | nil s => rfl
  | @cons s t u b rd' data taken choice ds log hb hrd hr htaken hrest ih =>
      have hlive : b.live = true := by
        cases hr with
        | cons h _ =>
            obtain ⟨b', hb', hadmits, -⟩ := Session.fire_socket h
            rw [hb] at hb'
            cases hb'
            exact hadmits.1
      have hne : rd' ≠ rd := by
        rintro rfl
        exact hcb m s b hs hI hb hlive hrd
      obtain ⟨m', hI', ht⟩ := run_modes hmove hr hs hI
      rw [attributed_cons_of_ne hne, ih ht hI']

/-- The greeting is over. -/
def Mode.Greeted (m : Mode) : Prop := m ≠ .greeting

/-- The request has been accepted. -/
def Mode.Requested (m : Mode) : Prop := m ≠ .greeting ∧ m ≠ .request

theorem Move.keeps_greeted {m m' : Mode} {k : Kind} (h : Move m k m') (hm : m.Greeted) :
    m'.Greeted := by
  cases h with
  | stay _ => exact hm
  | _ => exact fun h => by cases h

theorem Move.keeps_requested {m m' : Mode} {k : Kind} (h : Move m k m') (hm : m.Requested) :
    m'.Requested := by
  cases h with
  | stay _ => exact hm
  | greeted => exact absurd rfl hm.1
  | _ => exact ⟨fun h => (by cases h), fun h => (by cases h)⟩

/-- What a live client calls back with. -/
theorem Shape.readcb {m : Mode} {s : Session} {b : Bufferevent Callbacks} (h : Shape P m s)
    (hb : s.bevs[0]? = some b) (hl : b.live = true) :
    (m = .greeting ∧ b.callbacks.readcb = some .localReadCb) ∨
      (m = .request ∧ b.callbacks.readcb = some .handleSecond) ∨
      (m.Requested ∧ b.callbacks.readcb = some .handleLast) := by
  cases h with
  | greeting hc _ => cases hb; exact .inl ⟨rfl, by rw [hc.callbacks]; rfl⟩
  | request hc _ => cases hb; exact .inr (.inl ⟨rfl, by rw [hc.callbacks]; rfl⟩)
  | ipv4 hc _ | resolving hc _ | unresolved hc _ | stranded hc _ _ | relay hc _ _ =>
      cases hb
      exact .inr (.inr ⟨⟨by simp, by simp⟩, by rw [hc.callbacks]; rfl⟩)
  | orphaned hc _ | abandoned hc _ _ | closedAlone hc _ _ | closedPaired hc _ _ =>
      cases hb
      rw [hc] at hl
      cases hl

theorem Delivered.greeting_over {m : Mode} {s t : Session} {ds : Cut}
    {log : List (ReadCb × List UInt8)} (hd : Delivered P s ds log t) (hs : Shape P m s)
    (hm : m.Greeted) : attributed .localReadCb log = [] := by
  refine hd.attributed_eq_nil (fun _ _ _ => Move.keeps_greeted) ?_ hs hm
  intro m s b hs hm hb hl hcb
  rcases hs.readcb hb hl with ⟨h, -⟩ | ⟨-, h⟩ | ⟨-, h⟩
  · exact hm h
  · rw [h] at hcb
    cases hcb
  · rw [h] at hcb
    cases hcb

theorem Delivered.request_over {m : Mode} {s t : Session} {ds : Cut}
    {log : List (ReadCb × List UInt8)} (hd : Delivered P s ds log t) (hs : Shape P m s)
    (hm : m.Requested) : attributed .handleSecond log = [] := by
  refine hd.attributed_eq_nil (fun _ _ _ => Move.keeps_requested) ?_ hs hm
  intro m s b hs hm hb hl hcb
  rcases hs.readcb hb hl with ⟨h, -⟩ | ⟨h, -⟩ | ⟨-, h⟩
  · exact hm.1 h
  · exact hm.2 h
  · rw [h] at hcb
    cases hcb

theorem AnsweredGreeting.greeted {s : Session} {m : Mode} (hs : AnsweredGreeting P s)
    (hm : Shape P m s) : m.Greeted := by
  obtain ⟨-, c, port, ip, rfl, hc⟩ := hs
  rcases hm.readcb (b := c) rfl hc.live with ⟨-, h⟩ | ⟨rfl, -⟩ | ⟨h, -⟩
  · rw [hc.callbacks] at h
    cases h
  · exact fun h => by cases h
  · exact h.1

/-- A message that asks for something ends the handshake. -/
theorem RequestOutcome.requested {s : Session} {msg : List UInt8} {choice : Choice} {m : Mode}
    (h : RequestOutcome P msg choice s) (hask : AsksIpv4 msg ∨ AsksDomain msg)
    (hm : Shape P m s) : m.Requested := by
  have hlast : ∃ c arg, s.bevs[0]? = some c ∧ Served c .handleLast arg := by
    cases h with
    | ignored h4 hd _ => exact absurd hask (not_or.2 ⟨h4, hd⟩)
    | ipv4 _ hc => exact ⟨_, _, rfl, hc.toServed⟩
    | asked _ _ hc => exact ⟨_, _, rfl, hc.toServed⟩
    | answered _ _ _ _ hbev hc _ _ _ _ => exact ⟨_, _, hbev, hc⟩
  obtain ⟨c, arg, hb, hc⟩ := hlast
  rcases hm.readcb hb hc.live with ⟨-, h⟩ | ⟨-, h⟩ | ⟨h, -⟩
  · rw [hc.callbacks] at h
    cases h
  · rw [hc.callbacks] at h
    cases h
  · exact h

/-- A lookup is for the host name of the message. -/
theorem RequestOutcome.hostOf_eq {s : Session} {msg host : List UInt8} {choice : Choice}
    (h : RequestOutcome P msg choice s) (hask : AsksIpv4 msg ∨ AsksDomain msg)
    (hqueries : s.queries = [host]) : AsksDomain msg ∧ hostOf msg = host := by
  cases h with
  | ignored h4 hname _ => exact absurd hask (not_or.2 ⟨h4, hname⟩)
  | ipv4 _ _ => cases hqueries
  | asked hname _ _ => exact ⟨hname, (List.cons.inj hqueries).1⟩
  | answered hname _ _ _ _ _ hq _ _ _ =>
      exact ⟨hname, (List.cons.inj (hq.symm.trans hqueries)).1⟩

/-! ## The messages -/

/-- Only the whole greeting is a suffix of it that passes for one. -/
theorem eq_nil_of_isGreeting {pre m : List UInt8} (h : pre ++ m = greetingMessage)
    (hg : IsGreeting m) : pre = [] := by
  match pre with
  | [] => rfl
  | [a] =>
      obtain rfl : m = [0x01, 0x00] := (List.cons.inj h).2
      exact absurd hg (by decide)
  | [a, b] =>
      obtain rfl : m = [0x00] := (List.cons.inj (List.cons.inj h).2).2
      exact absurd hg (by decide)
  | a :: b :: c :: pre =>
      have hnil : pre ++ m = [] := (List.cons.inj (List.cons.inj (List.cons.inj h).2).2).2
      obtain rfl : m = [] := (List.append_eq_nil_iff.1 hnil).2
      exact absurd hg (by decide)

/-- A host name does not reach past the end of its message. -/
theorem length_hostOf_le {m : List UInt8} (hm : 5 ≤ m.length) :
    (hostOf m).length ≤ m.length - 5 := by
  by_contra hlt
  have hj : m.length - 5 < (hostOf m).length := not_le.1 hlt
  have hne : (hostOf m)[m.length - 5] ≠ 0 := by
    have hmem := List.mem_takeWhile_imp (List.getElem_mem hj)
    simpa using hmem
  have hpre : hostOf m <+: (List.range (m.getD 4 0).toNat).map fun j => m.getD (5 + j) 0 :=
    List.takeWhile_prefix _
  rw [hpre.getElem hj] at hne
  simp only [List.getElem_map, List.getElem_range] at hne
  exact hne (List.getD_eq_default _ _ (by omega))

/-- Only the whole request is a suffix of it that asks for its host name. -/
theorem eq_nil_of_asksDomain {pre m host : List UInt8} {hi lo : UInt8}
    (h : pre ++ m = domainRequest host hi lo) (hd : AsksDomain m) (hhost : hostOf m = host) :
    pre = [] := by
  have hlen : pre.length + m.length = host.length + 7 := by
    rw [← List.length_append, h, length_domainRequest]
  have hle := length_hostOf_le (m := m) (hd.1.trans' (by omega))
  rw [hhost] at hle
  have h7 := hd.1
  match pre with
  | [] => rfl
  | [a] =>
      obtain rfl : m = _ := (List.cons.inj h).2
      exact absurd hd.2.1 (by simp)
  | [a, b] =>
      obtain rfl : m = _ := (List.cons.inj (List.cons.inj h).2).2
      exact absurd hd.2.1 (by simp)
  | a :: b :: c :: pre =>
      simp only [List.length_cons] at hlen
      omega

/-! ## The one cut that works -/

/-- The session has understood the handshake: it relays next, it has asked for
the host name and noted the port, it has answered the greeting once and nothing
else, and each message was taken by its own callback. -/
structure Understood (P : Key) (host : List UInt8) (hi lo : UInt8)
    (log : List (ReadCb × List UInt8)) (t : Session) : Prop where
  handler : ∃ c, t.bevs[0]? = some c ∧ c.callbacks.readcb = some .handleLast
  queries : t.queries = [host]
  port : ∃ ctx, t.context = some ctx ∧ ctx.requestPort = portOf hi lo
  replies : t.replies = [methodReply.toList]
  sent : t.sent = P.encrypt methodReply.toList
  greeting : attributed .localReadCb log = P.encrypt greetingMessage
  request : attributed .handleSecond log = P.encrypt (domainRequest host hi lo)

/-- The deliveries can be handled, and the session understands them. -/
def Handshakes (P : Key) (host : List UInt8) (hi lo : UInt8) (ds : Cut) : Prop :=
  ∃ t log, Delivered P .accepted ds log t ∧ Understood P host hi lo log t

section Cuts

variable {host : List UInt8} {hi lo : UInt8} {ds : Cut}

/-- Two parts of an encrypted message decrypt to the message. -/
theorem decrypt_eq {bytes data m : List UInt8} (h : bytes ++ data = P.encrypt m) :
    P.decrypt bytes ++ P.decrypt data = m := by
  rw [← Key.decrypt_append, h, Key.decrypt_encrypt]

theorem nil_of_decrypt {bytes : List UInt8} (h : P.decrypt bytes = []) : bytes = [] := by
  simpa [Key.decrypt] using h

/-- The greeting is accepted from the first delivery, which carries all of it. -/
theorem Delivered.greeting_whole {t : Session} {log : List (ReadCb × List UInt8)}
    (hd : Delivered P .accepted ds log t) (hne : ∀ d ∈ ds, d.1 ≠ [])
    (hu : Understood P host hi lo log t) :
    ∃ choice rest log' u, ds = (P.encrypt greetingMessage, choice) :: rest ∧
      log = (.localReadCb, P.encrypt greetingMessage) :: log' ∧ AnsweredGreeting P u ∧
      Delivered P u rest log' t := by
  obtain ⟨c, hc, hcb⟩ := hu.handler
  rcases hd.phase (I := AwaitsGreeting P)
      (A := fun data _ u => IsGreeting (P.decrypt data) ∧ AnsweredGreeting P u)
      (fun s data choice t hs hdata hr => hs.step hdata hr) (fun s b hs hb => hs.readcb hb) hne
      awaitsGreeting_accepted with
    ht | ⟨pre, data, choice, rest, log', u, rfl, rfl, ⟨hg, hgreeted⟩, hrest⟩
  · rw [ht.readcb hc] at hcb
    cases hcb
  · obtain ⟨m, hm⟩ := hgreeted.1.shape
    have hgreeting := hu.greeting
    rw [attributed_takenBy, attributed_cons_self, hrest.greeting_over hm (hgreeted.greeted hm),
      List.append_nil] at hgreeting
    obtain rfl : pre = [] := by
      refine Cut.eq_nil (fun d h => hne d (List.mem_append_left _ h)) (nil_of_decrypt (P := P) ?_)
      exact eq_nil_of_isGreeting (decrypt_eq hgreeting) hg
    obtain rfl : data = P.encrypt greetingMessage := hgreeting
    exact ⟨choice, rest, log', u, rfl, rfl, hgreeted, hrest⟩

/-- The request is accepted from one delivery, and nothing is left after it. -/
theorem Delivered.request_whole {s t : Session} {c : Bufferevent Callbacks}
    {log : List (ReadCb × List UInt8)} (hd : Delivered P s ds log t) (hs : AnsweredGreeting P s)
    (hne : ∀ d ∈ ds, d.1 ≠ []) (hcut : ds.stream = P.encrypt (domainRequest host hi lo))
    (hc : t.bevs[0]? = some c) (hcb : c.callbacks.readcb = some .handleLast)
    (hqueries : t.queries = [host])
    (hrequest : attributed .handleSecond log = P.encrypt (domainRequest host hi lo)) :
    ds.map Prod.fst = [P.encrypt (domainRequest host hi lo)] := by
  rcases hd.phase (I := AnsweredGreeting P)
      (A := fun data choice u => Reachable P u ∧ RequestOutcome P (P.decrypt data) choice u ∧
        (AsksIpv4 (P.decrypt data) ∨ AsksDomain (P.decrypt data)))
      (fun s data choice t hs hdata hr => hs.step hdata hr) (fun s b hs hb => hs.readcb hb) hne
      hs with
    ht | ⟨pre, data, choice, rest, log', u, rfl, rfl, ⟨hreach, hout, hask⟩, hrest⟩
  · rw [ht.readcb hc] at hcb
    cases hcb
  · obtain ⟨m, hm⟩ := hreach.shape
    rw [attributed_takenBy, attributed_cons_self, hrest.request_over hm (hout.requested hask hm),
      List.append_nil] at hrequest
    obtain rfl : rest = [] := by
      refine Cut.eq_nil (fun d h => hne d (List.mem_append_right _ (List.mem_cons_of_mem _ h))) ?_
      rw [Cut.stream_append, Cut.stream_cons, ← List.append_assoc, hrequest] at hcut
      exact List.append_right_eq_self.1 hcut
    cases hrest with
    | nil =>
        obtain ⟨hname, hhost⟩ := hout.hostOf_eq hask hqueries
        obtain rfl : pre = [] := by
          refine Cut.eq_nil (fun d h => hne d (List.mem_append_left _ h))
            (nil_of_decrypt (P := P) ?_)
          exact eq_nil_of_asksDomain (decrypt_eq hrequest) hname hhost
        obtain rfl : data = P.encrypt (domainRequest host hi lo) := hrequest
        rfl

/-- **Only two whole messages are understood.** -/
theorem cut_of_handshakes (hne : ∀ d ∈ ds, d.1 ≠ [])
    (hcut : ds.stream = P.encrypt (greetingMessage ++ domainRequest host hi lo))
    (h : Handshakes P host hi lo ds) :
    ds.map Prod.fst = [P.encrypt greetingMessage, P.encrypt (domainRequest host hi lo)] := by
  obtain ⟨t, log, hd, hu⟩ := h
  obtain ⟨choice, rest, log', u, rfl, rfl, hgreeted, hrest⟩ := hd.greeting_whole hne hu
  obtain ⟨c, hc, hcb⟩ := hu.handler
  have hrequest := hu.request
  rw [attributed_cons_of_ne (by decide)] at hrequest
  rw [Cut.stream_cons, Key.encrypt_append, List.append_right_inj] at hcut
  have hwhole := hrest.request_whole hgreeted (fun d h => hne d (List.mem_cons_of_mem _ h)) hcut
    hc hcb hu.queries hrequest
  rw [List.map_cons, hwhole]

/-- A session that has sent the method reply and no other. -/
theorem Shape.sent_eq {m : Mode} {s : Session} (h : Shape P m s) (hlive : s.context ≠ none)
    (hreplies : s.replies = [methodReply.toList]) : s.sent = P.encrypt methodReply.toList := by
  cases h with
  | greeting _ _ | ipv4 _ _ => cases hreplies
  | request _ hout | resolving _ hout | unresolved _ hout | stranded _ _ hout => exact hout
  | @relay _ r _ _ _ _ _ hr hout =>
      have hreported : r.reported.connected = false := by
        by_contra hj
        have hjoined : relayReplies r = [methodReply.toList, connectReply.toList] :=
          if_pos (by simpa using hj)
        rw [Session.paired, hjoined] at hreplies
        cases hreplies
      have hfirst : relayReplies r = [methodReply.toList] := if_neg (by simp [hreported])
      rw [hfirst, hr.past_eq_nil hreported, List.flatten_cons, List.flatten_nil, List.append_nil,
        List.append_nil] at hout
      exact hout
  | orphaned _ _ | abandoned _ _ _ | closedAlone _ _ _ | closedPaired _ _ _ =>
      exact absurd rfl hlive

/-- A lookup for the host name is all there is to understand. -/
theorem RequestOutcome.understood {t : Session} {choice : Choice} {m : Mode}
    (h : RequestOutcome P (domainRequest host hi lo) choice t) (hhost : ShortName host)
    (hm : Shape P m t) :
    Understood P host hi lo [(.localReadCb, P.encrypt greetingMessage),
      (.handleSecond, P.encrypt (domainRequest host hi lo))] t := by
  have hgreeting : attributed .localReadCb [(.localReadCb, P.encrypt greetingMessage),
      (.handleSecond, P.encrypt (domainRequest host hi lo))] = P.encrypt greetingMessage := by
    simp [attributed]
  have hrequest : attributed .handleSecond [(.localReadCb, P.encrypt greetingMessage),
      (.handleSecond, P.encrypt (domainRequest host hi lo))] =
        P.encrypt (domainRequest host hi lo) := by
    simp [attributed]
  cases h with
  | ignored _ hd _ => exact absurd asksDomain_domainRequest hd
  | ipv4 h4 _ => exact absurd h4 not_asksIpv4_domainRequest
  | @asked c ip _ _ hc =>
      have hqueries : [hostOf (domainRequest host hi lo)] = [host] :=
        congrArg (fun h => [h]) (hostOf_domainRequest hhost)
      exact ⟨⟨c, rfl, by rw [hc.callbacks]; rfl⟩, hqueries,
        ⟨⟨some 0, none, portAtEnd (domainRequest host hi lo), ip⟩, rfl, portAtEnd_domainRequest⟩,
        rfl, hm.sent_eq (Option.some_ne_none _) rfl, hgreeting, hrequest⟩
  | @answered c _ ctx _ _ _ hctx hport hbev hc hq hreplies _ _ =>
      rw [hostOf_domainRequest hhost] at hq
      rw [portAtEnd_domainRequest] at hport
      exact ⟨⟨c, hbev, by rw [hc.callbacks]; rfl⟩, hq, ⟨ctx, hctx, hport⟩, hreplies,
        hm.sent_eq (by rw [hctx]; exact Option.some_ne_none _) hreplies, hgreeting, hrequest⟩

/-- **The two whole messages are understood.** -/
theorem handshakes_of_cut (hhost : ShortName host) (hans : ∀ d ∈ ds, d.2.AnswersIpv4)
    (hcut : ds.map Prod.fst = [P.encrypt greetingMessage, P.encrypt (domainRequest host hi lo)]) :
    Handshakes P host hi lo ds := by
  obtain ⟨choice, choice', rfl⟩ : ∃ choice choice', ds = [(P.encrypt greetingMessage, choice),
      (P.encrypt (domainRequest host hi lo), choice')] := by
    match ds, hcut with
    | [(_, choice), (_, choice')], h =>
        obtain ⟨rfl, h'⟩ := List.cons.inj h
        obtain ⟨rfl, -⟩ := List.cons.inj h'
        exact ⟨choice, choice', rfl⟩
  obtain ⟨c, hr, hc⟩ := reach_request P choice
  have hpast := (awaitsGreeting_accepted.step (encrypt_ne_nil P (by simp [greetingMessage])) hr).1
  have hne : P.encrypt (domainRequest host hi lo) ≠ [] := encrypt_ne_nil P (by simp [domainRequest])
  obtain ⟨t, ht⟩ := run_delivery_request (P := P) 0 [] hc hne
    (by rw [Key.decrypt_encrypt]; exact parseRequest_domainRequest hhost)
    (by rw [Key.length_encrypt, length_domainRequest]; have := hhost.length_le; omega)
    (hans _ (List.mem_cons_of_mem _ List.mem_cons_self))
  obtain ⟨hout, hpast'⟩ := delivery_request hc hne ht
  rw [Key.decrypt_encrypt] at hout
  obtain ⟨m, hm⟩ := (Reachable.run ⟨_, hr⟩ ht).shape
  obtain ⟨c₀, hacc, hc₀⟩ := accepted_idle
  have hd : Delivered P .accepted [(P.encrypt greetingMessage, choice),
      (P.encrypt (domainRequest host hi lo), choice')]
      [(.localReadCb, P.encrypt greetingMessage),
        (.handleSecond, P.encrypt (domainRequest host hi lo))] t :=
    .cons (b := c₀) (by rw [hacc]; rfl) (by rw [hc₀.callbacks]; rfl) hr hpast
      (.cons (b := c) rfl (by rw [hc.callbacks]; rfl) ht hpast' (.nil t))
  exact ⟨t, _, hd, hout.understood hhost hm⟩

/-- **Which cuts of the handshake are understood.**  Out of all the ways to cut
the encrypted greeting and request into non-empty deliveries, the session
understands exactly the one that delivers the two messages whole. -/
theorem handshakes_iff (hhost : ShortName host) (hans : ∀ d ∈ ds, d.2.AnswersIpv4)
    (hne : ∀ d ∈ ds, d.1 ≠ [])
    (hcut : ds.stream = P.encrypt (greetingMessage ++ domainRequest host hi lo)) :
    Handshakes P host hi lo ds ↔
      ds.map Prod.fst = [P.encrypt greetingMessage, P.encrypt (domainRequest host hi lo)] :=
  ⟨cut_of_handshakes hne hcut, handshakes_of_cut hhost hans⟩

end Cuts

/-- The two messages, whole. -/
theorem handshakes_whole : Handshakes Key.identity [0x61] 0x00 0x50
    [(Key.identity.encrypt greetingMessage, .later),
      (Key.identity.encrypt (domainRequest [0x61] 0x00 0x50), .later)] := by
  refine (handshakes_iff .example ?_ ?_ ?_).2 rfl
  · intro _ h
    simp only [List.mem_cons, List.not_mem_nil, or_false] at h
    rcases h with rfl | rfl <;> exact Choice.later_answersIpv4
  · intro _ h
    simp only [List.mem_cons, List.not_mem_nil, or_false] at h
    rcases h with rfl | rfl <;> exact encrypt_ne_nil _ (by simp [greetingMessage, domainRequest])
  · simp

/-- The greeting cut after its first byte. -/
def splitGreeting : Cut :=
  [(Key.identity.encrypt [0x05], .later), (Key.identity.encrypt [0x01, 0x00], .later),
    (Key.identity.encrypt (domainRequest [0x61] 0x00 0x50), .later)]

/-- **One cut inside the greeting.**  Neither part of the greeting is recognised;
the request begins like a greeting and is answered as one, and nothing is ever
asked for. -/
theorem handshakes_split :
    splitGreeting.stream =
        Key.identity.encrypt (greetingMessage ++ domainRequest [0x61] 0x00 0x50) ∧
      (∃ t log c, Delivered Key.identity .accepted splitGreeting log t ∧ t.bevs = [c] ∧
        c.callbacks.readcb = some .handleSecond ∧ t.queries = []) ∧
      ¬ Handshakes Key.identity [0x61] 0x00 0x50 splitGreeting := by
  refine ⟨by simp [splitGreeting, greetingMessage, Key.encrypt], ?_, fun h => ?_⟩
  · obtain ⟨c₀, hacc, hc₀⟩ := accepted_idle
    have hne : ∀ m : List UInt8, m ≠ [] → Key.identity.encrypt m ≠ [] := fun m =>
      encrypt_ne_nil Key.identity
    obtain ⟨c₁, hr₁, hc₁, hpast₁⟩ := delivery_greeting (P := Key.identity) 0 [] .later hc₀
      (hne [0x05] (by simp)) (by simp)
    rw [Key.decrypt_encrypt, if_neg (by decide)] at hr₁ hc₁
    obtain ⟨c₂, hr₂, hc₂, hpast₂⟩ := delivery_greeting (P := Key.identity) 0 [] .later hc₁
      (hne [0x01, 0x00] (by simp)) (by simp)
    rw [Key.decrypt_encrypt, if_neg (by decide)] at hr₂ hc₂
    obtain ⟨c₃, hr₃, hc₃, hpast₃⟩ := delivery_greeting (P := Key.identity) 0 [] .later hc₂
      (hne (domainRequest [0x61] 0x00 0x50) (by simp [domainRequest])) (by simp [domainRequest])
    rw [Key.decrypt_encrypt, if_pos (by decide)] at hr₃ hc₃
    exact ⟨_, _, c₃, .cons (b := c₀) (by rw [hacc]; rfl) (by rw [hc₀.callbacks]; rfl) (hacc ▸ hr₁)
      (by rw [hacc]; exact hpast₁) (.cons (b := c₁) rfl (by rw [hc₁.callbacks]; rfl) hr₂ hpast₂
        (.cons (b := c₂) rfl (by rw [hc₂.callbacks]; rfl) hr₃ hpast₃ (.nil _))), rfl,
      by rw [hc₃.callbacks]; rfl, rfl⟩
  · have hcut := cut_of_handshakes (by simp [splitGreeting, Key.encrypt, domainRequest])
      (by simp [splitGreeting, greetingMessage, Key.encrypt]) h
    exact absurd (congrArg List.length hcut) (by simp [splitGreeting])

end LightSocks
