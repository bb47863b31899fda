import LightSocks.Server.Simulation

/-!
# Deliveries

Data arrives for the client and its read callback runs: that is one delivery.
While the session waits for its handshake a delivery is understood as one
message, whatever it is.

* `run_delivery_iff` — a delivery is one call of the registered read callback on
  exactly the bytes delivered.
* `delivery_greeting`, `delivery_request` — what a delivery does to a session
  that waits for the greeting, or for the request.
* `reach_request`, `reach_resolving`, `reach_ipv4`, `reach_relay`,
  `reach_joined` — runs that lead into each phase, for any key.
-/

namespace LightSocks

open Transition

variable {P : Key}

/-! ## The messages of the client -/

/-- `05 01 00`. -/
def greetingMessage : List UInt8 := [0x05, 0x01, 0x00]

/-- `05 01 00 03 |host| host hi lo`. -/
def domainRequest (host : List UInt8) (hi lo : UInt8) : List UInt8 :=
  [0x05, 0x01, 0x00, 0x03, UInt8.ofNat host.length] ++ host ++ [hi, lo]

/-- `05 01 00 01 a b c d hi lo`. -/
def ipv4Request (addr : InAddr) (hi lo : UInt8) : List UInt8 :=
  [0x05, 0x01, 0x00, 0x01, addr.a, addr.b, addr.c, addr.d, hi, lo]

theorem length_domainRequest (host : List UInt8) (hi lo : UInt8) :
    (domainRequest host hi lo).length = host.length + 7 := by
  simp [domainRequest]

theorem asksIpv4_ipv4Request (addr : InAddr) (hi lo : UInt8) :
    AsksIpv4 (ipv4Request addr hi lo) := ⟨by simp [ipv4Request], rfl, rfl⟩

section DomainRequest

variable {host : List UInt8} {hi lo : UInt8}

theorem asksDomain_domainRequest : AsksDomain (domainRequest host hi lo) :=
  ⟨by rw [length_domainRequest]; omega, rfl, rfl⟩

theorem not_asksIpv4_domainRequest : ¬ AsksIpv4 (domainRequest host hi lo) :=
  fun h4 => h4.not_asksDomain asksDomain_domainRequest

theorem portAtEnd_domainRequest : portAtEnd (domainRequest host hi lo) = portOf hi lo := by
  have hhi : (domainRequest host hi lo).getD (host.length + 5) 0 = hi := by
    simp [domainRequest]
  have hlo : (domainRequest host hi lo).getD (host.length + 6) 0 = lo := by
    simp [domainRequest]
  rw [portAtEnd, length_domainRequest]
  exact congrArg₂ portOf hhi hlo

/-- A host name whose request fits the scratch arrays of the handshake. -/
structure ShortName (host : List UInt8) : Prop where
  noNul : ∀ b ∈ host, b ≠ 0
  length_le : host.length ≤ 25

theorem ShortName.inetNtop (addr : InAddr) : ShortName (inetNtop addr) :=
  ⟨(inetNtop_text addr).2.2, (inetNtop_text addr).2.1.trans (by omega)⟩

theorem ShortName.example : ShortName [0x61] := ⟨by simp, by simp⟩

/-- A name without NUL is its own C string. -/
theorem ShortName.cStr_eq (h : ShortName host) : Socks5.cStr host = host :=
  List.takeWhile_eq_self_iff.2 (by simpa using h.noNul)

/-- The length byte of a request. -/
theorem toNat_length_byte (hlen : host.length ≤ 255) :
    ((domainRequest host hi lo).getD 4 0).toNat = host.length := by
  have h4 : (domainRequest host hi lo).getD 4 0 = UInt8.ofNat host.length := rfl
  rw [h4, UInt8.toNat_ofNat_of_lt' (by rw [UInt8.size]; omega)]

/-- The host name of a request that fits is read back whole. -/
theorem hostOf_domainRequest (h : ShortName host) : hostOf (domainRequest host hi lo) = host := by
  rw [hostOf, toNat_length_byte (h.length_le.trans (by omega))]
  refine (congrArg _ ?_).trans h.cStr_eq
  refine (List.ext_getElem (by simp) fun j hj hj' => ?_)
  have hget : (domainRequest host hi lo)[5 + j]? = (host ++ [hi, lo])[j]? := by
    rw [Nat.add_comm]
    rfl
  rw [List.getElem_map, List.getElem_range, List.getD_eq_getElem?_getD, hget,
    List.getElem?_append_left hj', List.getElem?_eq_getElem hj', Option.getD_some]

theorem parseRequest_domainRequest (h : ShortName host) :
    parseRequest (domainRequest host hi lo) ≠ .error .outOfBounds := by
  have hlen := h.length_le
  have hlen' := length_domainRequest host hi lo
  have h59 : ¬ 59 < ((domainRequest host hi lo).getD 4 0).toNat := by
    rw [toNat_length_byte (by omega)]
    omega
  have hname : AsksDomain (domainRequest host hi lo) := asksDomain_domainRequest
  rw [parseRequest, if_neg (by omega), if_neg (by omega), if_neg (by rw [hname.2.1]; simp),
    hname.2.2, if_neg (by decide), if_pos rfl, if_neg h59]
  simp

end DomainRequest

/-! ## One delivery -/

/-- Data arrives for the client and its read callback runs. -/
def delivery (data : List UInt8) (choice : Choice) : List Event :=
  [.socket 0 (.recv data), .readCb 0 choice]

/-- The client is connected and nothing is due on its bufferevent. -/
structure Idle (c : Bufferevent Callbacks) (rd : ReadCb) (arg : Option CtxPtr) : Prop extends
    Served c rd arg where
  readEnabled : c.readEnabled = true
  noRead : c.readPending = false

/-- The client after data has arrived. -/
def arrived (c : Bufferevent Callbacks) (data : List UInt8) : Bufferevent Callbacks :=
  c.socket (.recv data)

section Delivery

variable {c : Bufferevent Callbacks} {rd : ReadCb} {arg : Option CtxPtr} {ctx : Option Socks5ctx}
  {dns queries replies : List (List UInt8)} {data : List UInt8} {choice : Choice} {t : Session}
  {port : ℕ} {ip : List UInt8}

theorem Idle.arrived (h : Idle c rd arg) (hdata : data ≠ []) : Served (arrived c data) rd arg :=
  (h.toServed.socket (e := .recv data) ⟨h.live, h.link, h.readEnabled, hdata⟩).1

theorem Idle.pending_arrived (h : Idle c rd arg) :
    (LightSocks.arrived c data).input.pending = data := by
  have hidle := h.idle h.noRead
  simp [LightSocks.arrived, Bufferevent.socket, hidle]

theorem Idle.stream_arrived (h : Idle c rd arg) :
    (LightSocks.arrived c data).input.stream = c.input.past ++ data := by
  have hidle := h.idle h.noRead
  simp [LightSocks.arrived, Bufferevent.socket, Fifo.stream, hidle]

theorem Idle.readDue_arrived (h : Idle c rd arg) : (LightSocks.arrived c data).readDue = true := by
  simp [LightSocks.arrived, Bufferevent.readDue, Bufferevent.socket, h.live, h.noConnected]

/-- **A delivery is one call of the read callback.** -/
theorem run_delivery_iff (h : Idle c rd arg) (hdata : data ≠ []) :
    Run (Step P) (.alone ctx c dns queries replies) (delivery data choice) t ↔
      Session.callRead P.table 0 (arrived c data).callbacks choice
        (.alone ctx (arrived c data).takeRead dns queries replies) = .ok t := by
  have hrecv : Step P (.alone ctx c dns queries replies) (.socket 0 (.recv data))
      (.alone ctx (arrived c data) dns queries replies) :=
    .socket (b := c) rfl ⟨h.live, h.link, h.readEnabled, hdata⟩
  have hfire : (Session.alone ctx (arrived c data) dns queries replies).fire P.table
      (.readCb 0 choice) = some (Session.callRead P.table 0 (arrived c data).callbacks choice
        (.alone ctx (arrived c data).takeRead dns queries replies)) := if_pos h.readDue_arrived
  constructor
  · intro hr
    cases hr with
    | cons h₁ hr =>
        obtain rfl := step_deterministic _ _ _ _ _ hrecv h₁
        cases hr with
        | cons h₂ hr =>
            cases hr
            exact Option.some.inj (hfire.symm.trans h₂)
  · intro hcall
    exact .cons hrecv (.single (by rw [Step, hfire, hcall]))

theorem Idle.read (h : Idle c rd arg) (hdata : data ≠ []) :
    Idle (LightSocks.arrived c data).takeRead.drained rd arg :=
  ⟨(h.arrived hdata).read, h.readEnabled, rfl⟩

theorem Idle.queue (h : Idle c rd arg) (bytes : List UInt8) : Idle (c.queue bytes) rd arg :=
  ⟨h.toServed.queue bytes, h.readEnabled, h.noRead⟩

theorem Idle.register (h : Idle c rd arg) (harg : arg ≠ none) (rd' : ReadCb)
    (arg' : Option CtxPtr) : Idle (c.register (clientCallbacks rd' arg')) rd' arg' :=
  ⟨h.toServed.register harg rd' arg', h.readEnabled, h.noRead⟩

/-- **A delivery to a session that waits for the greeting.** -/
theorem delivery_greeting (port : ℕ) (ip : List UInt8) (choice : Choice)
    (h : Idle c .localReadCb (some .socks5Ctx)) (hdata : data ≠ []) (hlen : data.length ≤ 32) :
    ∃ c', Run (Step P) (.alone (some ⟨some 0, none, port, ip⟩) c [] [] []) (delivery data choice)
        (.alone (some ⟨some 0, none, port, ip⟩) c' [] []
          (if IsGreeting (P.decrypt data) then [methodReply.toList] else [])) ∧
      Idle c' (if IsGreeting (P.decrypt data) then .handleSecond else .localReadCb)
        (some .socks5Ctx) ∧ c'.input.past = c.input.past ++ data := by
  have hpast : (arrived c data).input.stream = c.input.past ++ data := h.stream_arrived
  have hcall := readCb_greeting (P := P) (h.arrived hdata) port ip choice
  rw [h.pending_arrived, if_neg (not_lt.2 hlen)] at hcall
  by_cases hg : IsGreeting (P.decrypt data)
  · rw [if_pos hg] at hcall
    simp only [if_pos hg]
    exact ⟨_, (run_delivery_iff h hdata).2 hcall, ((h.read hdata).queue _).register (by simp) _ _,
      hpast⟩
  · rw [if_neg hg] at hcall
    simp only [if_neg hg]
    exact ⟨_, (run_delivery_iff h hdata).2 hcall, h.read hdata, hpast⟩

/-- Only a message of at most 32 bytes gets through. -/
theorem length_of_delivery_greeting (h : Idle c .localReadCb (some .socks5Ctx))
    (hdata : data ≠ [])
    (hr : Run (Step P) (.alone (some ⟨some 0, none, port, ip⟩) c [] [] [])
      (delivery data choice) t) : data.length ≤ 32 := by
  have hcall := (run_delivery_iff h hdata).1 hr
  rw [readCb_greeting (h.arrived hdata), h.pending_arrived] at hcall
  by_contra hlen
  rw [if_pos (not_le.1 hlen)] at hcall
  cases hcall

/-- What can become of a session that waits for the request and gets a message. -/
inductive RequestOutcome (P : Key) (m : List UInt8) (choice : Choice) : Session → Prop where
  /-- The message is thrown away. -/
  | ignored {c : Bufferevent Callbacks} {port : ℕ} {ip : List UInt8}
      (h4 : ¬ AsksIpv4 m) (hd : ¬ AsksDomain m) (hc : Idle c .handleSecond (some .socks5Ctx)) :
      RequestOutcome P m choice
        (.alone (some ⟨some 0, none, port, ip⟩) c [] [] [methodReply.toList])
  /-- `ATYP = 1`. -/
  | ipv4 {c : Bufferevent Callbacks} {ip : List UInt8} (h4 : AsksIpv4 m)
      (hc : Idle c .handleLast none) :
      RequestOutcome P m choice (.alone (some ⟨some 0, none, portAtEnd m, ip⟩) c [] []
        [methodReply.toList, connectReply.toList])
  /-- `ATYP = 3`, and the resolver does not answer at once. -/
  | asked {c : Bufferevent Callbacks} {ip : List UInt8} (hd : AsksDomain m)
      (hres : choice.resolved = none) (hc : Idle c .handleLast (some .socks5Ctx)) :
      RequestOutcome P m choice (.alone (some ⟨some 0, none, portAtEnd m, ip⟩) c [hostOf m]
        [hostOf m] [methodReply.toList])
  /-- `ATYP = 3`, and the resolver answers at once. -/
  | answered {c : Bufferevent Callbacks} {s : Session} {ctx : Socks5ctx} {result : DnsResult}
      (hd : AsksDomain m) (hres : choice.resolved = some result)
      (hctx : s.context = some ctx) (hport : ctx.requestPort = portAtEnd m)
      (hbev : s.bevs[0]? = some c) (hc : Served c .handleLast (some .socks5Ctx))
      (hqueries : s.queries = [hostOf m]) (hreplies : s.replies = [methodReply.toList])
      (hdns : s.dns = [])
      (hconnects : ∀ target ∈ s.connects, result.kind = .getsAddress target.1 ∧
        target.2 = UInt16.ofNat (portAtEnd m)) : RequestOutcome P m choice s

/-- **A delivery to a session that waits for the request.** -/
theorem delivery_request (h : Idle c .handleSecond (some .socks5Ctx)) (hdata : data ≠ [])
    (hr : Run (Step P) (.alone (some ⟨some 0, none, port, ip⟩) c [] [] [methodReply.toList])
      (delivery data choice) t) :
    RequestOutcome P (P.decrypt data) choice t ∧ t.consumed = c.input.past ++ data := by
  have hpast : (arrived c data).input.stream = c.input.past ++ data := h.stream_arrived
  have hcall := (run_delivery_iff h hdata).1 hr
  have hc' := (h.read hdata).register (by simp) .handleLast (some .socks5Ctx)
  rcases readCb_request (h.arrived hdata) hcall with
    ⟨-, herr⟩ | ⟨hlen, hcases⟩
  · cases herr
  · rw [readPlain_eq hlen, h.pending_arrived] at hcases
    rcases hcases with ⟨h4, hd, ht⟩ | ⟨h4, ip', ht⟩ | ⟨hd, h4, hask⟩
    · cases ht
      exact ⟨.ignored h4 hd (h.read hdata), hpast⟩
    · cases ht
      exact ⟨.ipv4 h4 (((h.read hdata).queue _).register (by simp) _ _), hpast⟩
    · rcases askAndRegister_alone (c := (arrived c data).takeRead.drained) _ choice
        (h.read hdata).live hask.symm with
        ⟨hres, ht⟩ | ⟨result, hres, -, ht⟩ | ⟨result, addr, hres, hk, ⟨-, ht⟩ | ⟨-, ht⟩⟩ | ⟨-, ht⟩
      · cases ht
        exact ⟨.asked hd hres hc', hpast⟩
      · cases ht
        exact ⟨.answered hd hres rfl rfl rfl hc'.toServed rfl rfl rfl
          (fun _ h => absurd h List.not_mem_nil), hpast⟩
      all_goals cases ht
      all_goals
        refine ⟨.answered hd hres rfl rfl rfl hc'.toServed rfl rfl rfl fun target htarget => ?_,
          hpast⟩
        obtain rfl := List.mem_singleton.1 htarget
        exact ⟨hk, rfl⟩

/-- An answer the resolver gives at once is an IPv4 address, as the hints ask. -/
def Choice.AnswersIpv4 (choice : Choice) : Prop :=
  ∀ answer, choice.resolved = some (.found answer) → answer.aiFamily = .inet

/-- A message that is within bounds is handled. -/
theorem run_delivery_request (port : ℕ) (ip : List UInt8)
    (h : Idle c .handleSecond (some .socks5Ctx)) (hdata : data ≠ [])
    (hparse : parseRequest (P.decrypt data) ≠ .error .outOfBounds)
    (hlen : data.length ≤ 32) (hchoice : choice.AnswersIpv4) :
    ∃ t, Run (Step P) (.alone (some ⟨some 0, none, port, ip⟩) c [] [] [methodReply.toList])
      (delivery data choice) t := by
  have hread : readPlain P (arrived c data) = P.decrypt data := by
    rw [readPlain_eq (by rwa [h.pending_arrived]), h.pending_arrived]
  rcases readCb_request (h.arrived hdata) (Eq.refl (Session.callRead P.table 0 _ choice
    (.alone (some ⟨some 0, none, port, ip⟩) _ [] [] [methodReply.toList]))) with
    ⟨herr, -⟩ | ⟨-, ⟨-, -, ht⟩ | ⟨-, ip', ht⟩ | ⟨-, -, hask⟩⟩
  · rw [hread] at herr
    exact absurd herr hparse
  · exact ⟨_, (run_delivery_iff h hdata).2 ht⟩
  · exact ⟨_, (run_delivery_iff h hdata).2 ht⟩
  · rcases askAndRegister_alone (c := (arrived c data).takeRead.drained) _ choice
      (h.read hdata).live hask.symm with
      ⟨-, ht⟩ | ⟨_, -, -, ht⟩ | ⟨_, _, -, -, ⟨-, ht⟩ | ⟨-, ht⟩⟩ | ⟨⟨addr, hres⟩, -⟩
    · exact ⟨_, (run_delivery_iff h hdata).2 ht⟩
    · exact ⟨_, (run_delivery_iff h hdata).2 ht⟩
    · exact ⟨_, (run_delivery_iff h hdata).2 ht⟩
    · exact ⟨_, (run_delivery_iff h hdata).2 ht⟩
    · cases hchoice _ hres

end Delivery

/-! ## Hanging up -/

/-- The client closes its direction and the event callback runs. -/
def hangup : List Event := [.socket 0 .eof, .eventCb 0]

section Hangup

variable {c r : Bufferevent Callbacks} {rd : ReadCb} {port : ℕ} {ip host : List UInt8}
  {dns queries replies : List (List UInt8)} {target : Target}

/-- The client's bufferevent after that, freed. -/
def hungUp (c : Bufferevent Callbacks) : Bufferevent Callbacks :=
  ((c.socket .eof).takeEvent (c.socket .eof).eventPending).release

theorem reported_hungUp (c : Bufferevent Callbacks) : (hungUp c).reported.eof = true := by
  simp [hungUp, Bufferevent.release, Bufferevent.takeEvent, What.merge, Bufferevent.socket,
    Bufferevent.raise]

/-- The EOF of an idle client is reported next. -/
theorem Idle.eof {arg : Option CtxPtr} (h : Idle c rd arg) :
    Served (c.socket .eof) rd arg ∧
      (c.socket .eof).nextEvent = some (c.socket .eof).eventPending := by
  have hc := (h.toServed.socket (e := .eof) ⟨h.live, h.link, h.readEnabled⟩).1
  have hany : (c.socket .eof).eventPending.any = true := by
    simp [Bufferevent.socket, Bufferevent.raise, What.merge, What.any]
  have hread : (c.socket .eof).readPending = false := h.noRead
  exact ⟨hc, by simp [Bufferevent.nextEvent, hc.live, hc.noConnected, hany, hread]⟩

theorem run_hangup_alone (h : Idle c rd (some .socks5Ctx)) :
    Run (Step P) (.alone (some ⟨some 0, none, port, ip⟩) c dns queries replies) hangup
      (.alone none (hungUp c) dns queries replies) := by
  obtain ⟨hc, hw⟩ := h.eof
  exact .cons (.socket (b := c) rfl ⟨h.live, h.link, h.readEnabled⟩)
    (.single (.eventCb (b := c.socket .eof) rfl hw (alone_ends hc hw)))

theorem run_hangup_paired (h : Idle c rd (some .socks5Ctx)) (hr : r.live = true) :
    Run (Step P) (.paired (some ⟨some 0, some 1, port, ip⟩) c r host target replies) hangup
      (.paired none (hungUp c) r.release host target replies) := by
  obtain ⟨hc, hw⟩ := h.eof
  exact .cons (.socket (b := c) rfl ⟨h.live, h.link, h.readEnabled⟩)
    (.single (.eventCb (b := c.socket .eof) rfl hw (paired_clientEnds hc hr hw)))

variable {ctx : Option Socks5ctx}

/-- With the null argument nobody notices. -/
theorem run_hangup_null (h : Idle c rd none) :
    Run (Step P) (.alone ctx c dns queries replies) hangup
      (.alone ctx ((c.socket .eof).takeEvent (c.socket .eof).eventPending) dns queries
        replies) := by
  obtain ⟨hc, hw⟩ := h.eof
  refine .cons (.socket (b := c) rfl ⟨h.live, h.link, h.readEnabled⟩)
    (.single (.eventCb (b := c.socket .eof) rfl hw ?_))
  rw [Session.callEvent, hc.callbacks]
  rfl

end Hangup

/-! ## Runs into each phase -/

/-- The resolver answers later, the connect starts. -/
def Choice.later : Choice := { resolved := none, re := 0, ip2 := Vector.replicate 32 0 }

theorem Choice.later_answersIpv4 : Choice.later.AnswersIpv4 := by
  intro answer h
  cases h

/-- Then `handle_second` is not given an address. -/
theorem kind_later_ne {s : Session} {p : BevPtr} {addr : InAddr} :
    kind P s (.readCb p .later) ≠ .getsAddress addr := by
  simp only [kind]
  split
  · simp
  · split
    · unfold messageKind
      split
      · simp
      · split <;> simp [Choice.later]
    · simp

theorem accepted_idle : ∃ c, Session.accepted =
    .alone (some ⟨some 0, none, 0, []⟩) c [] [] [] ∧ Idle c .localReadCb (some .socks5Ctx) :=
  ⟨_, rfl, ⟨rfl, rfl, rfl, rfl, rfl, rfl, fun _ => rfl, fun _ => ⟨rfl, rfl⟩⟩, rfl, rfl⟩

section Reach

variable (P) (host : List UInt8) (hi lo : UInt8)

theorem encrypt_ne_nil {m : List UInt8} (h : m ≠ []) : P.encrypt m ≠ [] := by
  simpa [Key.encrypt] using h

theorem reach_request (choice : Choice) :
    ∃ c, Run (Step P) .accepted (delivery (P.encrypt greetingMessage) choice)
        (.alone (some ⟨some 0, none, 0, []⟩) c [] [] [methodReply.toList]) ∧
      Idle c .handleSecond (some .socks5Ctx) := by
  obtain ⟨c, hacc, hc⟩ := accepted_idle
  have hne : P.encrypt greetingMessage ≠ [] := encrypt_ne_nil P (by simp [greetingMessage])
  have hlen : (P.encrypt greetingMessage).length ≤ 32 := by simp [greetingMessage]
  obtain ⟨c', hr, hc', -⟩ := delivery_greeting (P := P) 0 [] choice hc hne hlen
  have hg : IsGreeting (P.decrypt (P.encrypt greetingMessage)) := by
    rw [Key.decrypt_encrypt]
    decide
  rw [if_pos hg] at hr hc'
  exact ⟨c', hacc ▸ hr, hc'⟩

section Steps

variable {P} {c : Bufferevent Callbacks} (port : ℕ) (ip : List UInt8)

/-- A request for a host name starts its lookup. -/
theorem run_domainRequest (h : Idle c .handleSecond (some .socks5Ctx)) (hhost : ShortName host)
    (replies : List (List UInt8)) :
    ∃ c' ip', Run (Step P) (.alone (some ⟨some 0, none, port, ip⟩) c [] [] replies)
        (delivery (P.encrypt (domainRequest host hi lo)) .later)
        (.alone (some ⟨some 0, none, portOf hi lo, ip'⟩) c' [host] [host] replies) ∧
      Idle c' .handleLast (some .socks5Ctx) := by
  have hne : P.encrypt (domainRequest host hi lo) ≠ [] := encrypt_ne_nil P (by simp [domainRequest])
  have hlen : (P.encrypt (domainRequest host hi lo)).length ≤ 32 := by
    have hname := hhost.length_le
    rw [Key.length_encrypt, length_domainRequest]
    omega
  have hread : readPlain P (arrived c (P.encrypt (domainRequest host hi lo))) =
      domainRequest host hi lo := by
    rw [readPlain_eq (by rwa [h.pending_arrived]), h.pending_arrived, Key.decrypt_encrypt]
  have hcases := readCb_request (h.arrived hne) (Eq.refl (Session.callRead P.table 0 _ .later
    (.alone (some ⟨some 0, none, port, ip⟩) _ [] [] replies)))
  rw [hread, hostOf_domainRequest hhost, portAtEnd_domainRequest] at hcases
  rcases hcases with ⟨herr, -⟩ | ⟨-, ⟨-, hd, -⟩ | ⟨h4, -⟩ | ⟨-, -, hask⟩⟩
  · exact absurd herr (parseRequest_domainRequest hhost)
  · exact absurd asksDomain_domainRequest hd
  · exact absurd h4 not_asksIpv4_domainRequest
  · rcases askAndRegister_alone host .later (h.read hne).live hask.symm with
      ⟨-, ht⟩ | ⟨_, hres, -⟩ | ⟨_, _, hres, -⟩ | ⟨⟨_, hres⟩, -⟩
    · exact ⟨_, ip, (run_delivery_iff h hne).2 ht, (h.read hne).register (by simp) _ _⟩
    all_goals cases hres

/-- A request for an address is answered at once. -/
theorem run_ipv4Request (h : Idle c .handleSecond (some .socks5Ctx)) (addr : InAddr)
    (replies : List (List UInt8)) :
    ∃ c' ip', Run (Step P) (.alone (some ⟨some 0, none, port, ip⟩) c [] [] replies)
        (delivery (P.encrypt (ipv4Request addr hi lo)) .later)
        (.alone (some ⟨some 0, none, portOf hi lo, ip'⟩) c' [] []
          (replies ++ [connectReply.toList])) ∧ Idle c' .handleLast none := by
  have h4 := asksIpv4_ipv4Request addr hi lo
  have hne : P.encrypt (ipv4Request addr hi lo) ≠ [] := encrypt_ne_nil P (by simp [ipv4Request])
  have hlen : (P.encrypt (ipv4Request addr hi lo)).length ≤ 32 := by simp [ipv4Request]
  have hparse : parseRequest (ipv4Request addr hi lo) ≠ .error .outOfBounds := by
    rw [parseRequest, if_neg (by simp [ipv4Request]), if_neg (by simp [ipv4Request]),
      if_neg (by rw [h4.2.1]; simp), if_pos h4.2.2]
    simp
  have hread : readPlain P (arrived c (P.encrypt (ipv4Request addr hi lo))) =
      ipv4Request addr hi lo := by
    rw [readPlain_eq (by rwa [h.pending_arrived]), h.pending_arrived, Key.decrypt_encrypt]
  have hcases := readCb_request (h.arrived hne) (Eq.refl (Session.callRead P.table 0 _ .later
    (.alone (some ⟨some 0, none, port, ip⟩) _ [] [] replies)))
  rw [hread] at hcases
  rcases hcases with ⟨herr, -⟩ | ⟨-, ⟨hn, -⟩ | ⟨-, ip', ht⟩ | ⟨hd, -⟩⟩
  · exact absurd herr hparse
  · exact absurd h4 hn
  · exact ⟨_, ip', (run_delivery_iff h hne).2 ht, ((h.read hne).queue _).register (by simp) _ _⟩
  · exact absurd hd h4.not_asksDomain

variable {host port ip}

/-- The resolver answers and the connect starts. -/
theorem step_answer {queries replies : List (List UInt8)} (addr : InAddr)
    (hqueries : queries = [host]) :
    Step P (.alone (some ⟨some 0, none, port, ip⟩) c [host] queries replies)
      (.dnsDone host (.found ⟨.inet, addr⟩) 0)
      (.paired (some ⟨some 0, some 1, port, inetNtop addr⟩) c (newRemote 0) host
        (addr, UInt16.ofNat port) replies) := by
  subst hqueries
  simp only [Step, Session.fire, Session.alone, List.mem_singleton, if_true, List.erase_cons_head]
  rw [Server.resolve, dnsCb_found rfl]
  rfl

end Steps

theorem reach_resolving (hhost : ShortName host) :
    ∃ c ip, Run (Step P) .accepted
        (delivery (P.encrypt greetingMessage) .later ++
          delivery (P.encrypt (domainRequest host hi lo)) .later)
        (.alone (some ⟨some 0, none, portOf hi lo, ip⟩) c [host] [host]
          [methodReply.toList]) ∧ Idle c .handleLast (some .socks5Ctx) := by
  obtain ⟨c, hr, hc⟩ := reach_request P .later
  obtain ⟨c', ip, hr', hc'⟩ := run_domainRequest host hi lo 0 [] hc hhost _
  exact ⟨c', ip, hr.append hr', hc'⟩

theorem reach_ipv4 (addr : InAddr) :
    ∃ c ip, Run (Step P) .accepted
        (delivery (P.encrypt greetingMessage) .later ++
          delivery (P.encrypt (ipv4Request addr hi lo)) .later)
        (.alone (some ⟨some 0, none, portOf hi lo, ip⟩) c [] []
          [methodReply.toList, connectReply.toList]) ∧ Idle c .handleLast none := by
  obtain ⟨c, hr, hc⟩ := reach_request P .later
  obtain ⟨c', ip, hr', hc'⟩ := run_ipv4Request hi lo 0 [] hc addr _
  exact ⟨c', ip, hr.append hr', hc'⟩

/-- The events of a handshake with a host name, up to the answer of the
resolver. -/
def lookupEvents (addr : InAddr) : List Event :=
  delivery (P.encrypt greetingMessage) .later ++
    delivery (P.encrypt (domainRequest host hi lo)) .later ++
    [.dnsDone host (.found ⟨.inet, addr⟩) 0]

theorem reach_relay (hhost : ShortName host) (addr : InAddr) :
    ∃ c, Run (Step P) .accepted (lookupEvents P host hi lo addr)
        (.paired (some ⟨some 0, some 1, portOf hi lo, inetNtop addr⟩) c (newRemote 0)
          host (addr, UInt16.ofNat (portOf hi lo)) [methodReply.toList]) ∧
      Idle c .handleLast (some .socks5Ctx) := by
  obtain ⟨c, ip, hr, hc⟩ := reach_resolving P host hi lo hhost
  exact ⟨c, hr.snoc (step_answer addr rfl), hc⟩

/-- The remote's bufferevent once CONNECTED has been delivered. -/
def joinedRemote : Bufferevent Callbacks :=
  ((newRemote 0).socket .connected).takeEvent { connected := true }

/-- The same, up to the CONNECT reply. -/
def connectEvents (addr : InAddr) : List Event :=
  lookupEvents P host hi lo addr ++ [.socket 1 .connected, .eventCb 1]

theorem reach_joined (hhost : ShortName host) (addr : InAddr) :
    ∃ c, Run (Step P) .accepted (connectEvents P host hi lo addr)
        (.paired (some ⟨some 0, some 1, portOf hi lo, inetNtop addr⟩) c joinedRemote
          host (addr, UInt16.ofNat (portOf hi lo))
          [methodReply.toList, connectReply.toList]) ∧
      Idle c .handleLast (some .socks5Ctx) := by
  obtain ⟨c, hr, hc⟩ := reach_relay P host hi lo hhost addr
  have hconnected : ((newRemote 0).socket .connected).nextEvent = some { connected := true } := rfl
  have hjoin : Run (Step P)
      (.paired (some ⟨some 0, some 1, portOf hi lo, inetNtop addr⟩) c (newRemote 0) host
        (addr, UInt16.ofNat (portOf hi lo)) [methodReply.toList])
      [.socket 1 .connected, .eventCb 1]
      (.paired (some ⟨some 0, some 1, portOf hi lo, inetNtop addr⟩)
        (c.queue (P.encrypt connectReply.toList)) joinedRemote host
        (addr, UInt16.ofNat (portOf hi lo)) [methodReply.toList, connectReply.toList]) :=
    .cons (.socket (b := newRemote 0) rfl ⟨rfl, rfl⟩)
      (.single (.eventCb rfl hconnected (paired_connected hc.live rfl)))
  exact ⟨c.queue (P.encrypt connectReply.toList), hr.append hjoin, hc.queue _⟩

end Reach

end LightSocks
