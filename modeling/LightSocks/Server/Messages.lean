import LightSocks.Server.Registration

/-!
# The messages of the handshake, one by one

Each of the two handshake handlers is handed one message, whole, in a reachable
session, and compared with the message format.

* `Due` — the read callback is about to run on exactly these bytes.
* `greeting_accepted_iff` — which greetings are treated as the format asks.
* `domain_request_decoded_iff` — which host names are taken out of a request as the
  client put them in.
* `malformed_request_iff` — which malformed requests change nothing.
-/

namespace LightSocks

open Transition

variable {P : Key} {s t : Session} {c : Bufferevent Callbacks} {rd : ReadCb}
  {data m host : List UInt8} {choice : Choice}

/-- The read callback `rd` of the client `c` is about to run, with exactly `data` in the
input buffer. -/
structure Due (s : Session) (c : Bufferevent Callbacks) (rd : ReadCb) (data : List UInt8) :
    Prop where
  client : s.bevs[0]? = some c
  readDue : c.readDue = true
  readcb : c.callbacks.readcb = some rd
  pending : c.input.pending = data

/-- The read callback registered on the client. -/
def Session.handler (s : Session) : Option ReadCb :=
  (s.bevs[0]?).bind fun c => c.callbacks.readcb

/-- A callback that is due says which phase the session is in. -/
theorem Due.mode {mode : Mode} (hd : Due s c rd data) (h : Shape P mode s)
    (hrd : rd ≠ .handleLast) : mode.Live ∧ mode.handler = rd := by
  have hl : c.live = true := by
    have hdue := hd.readDue
    simp only [Bufferevent.readDue, Bool.and_eq_true] at hdue
    exact hdue.1.1
  have hlive := h.live_iff.1 ⟨c, hd.client, hl⟩
  refine ⟨hlive, ?_⟩
  by_cases h4 : mode = .ipv4
  · subst h4
    cases h with
    | ipv4 hc _ =>
        obtain rfl := Option.some.inj hd.client
        have hcb := hd.readcb
        rw [hc.callbacks] at hcb
        exact absurd (Option.some.inj hcb).symm hrd
  · obtain ⟨c', ctx, h0, hc, -, -⟩ := h.client hlive h4
    obtain rfl := Option.some.inj (hd.client.symm.trans h0)
    have hcb := hd.readcb
    rw [hc.callbacks] at hcb
    exact Option.some.inj hcb

theorem Due.greeting (hd : Due s c .localReadCb data) (hs : Reachable P s) :
    ∃ port ip, s = .alone (some ⟨some 0, none, port, ip⟩) c [] [] [] ∧
      Served c .localReadCb (some .socks5Ctx) := by
  obtain ⟨mode, h⟩ := hs.shape
  have hm := hd.mode h (by decide)
  cases h with
  | greeting hc _ =>
      obtain rfl := Option.some.inj hd.client
      exact ⟨_, _, rfl, hc⟩
  | orphaned _ _ | abandoned _ _ _ | closedAlone _ _ _ | closedPaired _ _ _ => exact absurd hm.1 id
  | _ => cases hm.2

theorem Due.request (hd : Due s c .handleSecond data) (hs : Reachable P s) :
    ∃ port ip, s = .alone (some ⟨some 0, none, port, ip⟩) c [] [] [methodReply.toList] ∧
      Served c .handleSecond (some .socks5Ctx) := by
  obtain ⟨mode, h⟩ := hs.shape
  have hm := hd.mode h (by decide)
  cases h with
  | request hc _ =>
      obtain rfl := Option.some.inj hd.client
      exact ⟨_, _, rfl, hc⟩
  | orphaned _ _ | abandoned _ _ _ | closedAlone _ _ _ | closedPaired _ _ _ => exact absurd hm.1 id
  | _ => cases hm.2

/-- The step is the call of the registered callback. -/
theorem Due.fire (hd : Due s c rd data) (choice : Choice) :
    s.fire P.table (.readCb 0 choice) = some (Session.callRead P.table 0 c.callbacks choice
      (s.setBev 0 c.takeRead)) := by
  unfold Session.fire
  simp only [hd.client, hd.readDue, if_true]

theorem Due.step_iff (P : Key) (hd : Due s c rd data) (choice : Choice) (t : Session) :
    Step P s (.readCb 0 choice) t ↔
      Session.callRead P.table 0 c.callbacks choice (s.setBev 0 c.takeRead) = .ok t := by
  rw [Step, hd.fire, Option.some.injEq]

/-- A message that arrives for an idle client is due. -/
theorem Idle.due_arrived {arg : Option CtxPtr} (h : Idle c rd arg) (hdata : data ≠ [])
    (ctx : Option Socks5ctx) (dns queries replies : List (List UInt8)) :
    Due (.alone ctx (LightSocks.arrived c data) dns queries replies) (LightSocks.arrived c data) rd
      data := by
  have hcb : (LightSocks.arrived c data).callbacks.readcb = some rd := by
    rw [(h.arrived hdata).callbacks]
    rfl
  exact ⟨rfl, h.readDue_arrived, hcb, h.pending_arrived⟩

theorem Idle.due {arg : Option CtxPtr} {ctx : Option Socks5ctx}
    {dns queries replies : List (List UInt8)} (h : Idle c rd arg)
    (hs : Reachable P (.alone ctx c dns queries replies)) (hdata : data ≠ []) :
    ∃ t c', Reachable P t ∧ Due t c' rd data := by
  have hrecv : Step P (.alone ctx c dns queries replies) (.socket 0 (.recv data))
      (.alone ctx (LightSocks.arrived c data) dns queries replies) :=
    .socket (b := c) rfl ⟨h.live, h.link, h.readEnabled, hdata⟩
  exact ⟨_, _, hs.run (.single hrecv), h.due_arrived hdata ctx dns queries replies⟩

/-! ## The greeting -/

/-- A greeting that offers no authentication: `05 n m1 … mn` with `00` among the
methods. -/
def NoAuthGreeting (m : List UInt8) : Prop :=
  ∃ n methods, m = 0x05 :: n :: methods ∧ 1 ≤ n.toNat ∧ methods.length = n.toNat ∧
    0x00 ∈ methods

/-- The method reply is written, and `handle_second` registered. -/
structure RepliesAndMoves (P : Key) (s t : Session) : Prop where
  replies : t.replies = s.replies ++ [methodReply.toList]
  sent : t.sent = s.sent ++ P.encrypt methodReply.toList
  handler : t.handler = some .handleSecond

/-- Nothing is written, and the session still waits for a greeting. -/
structure StaysSilent (s t : Session) : Prop where
  replies : t.replies = s.replies
  sent : t.sent = s.sent
  handler : t.handler = some .localReadCb

/-- What the format asks of the answer to the message `m`. -/
def GreetingAnswered (P : Key) (s : Session) (m : List UInt8) (choice : Choice) : Prop :=
  ∃ t, Step P s (.readCb 0 choice) t ∧ (RepliesAndMoves P s t ↔ NoAuthGreeting m) ∧
    (¬ NoAuthGreeting m → StaysSilent s t)

/-- The condition: the message is not `05 01` alone, nothing follows after
`05 01 00`, and it is no greeting with several methods. -/
structure PlainGreeting (m : List UInt8) : Prop where
  complete : m ≠ [0x05, 0x01]
  noMore : [0x05, 0x01, 0x00] <+: m → m = [0x05, 0x01, 0x00]
  oneMethod : NoAuthGreeting m → (m.getD 1 0).toNat = 1

/-- The test of `handle_first`, in terms of the message. -/
theorem isGreeting_iff (m : List UInt8) :
    IsGreeting m ↔ m = [0x05, 0x01] ∨ [0x05, 0x01, 0x00] <+: m := by
  unfold IsGreeting
  match m with
  | [] => simp
  | [a] => simp
  | [a, b] => simp
  | a :: b :: d :: rest => simp [List.cons_prefix_cons, eq_comm]

/-- **The test agrees with the format** exactly on plain greetings. -/
theorem isGreeting_iff_noAuthGreeting (m : List UInt8) :
    (IsGreeting m ↔ NoAuthGreeting m) ↔ PlainGreeting m := by
  have hone : ∀ n methods, m = 0x05 :: n :: methods → n.toNat = 1 → methods.length = n.toNat →
      0x00 ∈ methods → m = [0x05, 0x01, 0x00] := by
    rintro n methods rfl hn hlen hmem
    obtain rfl : n = 0x01 := UInt8.toNat_inj.1 hn
    obtain ⟨a, rfl⟩ := List.length_eq_one_iff.1 hlen
    rw [List.mem_singleton.1 hmem]
  have hgreeting : NoAuthGreeting [0x05, 0x01, 0x00] :=
    ⟨0x01, [0x00], rfl, le_rfl, rfl, List.mem_singleton_self _⟩
  rw [isGreeting_iff]
  constructor
  · intro h
    refine ⟨?_, ?_, ?_⟩
    · rintro rfl
      obtain ⟨n, methods, heq, -, -, hmem⟩ := h.1 (.inl rfl)
      cases heq
      cases hmem
    · intro hpre
      obtain ⟨n, methods, heq, -, hlen, hmem⟩ := h.1 (.inr hpre)
      obtain ⟨rest, hrest⟩ := hpre
      have hn : n.toNat = 1 := by
        rw [← hrest] at heq
        cases heq
        rfl
      exact hone n methods heq hn hlen hmem
    · intro hno
      rcases h.2 hno with rfl | ⟨rest, rfl⟩
      · rfl
      · rfl
  · intro h
    constructor
    · rintro (heq | hpre)
      · exact absurd heq h.complete
      · rw [h.noMore hpre]
        exact hgreeting
    · intro hno
      have hcount := h.oneMethod hno
      obtain ⟨n, methods, heq, -, hlen, hmem⟩ := hno
      have hn : n.toNat = 1 := by
        rw [heq] at hcount
        exact hcount
      rw [hone n methods heq hn hlen hmem]
      exact .inr (List.prefix_refl _)

/-- The answer is right when the test of `handle_first` is. -/
theorem greetingAnswered_iff (hs : Reachable P s) (hd : Due s c .localReadCb (P.encrypt m))
    (hlen : m.length ≤ 32) (choice : Choice) :
    GreetingAnswered P s m choice ↔ (IsGreeting m ↔ NoAuthGreeting m) := by
  obtain ⟨port, ip, rfl, hc⟩ := hd.greeting hs
  have hcall := readCb_greeting (P := P) hc port ip choice
  rw [hd.pending, if_neg (by simpa using hlen), Key.decrypt_encrypt] at hcall
  by_cases hg : IsGreeting m
  · rw [if_pos hg] at hcall
    have hstep := (hd.step_iff P choice _).2 hcall
    have hmoves : RepliesAndMoves P (.alone (some ⟨some 0, none, port, ip⟩) c [] [] [])
        (.alone (some ⟨some 0, none, port, ip⟩) (greeted P c) [] [] [methodReply.toList]) := by
      refine ⟨rfl, ?_, rfl⟩
      exact Fifo.stream_push _ _
    constructor
    · rintro ⟨t, ht, hiff, -⟩
      obtain rfl := step_deterministic P _ _ _ _ hstep ht
      exact ⟨fun _ => hiff.1 hmoves, fun _ => hg⟩
    · intro hiff
      exact ⟨_, hstep, ⟨fun _ => hiff.1 hg, fun _ => hmoves⟩, fun hno => absurd (hiff.1 hg) hno⟩
  · rw [if_neg hg] at hcall
    have hstep := (hd.step_iff P choice _).2 hcall
    have hsilent : StaysSilent (.alone (some ⟨some 0, none, port, ip⟩) c [] [] [])
        (.alone (some ⟨some 0, none, port, ip⟩) c.takeRead.drained [] [] []) :=
      ⟨rfl, rfl, hd.readcb⟩
    have hmoves : ¬ RepliesAndMoves P (.alone (some ⟨some 0, none, port, ip⟩) c [] [] [])
        (.alone (some ⟨some 0, none, port, ip⟩) c.takeRead.drained [] [] []) := by
      intro h
      cases h.replies
    constructor
    · rintro ⟨t, ht, hiff, -⟩
      obtain rfl := step_deterministic P _ _ _ _ hstep ht
      exact ⟨fun h => absurd h hg, fun h => absurd (hiff.2 h) hmoves⟩
    · intro hiff
      exact ⟨_, hstep, ⟨fun h => absurd h hmoves, fun h => absurd (hiff.2 h) hg⟩, fun _ => hsilent⟩

/-- **Which greetings are treated as the format asks.**  For every message of at
most 32 bytes, handed whole to `handle_first`. -/
theorem greeting_accepted_iff (hs : Reachable P s) (hd : Due s c .localReadCb (P.encrypt m))
    (hlen : m.length ≤ 32) (choice : Choice) : GreetingAnswered P s m choice ↔ PlainGreeting m :=
  (greetingAnswered_iff hs hd hlen choice).trans (isGreeting_iff_noAuthGreeting m)

/-- A session that waits for the greeting gets the message `m`. -/
theorem greeting_due (P : Key) (hm : m ≠ []) : ∃ s c, Reachable P s ∧
    Due s c .localReadCb (P.encrypt m) := by
  obtain ⟨c, hacc, hc⟩ := accepted_idle
  have hs := Reachable.accepted P
  rw [hacc] at hs
  exact hc.due hs (encrypt_ne_nil P hm)

/-- `05 01 00` is answered. -/
theorem greeting_accepted_plain : ∃ s c, Reachable Key.identity s ∧
    Due s c .localReadCb (Key.identity.encrypt greetingMessage) ∧
    GreetingAnswered Key.identity s greetingMessage .later := by
  obtain ⟨s, c, hs, hd⟩ := greeting_due (m := greetingMessage) Key.identity (by decide)
  exact ⟨s, c, hs, hd, (greeting_accepted_iff hs hd (by decide) .later).2
    ⟨by decide, fun _ => rfl, fun _ => rfl⟩⟩

/-- A greeting that offers two methods, no authentication first, is not answered. -/
theorem greeting_two_methods : ∃ s c, Reachable Key.identity s ∧
    Due s c .localReadCb (Key.identity.encrypt [0x05, 0x02, 0x00, 0x02]) ∧
    NoAuthGreeting [0x05, 0x02, 0x00, 0x02] ∧
    ¬ GreetingAnswered Key.identity s [0x05, 0x02, 0x00, 0x02] .later := by
  obtain ⟨s, c, hs, hd⟩ := greeting_due (m := [0x05, 0x02, 0x00, 0x02]) Key.identity (by decide)
  have hno : NoAuthGreeting [0x05, 0x02, 0x00, 0x02] :=
    ⟨0x02, [0x00, 0x02], rfl, by decide, rfl, by decide⟩
  refine ⟨s, c, hs, hd, hno, ?_⟩
  intro h
  have hiff := (greetingAnswered_iff hs hd (by decide) .later).1 h
  exact absurd (hiff.2 hno) (by decide)

/-! ## The request for a host name -/

/-- `05 01 00 03 |host| host p_hi p_lo`. -/
def requestFor (host : List UInt8) (port : ℕ) : List UInt8 :=
  domainRequest host (UInt8.ofNat (port / 256)) (UInt8.ofNat (port % 256))

/-- The lookup is for exactly `host`, the port is stored, `handle_last` registered, and
exactly the bytes of the request consumed, none being left. -/
structure DomainRequested (P : Key) (s t : Session) (host : List UInt8) (port : ℕ) : Prop where
  query : t.queries = s.queries ++ [host]
  stored : ∃ ctx, t.context = some ctx ∧ ctx.requestPort = port
  handler : t.handler = some .handleLast
  consumed : t.consumed = s.consumed ++ P.encrypt (requestFor host port)
  rest : ∀ b, t.bevs[0]? = some b → b.input.pending = []

/-- The two bytes of a port are put together again. -/
theorem portOf_split {port : ℕ} (h : port < 65536) :
    portOf (UInt8.ofNat (port / 256)) (UInt8.ofNat (port % 256)) = port := by
  have hhi : (UInt8.ofNat (port / 256)).toNat = port / 256 :=
    UInt8.toNat_ofNat_of_lt' (by rw [UInt8.size]; omega)
  have hlo : (UInt8.ofNat (port % 256)).toNat = port % 256 :=
    UInt8.toNat_ofNat_of_lt' (by rw [UInt8.size]; omega)
  have hlt : port % 256 < 2 ^ 8 := Nat.mod_lt _ (by decide)
  rw [portOf, hhi, hlo, ← Nat.shiftLeft_add_eq_or_of_lt hlt, Nat.shiftLeft_eq]
  omega

/-- What the read callback does with a message, in a session that waits for the
request. -/
theorem Due.request_cases (hd : Due s c .handleSecond (P.encrypt m)) {port : ℕ} {ip : List UInt8}
    (hs : s = .alone (some ⟨some 0, none, port, ip⟩) c [] [] [methodReply.toList])
    (hc : Served c .handleSecond (some .socks5Ctx)) (choice : Choice) :
    (7 ≤ m.length ∧ (m.length ≤ 32 → parseRequest m = .error .outOfBounds) ∧
        ∀ t, ¬ Step P s (.readCb 0 choice) t) ∨
      m.length ≤ 32 ∧ (¬ AsksIpv4 m ∧ ¬ AsksDomain m ∧ Step P s (.readCb 0 choice)
          (.alone (some ⟨some 0, none, port, ip⟩) c.takeRead.drained [] [] [methodReply.toList]) ∨
        AsksIpv4 m ∧ (∃ ip', Step P s (.readCb 0 choice)
          (.alone (some ⟨some 0, none, portAtEnd m, ip'⟩) (answeredIpv4 P c) [] []
            ([methodReply.toList] ++ [connectReply.toList]))) ∨
        AsksDomain m ∧ ∀ t, Step P s (.readCb 0 choice) t ↔ askAndRegister 0 (hostOf m) choice
          (.alone (some ⟨some 0, none, portAtEnd m, ip⟩) c.takeRead.drained [] []
            [methodReply.toList]) = .ok t) := by
  subst hs
  have hstep := hd.step_iff P choice
  rcases readCb_request hc (Eq.refl (Session.callRead P.table 0 c.callbacks choice
    (.alone (some ⟨some 0, none, port, ip⟩) c.takeRead [] [] [methodReply.toList]))) with
    ⟨hparse, herr⟩ | ⟨hlen, hcases⟩
  · have hm : m.length ≤ 32 → parseRequest m = .error .outOfBounds := by
      intro h32
      rwa [readPlain_eq (by rwa [hd.pending, Key.length_encrypt]), hd.pending,
        Key.decrypt_encrypt] at hparse
    refine .inl ⟨?_, hm, ?_⟩
    · by_contra h7
      have herr := hm (by omega)
      rw [parseRequest, if_pos (not_le.1 h7)] at herr
      cases herr
    · intro t ht
      have hok := (hstep t).1 ht
      exact absurd (hok.symm.trans herr) (by simp)
  · have hread : readPlain P c = m := by
      rw [readPlain_eq hlen, hd.pending, Key.decrypt_encrypt]
    rw [hd.pending, Key.length_encrypt] at hlen
    rw [hread] at hcases
    refine .inr ⟨hlen, ?_⟩
    rcases hcases with ⟨h4, hdom, ht⟩ | ⟨h4, ip', ht⟩ | ⟨hdom, -, hask⟩
    · exact .inl ⟨h4, hdom, (hstep _).2 ht⟩
    · exact .inr (.inl ⟨h4, ip', (hstep _).2 ht⟩)
    · refine .inr (.inr ⟨hdom, ?_⟩)
      intro t
      rw [hstep, ← hask]
      rfl

/-- What `askAndRegister` leaves behind, whatever the resolver answers. -/
theorem askAndRegister_inv {port : ℕ} {ip : List UInt8} {replies : List (List UInt8)}
    (hl : c.live = true) (h : askAndRegister 0 host choice
      (.alone (some ⟨some 0, none, port, ip⟩) c [] [] replies) = .ok t) :
    t.queries = [host] ∧ (∃ ctx, t.context = some ctx ∧ ctx.requestPort = port) ∧
      t.bevs[0]? = some (c.register (clientCallbacks .handleLast (some .socks5Ctx))) := by
  rcases askAndRegister_alone host choice hl h with
    ⟨-, ht⟩ | ⟨result, -, -, ht⟩ | ⟨result, addr, -, -, ⟨-, ht⟩ | ⟨-, ht⟩⟩ | ⟨-, ht⟩
  all_goals cases ht
  all_goals exact ⟨rfl, ⟨_, rfl, rfl⟩, rfl⟩

theorem askAndRegister_ok {port : ℕ} {ip : List UInt8} {replies : List (List UInt8)}
    (hl : c.live = true) (hchoice : choice.AnswersIpv4) :
    ∃ t, askAndRegister 0 host choice
      (.alone (some ⟨some 0, none, port, ip⟩) c [] [] replies) = .ok t := by
  rcases askAndRegister_alone host choice hl (Eq.refl (askAndRegister 0 host choice
      (.alone (some ⟨some 0, none, port, ip⟩) c [] [] replies))) with
    ⟨-, h⟩ | ⟨result, -, -, h⟩ | ⟨result, addr, -, -, ⟨-, h⟩ | ⟨-, h⟩⟩ | ⟨⟨addr, hres⟩, -⟩
  · exact ⟨_, h⟩
  · exact ⟨_, h⟩
  · exact ⟨_, h⟩
  · exact ⟨_, h⟩
  · cases hchoice _ hres

/-- **Which host names are decoded.**  For every host name of at most 255 bytes
without NUL and every port, the request being handed whole to `handle_second`. -/
theorem domain_request_decoded_iff {port : ℕ} (hs : Reachable P s) (hlen : host.length ≤ 255)
    (hnul : ∀ b ∈ host, b ≠ 0) (hport : port < 65536)
    (hd : Due s c .handleSecond (P.encrypt (requestFor host port)))
    (hchoice : choice.AnswersIpv4) :
    (∃ t, Step P s (.readCb 0 choice) t ∧ DomainRequested P s t host port) ↔
      host.length ≤ 25 := by
  obtain ⟨port₀, ip, hshape, hc⟩ := hd.request hs
  have hreq : (requestFor host port).length = host.length + 7 := length_domainRequest _ _ _
  rcases hd.request_cases hshape hc choice with
    ⟨-, hparse, hfault⟩ | ⟨h32, ⟨-, hnot, -⟩ | ⟨h4, -⟩ | ⟨-, hask⟩⟩
  · -- the scratch arrays overflow
    refine iff_of_false ?_ ?_
    · rintro ⟨t, ht, -⟩
      exact hfault t ht
    · intro h25
      exact parseRequest_domainRequest ⟨hnul, h25⟩ (hparse (by omega))
  · exact absurd asksDomain_domainRequest hnot
  · exact absurd h4 not_asksIpv4_domainRequest
  · have h25 : host.length ≤ 25 := by omega
    have hshort : ShortName host := ⟨hnul, h25⟩
    refine iff_of_true ?_ h25
    have hhost : hostOf (requestFor host port) = host := hostOf_domainRequest hshort
    have hportEnd : portAtEnd (requestFor host port) = port :=
      portAtEnd_domainRequest.trans (portOf_split hport)
    rw [hhost, hportEnd] at hask
    obtain ⟨t, ht⟩ := askAndRegister_ok (c := c.takeRead.drained) hc.live hchoice
    obtain ⟨hquery, hctx, hbev⟩ := askAndRegister_inv (c := c.takeRead.drained) hc.live ht
    refine ⟨t, (hask t).2 ht, ?_, hctx, ?_, ?_, ?_⟩
    · rw [hquery, hshape]
      rfl
    · unfold Session.handler
      rw [hbev]
      rfl
    · unfold Session.consumed
      rw [hbev, hshape]
      show c.input.past ++ c.input.pending = c.input.past ++ _
      rw [hd.pending]
    · intro b hb
      obtain rfl := Option.some.inj (hbev.symm.trans hb)
      rfl

/-- A session that waits for the request gets the message `m`. -/
theorem request_due (P : Key) (hm : m ≠ []) : ∃ s c, Reachable P s ∧
    Due s c .handleSecond (P.encrypt m) := by
  obtain ⟨c, hr, hc⟩ := reach_request P .later
  exact hc.due ⟨_, hr⟩ (encrypt_ne_nil P hm)

/-- A short name is decoded. -/
theorem domain_request_decoded_short : ∃ s c, Reachable Key.identity s ∧
    Due s c .handleSecond (Key.identity.encrypt (requestFor [0x61] 80)) ∧
    ∃ t, Step Key.identity s (.readCb 0 .later) t ∧
      DomainRequested Key.identity s t [0x61] 80 := by
  obtain ⟨s, c, hs, hd⟩ := request_due (m := requestFor [0x61] 80) Key.identity
    (List.cons_ne_nil _ _)
  exact ⟨s, c, hs, hd, (domain_request_decoded_iff hs (by simp) (by simp) (by omega) hd
    Choice.later_answersIpv4).2 (by decide)⟩

/-- A name of 26 letters overruns the scratch array of `decrypt_bytes`. -/
theorem domain_request_overflow : ∃ s c, Reachable Key.identity s ∧
    Due s c .handleSecond (Key.identity.encrypt (requestFor (List.replicate 26 0x61) 80)) ∧
    ¬ ∃ t, Step Key.identity s (.readCb 0 .later) t ∧
      DomainRequested Key.identity s t (List.replicate 26 0x61) 80 := by
  obtain ⟨s, c, hs, hd⟩ := request_due (m := requestFor (List.replicate 26 0x61) 80) Key.identity
    (List.cons_ne_nil _ _)
  refine ⟨s, c, hs, hd, ?_⟩
  rintro ⟨t, ht, -⟩
  obtain ⟨port, ip, hshape, hc⟩ := hd.request hs
  rcases hd.request_cases hshape hc .later with ⟨-, -, hfault⟩ | ⟨h32, -⟩
  · exact hfault t ht
  · rw [requestFor, length_domainRequest, List.length_replicate] at h32
    omega

/-! ## Malformed requests -/

/-- A CONNECT request as the format has it. -/
def WellFormedRequest (m : List UInt8) : Prop :=
  m.getD 0 0 = 0x05 ∧ m.getD 1 0 = 0x01 ∧ m.getD 2 0 = 0x00 ∧
    (m.getD 3 0 = 0x01 ∧ m.length = 10 ∨
      m.getD 3 0 = 0x03 ∧ 1 ≤ (m.getD 4 0).toNat ∧ m.length = 7 + (m.getD 4 0).toNat)

/-- No lookup, no reply, and the context and the registered callbacks are what they
were. -/
structure NothingChanged (s t : Session) : Prop where
  queries : t.queries = s.queries
  dns : t.dns = s.dns
  replies : t.replies = s.replies
  sent : t.sent = s.sent
  context : t.context = s.context
  callbacks : (t.bevs[0]?).map (·.callbacks) = (s.bevs[0]?).map (·.callbacks)

/-- A message within the scratch arrays overruns an array only as a request for a
host name. -/
theorem asksDomain_of_error (h32 : m.length ≤ 32)
    (h : parseRequest m = .error .outOfBounds) : AsksDomain m := by
  unfold parseRequest at h
  rw [if_neg (not_lt.2 h32)] at h
  split at h
  · cases h
  split at h
  · cases h
  split at h
  · cases h
  split at h
  · rename_i h7 h1 _ h3
    exact ⟨not_lt.1 h7, not_not.1 h1, h3⟩
  · cases h

/-- A message changes nothing when it is ignored. -/
theorem nothingChanged_iff (hs : Reachable P s) (hd : Due s c .handleSecond (P.encrypt m))
    (choice : Choice) : (∃ t, Step P s (.readCb 0 choice) t ∧ NothingChanged s t) ↔
      m.length < 7 ∨ m.length ≤ 32 ∧ ¬ AsksIpv4 m ∧ ¬ AsksDomain m := by
  obtain ⟨port, ip, hshape, hc⟩ := hd.request hs
  rcases hd.request_cases hshape hc choice with
    ⟨h7, hparse, hfault⟩ | ⟨h32, ⟨h4, hdom, hstep⟩ | ⟨h4, ip', hstep⟩ | ⟨hdom, hask⟩⟩
  · refine iff_of_false ?_ ?_
    · rintro ⟨t, ht, -⟩
      exact hfault t ht
    · rintro (hlt | ⟨h32, -, hdom⟩)
      · omega
      · exact hdom (asksDomain_of_error h32 (hparse h32))
  · refine iff_of_true ⟨_, hstep, ?_⟩ (.inr ⟨h32, h4, hdom⟩)
    rw [hshape]
    exact ⟨rfl, rfl, rfl, rfl, rfl, rfl⟩
  · refine iff_of_false ?_ ?_
    · rintro ⟨t, ht, hn⟩
      obtain rfl := step_deterministic P _ _ _ _ hstep ht
      have hreplies := hn.replies
      rw [hshape] at hreplies
      cases hreplies
    · rintro (h7 | ⟨-, hn, -⟩)
      · exact absurd h4.1 (by omega)
      · exact hn h4
  · refine iff_of_false ?_ ?_
    · rintro ⟨t, ht, hn⟩
      have hok := (hask t).1 ht
      have hqueries := hn.queries
      rw [(askAndRegister_inv (c := c.takeRead.drained) hc.live hok).1, hshape] at hqueries
      cases hqueries
    · rintro (h7 | ⟨-, -, hn⟩)
      · exact absurd hdom.1 (by omega)
      · exact hn hdom

/-- **Which malformed requests change nothing.**  For every message, handed whole to
`handle_second`. -/
theorem malformed_request_iff (hs : Reachable P s) (hd : Due s c .handleSecond (P.encrypt m))
    (choice : Choice) : (¬ WellFormedRequest m →
        ∃ t, Step P s (.readCb 0 choice) t ∧ NothingChanged s t) ↔
      WellFormedRequest m ∨ m.length < 7 ∨
        m.length ≤ 32 ∧ ¬ AsksIpv4 m ∧ ¬ AsksDomain m := by
  rw [← or_iff_not_imp_left]
  exact or_congr_right (nothingChanged_iff hs hd choice)

/-- A BIND request changes nothing. -/
theorem malformed_request_bind : ∃ s c, Reachable Key.identity s ∧
    Due s c .handleSecond (Key.identity.encrypt [0x05, 0x02, 0x00, 0x01, 127, 0, 0, 1, 0, 80]) ∧
    ∃ t, Step Key.identity s (.readCb 0 .later) t ∧ NothingChanged s t := by
  obtain ⟨s, c, hs, hd⟩ := request_due (m := [0x05, 0x02, 0x00, 0x01, 127, 0, 0, 1, 0, 80])
    Key.identity (by decide)
  have hbad : ¬ WellFormedRequest [0x05, 0x02, 0x00, 0x01, 127, 0, 0, 1, 0, 80] :=
    fun h => absurd h.2.1 (by decide)
  exact ⟨s, c, hs, hd, (malformed_request_iff hs hd .later).2
    (.inr (.inr ⟨by decide, by decide, by decide⟩)) hbad⟩

/-- A request that declares five bytes of host name and carries one starts a lookup. -/
theorem malformed_request_lookup : ∃ s c, Reachable Key.identity s ∧
    Due s c .handleSecond (Key.identity.encrypt [0x05, 0x01, 0x00, 0x03, 0x05, 0x61, 0, 80]) ∧
    ¬ WellFormedRequest [0x05, 0x01, 0x00, 0x03, 0x05, 0x61, 0, 80] ∧
    (∃ t, Step Key.identity s (.readCb 0 .later) t ∧ t.queries = [[0x61]]) ∧
    ¬ ∃ t, Step Key.identity s (.readCb 0 .later) t ∧ NothingChanged s t := by
  obtain ⟨s, c, hs, hd⟩ := request_due (m := [0x05, 0x01, 0x00, 0x03, 0x05, 0x61, 0, 80])
    Key.identity (by decide)
  refine ⟨s, c, hs, hd, ?_, ?_, ?_⟩
  · rintro ⟨-, -, -, ⟨h, -⟩ | ⟨-, -, h⟩⟩
    · exact absurd h (by decide)
    · exact absurd h (by decide)
  · obtain ⟨port, ip, hshape, hc⟩ := hd.request hs
    rcases hd.request_cases hshape hc .later with
      ⟨-, hparse, -⟩ | ⟨-, ⟨-, hno, -⟩ | ⟨h4, -⟩ | ⟨-, hask⟩⟩
    · exact absurd (hparse (by decide)) (by decide)
    · exact absurd hno (not_not.2 (by decide))
    · exact absurd h4 (by decide)
    · obtain ⟨t, ht⟩ := askAndRegister_ok (c := c.takeRead.drained) hc.live
        Choice.later_answersIpv4
      exact ⟨t, (hask t).2 ht, (askAndRegister_inv (c := c.takeRead.drained) hc.live ht).1⟩
  · rw [nothingChanged_iff hs hd .later]
    rintro (h | ⟨-, -, h⟩)
    · exact absurd h (by decide)
    · exact h (by decide)

end LightSocks
