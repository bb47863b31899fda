import LightSocks.Server.Lifecycle

/-!
# Every session is a run of the automaton

The states of a session are exactly accounted for by the phases of its life.

* `Outcome` — what an event can lead to in a phase: a move of the automaton
  into a state of the next phase, or one of the listed failures.
* `fire_greeting`, …, `fire_closed` — the outcome of every event, phase by phase.
* `fire_outcome` — **the simulation**: whatever happens in a state of some phase
  has one of the outcomes of that phase.
* `Reachable.shape`, `run_moves` — every reachable state is a state of some
  phase, and every run of a session is a run of the automaton.
-/

namespace LightSocks

open Transition

variable {P : Key}

/-! ## What can happen at all -/

namespace Session

variable {s : Session} {r : Except Fault Session}

theorem fire_socket {T : Table} {p : BevPtr} {e : SocketEvent}
    (h : s.fire T (.socket p e) = some r) :
    ∃ b, s.bevs[p]? = some b ∧ b.Admits e ∧ r = .ok (s.setBev p (b.socket e)) := by
  simp only [fire] at h
  split at h
  · cases h
  · rename_i b hb
    split at h
    · rename_i he
      exact ⟨b, hb, he, (Option.some.inj h).symm⟩
    · cases h

theorem fire_readCb {T : Table} {p : BevPtr} {choice : Choice}
    (h : s.fire T (.readCb p choice) = some r) :
    ∃ b, s.bevs[p]? = some b ∧ b.readDue = true ∧
      r = callRead T p b.callbacks choice (s.setBev p b.takeRead) := by
  simp only [fire] at h
  split at h
  · cases h
  · rename_i b hb
    split at h
    · rename_i hdue
      exact ⟨b, hb, hdue, (Option.some.inj h).symm⟩
    · cases h

theorem fire_eventCb {T : Table} {p : BevPtr} (h : s.fire T (.eventCb p) = some r) :
    ∃ b w, s.bevs[p]? = some b ∧ b.nextEvent = some w ∧
      r = callEvent T p b.callbacks w (s.setBev p (b.takeEvent w)) := by
  simp only [fire] at h
  split at h
  · cases h
  · rename_i b hb
    split at h
    · cases h
    · rename_i w hw
      exact ⟨b, w, hb, hw, (Option.some.inj h).symm⟩

theorem fire_dnsDone {T : Table} {nodename : List UInt8} {result : DnsResult} {re : ℤ}
    (h : s.fire T (.dnsDone nodename result re) = some r) :
    nodename ∈ s.dns ∧ r = Server.resolve re result { s with dns := s.dns.erase nodename } := by
  simp only [fire] at h
  split at h
  · rename_i hmem
    exact ⟨hmem, (Option.some.inj h).symm⟩
  · cases h

end Session

theorem getElem?_one {α : Type*} {a b : α} {p : ℕ} (h : [a][p]? = some b) : p = 0 ∧ b = a := by
  cases p with
  | zero => exact ⟨rfl, (Option.some.inj h).symm⟩
  | succ p => cases h

theorem getElem?_two {α : Type*} {a a' b : α} {p : ℕ} (h : [a, a'][p]? = some b) :
    p = 0 ∧ b = a ∨ p = 1 ∧ b = a' := by
  match p with
  | 0 => exact .inl ⟨rfl, (Option.some.inj h).symm⟩
  | 1 => exact .inr ⟨rfl, (Option.some.inj h).symm⟩
  | p + 2 => cases h

/-! ## Outcomes -/

/-- What an event of the state `s` can lead to, in the phase `m`. -/
inductive Outcome (P : Key) (s : Session) (e : Event) (m : Mode) : Except Fault Session → Prop where
  | ok {t : Session} {k : Kind} {m' : Mode} (hkind : kind P s e = k) (hmove : Move m k m')
      (hshape : Shape P m' t) : Outcome P s e m (.ok t)
  | error {f : Fault} (h : Fails m e f) : Outcome P s e m (.error f)

theorem Outcome.stay {s t : Session} {e : Event} {m : Mode} (hk : kind P s e = .internal)
    (hshape : Shape P m t) : Outcome P s e m (.ok t) :=
  .ok hk (.stay m) hshape

theorem followsGrammar_alone {ctx : Option Socks5ctx} {c : Bufferevent Callbacks}
    {dns queries replies : List (List UInt8)} {m : List UInt8}
    (hout : c.output.stream = P.encrypt m)
    (hm : m <+: methodReply.toList ++ connectReply.toList) :
    FollowsGrammar P (.alone ctx c dns queries replies) := by
  have hsent : (Session.alone ctx c dns queries replies).sent = P.encrypt m := hout
  rw [FollowsGrammar, hsent, Key.decrypt_encrypt]
  exact hm.trans (List.prefix_append _ _)

theorem followsGrammar_paired {ctx : Option Socks5ctx} {c r : Bufferevent Callbacks}
    {host : List UInt8} {target : Target} {replies : List (List UInt8)} {m : List UInt8}
    (hout : c.output.stream = P.encrypt m)
    (hm : m <+: methodReply.toList ++ connectReply.toList ++ r.input.stream) :
    FollowsGrammar P (.paired ctx c r host target replies) := by
  have hsent : (Session.paired ctx c r host target replies).sent = P.encrypt m := hout
  rw [FollowsGrammar, hsent, Key.decrypt_encrypt]
  exact hm

/-! ## Sessions without a remote bufferevent -/

section Alone

variable {c : Bufferevent Callbacks} {rd : ReadCb} {arg : Option CtxPtr}
  {ctx : Option Socks5ctx} {port : ℕ} {ip : List UInt8} {dns queries replies : List (List UInt8)}
  {r : Except Fault Session} {p : BevPtr}

theorem alone_socket {T : Table} {e : SocketEvent} (hc : Served c rd arg)
    (h : (Session.alone ctx c dns queries replies).fire T (.socket p e) = some r) :
    ∃ c', Served c' rd arg ∧ c'.output.stream = c.output.stream ∧
      r = .ok (.alone ctx c' dns queries replies) := by
  obtain ⟨b, hb, he, rfl⟩ := Session.fire_socket h
  obtain ⟨rfl, rfl⟩ := getElem?_one hb
  obtain ⟨hc', hout, -⟩ := hc.socket he
  exact ⟨_, hc', hout, rfl⟩

theorem alone_readCb {T : Table} {choice : Choice}
    (h : (Session.alone ctx c dns queries replies).fire T (.readCb p choice) = some r) :
    p = 0 ∧ r = Session.callRead T 0 c.callbacks choice
      (.alone ctx c.takeRead dns queries replies) := by
  obtain ⟨b, hb, -, rfl⟩ := Session.fire_readCb h
  obtain ⟨rfl, rfl⟩ := getElem?_one hb
  exact ⟨rfl, rfl⟩

/-- The event callback of a client without a partner releases what there is. -/
theorem alone_ends {T : Table} {w : What} (hc : Served c rd (some .socks5Ctx))
    (hw : c.nextEvent = some w) :
    Session.callEvent T 0 c.callbacks w
        (.alone (some ⟨some 0, none, port, ip⟩) (c.takeEvent w) dns queries replies) =
      .ok (.alone none (c.takeEvent w).release dns queries replies) := by
  obtain ⟨htimeout, hend, -, -⟩ := hc.nextEvent hw
  rw [Session.callEvent, hc.callbacks]
  exact (localEventCb_terminal htimeout hend).trans
    (releaseLocal_alone (p := 0) (c := c.takeEvent w) rfl rfl rfl rfl hc.live)

/-- A live client without a partner ends the session with its first event
callback. -/
theorem alone_eventCb {T : Table} (hc : Served c rd (some .socks5Ctx))
    (h : (Session.alone (some ⟨some 0, none, port, ip⟩) c dns queries replies).fire T
      (.eventCb p) = some r) :
    kind P (.alone (some ⟨some 0, none, port, ip⟩) c dns queries replies) (.eventCb p) =
        .terminal ∧
      ∃ c', c'.live = false ∧ c'.output = c.output ∧
        r = .ok (.alone none c' dns queries replies) := by
  obtain ⟨b, w, hb, hw, rfl⟩ := Session.fire_eventCb h
  obtain ⟨rfl, rfl⟩ := getElem?_one hb
  have hterm := (hc.nextEvent hw).2.2.1
  exact ⟨by rw [kind_eventCb hb hw, if_pos hterm], (b.takeEvent w).release, rfl, rfl,
    alone_ends hc hw⟩

/-- Nothing happens to a dead bufferevent. -/
theorem alone_dead {T : Table} {e : Event} (hc : c.live = false)
    (h : (Session.alone ctx c dns queries replies).fire T e = some r) :
    ∃ nodename result re, e = .dnsDone nodename result re := by
  cases e with
  | socket p e =>
      obtain ⟨b, hb, he, -⟩ := Session.fire_socket h
      obtain ⟨-, rfl⟩ := getElem?_one hb
      cases e <;> simp [Bufferevent.Admits, hc] at he
  | readCb p choice =>
      obtain ⟨b, hb, hdue, -⟩ := Session.fire_readCb h
      obtain ⟨-, rfl⟩ := getElem?_one hb
      simp [Bufferevent.readDue, hc] at hdue
  | eventCb p =>
      obtain ⟨b, w, hb, hw, -⟩ := Session.fire_eventCb h
      obtain ⟨-, rfl⟩ := getElem?_one hb
      simp [Bufferevent.nextEvent, hc] at hw
  | dnsDone nodename result re => exact ⟨nodename, result, re, rfl⟩

/-- A short message is taken out whole by one read. -/
theorem readPlain_eq {c : Bufferevent Callbacks} (h : c.input.pending.length ≤ 32) :
    readPlain P c = P.decrypt c.input.pending := by
  rw [readPlain, List.take_of_length_le (by omega)]

theorem length_readPlain {c : Bufferevent Callbacks} :
    (readPlain P c).length ≤ 32 ↔ c.input.pending.length ≤ 32 := by
  simp only [readPlain, Key.length_decrypt, List.length_take]
  omega

/-- The client once its greeting has been accepted. -/
def greeted (P : Key) (c : Bufferevent Callbacks) : Bufferevent Callbacks :=
  (c.takeRead.drained.queue (P.encrypt methodReply.toList)).register
    (clientCallbacks .handleSecond (some .socks5Ctx))

theorem readCb_greeting (hc : Served c .localReadCb (some .socks5Ctx)) (port : ℕ)
    (ip : List UInt8) (choice : Choice) :
    Session.callRead P.table 0 c.callbacks choice
        (.alone (some ⟨some 0, none, port, ip⟩) c.takeRead [] [] []) =
      if 32 < c.input.pending.length then .error .outOfBounds
      else if IsGreeting (P.decrypt c.input.pending) then
        .ok (.alone (some ⟨some 0, none, port, ip⟩) (greeted P c) [] [] [methodReply.toList])
      else .ok (.alone (some ⟨some 0, none, port, ip⟩) c.takeRead.drained [] [] []) := by
  rw [Session.callRead, hc.callbacks]
  change Socks5.handleFirst P.table 0 _ = _
  rw [handleFirst_eq (p := 0) (c := c.takeRead) rfl rfl rfl hc.live,
    show readPlain P c.takeRead = readPlain P c from rfl]
  by_cases h32 : 32 < c.input.pending.length
  · rw [if_pos h32, if_pos (not_le.1 (mt length_readPlain.1 (not_le.2 h32)))]
  · have hle := not_lt.1 h32
    rw [if_neg h32, if_neg (not_lt.2 (length_readPlain.2 hle)), readPlain_eq hle,
      Bufferevent.consume_eq_drained (b := c.takeRead) (hle.trans (by omega))]
    rfl

theorem fire_greeting {s : Session} {e : Event} (h : Shape P .greeting s)
    (hf : s.fire P.table e = some r) : Outcome P s e .greeting r := by
  cases h with
  | greeting hc hout =>
    cases e with
    | socket p e =>
        obtain ⟨c', hc', hout', rfl⟩ := alone_socket hc hf
        exact .stay rfl (.greeting hc' (hout'.trans hout))
    | eventCb p =>
        obtain ⟨hk, c', hdead, hout', rfl⟩ := alone_eventCb (P := P) hc hf
        refine .ok hk (.closed (.inl rfl)) (.closedAlone hdead List.not_mem_nil ?_)
        exact followsGrammar_alone (m := []) (by rw [hout', hout]; rfl) List.nil_prefix
    | dnsDone nodename result re => exact absurd (Session.fire_dnsDone hf).1 List.not_mem_nil
    | readCb p choice =>
        rename_i c port ip
        obtain ⟨rfl, rfl⟩ := alone_readCb hf
        have hk : kind P (.alone (some ⟨some 0, none, port, ip⟩) c [] [] []) (.readCb 0 choice) =
            .internal := kind_readCb rfl (by rw [hc.callbacks]; simp [clientCallbacks])
        rw [readCb_greeting hc]
        split
        · exact .error (.overflow (.inl rfl))
        split
        · refine .ok hk .greeted (.request ((hc.read.queue _).register (by simp) _ _) ?_)
          have hempty : c.takeRead.drained.output.stream = [] := hout
          simp [greeted, Bufferevent.register, Bufferevent.queue, hempty]
        · exact .stay hk (.greeting hc.read hout)

/-- The resolver answers a session without a partner. -/
theorem resolve_alone {host : List UInt8} (re : ℤ) (result : DnsResult)
    (hr : Server.resolve re result
      (.alone (some ⟨some 0, none, port, ip⟩) c [] [host] replies) = r) :
    (result.kind = .internal ∧
        r = .ok (.alone (some ⟨some 0, none, port, ip⟩) c [] [host] replies)) ∨
      (∃ addr, result.kind = .getsAddress addr ∧
        (re = 0 ∧ r = .ok (.paired (some ⟨some 0, some 1, port, inetNtop addr⟩) c (newRemote 0) host
            (addr, UInt16.ofNat port) replies) ∨
          re ≠ 0 ∧ r = .ok (.paired (some ⟨some 0, none, port, inetNtop addr⟩) c (newRemote re) host
            (addr, UInt16.ofNat port) replies))) ∨
      ((∃ addr, result = .found ⟨.unknown, addr⟩) ∧ r = .error .exited) := by
  subst hr
  rcases resolve_cases (s := .alone (some ⟨some 0, none, port, ip⟩) c [] [host] replies) rfl re
    result with ⟨e, rfl, h⟩ | ⟨addr, rfl, h⟩ | h
  · exact .inl ⟨rfl, h⟩
  · refine .inr (.inl ⟨addr, rfl, ?_⟩)
    rw [h]
    by_cases hre : re = 0
    · subst hre
      exact .inl ⟨rfl, rfl⟩
    · refine .inr ⟨hre, ?_⟩
      simp only [attachRemote, if_neg hre]
      rfl
  · exact .inr (.inr h)

/-- What becomes of a session that asks the resolver, which answers later or at
once. -/
theorem askAndRegister_alone (host : List UInt8) (choice : Choice) (hl : c.live = true)
    (hr : askAndRegister 0 host choice
      (.alone (some ⟨some 0, none, port, ip⟩) c [] [] replies) = r) :
    let c' := c.register (clientCallbacks .handleLast (some .socks5Ctx))
    (choice.resolved = none ∧
        r = .ok (.alone (some ⟨some 0, none, port, ip⟩) c' [host] [host] replies)) ∨
      (∃ result, choice.resolved = some result ∧ result.kind = .internal ∧
        r = .ok (.alone (some ⟨some 0, none, port, ip⟩) c' [] [host] replies)) ∨
      (∃ result addr, choice.resolved = some result ∧ result.kind = .getsAddress addr ∧
        (choice.re = 0 ∧ r = .ok (.paired (some ⟨some 0, some 1, port, inetNtop addr⟩) c'
            (newRemote 0) host (addr, UInt16.ofNat port) replies) ∨
          choice.re ≠ 0 ∧ r = .ok (.paired (some ⟨some 0, none, port, inetNtop addr⟩) c'
            (newRemote choice.re) host (addr, UInt16.ofNat port) replies))) ∨
      ((∃ addr, choice.resolved = some (.found ⟨.unknown, addr⟩)) ∧ r = .error .exited) := by
  subst hr
  cases hres : choice.resolved with
  | none =>
      refine .inl ⟨rfl, askAndRegister_eq (t := .alone _ c [host] [host] replies) ?_ rfl hl⟩
      rw [Server.evdnsGetaddrinfo, hres]
      rfl
  | some result =>
      have hask : Server.evdnsGetaddrinfo host choice
          (.alone (some ⟨some 0, none, port, ip⟩) c [] [] replies) = Server.resolve choice.re result
            (.alone (some ⟨some 0, none, port, ip⟩) c [] [host] replies) := by
        rw [Server.evdnsGetaddrinfo, hres]
        rfl
      rcases resolve_alone (c := c) choice.re result rfl with
        ⟨hk, h⟩ | ⟨addr, hk, ⟨hre, h⟩ | ⟨hre, h⟩⟩ | ⟨⟨addr, rfl⟩, h⟩
      · exact .inr (.inl ⟨result, rfl, hk, askAndRegister_eq (hask.trans h) rfl hl⟩)
      · exact .inr (.inr (.inl ⟨result, addr, rfl, hk,
          .inl ⟨hre, askAndRegister_eq (hask.trans h) rfl hl⟩⟩))
      · exact .inr (.inr (.inl ⟨result, addr, rfl, hk,
          .inr ⟨hre, askAndRegister_eq (hask.trans h) rfl hl⟩⟩))
      · refine .inr (.inr (.inr ⟨⟨addr, rfl⟩, ?_⟩))
        rw [askAndRegister, hask, h, error_bind]

/-- The client once an `ATYP = 1` request has been answered. -/
def answeredIpv4 (P : Key) (c : Bufferevent Callbacks) : Bufferevent Callbacks :=
  (c.takeRead.drained.queue (P.encrypt connectReply.toList)).register
    (clientCallbacks .handleLast none)

theorem readCb_request (hc : Served c .handleSecond (some .socks5Ctx)) {choice : Choice}
    (hr : Session.callRead P.table 0 c.callbacks choice
      (.alone (some ⟨some 0, none, port, ip⟩) c.takeRead [] [] replies) = r) :
    (parseRequest (readPlain P c) = .error .outOfBounds ∧ r = .error .outOfBounds) ∨
      (c.input.pending.length ≤ 32 ∧
        (¬ AsksIpv4 (readPlain P c) ∧ ¬ AsksDomain (readPlain P c) ∧
            r = .ok (.alone (some ⟨some 0, none, port, ip⟩) c.takeRead.drained [] [] replies) ∨
          AsksIpv4 (readPlain P c) ∧ (∃ ip', r = .ok
            (.alone (some ⟨some 0, none, portAtEnd (readPlain P c), ip'⟩) (answeredIpv4 P c)
              [] [] (replies ++ [connectReply.toList]))) ∨
          AsksDomain (readPlain P c) ∧ ¬ AsksIpv4 (readPlain P c) ∧
            r = askAndRegister 0 (hostOf (readPlain P c)) choice
              (.alone (some ⟨some 0, none, portAtEnd (readPlain P c), ip⟩) c.takeRead.drained
                [] [] replies))) := by
  rw [Session.callRead, hc.callbacks] at hr
  change Socks5.handleSecond P.table 0 (some .socks5Ctx) choice _ = r at hr
  rw [handleSecond_eq (c := c.takeRead) rfl rfl rfl hc.live,
    show readPlain P c.takeRead = readPlain P c from rfl] at hr
  rcases parseRequest_cases (readPlain P c) with
    hp | ⟨h32, ⟨hp, h4, hd⟩ | ⟨hp, h4⟩ | ⟨hp, hd, h4⟩⟩
  · rw [hp] at hr
    exact .inl ⟨hp, hr.symm⟩
  all_goals
    have hle := length_readPlain.1 h32
    have hdrain := Bufferevent.consume_eq_drained (b := c.takeRead) (n := 63) (hle.trans (by omega))
    rw [hp] at hr
    dsimp only at hr
    rw [hdrain] at hr
    refine .inr ⟨hle, ?_⟩
  · exact .inl ⟨h4, hd, hr.symm⟩
  · exact .inr (.inl ⟨h4, ipv4Text (readPlain P c) choice.ip2, hr.symm⟩)
  · exact .inr (.inr ⟨hd, h4, hr.symm⟩)

theorem fire_request {s : Session} {e : Event} (h : Shape P .request s)
    (hf : s.fire P.table e = some r) : Outcome P s e .request r := by
  cases h with
  | request hc hout =>
    cases e with
    | socket p e =>
        obtain ⟨c', hc', hout', rfl⟩ := alone_socket hc hf
        exact .stay rfl (.request hc' (hout'.trans hout))
    | eventCb p =>
        obtain ⟨hk, c', hdead, hout', rfl⟩ := alone_eventCb (P := P) hc hf
        refine .ok hk (.closed (.inr (.inl rfl))) (.closedAlone hdead (by decide) ?_)
        exact followsGrammar_alone (by rw [hout', hout]) (List.prefix_append _ _)
    | dnsDone nodename result re => exact absurd (Session.fire_dnsDone hf).1 List.not_mem_nil
    | readCb p choice =>
        rename_i c port ip
        obtain ⟨rfl, hr⟩ := alone_readCb hf
        have hk : kind P (.alone (some ⟨some 0, none, port, ip⟩) c [] [] [methodReply.toList])
            (.readCb 0 choice) = messageKind (readPlain P c) choice :=
          kind_handleSecond rfl (by rw [hc.callbacks]; rfl)
        rcases readCb_request hc hr.symm with
          ⟨-, rfl⟩ | ⟨-, ⟨h4, hd, rfl⟩ | ⟨h4, ip', rfl⟩ | ⟨hd, h4, hask⟩⟩
        · exact .error (.overflow (.inr rfl))
        · -- ignored
          rw [messageKind, if_neg h4, if_neg hd] at hk
          exact .stay hk (.request hc.read hout)
        · -- ATYP = 1
          rw [messageKind, if_pos h4] at hk
          refine .ok hk .tookIpv4 (.ipv4 ((hc.read.queue _).register (by simp) _ _) ?_)
          have hstream : c.takeRead.drained.output.stream = P.encrypt methodReply.toList := hout
          simp [answeredIpv4, Bufferevent.register, Bufferevent.queue, hstream]
        · -- ATYP = 3: the resolver answers at once or later
          rw [messageKind, if_neg h4, if_pos hd] at hk
          have hc' := hc.read.register (by simp) .handleLast (some .socks5Ctx)
          rcases askAndRegister_alone (c := c.takeRead.drained) _ choice hc.live hask.symm with
            ⟨hres, rfl⟩ | ⟨result, hres, hkind, rfl⟩ |
              ⟨result, addr, hres, hkind, ⟨-, rfl⟩ | ⟨hre, rfl⟩⟩ | ⟨-, rfl⟩
          · rw [hres] at hk
            exact .ok hk (.asked _ _) (.resolving hc' hout)
          · rw [hres] at hk
            exact .ok (hk.trans hkind) .failedAtOnce (.unresolved hc' hout)
          · rw [hres] at hk
            refine .ok (hk.trans hkind) (.attachedAtOnce _) (.relay hc' newRemote_attached ?_)
            rw [relayReplies_newRemote]
            exact hout
          · rw [hres] at hk
            exact .ok (hk.trans hkind) (.strandedAtOnce _)
              (.stranded hc' (newRemote_stranded hre) hout)
          · exact .error .exitsAtOnce

theorem fire_ipv4 {s : Session} {e : Event} (h : Shape P .ipv4 s)
    (hf : s.fire P.table e = some r) : Outcome P s e .ipv4 r := by
  cases h with
  | ipv4 hc hout =>
    cases e with
    | socket p e =>
        obtain ⟨c', hc', hout', rfl⟩ := alone_socket hc hf
        exact .stay rfl (.ipv4 hc' (hout'.trans hout))
    | readCb p choice =>
        obtain ⟨rfl, rfl⟩ := alone_readCb hf
        rw [hc.callbacks]
        exact .error .nullArgument
    | eventCb p =>
        -- the argument is null: the event goes unnoticed
        obtain ⟨b, w, hb, hw, rfl⟩ := Session.fire_eventCb hf
        obtain ⟨rfl, rfl⟩ := getElem?_one hb
        have hterm := (hc.nextEvent hw).2.2.1
        rw [hc.callbacks]
        exact .ok (by rw [kind_eventCb hb hw, if_pos hterm]) .ignored (.ipv4 (hc.takeEvent w) hout)
    | dnsDone nodename result re => exact absurd (Session.fire_dnsDone hf).1 List.not_mem_nil

/-- `handle_last` without a partner, in a session that has only the client. -/
theorem alone_drain (hc : Served c .handleLast (some .socks5Ctx)) {choice : Choice} :
    Session.callRead P.table 0 c.callbacks choice
        (.alone (some ⟨some 0, none, port, ip⟩) c.takeRead dns queries replies) =
      .ok (.alone (some ⟨some 0, none, port, ip⟩) c.takeRead.drained dns queries replies) := by
  rw [Session.callRead, hc.callbacks]
  change Socks5.handleLast P.table (some .socks5Ctx) _ = _
  exact handleLast_drain (p := 0) (c := c.takeRead) rfl rfl rfl rfl hc.live

theorem fire_resolving {s : Session} {e : Event} {host : List UInt8}
    (h : Shape P (.resolving host port) s) (hf : s.fire P.table e = some r) :
    Outcome P s e (.resolving host port) r := by
  cases h with
  | resolving hc hout =>
    cases e with
    | socket p e =>
        obtain ⟨c', hc', hout', rfl⟩ := alone_socket hc hf
        exact .stay rfl (.resolving hc' (hout'.trans hout))
    | readCb p choice =>
        obtain ⟨rfl, rfl⟩ := alone_readCb hf
        rw [alone_drain hc]
        refine .stay (kind_readCb rfl ?_) (.resolving hc.read hout)
        simp [hc.callbacks, clientCallbacks]
    | eventCb p =>
        obtain ⟨hk, c', hdead, hout', rfl⟩ := alone_eventCb (P := P) hc hf
        exact .ok hk .orphaned (.orphaned hdead (by rw [hout', hout]))
    | dnsDone nodename result re =>
        obtain ⟨hmem, hr⟩ := Session.fire_dnsDone hf
        obtain rfl : nodename = host := List.mem_singleton.1 hmem
        have herase : [nodename].erase nodename = [] := List.erase_cons_head ..
        simp only [Session.alone, herase] at hr
        rcases resolve_alone re result hr.symm with
          ⟨hk, rfl⟩ | ⟨addr, hk, ⟨-, rfl⟩ | ⟨hre, rfl⟩⟩ | ⟨-, rfl⟩
        · exact .ok hk .failed (.unresolved hc hout)
        · refine .ok hk .attached (.relay hc newRemote_attached ?_)
          rw [relayReplies_newRemote, hout]
        · exact .ok hk .stranded (.stranded hc (newRemote_stranded hre) hout)
        · exact .error .exits

theorem fire_unresolved {s : Session} {e : Event} (h : Shape P .unresolved s)
    (hf : s.fire P.table e = some r) : Outcome P s e .unresolved r := by
  cases h with
  | unresolved hc hout =>
    cases e with
    | socket p e =>
        obtain ⟨c', hc', hout', rfl⟩ := alone_socket hc hf
        exact .stay rfl (.unresolved hc' (hout'.trans hout))
    | readCb p choice =>
        obtain ⟨rfl, rfl⟩ := alone_readCb hf
        rw [alone_drain hc]
        refine .stay (kind_readCb rfl ?_) (.unresolved hc.read hout)
        simp [hc.callbacks, clientCallbacks]
    | eventCb p =>
        obtain ⟨hk, c', hdead, hout', rfl⟩ := alone_eventCb (P := P) hc hf
        refine .ok hk (.closed (.inr (.inr rfl))) (.closedAlone hdead (by decide) ?_)
        exact followsGrammar_alone (by rw [hout', hout]) (List.prefix_append _ _)
    | dnsDone nodename result re => exact absurd (Session.fire_dnsDone hf).1 List.not_mem_nil

theorem fire_orphaned {s : Session} {e : Event} (h : Shape P .orphaned s)
    (hf : s.fire P.table e = some r) : Outcome P s e .orphaned r := by
  cases h with
  | @orphaned c host hc hout =>
    obtain ⟨nodename, result, re, rfl⟩ := alone_dead hc hf
    obtain ⟨hmem, hr⟩ := Session.fire_dnsDone hf
    obtain rfl : nodename = host := List.mem_singleton.1 hmem
    have herase : [nodename].erase nodename = [] := List.erase_cons_head ..
    simp only [Session.alone, herase] at hr
    cases result with
    | error e =>
        subst hr
        exact .ok rfl .ended (.closedAlone hc (by decide)
          (followsGrammar_alone hout (List.prefix_append _ _)))
    | found answer =>
        obtain ⟨family, addr⟩ := answer
        cases family with
        | unknown => subst hr; exact .error (.deleted (.inr rfl))
        | inet =>
            rw [Server.resolve, dnsCb_deleted rfl] at hr
            subst hr
            exact .error (.deleted (.inl rfl))

/-- Once closed, nothing happens any more. -/
theorem alone_closed {T : Table} {e : Event} (hc : c.live = false) :
    (Session.alone ctx c [] queries replies).fire T e = none := by
  by_contra h
  obtain ⟨r, hr⟩ := Option.ne_none_iff_exists'.1 h
  obtain ⟨nodename, result, re, rfl⟩ := alone_dead hc hr
  exact absurd (Session.fire_dnsDone hr).1 List.not_mem_nil

end Alone

/-! ## Sessions with a remote bufferevent -/

/-- Everything the read callbacks have taken from the client. -/
def Session.consumed (s : Session) : List UInt8 := ((s.bevs[0]?).map fun c => c.input.past).getD []

/-- Everything ever queued for the remote host. -/
def Session.forwarded (s : Session) : List UInt8 :=
  ((s.bevs[1]?).map fun r => r.output.stream).getD []

/-- Between `s` and `t` the remote host was sent, decrypted, what was taken from
the client. -/
def Relayed (P : Key) (s t : Session) : Prop :=
  ∃ bytes, t.consumed = s.consumed ++ bytes ∧ t.forwarded = s.forwarded ++ P.decrypt bytes

theorem Relayed.refl (s : Session) : Relayed P s s := ⟨[], by simp, by simp⟩

theorem Relayed.trans {s t u : Session} (h₁ : Relayed P s t) (h₂ : Relayed P t u) :
    Relayed P s u := by
  obtain ⟨xs, hxs, hxs'⟩ := h₁
  obtain ⟨ys, hys, hys'⟩ := h₂
  exact ⟨xs ++ ys, by rw [hys, hxs, List.append_assoc],
    by rw [hys', hxs', Key.decrypt_append, List.append_assoc]⟩

/-- What an event callback with the bits `w` on `p` leaves behind when it
releases everything. -/
def Session.ended (s : Session) (p : BevPtr) (w : What) : Session :=
  { s with context := none, bevs := (s.bevs.modify p (·.takeEvent w)).map Bufferevent.release }

/-- The event callback that leads from `s` to `t` released everything. -/
def EndedBy (e : Event) (s t : Session) : Prop :=
  ∃ p b w, e = .eventCb p ∧ s.bevs[p]? = some b ∧ b.nextEvent = some w ∧ t = s.ended p w

section Paired

variable {c r r' : Bufferevent Callbacks} {rd : ReadCb} {arg : Option CtxPtr}
  {ctx : Option Socks5ctx} {port : ℕ} {ip host : List UInt8} {target : Target}
  {replies : List (List UInt8)} {res : Except Fault Session} {p : BevPtr}

theorem paired_socket {T : Table} {e : SocketEvent}
    (h : (Session.paired ctx c r host target replies).fire T (.socket p e) = some res) :
    (c.Admits e ∧ res = .ok (.paired ctx (c.socket e) r host target replies)) ∨
      (r.Admits e ∧ res = .ok (.paired ctx c (r.socket e) host target replies)) := by
  obtain ⟨b, hb, he, rfl⟩ := Session.fire_socket h
  rcases getElem?_two hb with ⟨rfl, rfl⟩ | ⟨rfl, rfl⟩
  · exact .inl ⟨he, rfl⟩
  · exact .inr ⟨he, rfl⟩

theorem paired_readCb {T : Table} {choice : Choice}
    (h : (Session.paired ctx c r host target replies).fire T (.readCb p choice) = some res) :
    (p = 0 ∧ c.readDue = true ∧ res = Session.callRead T 0 c.callbacks choice
        (.paired ctx c.takeRead r host target replies)) ∨
      (p = 1 ∧ r.readDue = true ∧ res = Session.callRead T 1 r.callbacks choice
        (.paired ctx c r.takeRead host target replies)) := by
  obtain ⟨b, hb, hdue, rfl⟩ := Session.fire_readCb h
  rcases getElem?_two hb with ⟨rfl, rfl⟩ | ⟨rfl, rfl⟩
  · exact .inl ⟨rfl, hdue, rfl⟩
  · exact .inr ⟨rfl, hdue, rfl⟩

theorem paired_eventCb {T : Table}
    (h : (Session.paired ctx c r host target replies).fire T (.eventCb p) = some res) :
    (∃ w, p = 0 ∧ c.nextEvent = some w ∧ res = Session.callEvent T 0 c.callbacks w
        (.paired ctx (c.takeEvent w) r host target replies)) ∨
      (∃ w, p = 1 ∧ r.nextEvent = some w ∧ res = Session.callEvent T 1 r.callbacks w
        (.paired ctx c (r.takeEvent w) host target replies)) := by
  obtain ⟨b, w, hb, hw, rfl⟩ := Session.fire_eventCb h
  rcases getElem?_two hb with ⟨rfl, rfl⟩ | ⟨rfl, rfl⟩
  · exact .inl ⟨w, rfl, hw, rfl⟩
  · exact .inr ⟨w, rfl, hw, rfl⟩

theorem paired_dnsDone {T : Table} {nodename : List UInt8} {result : DnsResult} {re : ℤ} :
    (Session.paired ctx c r host target replies).fire T (.dnsDone nodename result re) = none := by
  simp [Session.fire, Session.paired]

/-- `handle_last` without a partner throws away what has arrived. -/
theorem paired_drain {choice : Choice} (hc : Served c .handleLast (some .socks5Ctx)) :
    Session.callRead P.table 0 c.callbacks choice
        (.paired (some ⟨some 0, none, port, ip⟩) c.takeRead r host target replies) =
      .ok (.paired (some ⟨some 0, none, port, ip⟩) c.takeRead.drained r host target replies) := by
  rw [Session.callRead, hc.callbacks]
  exact handleLast_drain (p := 0) (c := c.takeRead) rfl rfl rfl rfl hc.live

/-- `handle_last` with a partner relays what has arrived. -/
theorem paired_upload {choice : Choice} (hc : Served c .handleLast (some .socks5Ctx))
    (hr : r.live = true) :
    Session.callRead P.table 0 c.callbacks choice
        (.paired (some ⟨some 0, some 1, port, ip⟩) c.takeRead r host target replies) =
      .ok (.paired (some ⟨some 0, some 1, port, ip⟩) c.takeRead.drained
        (r.queue (P.decrypt c.input.pending)) host target replies) := by
  rw [Session.callRead, hc.callbacks]
  exact handleLast_relay (p := 0) (q := 1) (c := c.takeRead) (r := r) rfl rfl rfl (by simp) rfl rfl
    hc.live hr

/-- `remote_read_cb` relays what has arrived. -/
theorem paired_download {choice : Choice} (hc : c.live = true) (hr : r.live = true)
    (hcb : r.callbacks = remoteCallbacks) :
    Session.callRead P.table 1 r.callbacks choice
        (.paired (some ⟨some 0, some 1, port, ip⟩) c r.takeRead host target replies) =
      .ok (.paired (some ⟨some 0, some 1, port, ip⟩) (c.queue (P.encrypt r.input.pending))
        r.takeRead.drained host target replies) := by
  rw [Session.callRead, hcb]
  exact remoteReadCb_eq (p := 0) (q := 1) (c := c) (r := r.takeRead) rfl rfl rfl (by simp) rfl rfl
    hc hr

/-- The client ends: with a partner both bufferevents are released. -/
theorem paired_clientEnds {T : Table} {w : What} (hc : Served c rd (some .socks5Ctx))
    (hr : r.live = true) (hw : c.nextEvent = some w) :
    Session.callEvent T 0 c.callbacks w
        (.paired (some ⟨some 0, some 1, port, ip⟩) (c.takeEvent w) r host target replies) =
      .ok (.paired none (c.takeEvent w).release r.release host target replies) := by
  obtain ⟨htimeout, hend, -, -⟩ := hc.nextEvent hw
  rw [Session.callEvent, hc.callbacks]
  exact (localEventCb_terminal htimeout hend).trans
    (releaseLocal_both (p := 0) (q := 1) (c := c.takeEvent w) (r := r) rfl rfl rfl (by simp) rfl rfl
      hc.live hr)

/-- The client ends: without a partner the remote bufferevent is forgotten. -/
theorem paired_abandons {T : Table} {w : What} (hc : Served c rd (some .socks5Ctx))
    (hw : c.nextEvent = some w) :
    Session.callEvent T 0 c.callbacks w
        (.paired (some ⟨some 0, none, port, ip⟩) (c.takeEvent w) r host target replies) =
      .ok (.paired none (c.takeEvent w).release r host target replies) := by
  obtain ⟨htimeout, hend, -, -⟩ := hc.nextEvent hw
  rw [Session.callEvent, hc.callbacks]
  exact (localEventCb_terminal htimeout hend).trans
    (releaseLocal_alone (p := 0) (c := c.takeEvent w) rfl rfl rfl rfl hc.live)

/-- Everything `remote_event_cb` reports goes through the context. -/
theorem remoteEventCb_deleted {s : Session} {w : What} (hctx : s.context = none)
    (hw : w.connected = true ∨ w.terminal = true) :
    Server.remoteEventCb P.table p w (some .socks5Ctx) s = .error .useAfterFree := by
  have hget : s.getContext = .error .useAfterFree := by rw [Session.getContext, hctx]
  unfold Server.remoteEventCb
  by_cases hconn : w.connected = true
  · simp [hconn, hget]
  · have hends : (w.eof = true ∨ w.error = true) ∨ w.timeout = true := by
      simpa [What.terminal, hconn] using hw
    rcases hends with hends | htimeout
    · simp [hconn, hends, hget]
    · simp [hconn, htimeout, hget]

/-- The remote host ends, or its read timeout elapses: both bufferevents are
released.  Only EOF and ERROR go through the partner pointer. -/
theorem paired_remoteEnds {w : What} {partner : Option BevPtr} (hc : c.live = true)
    (hr : r.live = true) (hcb : r.callbacks = remoteCallbacks) (hconn : w.connected = false)
    (hterm : w.terminal = true) (hpartner : w.eof = true ∨ w.error = true → partner = some 1) :
    Session.callEvent P.table 1 r.callbacks w
        (.paired (some ⟨some 0, partner, port, ip⟩) c (r.takeEvent w) host target replies) =
      .ok (.paired none c.release (r.takeEvent w).release host target replies) := by
  have hend : w.eof = true ∨ w.error = true ∨ w.timeout = true := by
    simpa [What.terminal, or_assoc] using hterm
  rw [Session.callEvent, hcb]
  exact remoteEventCb_terminal (p := 0) (q := 1) (c := c) (r := r.takeEvent w) hconn hend rfl rfl
    hpartner (by simp) rfl rfl hc hr

/-- CONNECTED: the CONNECT reply goes to the client. -/
theorem paired_connected (hc : c.live = true) (hcb : r.callbacks = remoteCallbacks) :
    Session.callEvent P.table 1 r.callbacks { connected := true }
        (.paired (some ⟨some 0, some 1, port, ip⟩) c r' host target replies) =
      .ok (.paired (some ⟨some 0, some 1, port, ip⟩) (c.queue (P.encrypt connectReply.toList)) r'
        host target (replies ++ [connectReply.toList])) := by
  rw [Session.callEvent, hcb]
  exact remoteEventCb_connected (p := 0) (c := c) rfl rfl rfl rfl hc

theorem fire_stranded {s : Session} {e : Event} (h : Shape P (.stranded target) s)
    (hf : s.fire P.table e = some res) : Outcome P s e (.stranded target) res := by
  cases h with
  | stranded hc hr hout =>
    cases e with
    | socket p e =>
        rcases paired_socket hf with ⟨he, rfl⟩ | ⟨he, rfl⟩
        · obtain ⟨hc', hout', -⟩ := hc.socket he
          exact .stay rfl (.stranded hc' hr (hout'.trans hout))
        · exact .stay rfl (.stranded hc (hr.socket he) hout)
    | readCb p choice =>
        rename_i c r host port ip
        rcases paired_readCb hf with ⟨rfl, -, rfl⟩ | ⟨-, hdue, -⟩
        · rw [paired_drain hc]
          refine .stay (kind_readCb rfl ?_) (.stranded hc.read hr hout)
          simp [hc.callbacks, clientCallbacks]
        · rw [hr.not_readDue] at hdue
          cases hdue
    | eventCb p =>
        rename_i c r host port ip
        rcases paired_eventCb hf with ⟨w, rfl, hw, rfl⟩ | ⟨w, rfl, hw, rfl⟩
        · -- the client ends; the remote bufferevent is not freed
          have hterm := (hc.nextEvent hw).2.2.1
          rw [paired_abandons hc hw]
          exact .ok (by rw [kind_eventCb rfl hw, if_pos hterm]) .abandoned
            (.abandoned rfl hr hout)
        · -- the read timeout of the stranded bufferevent
          obtain ⟨hconn, heof, herror, -, hterm⟩ := hr.nextEvent hw
          rw [paired_remoteEnds hc.live hr.live hr.callbacks hconn hterm (by simp [heof, herror])]
          refine .ok (by rw [kind_eventCb rfl hw, if_pos hterm]) (.released (.inl rfl))
            (.closedPaired rfl rfl ?_)
          exact followsGrammar_paired hout
            ((List.prefix_append _ _).trans (List.prefix_append _ _))
    | dnsDone nodename result re => rw [paired_dnsDone] at hf; cases hf

/-- The sockets do not end a relay, nor do they relay anything. -/
theorem relay_socket {e : SocketEvent} (hc : Served c .handleLast (some .socks5Ctx))
    (hr : Attached r)
    (hout : c.output.stream = P.encrypt ((relayReplies r).flatten ++ r.input.past))
    (hf : (Session.paired (some ⟨some 0, some 1, port, ip⟩) c r host target
      (relayReplies r)).fire P.table (.socket p e) = some res) :
    ∃ t, res = .ok t ∧ Shape P (.relay target) t ∧
      Relayed P (.paired (some ⟨some 0, some 1, port, ip⟩) c r host target (relayReplies r)) t := by
  rcases paired_socket hf with ⟨he, rfl⟩ | ⟨he, rfl⟩
  · obtain ⟨hc', hout', hpast⟩ := hc.socket he
    refine ⟨_, rfl, .relay hc' hr (hout'.trans hout), [], ?_, ?_⟩
    · simpa [Session.consumed, Session.paired] using hpast
    · simp [Session.forwarded, Session.paired]
  · obtain ⟨hr', hreported, hpast, hout'⟩ := hr.socket he
    have hreplies : relayReplies (r.socket e) = relayReplies r := by
      rw [relayReplies, hreported, relayReplies]
    refine ⟨_, rfl, hreplies ▸ .relay hc hr' (by rw [hreplies, hpast, hout]), [], ?_, ?_⟩
    · simp [Session.consumed, Session.paired]
    · simpa [Session.forwarded, Session.paired] using hout'

/-- The read callbacks relay, each in its direction. -/
theorem relay_readCb {choice : Choice} (hc : Served c .handleLast (some .socks5Ctx))
    (hr : Attached r)
    (hout : c.output.stream = P.encrypt ((relayReplies r).flatten ++ r.input.past))
    (hf : (Session.paired (some ⟨some 0, some 1, port, ip⟩) c r host target
      (relayReplies r)).fire P.table (.readCb p choice) = some res) :
    ∃ t, res = .ok t ∧
      kind P (.paired (some ⟨some 0, some 1, port, ip⟩) c r host target (relayReplies r))
        (.readCb p choice) = .internal ∧ Shape P (.relay target) t ∧
      Relayed P (.paired (some ⟨some 0, some 1, port, ip⟩) c r host target (relayReplies r)) t := by
  rcases paired_readCb hf with ⟨rfl, -, rfl⟩ | ⟨rfl, hdue, rfl⟩
  · -- `handle_last`
    refine ⟨_, paired_upload hc hr.live, kind_readCb rfl ?_,
      .relay hc.read (hr.queue _) hout, c.input.pending, rfl, ?_⟩
    · simp [hc.callbacks, clientCallbacks]
    · exact Fifo.stream_push _ _
  · -- `remote_read_cb`
    have hreplies : relayReplies r.takeRead.drained = relayReplies r := rfl
    have hpast : r.takeRead.drained.input.past = r.input.past ++ r.input.pending := rfl
    have hqueue : (c.queue (P.encrypt r.input.pending)).output.stream =
        c.output.stream ++ P.encrypt r.input.pending := Fifo.stream_push _ _
    refine ⟨_, paired_download hc.live hr.live hr.callbacks, kind_readCb rfl ?_,
      .relay (hc.queue _) (hr.read hdue) ?_, [], ?_, ?_⟩
    · simp [hr.callbacks, remoteCallbacks]
    · rw [hreplies, hpast, ← List.append_assoc, Key.encrypt_append, ← hout]
      exact hqueue
    · exact (List.append_nil _).symm
    · exact (List.append_nil _).symm

/-- CONNECTED adds the CONNECT reply and goes on relaying. -/
theorem relay_connected (hc : Served c .handleLast (some .socks5Ctx)) (hr : Attached r)
    (hout : c.output.stream = P.encrypt ((relayReplies r).flatten ++ r.input.past))
    (hconn : r.eventPending.connected = true) :
    Shape P (.relay target) (.paired (some ⟨some 0, some 1, port, ip⟩)
      (c.queue (P.encrypt connectReply.toList)) (r.takeEvent { connected := true }) host target
      (relayReplies r ++ [connectReply.toList])) := by
  obtain ⟨hr', hreported, hpast, hjoined⟩ := hr.connected hconn
  have hreplies : relayReplies (r.takeEvent { connected := true }) =
      relayReplies r ++ [connectReply.toList] := by
    simp [relayReplies, hreported, hjoined]
  rw [← hreplies]
  apply Shape.relay (hc.queue _) hr'
  rw [hreplies]
  simp [Bufferevent.queue, hout, Bufferevent.takeEvent, hpast]

/-- **What can happen to a relay session**: it goes on, and what is taken from
the client is what the remote host is sent, or a terminal event releases both
bufferevents with whatever is in their buffers.  No callback fails. -/
theorem fire_relay {s : Session} {e : Event} (h : Shape P (.relay target) s)
    (hf : s.fire P.table e = some res) :
    (∃ t, res = .ok t ∧ kind P s e = .internal ∧ Shape P (.relay target) t ∧ Relayed P s t) ∨
      ∃ t, res = .ok t ∧ kind P s e = .terminal ∧ Shape P (.closed (some target)) t ∧
        EndedBy e s t := by
  cases h with
  | @relay c r host port ip _ hc hr hout =>
    have hgrammar : ∀ c' r' : Bufferevent Callbacks, c'.output = c.output → r'.input = r.input →
        FollowsGrammar P (.paired none c' r' host target (relayReplies r)) := by
      intro c' r' hc' hr'
      exact followsGrammar_paired (m := (relayReplies r).flatten ++ r.input.past)
        (by rw [hc', hout]) (hr' ▸ hr.replies_prefix)
    cases e with
    | socket p e =>
        left
        obtain ⟨t, rfl, ht, hrelayed⟩ := relay_socket hc hr hout hf
        exact ⟨t, rfl, rfl, ht, hrelayed⟩
    | readCb p choice => exact .inl (relay_readCb hc hr hout hf)
    | eventCb p =>
        rcases paired_eventCb hf with ⟨w, rfl, hw, rfl⟩ | ⟨w, rfl, hw, rfl⟩
        · -- the client ends
          right
          have hterm := (hc.nextEvent hw).2.2.1
          exact ⟨_, paired_clientEnds hc hr.live hw, by rw [kind_eventCb rfl hw, if_pos hterm],
            .closedPaired rfl rfl (hgrammar _ _ rfl rfl), 0, _, w, rfl, rfl, hw, rfl⟩
        · obtain ⟨-, ⟨hconn, rfl⟩ | ⟨hconn, rfl, hterm, -⟩⟩ := Bufferevent.nextEvent_cases hw
          · left
            refine ⟨_, paired_connected hc.live hr.callbacks, kind_eventCb rfl hw,
              relay_connected hc hr hout hconn, [], ?_, ?_⟩
            · exact (List.append_nil _).symm
            · exact (List.append_nil _).symm
          · -- the remote host ends, or its read timeout elapses
            right
            exact ⟨_, paired_remoteEnds hc.live hr.live hr.callbacks hconn hterm (fun _ => rfl),
              by rw [kind_eventCb rfl hw, if_pos hterm],
              .closedPaired rfl rfl (hgrammar _ _ rfl rfl), 1, _, _, rfl, rfl, hw, rfl⟩
    | dnsDone nodename result re => rw [paired_dnsDone] at hf; cases hf

theorem fire_abandoned {s : Session} {e : Event} (h : Shape P (.abandoned target) s)
    (hf : s.fire P.table e = some res) : Outcome P s e (.abandoned target) res := by
  cases h with
  | abandoned hc hr hout =>
    cases e with
    | socket p e =>
        rcases paired_socket hf with ⟨he, rfl⟩ | ⟨he, rfl⟩
        · cases e <;> simp [Bufferevent.Admits, hc] at he
        · exact .stay rfl (.abandoned hc (hr.socket he) hout)
    | readCb p choice =>
        rcases paired_readCb hf with ⟨-, hdue, -⟩ | ⟨-, hdue, -⟩
        · simp [Bufferevent.readDue, hc] at hdue
        · rw [hr.not_readDue] at hdue
          cases hdue
    | eventCb p =>
        rcases paired_eventCb hf with ⟨w, rfl, hw, rfl⟩ | ⟨w, rfl, hw, rfl⟩
        · simp [Bufferevent.nextEvent, hc] at hw
        · obtain ⟨-, -, -, htimeout, -⟩ := hr.nextEvent hw
          rw [Session.callEvent, hr.callbacks]
          change Outcome P _ _ _ (Server.remoteEventCb P.table 1 w (some .socks5Ctx) _)
          rw [remoteEventCb_deleted rfl (.inr (by simp [What.terminal, htimeout]))]
          exact .error .dangling
    | dnsDone nodename result re => rw [paired_dnsDone] at hf; cases hf

/-- Once closed, nothing happens any more. -/
theorem paired_closed {T : Table} {e : Event} (hc : c.live = false) (hr : r.live = false) :
    (Session.paired ctx c r host target replies).fire T e = none := by
  by_contra h
  obtain ⟨res, hres⟩ := Option.ne_none_iff_exists'.1 h
  cases e with
  | socket p e =>
      rcases paired_socket hres with ⟨he, -⟩ | ⟨he, -⟩
      · cases e <;> simp [Bufferevent.Admits, hc] at he
      · cases e <;> simp [Bufferevent.Admits, hr] at he
  | readCb p choice =>
      rcases paired_readCb hres with ⟨-, hdue, -⟩ | ⟨-, hdue, -⟩
      · simp [Bufferevent.readDue, hc] at hdue
      · simp [Bufferevent.readDue, hr] at hdue
  | eventCb p =>
      rcases paired_eventCb hres with ⟨w, -, hw, -⟩ | ⟨w, -, hw, -⟩
      · simp [Bufferevent.nextEvent, hc] at hw
      · simp [Bufferevent.nextEvent, hr] at hw
  | dnsDone nodename result re => rw [paired_dnsDone] at hres; cases hres

end Paired

/-! ## The simulation -/

theorem fire_closed {s : Session} {target : Option Target} (h : Shape P (.closed target) s)
    (e : Event) : s.fire P.table e = none := by
  cases h with
  | closedAlone hc _ _ => exact alone_closed hc
  | closedPaired hc hr _ => exact paired_closed hc hr

/-- **The simulation.**  An event of a session in some phase is a move of the
automaton, or one of the failures of that phase. -/
theorem fire_outcome {m : Mode} {s : Session} {e : Event} {r : Except Fault Session}
    (h : Shape P m s) (hf : s.fire P.table e = some r) : Outcome P s e m r := by
  cases m with
  | greeting => exact fire_greeting h hf
  | request => exact fire_request h hf
  | ipv4 => exact fire_ipv4 h hf
  | resolving host port => exact fire_resolving h hf
  | unresolved => exact fire_unresolved h hf
  | stranded target => exact fire_stranded h hf
  | relay target =>
      rcases fire_relay h hf with ⟨t, rfl, hk, ht, -⟩ | ⟨t, rfl, hk, ht, -⟩
      · exact .stay hk ht
      · exact .ok hk (.released (.inr rfl)) ht
  | orphaned => exact fire_orphaned h hf
  | abandoned target => exact fire_abandoned h hf
  | closed target => rw [fire_closed h] at hf; cases hf

/-- A step of a session is a move of the automaton. -/
theorem Step.move {m : Mode} {s t : Session} {e : Event} (hs : Step P s e t) (h : Shape P m s) :
    ∃ m', Move m (kind P s e) m' ∧ Shape P m' t := by
  cases fire_outcome h hs with
  | ok hk hmove ht => exact ⟨_, hk ▸ hmove, ht⟩

theorem Faults.fails {m : Mode} {s : Session} {e : Event} {f : Fault} (hs : Faults P s e f)
    (h : Shape P m s) : Fails m e f := by
  cases fire_outcome h hs with
  | error hfail => exact hfail

theorem accepted_shape : Shape P .greeting Session.accepted :=
  .greeting ⟨rfl, rfl, rfl, rfl, rfl, rfl, fun _ => rfl, fun _ => ⟨rfl, rfl⟩⟩ rfl

/-- **Every run of a session is a run of the automaton.** -/
theorem run_moves {m : Mode} {s t : Session} {es : List Event} (hr : Run (Step P) s es t)
    (h : Shape P m s) :
    ∃ m', Relation.ReflTransGen (fun a b => ∃ k, Move a k b) m m' ∧ Shape P m' t := by
  refine hr.simulates (R := fun s m => Shape P m s) ?_ h
  intro s e t m hs hstep
  obtain ⟨m', hmove, ht⟩ := hstep.move hs
  exact ⟨m', ⟨_, hmove⟩, ht⟩

/-- What the moves of the automaton preserve, as long as the events meet a
condition, a run preserves. -/
theorem guarded_modes {C : Session → Event → Prop} {I : Mode → Prop}
    (hstep : ∀ m s e m', Shape P m s → C s e → Move m (kind P s e) m' → I m → I m') {m : Mode}
    {s t : Session}
    {es : List Event} (hr : Run (Guarded C (Step P)) s es t) (h : Shape P m s) (hI : I m) :
    ∃ m', I m' ∧ Shape P m' t := by
  refine hr.invariant (I := fun s => ∃ m, I m ∧ Shape P m s) ?_ ⟨m, hI, h⟩
  rintro s e t ⟨m, hm, hs⟩ ⟨hC, hst⟩
  obtain ⟨m', hmove, ht⟩ := hst.move hs
  exact ⟨m', hstep m s e m' hs hC hmove hm, ht⟩

/-- What every move of the automaton preserves, every run preserves. -/
theorem run_modes {I : Mode → Prop} (hstep : ∀ m k m', Move m k m' → I m → I m') {m : Mode}
    {s t : Session} {es : List Event} (hr : Run (Step P) s es t) (h : Shape P m s) (hI : I m) :
    ∃ m', I m' ∧ Shape P m' t := by
  refine guarded_modes (C := fun _ _ => True) (fun m s e m' _ _ hmove => hstep m _ m' hmove)
    (hr.guarded_of_forall fun _ _ _ => trivial) h hI

/-- Every reachable state is a state of some phase. -/
theorem Reachable.shape {s : Session} (h : Reachable P s) : ∃ m, Shape P m s := by
  obtain ⟨es, hr⟩ := h
  obtain ⟨m, -, hs⟩ := run_moves hr accepted_shape
  exact ⟨m, hs⟩

end LightSocks
