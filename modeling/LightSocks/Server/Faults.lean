import LightSocks.Server.Messages

/-!
# Every way a callback can fail

The callbacks write past arrays, follow dangling pointers and call `exit`.  This file
lists all of it, as conditions on the session and on the event that is about to happen.

* `Overruns` — the requests that make `handle_second` leave one of its arrays.
* `Breaks` — one constructor for each place in the source where a callback is lost.
* `faults_iff` — in a reachable session exactly these events fail.
-/

namespace LightSocks

open Transition

variable {P : Key} {s : Session} {e : Event} {f : Fault} {c : Bufferevent Callbacks}
  {m : List UInt8} {choice : Choice}

/-! ## Requests that leave the arrays -/

/-- A request that is longer than `t_bytes`, or declares a host name that does not end within
`connect`. -/
def Overruns (m : List UInt8) : Prop :=
  7 ≤ m.length ∧
    (32 < m.length ∨ m.getD 1 0 = 0x01 ∧ m.getD 3 0 = 0x03 ∧ 59 < (m.getD 4 0).toNat)

theorem parseRequest_overruns (m : List UInt8) :
    parseRequest m = .error .outOfBounds ↔ Overruns m := by
  unfold parseRequest Overruns
  by_cases h7 : m.length < 7
  · rw [if_pos h7]
    exact iff_of_false (by simp) fun h => absurd h.1 (not_le.2 h7)
  rw [if_neg h7]
  by_cases h32 : 32 < m.length
  · rw [if_pos h32]
    exact iff_of_true rfl ⟨not_lt.1 h7, .inl h32⟩
  rw [if_neg h32]
  by_cases h1 : m.getD 1 0 = 0x01
  swap
  · rw [if_pos h1]
    exact iff_of_false (by simp) fun h => h.2.elim h32 fun h => h1 h.1
  rw [if_neg (not_not.2 h1)]
  by_cases hv4 : m.getD 3 0 = 0x01
  · rw [if_pos hv4]
    refine iff_of_false (by simp) fun h => h.2.elim h32 fun h => ?_
    exact absurd (hv4.symm.trans h.2.1) (by decide)
  rw [if_neg hv4]
  by_cases hname : m.getD 3 0 = 0x03
  swap
  · rw [if_neg hname]
    exact iff_of_false (by simp) fun h => h.2.elim h32 fun h => hname h.2.1
  rw [if_pos hname]
  by_cases h59 : 59 < (m.getD 4 0).toNat
  · rw [if_pos h59]
    exact iff_of_true rfl ⟨not_lt.1 h7, .inr ⟨h1, hname, h59⟩⟩
  · rw [if_neg h59]
    exact iff_of_false (by simp) fun h => h.2.elim h32 fun h => h59 h.2.2

/-! ## The list -/

/-- **What has to stand in a session for an event to fail.** -/
inductive Breaks (P : Key) (s : Session) : Event → Fault → Prop where
  /-- `handle_first`: `decrypt_bytes` copies more than 32 bytes. -/
  | longGreeting {c : Bufferevent Callbacks} {choice : Choice}
      (hdue : Due s c .localReadCb c.input.pending) (hlong : 32 < c.input.pending.length) :
      Breaks P s (.readCb 0 choice) .outOfBounds
  /-- `handle_second`: the message leaves `t_bytes` or `connect`. -/
  | badRequest {c : Bufferevent Callbacks} {choice : Choice}
      (hdue : Due s c .handleSecond c.input.pending) (hover : Overruns (readPlain P c)) :
      Breaks P s (.readCb 0 choice) .outOfBounds
  /-- `handle_second`: `dns_cb` runs at once, on an address of a family that
  `evutil_inet_ntop` does not know. -/
  | unknownFamilyAtOnce {c : Bufferevent Callbacks} {choice : Choice} {addr : InAddr}
      (hdue : Due s c .handleSecond c.input.pending) (hasks : AsksDomain (readPlain P c))
      (hok : ¬ Overruns (readPlain P c))
      (hanswer : choice.resolved = some (.found ⟨.unknown, addr⟩)) :
      Breaks P s (.readCb 0 choice) .exited
  /-- `handle_last`: the argument an `ATYP = 1` request has registered is null. -/
  | nullArgument {c : Bufferevent Callbacks} {choice : Choice}
      (hdue : Due s c .handleLast c.input.pending) (harg : c.callbacks.cbarg = none) :
      Breaks P s (.readCb 0 choice) .nullDeref
  /-- `dns_cb`: an address of a family that `evutil_inet_ntop` does not know. -/
  | unknownFamily {nodename : List UInt8} {addr : InAddr} {re : ℤ} (hdns : nodename ∈ s.dns) :
      Breaks P s (.dnsDone nodename (.found ⟨.unknown, addr⟩) re) .exited
  /-- `dns_cb`: the context has been deleted while the lookup was outstanding. -/
  | deleted {nodename : List UInt8} {addr : InAddr} {re : ℤ} (hdns : nodename ∈ s.dns)
      (hctx : s.context = none) :
      Breaks P s (.dnsDone nodename (.found ⟨.inet, addr⟩) re) .useAfterFree
  /-- `remote_event_cb`: the context has been deleted, the bufferevent has not. -/
  | dangling {r : Bufferevent Callbacks} {w : What} (hr : s.bevs[1]? = some r)
      (hw : r.nextEvent = some w) (hctx : s.context = none) :
      Breaks P s (.eventCb 1) .useAfterFree

/-! ## Nothing else fails -/

theorem breaks_of_greeting (hdue : Due s c .localReadCb c.input.pending)
    (hs : Reachable P s) (hf : Faults P s (.readCb 0 choice) f) :
    Breaks P s (.readCb 0 choice) f := by
  obtain ⟨port, ip, rfl, hc⟩ := hdue.greeting hs
  rw [Faults, hdue.fire, Option.some.injEq] at hf
  have hcall := (readCb_greeting (P := P) hc port ip choice).symm.trans hf
  by_cases hlong : 32 < c.input.pending.length
  · rw [if_pos hlong] at hcall
    cases hcall
    exact .longGreeting hdue hlong
  rw [if_neg hlong] at hcall
  split at hcall
  · cases hcall
  · cases hcall

/-- A request that leaves the arrays is lost on the way. -/
theorem callRead_overruns {port : ℕ} {ip : List UInt8} {replies : List (List UInt8)}
    (hc : Served c .handleSecond (some .socks5Ctx)) (hover : Overruns (readPlain P c)) :
    Session.callRead P.table 0 c.callbacks choice
      (.alone (some ⟨some 0, none, port, ip⟩) c.takeRead [] [] replies) = .error .outOfBounds := by
  have hparse := (parseRequest_overruns _).2 hover
  rw [Session.callRead, hc.callbacks]
  change Socks5.handleSecond P.table 0 (some .socks5Ctx) choice _ = _
  rw [handleSecond_eq (c := c.takeRead) rfl rfl rfl hc.live,
    show readPlain P c.takeRead = readPlain P c from rfl, hparse]

theorem breaks_of_request (hdue : Due s c .handleSecond c.input.pending)
    (hs : Reachable P s) (hf : Faults P s (.readCb 0 choice) f) :
    Breaks P s (.readCb 0 choice) f := by
  obtain ⟨port, ip, hshape, hc⟩ := hdue.request hs
  rw [Faults, hdue.fire, Option.some.injEq, hshape] at hf
  by_cases hover : Overruns (readPlain P c)
  · cases (callRead_overruns hc hover).symm.trans hf
    exact .badRequest hdue hover
  rcases readCb_request hc hf with
    ⟨hparse, -⟩ | ⟨-, ⟨-, -, hr⟩ | ⟨-, ip', hr⟩ | ⟨hasks, -, hask⟩⟩
  · exact absurd ((parseRequest_overruns _).1 hparse) hover
  · cases hr
  · cases hr
  -- only the answer the resolver gives at once can still fail
  rcases askAndRegister_alone (c := c.takeRead.drained) _ choice hc.live hask.symm with
    ⟨-, hr⟩ | ⟨_, -, -, hr⟩ | ⟨_, addr, -, -, ⟨-, hr⟩ | ⟨-, hr⟩⟩ | ⟨⟨addr, hanswer⟩, hr⟩
  · cases hr
  · cases hr
  · cases hr
  · cases hr
  · cases hr
    exact .unknownFamilyAtOnce hdue hasks hover hanswer

/-- The read callback that fails is the client's. -/
theorem due_of_readCb {mode : Mode} (h : Shape P mode s)
    (hlive : mode.Live) (h4 : mode ≠ .ipv4) (hf : Faults P s (.readCb 0 choice) f) :
    ∃ c, Due s c mode.handler c.input.pending := by
  obtain ⟨c, ctx, h0, hc, -, -⟩ := h.client hlive h4
  obtain ⟨b, hb, hdue, -⟩ := Session.fire_readCb hf
  obtain rfl := Option.some.inj (h0.symm.trans hb)
  exact ⟨c, h0, hdue, by rw [hc.callbacks]; rfl, rfl⟩

/-- When the resolver's callback does not return. -/
theorem resolve_fails {re : ℤ} {result : DnsResult} (h : Server.resolve re result s = .error f) :
    (∃ addr, result = .found ⟨.unknown, addr⟩) ∧ f = .exited ∨
      (∃ addr, result = .found ⟨.inet, addr⟩) ∧ s.context = none ∧ f = .useAfterFree := by
  cases hctx : s.context with
  | some ctx =>
      rcases resolve_cases hctx re result with ⟨_, -, hok⟩ | ⟨_, -, hok⟩ | ⟨hunknown, hexit⟩
      · cases h.symm.trans hok
      · cases h.symm.trans hok
      · cases h.symm.trans hexit
        exact .inl ⟨hunknown, rfl⟩
  | none =>
      cases result with
      | error code => cases h
      | found answer =>
          obtain ⟨family, addr⟩ := answer
          cases family with
          | unknown =>
              cases h
              exact .inl ⟨⟨addr, rfl⟩, rfl⟩
          | inet =>
              cases h.symm.trans (dnsCb_deleted (by exact hctx))
              exact .inr ⟨⟨addr, rfl⟩, rfl, rfl⟩

theorem breaks_of_dnsDone {nodename : List UInt8} {result : DnsResult} {re : ℤ}
    (hf : Faults P s (.dnsDone nodename result re) f) :
    Breaks P s (.dnsDone nodename result re) f := by
  obtain ⟨hdns, hr⟩ := Session.fire_dnsDone hf
  rcases resolve_fails hr.symm with ⟨⟨addr, rfl⟩, rfl⟩ | ⟨⟨addr, rfl⟩, hctx, rfl⟩
  · exact .unknownFamily hdns
  · exact .deleted hdns hctx

theorem Faults.breaks (hs : Reachable P s) (hf : Faults P s e f) : Breaks P s e f := by
  obtain ⟨mode, h⟩ := hs.shape
  cases hf.fails h with
  | overflow hmode =>
      rcases hmode with rfl | rfl
      · obtain ⟨c, hdue⟩ := due_of_readCb h trivial (by simp) hf
        exact breaks_of_greeting hdue hs hf
      · obtain ⟨c, hdue⟩ := due_of_readCb h trivial (by simp) hf
        exact breaks_of_request hdue hs hf
  | exitsAtOnce =>
      obtain ⟨c, hdue⟩ := due_of_readCb h trivial (by simp) hf
      exact breaks_of_request hdue hs hf
  | nullArgument =>
      cases h with
      | ipv4 hc _ =>
          obtain ⟨b, hb, hdue, -⟩ := Session.fire_readCb hf
          obtain ⟨-, rfl⟩ := getElem?_one hb
          exact .nullArgument ⟨hb, hdue, by rw [hc.callbacks]; rfl, rfl⟩ (by rw [hc.callbacks]; rfl)
  | exits | deleted _ => exact breaks_of_dnsDone hf
  | dangling =>
      cases h with
      | abandoned _ _ _ =>
          obtain ⟨r, w, hr, hw, -⟩ := Session.fire_eventCb hf
          exact .dangling hr hw rfl

/-! ## All of it fails -/

theorem Breaks.faults (hs : Reachable P s) (h : Breaks P s e f) : Faults P s e f := by
  cases h with
  | longGreeting hdue hlong =>
      obtain ⟨port, ip, rfl, hc⟩ := hdue.greeting hs
      rw [Faults, hdue.fire]
      exact congrArg some ((readCb_greeting hc port ip _).trans (if_pos hlong))
  | badRequest hdue hover =>
      obtain ⟨port, ip, rfl, hc⟩ := hdue.request hs
      rw [Faults, hdue.fire]
      exact congrArg some (callRead_overruns hc hover)
  | unknownFamilyAtOnce hdue hasks hok hanswer =>
      obtain ⟨port, ip, rfl, hc⟩ := hdue.request hs
      rw [Faults, hdue.fire]
      refine congrArg some ?_
      rcases readCb_request hc rfl with
        ⟨hparse, -⟩ | ⟨-, ⟨-, hno, -⟩ | ⟨h4, -⟩ | ⟨-, -, hask⟩⟩
      · exact absurd ((parseRequest_overruns _).1 hparse) hok
      · exact absurd hasks hno
      · exact absurd hasks h4.not_asksDomain
      · exact hask.trans (askAndRegister_unknown hanswer)
  | nullArgument hdue harg =>
      rw [Faults, hdue.fire, Session.callRead, hdue.readcb, harg]
      rfl
  | unknownFamily hdns =>
      rw [Faults, Session.fire, if_pos hdns]
      rfl
  | deleted hdns hctx =>
      rw [Faults, Session.fire, if_pos hdns]
      exact congrArg some (dnsCb_deleted hctx)
  | @dangling r w hr hw hctx =>
      have hfire : s.fire P.table (.eventCb 1) = some (Session.callEvent P.table 1 r.callbacks w
          (s.setBev 1 (r.takeEvent w))) := by
        simp only [Session.fire, hr, hw]
      obtain ⟨mode, hshape⟩ := hs.shape
      cases hshape with
      | abandoned hc hstranded hout =>
          obtain rfl := Option.some.inj hr
          obtain ⟨-, -, -, htimeout, -⟩ := hstranded.nextEvent hw
          rw [Faults, hfire, Session.callEvent, hstranded.callbacks]
          exact congrArg some (remoteEventCb_deleted rfl (.inr
            (by simp [What.terminal, htimeout])))
      | closedPaired hc hdead _ =>
          obtain rfl := Option.some.inj hr
          simp [Bufferevent.nextEvent, hdead] at hw
      | orphaned _ _ | closedAlone _ _ _ => cases hr
      | _ => cases hctx

/-- **Exactly these events fail**, in every reachable session. -/
theorem faults_iff (hs : Reachable P s) : Faults P s e f ↔ Breaks P s e f :=
  ⟨fun hf => hf.breaks hs, fun h => h.faults hs⟩

/-- A client that leaves while its lookup is outstanding lets the answer find the context
deleted. -/
theorem faults_iff_deleted : ∃ s, Reachable Key.identity s ∧
    Faults Key.identity s (.dnsDone [0x61] (.found ⟨.inet, ⟨127, 0, 0, 1⟩⟩) 0) .useAfterFree := by
  obtain ⟨c, ip, hr, hc⟩ := reach_resolving Key.identity [0x61] 0 80 ShortName.example
  have hs : Reachable Key.identity _ := ⟨_, hr.append (run_hangup_alone hc)⟩
  exact ⟨_, hs, (faults_iff hs).2 (.deleted List.mem_cons_self rfl)⟩

end LightSocks
