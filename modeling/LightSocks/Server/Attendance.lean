import LightSocks.Server.Messages
import LightSocks.Server.Teardown

/-!
# Nobody is left waiting

A message of the handshake, the answer of the resolver and the outcome of a connect
each end in a handler.  When it returns, the client should know what has become of
its request, or something should still be under way.

* `Handles` — the events in question; `Attended` — what the handler owes the client.
* `SilentExit` — the exits that owe it: refusals and failures with an early return.
* `client_attended` — every handler of a run attends to its client exactly when the
  run takes no such exit.
-/

namespace LightSocks

open Transition

variable {P : Key} {m : List UInt8} {u v : Session} {e : Event} {c : Bufferevent Callbacks}
  {choice : Choice}

/-! ## What is owed to the client -/

/-- A greeting that is all there: `ver n m1 … mn`. -/
def CompleteGreeting (m : List UInt8) : Prop :=
  ∃ ver n methods, m = ver :: n :: methods ∧ methods.length = n.toNat

/-- A request that is all there: as long as its address type says. -/
structure CompleteRequest (m : List UInt8) : Prop where
  header : 4 ≤ m.length
  ipv4 : m.getD 3 0 = 0x01 → m.length = 10
  domain : m.getD 3 0 = 0x03 → m.length = 7 + (m.getD 4 0).toNat
  ipv6 : m.getD 3 0 = 0x04 → m.length = 22

/-- The events a client waits for: a complete message of its own, the answer of the
resolver, the outcome of the connect. -/
inductive Handles (P : Key) (u : Session) : Event → Prop where
  | greeting {c : Bufferevent Callbacks} {m : List UInt8} {choice : Choice}
      (due : Due u c .localReadCb (P.encrypt m)) (complete : CompleteGreeting m) :
      Handles P u (.readCb 0 choice)
  | request {c : Bufferevent Callbacks} {m : List UInt8} {choice : Choice}
      (due : Due u c .handleSecond (P.encrypt m)) (complete : CompleteRequest m) :
      Handles P u (.readCb 0 choice)
  | lookup (nodename : List UInt8) (result : DnsResult) (re : ℤ) :
      Handles P u (.dnsDone nodename result re)
  | connect {p : BevPtr} (hp : p ≠ 0) : Handles P u (.eventCb p)

/-- Between `u` and `v` the client has been sent one reply: a refusal, or a success,
the handshake going on or the remote host being connected. -/
structure RepliedWith (P : Key) (u v : Session) (reply : List UInt8) : Prop where
  replies : v.replies = u.replies ++ [reply]
  sent : v.sent = u.sent ++ P.encrypt reply
  honest : reply.getD 1 0 ≠ 0 ∨ v.handler ≠ u.handler ∨
    ∃ r ∈ v.bevs, r.reported.connected = true

/-- What a handler that led from `u` to `v` owes the client. -/
inductive Attended (P : Key) (u v : Session) : Prop where
  | closed (h : Released v)
  | replied (reply : List UInt8) (h : RepliedWith P u v reply)
  | lookingUp (h : v.dns ≠ [])
  | connecting (r : Bufferevent Callbacks) (mem : r ∈ v.bevs) (live : r.live = true)
      (link : r.link = .connecting)

/-- The lookup has failed, or the connect that follows it fails at once. -/
def DnsResult.ComesToNothing (re : ℤ) : DnsResult → Prop
  | .error _ => True
  | .found _ => re ≠ 0

/-- **The silent exits**: of `handle_first`, of `handle_second`, and of `dns_cb` when it
is called later or at once. -/
inductive SilentExit (P : Key) (u : Session) : Event → Prop where
  | badGreeting {c : Bufferevent Callbacks} {m : List UInt8} {choice : Choice}
      (due : Due u c .localReadCb (P.encrypt m)) (complete : CompleteGreeting m)
      (no : ¬ IsGreeting m) : SilentExit P u (.readCb 0 choice)
  | unsupported {c : Bufferevent Callbacks} {m : List UInt8} {choice : Choice}
      (due : Due u c .handleSecond (P.encrypt m)) (complete : CompleteRequest m)
      (no4 : ¬ AsksIpv4 m) (noDomain : ¬ AsksDomain m) : SilentExit P u (.readCb 0 choice)
  | failsAtOnce {c : Bufferevent Callbacks} {m : List UInt8} {choice : Choice} {result : DnsResult}
      (due : Due u c .handleSecond (P.encrypt m)) (complete : CompleteRequest m)
      (asks : AsksDomain m) (resolved : choice.resolved = some result)
      (fails : result.ComesToNothing choice.re) : SilentExit P u (.readCb 0 choice)
  | fails {nodename : List UInt8} {result : DnsResult} {re : ℤ} (context : u.context ≠ none)
      (fails : result.ComesToNothing re) : SilentExit P u (.dnsDone nodename result re)

/-- Nothing has been closed, said or started. -/
theorem not_attended (hctx : v.context ≠ none) (hreplies : v.replies = u.replies)
    (hdns : v.dns = []) (hlink : ∀ r ∈ v.bevs, r.link ≠ .connecting) : ¬ Attended P u v := by
  intro h
  cases h with
  | closed h => exact hctx h.1
  | replied reply h =>
      have heq := h.replies
      rw [hreplies] at heq
      simp at heq
  | lookingUp h => exact h hdns
  | connecting r mem live link => exact hlink r mem link

theorem comesToNothing_of_internal {result : DnsResult} (h : result.kind = .internal) (re : ℤ) :
    result.ComesToNothing re := by
  cases result with
  | error code => trivial
  | found answer => cases h

theorem comesToNothing_iff {result : DnsResult} {addr : InAddr} {re : ℤ}
    (h : result.kind = .getsAddress addr) : result.ComesToNothing re ↔ re ≠ 0 := by
  cases result with
  | error code => cases h
  | found answer => exact Iff.rfl

/-- A client is connected. -/
theorem Served.link_ne {rd : ReadCb} {arg : Option CtxPtr} (h : Served c rd arg) :
    c.link ≠ .connecting := by
  rw [h.link]
  decide

/-- A bufferevent whose connect has failed is not connecting. -/
theorem Stranded.link_ne {r : Bufferevent Callbacks} (h : Stranded r) : r.link ≠ .connecting := by
  rw [h.link]
  decide

section Shapes

variable {ctx : Socks5ctx} {r : Bufferevent Callbacks} {host : List UInt8} {target : Target}
  {queries replies : List (List UInt8)}

theorem not_attended_alone (hreplies : replies = u.replies) (hc : c.link ≠ .connecting) :
    ¬ Attended P u (.alone (some ctx) c [] queries replies) := by
  refine not_attended (Option.some_ne_none _) hreplies rfl ?_
  intro b hb
  obtain rfl := List.mem_singleton.1 hb
  exact hc

theorem not_attended_paired (hreplies : replies = u.replies) (hc : c.link ≠ .connecting)
    (hr : r.link ≠ .connecting) :
    ¬ Attended P u (.paired (some ctx) c r host target replies) := by
  refine not_attended (Option.some_ne_none _) hreplies rfl ?_
  intro b hb
  simp only [Session.paired, List.mem_cons, List.not_mem_nil, or_false] at hb
  rcases hb with rfl | rfl
  · exact hc
  · exact hr

/-- With a new bufferevent in place, the client is attended to when its connect has
started. -/
theorem attended_newRemote {re : ℤ} (hreplies : replies = u.replies) (hc : c.link ≠ .connecting) :
    Attended P u (.paired (some ctx) c (newRemote re) host target replies) ↔ re = 0 := by
  by_cases hre : re = 0
  · subst hre
    refine iff_of_true ?_ rfl
    exact .connecting (newRemote 0) (List.mem_cons_of_mem _ List.mem_cons_self) rfl rfl
  · exact iff_of_false (not_attended_paired hreplies hc (newRemote_stranded hre).link_ne) hre

end Shapes

/-! ## Handler by handler -/

theorem attended_greeting (hs : Reachable P u) (hd : Due u c .localReadCb (P.encrypt m))
    (hst : Step P u (.readCb 0 choice) v) : Attended P u v ↔ IsGreeting m := by
  obtain ⟨port, ip, rfl, hc⟩ := hd.greeting hs
  have hok := (hd.step_iff P choice v).1 hst
  change Session.callRead P.table 0 c.callbacks choice
    (.alone (some ⟨some 0, none, port, ip⟩) c.takeRead [] [] []) = _ at hok
  rw [readCb_greeting (P := P) hc port ip choice, hd.pending, Key.decrypt_encrypt] at hok
  split at hok
  · cases hok
  split at hok
  · rename_i hg
    refine iff_of_true ?_ hg
    cases hok
    refine .replied methodReply.toList ⟨rfl, Fifo.stream_push _ _, .inr (.inl ?_)⟩
    show some ReadCb.handleSecond ≠ c.callbacks.readcb
    rw [hd.readcb]
    decide
  · rename_i hg
    refine iff_of_false ?_ hg
    cases hok
    exact not_attended_alone rfl hc.link_ne

/-- A host name is looked up: the client is attended to when the lookup is outstanding
or has led to a connect. -/
theorem attended_asked {port : ℕ} {ip host : List UInt8} {replies : List (List UInt8)}
    (hreplies : replies = u.replies) (hl : c.live = true) (hlink : c.link ≠ .connecting)
    (hask : askAndRegister 0 host choice
      (.alone (some ⟨some 0, none, port, ip⟩) c [] [] replies) = .ok v) :
    Attended P u v ↔
      ∀ result, choice.resolved = some result → ¬ result.ComesToNothing choice.re := by
  have hlink' : (c.register (clientCallbacks .handleLast (some .socks5Ctx))).link ≠ .connecting :=
    hlink
  rcases askAndRegister_alone host choice hl hask with
    ⟨hres, hv⟩ | ⟨result, hres, hk, hv⟩ |
      ⟨result, addr, hres, hk, ⟨hre, hv⟩ | ⟨hre, hv⟩⟩ | ⟨-, hv⟩
  · cases hv
    refine iff_of_true (.lookingUp (List.cons_ne_nil _ _)) ?_
    intro result h
    rw [hres] at h
    cases h
  · cases hv
    refine iff_of_false (not_attended_alone hreplies hlink') ?_
    intro h
    exact h result hres (comesToNothing_of_internal hk _)
  · cases hv
    refine iff_of_true ((attended_newRemote hreplies hlink').2 rfl) ?_
    intro result' h
    rw [hres] at h
    cases h
    rw [comesToNothing_iff hk]
    exact not_not.2 hre
  · cases hv
    refine iff_of_false (mt (attended_newRemote hreplies hlink').1 hre) ?_
    intro h
    exact h result hres ((comesToNothing_iff hk).2 hre)
  · cases hv

/-- The handler of a request attends to the client when it answers an `ATYP = 1` request,
or starts a lookup that is still outstanding or has led to a connect. -/
theorem attended_request (hs : Reachable P u) (hd : Due u c .handleSecond (P.encrypt m))
    (hst : Step P u (.readCb 0 choice) v) : Attended P u v ↔
      AsksIpv4 m ∨ AsksDomain m ∧
        ∀ result, choice.resolved = some result → ¬ result.ComesToNothing choice.re := by
  obtain ⟨port, ip, hshape, hc⟩ := hd.request hs
  rcases hd.request_cases hshape hc choice with
    ⟨-, -, hfault⟩ | ⟨-, ⟨h4, hdom, hstep⟩ | ⟨h4, ip', hstep⟩ | ⟨hdom, hask⟩⟩
  · exact absurd hst (hfault v)
  · -- ignored
    obtain rfl := step_deterministic P _ _ _ _ hstep hst
    refine iff_of_false ?_ (not_or.2 ⟨h4, fun h => hdom h.1⟩)
    exact not_attended_alone (by rw [hshape]; rfl) hc.link_ne
  · -- ATYP = 1
    obtain rfl := step_deterministic P _ _ _ _ hstep hst
    refine iff_of_true (.replied connectReply.toList ⟨?_, ?_, .inr (.inl ?_)⟩) (.inl h4)
    · rw [hshape]
      rfl
    · rw [hshape]
      exact Fifo.stream_push _ _
    · have hu : u.handler = some .handleSecond := by
        unfold Session.handler
        rw [hd.client]
        exact hd.readcb
      rw [hu]
      show some ReadCb.handleLast ≠ some .handleSecond
      decide
  · -- ATYP = 3
    have h4 : ¬ AsksIpv4 m := fun h4 => h4.not_asksDomain hdom
    rw [or_iff_right h4, and_iff_right hdom]
    exact attended_asked (c := c.takeRead.drained) (by rw [hshape]; rfl) hc.live hc.link_ne
      ((hask v).1 hst)

/-- `dns_cb` attends to the client when the connect starts; in a session that is over
there is nobody to attend to. -/
theorem attended_lookup {nodename : List UInt8} {result : DnsResult} {re : ℤ} (hs : Reachable P u)
    (hst : Step P u (.dnsDone nodename result re) v) :
    Attended P u v ↔ u.context = none ∨ ¬ result.ComesToNothing re := by
  obtain ⟨mode, h⟩ := hs.shape
  obtain ⟨hmem, hr⟩ := Session.fire_dnsDone hst
  cases h with
  | @resolving c host port ip hc _ =>
      obtain rfl : nodename = host := List.mem_singleton.1 hmem
      have herase : [nodename].erase nodename = [] := List.erase_cons_head ..
      simp only [Session.alone, herase] at hr
      refine Iff.trans ?_ (or_iff_right (Option.some_ne_none _)).symm
      rcases resolve_alone re result hr.symm with
        ⟨hk, ht⟩ | ⟨addr, hk, ⟨hre, ht⟩ | ⟨hre, ht⟩⟩ | ⟨-, ht⟩
      · cases ht
        exact iff_of_false (not_attended_alone rfl hc.link_ne)
          (not_not.2 (comesToNothing_of_internal hk re))
      · cases ht
        refine iff_of_true ((attended_newRemote rfl hc.link_ne).2 rfl) ?_
        rw [comesToNothing_iff hk]
        exact not_not.2 hre
      · cases ht
        exact iff_of_false (mt (attended_newRemote rfl hc.link_ne).1 hre)
          (not_not.2 ((comesToNothing_iff hk).2 hre))
      · cases ht
  | @orphaned c host hc _ =>
      obtain rfl : nodename = host := List.mem_singleton.1 hmem
      have herase : [nodename].erase nodename = [] := List.erase_cons_head ..
      simp only [Session.alone, herase] at hr
      refine iff_of_true ?_ (.inl rfl)
      obtain rfl := resolve_deleted rfl hr.symm
      exact .closed ⟨rfl, by simpa using hc⟩
  | greeting _ _ | request _ _ | ipv4 _ _ | unresolved _ _ | stranded _ _ _ | relay _ _ _
  | abandoned _ _ _ | closedAlone _ _ _ | closedPaired _ _ _ => exact absurd hmem List.not_mem_nil

/-- `remote_event_cb` attends to the client whatever has become of the connection. -/
theorem attended_connect {p : BevPtr} (hs : Reachable P u) (hp : p ≠ 0)
    (hst : Step P u (.eventCb p) v) : Attended P u v := by
  obtain ⟨mode, h⟩ := hs.shape
  cases h with
  | greeting _ _ | request _ _ | ipv4 _ _ | resolving _ _ | unresolved _ _ | orphaned _ _
  | closedAlone _ _ _ =>
      obtain ⟨b, w, hb, -, -⟩ := Session.fire_eventCb hst
      exact absurd (getElem?_one hb).1 hp
  | closedPaired hc hr _ =>
      rw [Step, paired_closed hc hr] at hst
      cases hst
  | stranded hc hr _ =>
      rcases paired_eventCb hst with ⟨w, rfl, -, -⟩ | ⟨w, rfl, hw, hv⟩
      · exact absurd rfl hp
      · obtain ⟨hconn, heof, herror, -, hterm⟩ := hr.nextEvent hw
        rw [paired_remoteEnds hc.live hr.live hr.callbacks hconn hterm
          (by simp [heof, herror])] at hv
        cases hv
        exact .closed ⟨rfl, by simp [Session.paired, Bufferevent.release]⟩
  | abandoned hc hr hout =>
      rcases paired_eventCb hst with ⟨w, rfl, -, -⟩ | ⟨w, rfl, hw, -⟩
      · exact absurd rfl hp
      · -- the deleted context: the callback does not return
        obtain ⟨mode', hmove, -⟩ := hst.move (.abandoned hc hr hout)
        rw [kind_eventCb rfl hw, if_pos (hr.nextEvent hw).2.2.2.2] at hmove
        cases hmove with
        | closed h => simp at h
        | released h => simp at h
  | @relay c r host port ip target hc hr hout =>
      rcases paired_eventCb hst with ⟨w, rfl, -, -⟩ | ⟨w, rfl, hw, hv⟩
      · exact absurd rfl hp
      obtain ⟨-, ⟨hconn, rfl⟩ | ⟨hconn, rfl, hterm, -⟩⟩ := Bufferevent.nextEvent_cases hw
      · -- CONNECTED
        rw [paired_connected hc.live hr.callbacks] at hv
        cases hv
        exact .replied connectReply.toList ⟨rfl, Fifo.stream_push _ _, .inr (.inr
          ⟨_, List.mem_cons_of_mem _ List.mem_cons_self, (hr.connected hconn).2.2.2⟩)⟩
      · -- the connect has failed, or the connection has ended
        rw [paired_remoteEnds hc.live hr.live hr.callbacks hconn hterm (fun _ => rfl)] at hv
        cases hv
        exact .closed ⟨rfl, by simp [Session.paired, Bufferevent.release]⟩

/-! ## Over a whole run -/

/-- A handler attends to its client exactly when it takes no silent exit. -/
theorem attended_iff (hs : Reachable P u) (hst : Step P u e v) :
    (Handles P u e → Attended P u v) ↔ ¬ SilentExit P u e := by
  constructor
  · intro h hsilent
    cases hsilent with
    | badGreeting due complete no =>
        exact no ((attended_greeting hs due hst).1 (h (.greeting due complete)))
    | unsupported due complete no4 noDomain =>
        rcases (attended_request hs due hst).1 (h (.request due complete)) with h4 | ⟨hd, -⟩
        · exact no4 h4
        · exact noDomain hd
    | failsAtOnce due complete asks resolved fails =>
        rcases (attended_request hs due hst).1 (h (.request due complete)) with h4 | ⟨-, hres⟩
        · exact h4.not_asksDomain asks
        · exact hres _ resolved fails
    | fails context fails =>
        rcases (attended_lookup hs hst).1 (h (.lookup _ _ _)) with hctx | hres
        · exact context hctx
        · exact hres fails
  · intro hsilent h
    cases h with
    | greeting due complete =>
        refine (attended_greeting hs due hst).2 ?_
        by_contra no
        exact hsilent (.badGreeting due complete no)
    | @request c m choice due complete =>
        refine (attended_request hs due hst).2 ?_
        by_contra hn
        obtain ⟨no4, hn⟩ := not_or.1 hn
        by_cases asks : AsksDomain m
        · push Not at hn
          obtain ⟨result, resolved, fails⟩ := hn asks
          exact hsilent (.failsAtOnce due complete asks resolved fails)
        · exact hsilent (.unsupported due complete no4 asks)
    | lookup nodename result re =>
        refine (attended_lookup hs hst).2 ?_
        by_contra hn
        obtain ⟨context, fails⟩ := not_or.1 hn
        exact hsilent (.fails context (not_not.1 fails))
    | connect hp => exact attended_connect hs hp hst

/-- **When no client is left waiting.**  Every handler of every run of the server, of a
complete message, of an answer or of the outcome of a connect, attends to its client
exactly when the run takes no silent exit. -/
theorem client_attended {es : List (ℕ × Event)} {σ : ServerState}
    (h : Run (ServerStep P) .start es σ) (i : ℕ) :
    (∀ n u e v, StepAt (Step P) .accepted (eventsOf i es) (σ i) n u e v →
        Handles P u e → Attended P u v) ↔
      Run (Guarded (fun u e => ¬ SilentExit P u e) (Step P)) .accepted (eventsOf i es) (σ i) :=
  (session_run h i).everyStep_iff (step_deterministic P) fun _ _ _ _ hr hst =>
    attended_iff ⟨_, hr⟩ hst

/-- A greeting that is answered is no silent exit. -/
theorem Due.not_silentExit (hd : Due u c .localReadCb (P.encrypt m)) (hg : IsGreeting m) :
    ¬ SilentExit P u (.readCb 0 choice) := by
  intro h
  cases h with
  | @badGreeting c' m' _ due complete no =>
      obtain rfl := Option.some.inj (hd.client.symm.trans due.client)
      have hm : P.decrypt (P.encrypt m) = P.decrypt (P.encrypt m') := by
        rw [← hd.pending, due.pending]
      rw [Key.decrypt_encrypt, Key.decrypt_encrypt] at hm
      exact no (hm ▸ hg)
  | unsupported due _ _ _ | failsAtOnce due _ _ _ _ =>
      obtain rfl := Option.some.inj (hd.client.symm.trans due.client)
      cases hd.readcb.symm.trans due.readcb

/-- A client that sends its greeting. -/
theorem client_attended_greeting : ∃ σ,
    Run (ServerStep Key.identity) .start
      ((delivery (Key.identity.encrypt greetingMessage) .later).map fun e => (0, e)) σ ∧
    ∀ n u e v, StepAt (Step Key.identity) .accepted
      (delivery (Key.identity.encrypt greetingMessage) .later) (σ 0) n u e v →
      Handles Key.identity u e → Attended Key.identity u v := by
  obtain ⟨c, hacc, hc⟩ := accepted_idle
  have hdata : Key.identity.encrypt greetingMessage ≠ [] := encrypt_ne_nil _ (by decide)
  obtain ⟨c', hr, -, -⟩ := delivery_greeting (P := Key.identity) 0 [] .later hc hdata (by decide)
  rw [← hacc] at hr
  have hσ := hr.interleave (f := ServerState.start) (i := 0) rfl
  have hiff := client_attended hσ 0
  rw [eventsOf_self, Function.update_self] at hiff
  refine ⟨_, hσ, ?_⟩
  rw [Function.update_self]
  refine hiff.2 ?_
  cases hr with
  | cons h₁ hr =>
    cases hr with
    | cons h₂ hr =>
      cases hr
      have hrecv : Step Key.identity .accepted (.socket 0 (.recv _)) _ :=
        .socket (b := c) (by rw [hacc]; rfl) ⟨hc.live, hc.link, hc.readEnabled, hdata⟩
      obtain rfl := step_deterministic _ _ _ _ _ hrecv h₁
      have hd := hc.due_arrived hdata (some ⟨some 0, none, 0, []⟩) [] [] []
      refine .cons ⟨nofun, h₁⟩ (.single ⟨?_, h₂⟩)
      rw [hacc]
      exact hd.not_silentExit (by decide)

/-- The lookup fails: the client is not told, and nothing is under way any more. -/
theorem client_attended_lookupFails : ∃ s t, Run (Step Key.identity) .accepted
      (delivery (Key.identity.encrypt greetingMessage) .later ++
        delivery (Key.identity.encrypt (domainRequest [0x61] 0x00 0x50)) .later) s ∧
    Step Key.identity s (.dnsDone [0x61] (.error 1) 0) t ∧
    Handles Key.identity s (.dnsDone [0x61] (.error 1) 0) ∧
    ¬ Attended Key.identity s t ∧ t.replies = s.replies ∧ t.dns = [] ∧ t.context ≠ none := by
  obtain ⟨c, ip, hr, hc⟩ := reach_resolving Key.identity [0x61] 0x00 0x50 .example
  have hst : Step Key.identity
      (.alone (some ⟨some 0, none, portOf 0x00 0x50, ip⟩) c [[0x61]] [[0x61]] [methodReply.toList])
      (.dnsDone [0x61] (.error 1) 0)
      (.alone (some ⟨some 0, none, portOf 0x00 0x50, ip⟩) c [] [[0x61]] [methodReply.toList]) := by
    simp only [Step, Session.fire, Session.alone, List.mem_singleton, if_true,
      List.erase_cons_head]
    rfl
  refine ⟨_, _, hr, hst, .lookup _ _ _, ?_, rfl, rfl, Option.some_ne_none _⟩
  intro h
  rcases (attended_lookup ⟨_, hr⟩ hst).1 h with hctx | hres
  · cases hctx
  · exact hres trivial

end LightSocks
