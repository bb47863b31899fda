import LightSocks.Server.Teardown

/-!
# What a closing session has delivered

A relay session closes when one side reports EOF: both bufferevents are freed on
the spot.  Whatever was read from the side that ended has been translated and
queued for the other one by then, but a queue is not a socket; and the other side
may have ended as well, with its EOF still to be reported.

* `NothingLost` — whoever has ended with EOF, reported or not, everything it had
  sent has been translated and handed to the socket of the other side.
* `EofFindsFlushed` — whatever tears the session down finds everything flushed that
  came from a side that has ended with EOF.
* `nothing_lost` — the first holds throughout exactly the runs that satisfy the
  second; `lost_response` is the plainest run that does not.
-/

namespace LightSocks

open Transition

variable {P : Key}

/-- The socket has taken exactly `data`, and nothing is left to be taken. -/
def Flushed (b : Bufferevent Callbacks) (data : List UInt8) : Prop :=
  b.output.past = data ∧ b.output.pending = []

/-- The peer has closed its direction: an event callback has been told, or is going
to be. -/
def EndedByEof (b : Bufferevent Callbacks) : Prop :=
  b.reported.eof = true ∨ b.eventPending.eof = true

/-- Nothing was lost between `s` and `t`.  Once a bufferevent is freed, the other
side has ended with EOF and it has reported no error itself, its socket has been
handed everything. -/
structure NothingLost (P : Key) (s t : Session) : Prop where
  /-- The client: the replies and everything the remote host sent. -/
  clientGets : ∀ c r, t.bevs = [c, r] → c.live = false → EndedByEof r →
    c.reported.error = false → Flushed c (P.encrypt (t.replies.flatten ++ r.input.stream))
  /-- The remote host: what it was sent before `s`, and everything the client
  sent that was not consumed by then. -/
  remoteGets : ∀ c r, t.bevs = [c, r] → r.live = false → EndedByEof c →
    r.reported.error = false → ∃ bytes, c.input.stream = s.consumed ++ bytes ∧
      Flushed r (s.forwarded ++ P.decrypt bytes)

/-- The condition, when a callback is told that `b` has ended with the bits `w` and `d` is
the other side: an EOF of `b` finds the output buffer of `d` empty, and so does an EOF of
`d` that is still to be reported find its input buffer and the output buffer of `b`, unless
`b` reports an error. -/
structure FindsFlushed (b d : Bufferevent Callbacks) (w : What) : Prop where
  reported : w.eof = true → d.output.pending = []
  pending : d.eventPending.eof = true → w.error = false →
    d.input.pending = [] ∧ b.output.pending = []

/-- The condition: it is met by every callback that tears the session down. -/
def EofFindsFlushed (s : Session) (e : Event) : Prop :=
  ∀ p b w, e = .eventCb p → s.bevs[p]? = some b → b.nextEvent = some w → w.terminal = true →
    ∀ q d, q ≠ p → s.bevs[q]? = some d → FindsFlushed b d w

theorem eofFindsFlushed_socket {s : Session} (p : BevPtr) (e : SocketEvent) :
    EofFindsFlushed s (.socket p e) := by
  intro _ _ _ he
  cases he

theorem eofFindsFlushed_readCb {s : Session} (p : BevPtr) (choice : Choice) :
    EofFindsFlushed s (.readCb p choice) := by
  intro _ _ _ he
  cases he

/-- As long as both sides are live nothing can have been lost. -/
theorem Shape.nothingLost {target : Target} {s t : Session} (h : Shape P (.relay target) t) :
    NothingLost P s t := by
  cases h with
  | relay hc hr _ =>
      constructor
      · rintro _ _ ⟨⟩ hdead
        rw [hc.live] at hdead
        cases hdead
      · rintro _ _ ⟨⟩ hdead
        rw [hr.live] at hdead
        cases hdead

theorem Attached.no_eof {r : Bufferevent Callbacks} (h : Attached r) :
    r.reported.eof = false ∧ r.reported.error = false := by
  have hsilent := h.silent
  simp only [What.terminal, Bool.or_eq_false_iff] at hsilent
  exact hsilent.1

section Ends

variable {c r : Bufferevent Callbacks} {port : ℕ} {ip host : List UInt8} {target : Target}
  {w : What} {s : Session}

/-- What has been taken from a buffer is all of it only when nothing is left. -/
theorem past_eq_stream_iff (f : Fifo UInt8) : f.past = f.stream ↔ f.pending = [] :=
  ⟨fun h => List.append_right_eq_self.1 h.symm, Fifo.past_eq_stream⟩

/-- **What the client has got.**  It has been queued everything taken from the remote
host. -/
theorem flushed_client_iff {bytes : List UInt8}
    (hout : c.output.stream = P.encrypt (bytes ++ r.input.past)) :
    Flushed c (P.encrypt (bytes ++ r.input.stream)) ↔
      r.input.pending = [] ∧ c.output.pending = [] := by
  constructor
  · rintro ⟨hpast, hpending⟩
    refine ⟨?_, hpending⟩
    have heq : P.encrypt (bytes ++ r.input.past) = P.encrypt (bytes ++ r.input.stream) := by
      rw [← hout, ← Fifo.past_eq_stream hpending, hpast]
    exact (past_eq_stream_iff _).1 (List.append_cancel_left
      (Function.LeftInverse.injective P.decrypt_encrypt heq))
  · rintro ⟨hread, hpending⟩
    refine ⟨?_, hpending⟩
    rw [Fifo.past_eq_stream hpending, hout, Fifo.past_eq_stream hread]

/-- **What the remote host has got.**  It has been queued everything taken from the
client. -/
theorem flushed_remote_iff {bytes : List UInt8} (hconsumed : c.input.past = s.consumed ++ bytes)
    (hforwarded : r.output.stream = s.forwarded ++ P.decrypt bytes) :
    (∃ bytes, c.input.stream = s.consumed ++ bytes ∧ Flushed r (s.forwarded ++ P.decrypt bytes)) ↔
      c.input.pending = [] ∧ r.output.pending = [] := by
  constructor
  · rintro ⟨all, hall, hpast, hpending⟩
    refine ⟨?_, hpending⟩
    have heq : s.forwarded ++ P.decrypt bytes = s.forwarded ++ P.decrypt all := by
      rw [← hforwarded, ← Fifo.past_eq_stream hpending, hpast]
    have hbytes := Function.LeftInverse.injective P.encrypt_decrypt (List.append_cancel_left heq)
    rw [← past_eq_stream_iff, hconsumed, hall, hbytes]
  · rintro ⟨hread, hpending⟩
    refine ⟨bytes, ?_, ?_, hpending⟩
    · rw [← Fifo.past_eq_stream hread, hconsumed]
    · rw [Fifo.past_eq_stream hpending, hforwarded]

/-- What an event callback has been told of an EOF or an ERROR, when it was told nothing
before. -/
theorem endedByEof_takeEvent {b : Bufferevent Callbacks} (hw : b.nextEvent = some w)
    (hterm : w.terminal = true) (heof : b.reported.eof = false) :
    EndedByEof (b.takeEvent w).release ↔ w.eof = true := by
  obtain ⟨-, ⟨-, rfl⟩ | ⟨hconn, rfl, -⟩⟩ := Bufferevent.nextEvent_cases hw
  · cases hterm
  · simp [EndedByEof, Bufferevent.release, Bufferevent.takeEvent, What.merge, heof, hconn]

theorem error_takeEvent {b : Bufferevent Callbacks} (herror : b.reported.error = false) :
    (b.takeEvent w).release.reported.error = w.error := by
  simp [Bufferevent.release, Bufferevent.takeEvent, What.merge, herror]

/-- Of the side whose EOF nobody has been told only what is pending counts. -/
theorem endedByEof_release {b : Bufferevent Callbacks} (heof : b.reported.eof = false) :
    EndedByEof b.release ↔ b.eventPending.eof = true := by
  simp [EndedByEof, Bufferevent.release, heof]

/-- **The client ends the session.** -/
theorem client_ends {ctx : Option Socks5ctx}
    (hc : Served c .handleLast (some .socks5Ctx)) (hr : Attached r) (hw : c.nextEvent = some w)
    (hout : c.output.stream = P.encrypt ((relayReplies r).flatten ++ r.input.past))
    (hrelayed : Relayed P s (.paired ctx c r host target (relayReplies r))) :
    NothingLost P s ((Session.paired ctx c r host target (relayReplies r)).ended 0 w) ↔
      FindsFlushed c r w := by
  obtain ⟨-, -, hterm, hread⟩ := hc.nextEvent hw
  obtain ⟨hceof, hcerror⟩ := hc.silent (by simp)
  obtain ⟨hreof, hrerror⟩ := hr.no_eof
  obtain ⟨bytes, hconsumed, hforwarded⟩ := hrelayed
  have hclient := flushed_client_iff (P := P) hout
  have hremote := flushed_remote_iff (P := P) hconsumed hforwarded
  have hc' := endedByEof_takeEvent hw hterm hceof
  have hcerror' := error_takeEvent (w := w) hcerror
  have hr' := endedByEof_release hreof
  constructor
  · intro h
    constructor
    · intro heof
      have hgot := h.remoteGets (c.takeEvent w).release r.release rfl rfl (hc'.2 heof) hrerror
      exact (hremote.1 hgot).2
    · intro heof herror
      have hgot := h.clientGets (c.takeEvent w).release r.release rfl rfl (hr'.2 heof)
        (hcerror'.trans herror)
      exact hclient.1 hgot
  · intro h
    constructor
    · rintro _ _ ⟨⟩ - heof herror
      exact hclient.2 (h.pending (hr'.1 heof) (hcerror'.symm.trans herror))
    · rintro _ _ ⟨⟩ - heof -
      exact hremote.2 ⟨hread, h.reported (hc'.1 heof)⟩

/-- **The remote host ends the session.** -/
theorem remote_ends {ctx : Option Socks5ctx}
    (hc : Served c .handleLast (some .socks5Ctx)) (hr : Attached r) (hw : r.nextEvent = some w)
    (hterm : w.terminal = true)
    (hout : c.output.stream = P.encrypt ((relayReplies r).flatten ++ r.input.past))
    (hrelayed : Relayed P s (.paired ctx c r host target (relayReplies r))) :
    NothingLost P s ((Session.paired ctx c r host target (relayReplies r)).ended 1 w) ↔
      FindsFlushed r c w := by
  have hread : r.input.pending = [] := by
    obtain ⟨-, ⟨-, rfl⟩ | ⟨-, rfl, -, hidle⟩⟩ := Bufferevent.nextEvent_cases hw
    · cases hterm
    · exact hr.idle hidle
  obtain ⟨hceof, hcerror⟩ := hc.silent (by simp)
  obtain ⟨hreof, hrerror⟩ := hr.no_eof
  obtain ⟨bytes, hconsumed, hforwarded⟩ := hrelayed
  have hclient := flushed_client_iff (P := P) hout
  have hremote := flushed_remote_iff (P := P) hconsumed hforwarded
  have hr' := endedByEof_takeEvent hw hterm hreof
  have hrerror' := error_takeEvent (w := w) hrerror
  have hc' := endedByEof_release hceof
  constructor
  · intro h
    constructor
    · intro heof
      have hgot := h.clientGets c.release (r.takeEvent w).release rfl rfl (hr'.2 heof) hcerror
      exact (hclient.1 hgot).2
    · intro heof herror
      have hgot := h.remoteGets c.release (r.takeEvent w).release rfl rfl (hc'.2 heof)
        (hrerror'.trans herror)
      exact hremote.1 hgot
  · intro h
    constructor
    · rintro _ _ ⟨⟩ - heof -
      exact hclient.2 ⟨hread, h.reported (hr'.1 heof)⟩
    · rintro _ _ ⟨⟩ - heof herror
      exact hremote.2 (h.pending (hc'.1 heof) (hrerror'.symm.trans herror))

end Ends

/-- An event that ends the session is one of two bufferevents; the other one is all the
condition is about. -/
theorem eofFindsFlushed_iff {s : Session} {p q : BevPtr} {b d : Bufferevent Callbacks} {w : What}
    (hb : s.bevs[p]? = some b) (hw : b.nextEvent = some w) (hterm : w.terminal = true)
    (hq : ∀ n x, s.bevs[n]? = some x → n ≠ p → x = d) (hd : s.bevs[q]? = some d) (hne : q ≠ p) :
    EofFindsFlushed s (.eventCb p) ↔ FindsFlushed b d w := by
  constructor
  · intro h
    exact h p b w rfl hb hw hterm q d hne hd
  · rintro h _ b' w' ⟨⟩ hb' hw' - n x hn hx
    cases hb.symm.trans hb'
    cases hw.symm.trans hw'
    rw [hq n x hx hn]
    exact h

/-- **Whether the last event loses anything** is decided by what it finds in the
buffers. -/
theorem nothingLost_iff {target : Target} {s u t : Session} {e : Event}
    (h : Shape P (.relay target) u) (hrelayed : Relayed P s u) (hk : kind P u e = .terminal)
    (hended : EndedBy e u t) : NothingLost P s t ↔ EofFindsFlushed u e := by
  obtain ⟨p, b, w, rfl, hb, hw, rfl⟩ := hended
  rw [kind_eventCb hb hw] at hk
  have hterm : w.terminal = true := by
    by_contra hn
    rw [if_neg hn] at hk
    cases hk
  cases h with
  | @relay c r host port ip _ hc hr hout =>
    rcases getElem?_two hb with ⟨rfl, rfl⟩ | ⟨rfl, rfl⟩
    · have hother : ∀ n x, [b, r][n]? = some x → n ≠ 0 → x = r := by
        intro n x hx hn
        rcases getElem?_two hx with ⟨rfl, -⟩ | ⟨-, rfl⟩
        · exact absurd rfl hn
        · rfl
      rw [client_ends hc hr hw hout hrelayed]
      exact (eofFindsFlushed_iff (q := 1) (d := r) hb hw hterm hother rfl one_ne_zero).symm
    · have hother : ∀ n x, [c, b][n]? = some x → n ≠ 1 → x = c := by
        intro n x hx hn
        rcases getElem?_two hx with ⟨-, rfl⟩ | ⟨rfl, -⟩
        · rfl
        · exact absurd rfl hn
      rw [remote_ends hc hr hw hterm hout hrelayed]
      exact (eofFindsFlushed_iff (q := 0) (d := c) hb hw hterm hother rfl zero_ne_one).symm

/-- **When a closing session has delivered everything.**  From any state with a
partner on, nothing is lost exactly when whatever tears the session down finds everything
flushed that came from a side that has ended with EOF. -/
theorem nothing_lost {s t : Session} {es : List Event} (hs : Reachable P s) (hp : HasPartner s)
    (hr : Run (Step P) s es t) :
    Throughout (Step P) s es (NothingLost P s) ↔ Run (Guarded EofFindsFlushed (Step P)) s es t := by
  obtain ⟨m, hm⟩ := hs.shape
  obtain ⟨target, rfl⟩ := hm.relay_of_hasPartner hp
  refine hr.throughout_iff (step_deterministic P) ?_ ?_
  · intro es' u hu
    rcases relay_run hu.of_guarded hm with hg | ⟨es₁, e, v, rfl, hg, hk, hstep⟩
    · exact (relay_goes_on hg hm).1.nothingLost
    · obtain ⟨hv, hrelayed⟩ := relay_goes_on hg hm
      obtain ⟨v', hg₁, hlast⟩ := hu.of_append
      obtain rfl := hg₁.of_guarded.deterministic (step_deterministic P) hg.of_guarded
      cases hlast with
      | cons hlast _ => exact (nothingLost_iff hv hrelayed hk (relay_ends hv hk hstep).2).2 hlast.1
  · intro es' u e v hu hn hstep hlost
    rcases relay_run hu.of_guarded hm with hg | ⟨es₁, e₁, u₁, rfl, hg, hk, hstep₁⟩
    · obtain ⟨hu, hrelayed⟩ := relay_goes_on hg hm
      rcases fire_relay hu hstep with ⟨_, -, hk, -⟩ | ⟨_, hv, hk, -, hended⟩
      · -- the condition only speaks of terminal events
        apply hn
        intro p b w he hb hw hterm
        rw [he, kind_eventCb hb hw, if_pos hterm] at hk
        cases hk
      · cases hv
        exact hn ((nothingLost_iff hu hrelayed hk hended).1 hlost)
    · have hclosed := (relay_ends (relay_goes_on hg hm).1 hk hstep₁).1
      rw [Step, fire_closed hclosed] at hstep
      cases hstep

/-! ## A request and a response, cut short or not -/

section Ends

variable {c r : Bufferevent Callbacks} {port : ℕ} {ip host : List UInt8} {target : Target}
  {replies : List (List UInt8)} {data : List UInt8}

/-- The client sends `data` through the relay. -/
theorem run_upload (h : Idle c .handleLast (some .socks5Ctx)) (hdata : data ≠ [])
    (hl : r.live = true) :
    Run (Guarded EofFindsFlushed (Step P))
      (.paired (some ⟨some 0, some 1, port, ip⟩) c r host target replies)
      (delivery data .later) (.paired (some ⟨some 0, some 1, port, ip⟩)
        (arrived c data).takeRead.drained (r.queue (P.decrypt data)) host target replies) := by
  have hc := h.arrived hdata
  refine .cons ⟨eofFindsFlushed_socket _ _,
      .socket (b := c) rfl ⟨h.live, h.link, h.readEnabled, hdata⟩⟩
    (.single ⟨eofFindsFlushed_readCb _ _, .readCb (b := arrived c data) rfl h.readDue_arrived ?_⟩)
  refine (paired_upload hc hl).trans ?_
  rw [h.pending_arrived]
  rfl

/-- A client that leaves when everything it sent has arrived. -/
theorem run_hangup_flushed (h : Idle c .handleLast (some .socks5Ctx)) (hl : r.live = true)
    (hr : r.output.pending = []) (heof : r.eventPending.eof = false) :
    Run (Guarded EofFindsFlushed (Step P))
      (.paired (some ⟨some 0, some 1, port, ip⟩) c r host target replies) hangup
      (.paired none (hungUp c) r.release host target replies) := by
  have hrun : Run (Step P) (.paired (some ⟨some 0, some 1, port, ip⟩) c r host target replies)
      hangup (.paired none (hungUp c) r.release host target replies) := run_hangup_paired h hl
  cases hrun with
  | cons h₁ hrun =>
      cases hrun with
      | cons h₂ hrun =>
          cases hrun
          refine .cons ⟨eofFindsFlushed_socket _ _, h₁⟩ (.single ⟨?_, h₂⟩)
          rintro _ _ w ⟨⟩ - - - q d hq hd
          obtain rfl := step_deterministic P _ _ _ _ h₁
            (.socket (b := c) rfl ⟨h.live, h.link, h.readEnabled⟩)
          rcases getElem?_two hd with ⟨rfl, -⟩ | ⟨-, rfl⟩
          · exact absurd rfl hq
          · refine ⟨fun _ => hr, fun hpending => ?_⟩
            rw [heof] at hpending
            cases hpending

/-- One byte, taken by the socket of the remote host before the client leaves. -/
def uploadAndLeave : List Event := delivery [0x68] .later ++ .socket 1 (.flush 1) :: hangup

theorem run_uploadAndLeave (h : Idle c .handleLast (some .socks5Ctx)) :
    Run (Guarded EofFindsFlushed (Step P))
      (.paired (some ⟨some 0, some 1, port, ip⟩) c joinedRemote host target replies) uploadAndLeave
      (.paired none (hungUp (arrived c [0x68]).takeRead.drained)
        ((joinedRemote.queue (P.decrypt [0x68])).socket (.flush 1)).release host target
        replies) := by
  have hdata : [(0x68 : UInt8)] ≠ [] := by simp
  have hflush : (joinedRemote.queue (P.decrypt [0x68])).Admits (.flush 1) :=
    ⟨rfl, rfl, rfl, Nat.one_pos, le_refl 1⟩
  exact (run_upload h hdata rfl).append (.cons ⟨eofFindsFlushed_socket 1 (.flush 1),
    .socket rfl hflush⟩ (run_hangup_flushed (h.read hdata) rfl rfl rfl))

/-- The remote host sends `data` and its read callback runs. -/
def response (data : List UInt8) : List Event := [.socket 1 (.recv data), .readCb 1 .later]

/-- The remote host closes its direction and the event callback runs. -/
def remoteEof : List Event := [.socket 1 .eof, .eventCb 1]

/-- The remote's bufferevent once `data` has been relayed. -/
def servedRemote (data : List UInt8) : Bufferevent Callbacks :=
  (joinedRemote.socket (.recv data)).takeRead.drained

theorem run_response (hdata : data ≠ []) (hl : c.live = true) :
    Run (Step P) (.paired (some ⟨some 0, some 1, port, ip⟩) c joinedRemote host target replies)
      (response data) (.paired (some ⟨some 0, some 1, port, ip⟩) (c.queue (P.encrypt data))
        (servedRemote data) host target replies) := by
  exact .cons (.socket (b := joinedRemote) rfl ⟨rfl, rfl, rfl, hdata⟩)
    (.single (.readCb (b := joinedRemote.socket (.recv data)) rfl rfl (paired_download hl rfl rfl)))

/-- The remote's bufferevent after its EOF, freed. -/
def endedRemote (data : List UInt8) : Bufferevent Callbacks :=
  (((servedRemote data).socket .eof).takeEvent { reading := true, eof := true }).release

theorem run_remoteEof (hl : c.live = true) :
    Run (Step P) (.paired (some ⟨some 0, some 1, port, ip⟩) c (servedRemote data) host target
      replies) remoteEof (.paired none c.release (endedRemote data) host target replies) := by
  exact .cons (.socket (b := servedRemote data) rfl ⟨rfl, rfl, rfl⟩)
    (.single (.eventCb (b := (servedRemote data).socket .eof) rfl rfl
      (paired_remoteEnds hl rfl rfl rfl rfl fun _ => rfl)))

end Ends

/-- Everything has arrived when the client leaves. -/
theorem nothing_lost_upload : ∃ s t, Reachable Key.identity s ∧ HasPartner s ∧
    Run (Step Key.identity) s uploadAndLeave t ∧
    Throughout (Step Key.identity) s uploadAndLeave (NothingLost Key.identity s) := by
  obtain ⟨c, hr, hc⟩ := reach_joined Key.identity [0x61] 0x00 0x50 .example ⟨127, 0, 0, 1⟩
  exact ⟨_, _, ⟨_, hr⟩, ⟨_, rfl, by simp⟩, (run_uploadAndLeave hc).of_guarded,
    (nothing_lost ⟨_, hr⟩ ⟨_, rfl, by simp⟩ (run_uploadAndLeave hc).of_guarded).2
      (run_uploadAndLeave hc)⟩

/-- **A response that is never delivered.**  The remote host sends one byte and
closes; the client is freed with the byte still in its output buffer. -/
theorem lost_response : ∃ s t c r, Reachable Key.identity s ∧ HasPartner s ∧
    Run (Step Key.identity) s (response [0x68] ++ remoteEof) t ∧ t.bevs = [c, r] ∧
    c.live = false ∧ r.reported.eof = true ∧ c.reported.error = false ∧
    (∃ bytes, c.output.pending = bytes ++ Key.identity.encrypt [0x68]) ∧
    ¬ NothingLost Key.identity s t := by
  obtain ⟨c, hr, hc⟩ := reach_joined Key.identity [0x61] 0x00 0x50 .example ⟨127, 0, 0, 1⟩
  have hsilent : c.reported.error = false := (hc.silent (by simp)).2
  refine ⟨_, _, _, _, ⟨_, hr⟩, ⟨_, rfl, by simp⟩,
    (run_response (by simp) hc.live).append (run_remoteEof hc.live), rfl, rfl, rfl, hsilent,
    ⟨_, rfl⟩, fun hlost => ?_⟩
  obtain ⟨-, hpending⟩ := hlost.clientGets _ _ rfl rfl (.inl rfl) hsilent
  exact absurd hpending (by simp [Bufferevent.release, Bufferevent.queue, Key.encrypt])

end LightSocks
