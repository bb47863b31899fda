import LightSocks.Server.EventLoop

/-!
# What the handlers do to a session

One equation per callback, in terms of the plaintext the client sent.  The
handshake handlers are read as a parser: `parseRequest` says how `handle_second`
understands one read, including the reads that make it run over an array.

* `handleFirst_eq`, `handleSecond_eq` — the two handshake handlers.
* `dnsCb_found`, `dnsCb_deleted`, `resolve_cases`, `resolve_deleted` — the resolver's callback.
* `handleLast_drain`, `handleLast_relay`, `remoteReadCb_eq` — the relay phase.
* `remoteEventCb_connected` — the CONNECT reply.
* `localEventCb_terminal`, `releaseLocal_alone`, `releaseLocal_both`,
  `remoteEventCb_terminal` — teardown.

Later files use these equations and never unfold a callback.
-/

namespace LightSocks

open Memory

/-! ## The handshake as a parser -/

/-- The greeting test of `handle_first`, over a zero-filled buffer. -/
def IsGreeting (m : List UInt8) : Prop :=
  m.getD 0 0 = 0x05 ∧ m.getD 1 0 = 0x01 ∧ m.getD 2 0 = 0x00

instance (m : List UInt8) : Decidable (IsGreeting m) := inferInstanceAs (Decidable (_ ∧ _))

/-- How `handle_second` understands one message. -/
inductive Request where
  /-- Too short, not CONNECT, or an unsupported address type. -/
  | ignored
  /-- CONNECT to the IPv4 address the message carries. -/
  | ipv4 (port : ℕ)
  /-- CONNECT to a host name. -/
  | domain (host : List UInt8) (port : ℕ)
  deriving DecidableEq, Repr

/-- The host name in a request, read through a zero-filled buffer. -/
def hostOf (m : List UInt8) : List UInt8 :=
  Socks5.cStr ((List.range (m.getD 4 0).toNat).map fun j => m.getD (5 + j) 0)

/-- The last two bytes of a request. -/
def portAtEnd (m : List UInt8) : ℕ := portOf (m.getD (m.length - 2) 0) (m.getD (m.length - 1) 0)

/-- The parser `handle_second` amounts to: a message of more than 32 bytes
overflows the scratch array of `decrypt_bytes`, a declared length of more than 59
reads past the end of `connect`. -/
def parseRequest (m : List UInt8) : Except Fault Request :=
  if m.length < 7 then .ok .ignored
  else if 32 < m.length then .error .outOfBounds
  else if m.getD 1 0 ≠ 0x01 then .ok .ignored
  else if m.getD 3 0 = 0x01 then .ok (.ipv4 (portAtEnd m))
  else if m.getD 3 0 = 0x03 then
    if 59 < (m.getD 4 0).toNat then .error .outOfBounds
    else .ok (.domain (hostOf m) (portAtEnd m))
  else .ok .ignored

/-- The host name loop stays inside `connect` up to a declared length of 59. -/
theorem hostnameLoop_eq {m : List UInt8} {n : ℕ} (h : n ≤ 59) :
    Socks5.hostnameLoop (scratch 64 m) n =
      .ok ((List.range n).map fun j => m.getD (5 + j) 0) := by
  have hstart : 5 ≤ 5 ∧ [] = (List.range (5 - 5)).map fun j => m.getD (5 + j) 0 := by simp
  obtain ⟨t, ht, -, rfl⟩ := forLoop_inv
    (fun i hostname => do return hostname ++ [← fetch Fault.outOfBounds (scratch 64 m) i])
    (fun i t => 5 ≤ i ∧ t = (List.range (i - 5)).map fun j => m.getD (5 + j) 0)
    (n := n) hstart (by
      rintro i t hlo hi ⟨-, rfl⟩
      refine ⟨_, by rw [fetch_scratch m (by omega)]; rfl, by omega, ?_⟩
      rw [show i + 1 - 5 = (i - 5) + 1 by omega, List.range_succ, List.map_append,
        List.map_singleton, show 5 + (i - 5) = i by omega])
  rw [Socks5.hostnameLoop, ht]
  simp

theorem hostnameLoop_error {m : List UInt8} {n : ℕ} (h : 59 < n) :
    Socks5.hostnameLoop (scratch 64 m) n = .error .outOfBounds := by
  refine forLoop_error (k := 64) (fun _ _ => True) trivial (by omega) (by omega) ?_ ?_
  · intro i t _ hi _
    exact ⟨_, by rw [fetch_scratch m (by omega)]; rfl, trivial⟩
  · intro t _
    rw [fetch_of_le _ _ le_rfl]
    rfl

theorem getElem_scratch {n : ℕ} (m : List UInt8) (i : ℕ) (h : i < n) :
    (scratch n m)[i] = m.getD i 0 := by
  simpa [Vector.get_eq_getElem] using get_scratch n m ⟨i, h⟩

/-- Decrypting a message read into a zeroed buffer of 64 bytes. -/
theorem decryptBytes_scratch (P : Key) {data : List UInt8} (h : data.length ≤ 63) :
    Cipher.decryptBytes P.table (scratch 64 data) data.length =
      if 32 < data.length then .error .outOfBounds else .ok (scratch 64 (P.decrypt data)) := by
  by_cases h32 : 32 < data.length
  · rw [if_pos h32]
    exact Cipher.decryptBytes_error P _ h32 (by omega)
  · rw [if_neg h32]
    exact Cipher.translate_scratch (not_lt.1 h32) (by omega)

/-- Encrypting a reply. -/
theorem encryptByte_eq (P : Key) {n : ℕ} (bytes : Vector UInt8 n) (h : n ≤ 32) :
    ∃ coded, Cipher.encryptByte P.table bytes n = .ok coded ∧
      coded.toList = P.encrypt bytes.toList := by
  refine ⟨_, Cipher.translate_eq h le_rfl, ?_⟩
  refine List.ext_getElem (by simp) fun i hi hi' => ?_
  simp [Key.encrypt, Key.enc, Vector.get_eq_getElem]

/-! ## Replies -/

/-- A reply of at most 32 bytes is encrypted and queued on the client. -/
theorem reply_eq (P : Key) {n : ℕ} (bytes : Vector UInt8 n) (hn : n ≤ 32) {s : Session}
    {p : BevPtr} {c : Bufferevent Callbacks} (hp : s.bevs[p]? = some c) (hl : c.live = true) :
    s.reply P.table p bytes = .ok { s with
      bevs := s.bevs.set p (c.queue (P.encrypt bytes.toList))
      replies := s.replies ++ [bytes.toList] } := by
  obtain ⟨coded, hcoded, hlist⟩ := encryptByte_eq P bytes hn
  rw [Session.reply, hcoded, ok_bind, hlist, Heap.write, Heap.update_eq_ok hp hl]
  rfl

/-! ## The handshake handlers -/

/-- What the client's bufferevent registers in each phase. -/
def clientCallbacks (readcb : ReadCb) (cbarg : Option CtxPtr) : Callbacks :=
  ⟨some readcb, some .localEventCb, cbarg⟩

/-- The plaintext the handshake handlers get out of one read. -/
def readPlain (P : Key) (c : Bufferevent Callbacks) : List UInt8 :=
  P.decrypt (c.input.pending.take 63)

section Handlers

variable {P : Key} {s : Session} {ctx : Socks5ctx} {p : BevPtr} {c : Bufferevent Callbacks}

theorem getContext_eq (hctx : s.context = some ctx) : s.getContext = .ok ctx := by
  simp [Session.getContext, hctx]

theorem getContext_ok (h : s.getContext = .ok ctx) : s.context = some ctx := by
  unfold Session.getContext at h
  split at h
  · rename_i c hc
    rw [hc, Except.ok.inj h]
  · cases h

/-- **`handle_first`** in terms of the plaintext it reads. -/
theorem handleFirst_eq (hctx : s.context = some ctx) (hself : ctx.self = some p)
    (hp : s.bevs[p]? = some c) (hl : c.live = true) :
    Socks5.handleFirst P.table p s =
      if 32 < (readPlain P c).length then .error .outOfBounds
      else if IsGreeting (readPlain P c) then .ok { s with
        bevs := s.bevs.set p (((c.consume 63).queue (P.encrypt methodReply.toList)).register
          (clientCallbacks .handleSecond (some .socks5Ctx)))
        replies := s.replies ++ [methodReply.toList] }
      else .ok { s with bevs := s.bevs.set p (c.consume 63) } := by
  have hplt : p < s.bevs.length := (List.getElem?_eq_some_iff.1 hp).1
  have hlen : (readPlain P c).length = (c.input.pending.take 63).length := by
    simp [readPlain]
  simp only [Socks5.handleFirst, getContext_eq hctx, ok_bind, hself, nonnull_some,
    Heap.read_eq_ok hp hl]
  rw [decryptBytes_scratch P (by simp), hlen]
  by_cases h32 : 32 < (c.input.pending.take 63).length
  · rw [if_pos h32, if_pos h32, error_bind]
  · rw [if_neg h32, if_neg h32, ok_bind]
    simp only [getElem_scratch]
    by_cases hg : IsGreeting (readPlain P c)
    · rw [if_pos hg]
      apply (if_pos hg).trans
      rw [reply_eq P _ (by decide) (List.getElem?_set_self hplt) (by simpa using hl), ok_bind,
        Heap.setcb, Heap.update_eq_ok (b := (c.consume 63).queue (P.encrypt methodReply.toList))
          (by simp [hplt]) (by simpa using hl)]
      simp [clientCallbacks]
    · rw [if_neg hg]
      exact if_neg hg

/-- The text of the address in an `ATYP = 1` request: the first four bytes of
`ip2` after the message has been copied over it. -/
def ipv4Text (m : List UInt8) (ip2 : Vector UInt8 32) : List UInt8 :=
  inetNtop (Socks5.inAddrOf (overwrite ip2 (m.length - 2 - 4) fun j => m.getD (4 + j) 0))

theorem requestIpv4_eq (ctx : Socks5ctx) (choice : Choice) {m : List UInt8} (h7 : 7 ≤ m.length)
    (h32 : m.length ≤ 32) (hp : s.bevs[p]? = some c) (hl : c.live = true) :
    Socks5.requestIpv4 P.table p choice ctx (scratch 64 m) m.length s = .ok { s with
      context := some { ctx with requestIp := ipv4Text m choice.ip2, requestPort := portAtEnd m }
      bevs := s.bevs.set p ((c.queue (P.encrypt connectReply.toList)).register
        (clientCallbacks .handleLast none))
      replies := s.replies ++ [connectReply.toList] } := by
  have hplt : p < s.bevs.length := (List.getElem?_eq_some_iff.1 hp).1
  have hfill : fillLoop Fault.outOfBounds (fetch .outOfBounds (scratch 64 m)) 4
      (m.length - 2 - 4) choice.ip2 =
        .ok (overwrite choice.ip2 (m.length - 2 - 4) fun j => m.getD (4 + j) 0) :=
    fillLoop_eq _ (by omega) fun j hj => fetch_scratch m (by omega)
  simp only [Socks5.requestIpv4, hfill, ok_bind, fetch_scratch m (show m.length - 2 < 64 by omega),
    fetch_scratch m (show m.length - 1 < 64 by omega)]
  have hreply := reply_eq P connectReply (by decide) (p := p) (c := c) (s := { s with
    context := some { ctx with requestIp := ipv4Text m choice.ip2, requestPort := portAtEnd m } })
    hp hl
  rw [ipv4Text, portAtEnd] at hreply
  rw [hreply, ok_bind, Heap.setcb,
    Heap.update_eq_ok (b := c.queue (P.encrypt connectReply.toList)) (by simp [hplt]) (by simpa)]
  simp [clientCallbacks, ipv4Text, portAtEnd]

/-- The end of an `ATYP = 3` request: start the lookup, then register the
callbacks again. -/
def askAndRegister (bev : BevPtr) (host : List UInt8) (choice : Choice) (s : Session) :
    Except Fault Session := do
  let s ← Server.evdnsGetaddrinfo host choice s
  let bevs ← s.bevs.setcb bev (clientCallbacks .handleLast (some .socks5Ctx))
  return { s with bevs }

theorem askAndRegister_eq {host : List UInt8} {choice : Choice} {t : Session}
    (h : Server.evdnsGetaddrinfo host choice s = .ok t) (hp : t.bevs[p]? = some c)
    (hl : c.live = true) : askAndRegister p host choice s = .ok { t with
      bevs := t.bevs.set p (c.register (clientCallbacks .handleLast (some .socks5Ctx))) } := by
  rw [askAndRegister, h, ok_bind, Heap.setcb, Heap.update_eq_ok hp hl]
  rfl

/-- An answer at once that is no IPv4 address ends the program. -/
theorem askAndRegister_unknown {host : List UInt8} {choice : Choice} {addr : InAddr}
    (h : choice.resolved = some (.found ⟨.unknown, addr⟩)) :
    askAndRegister p host choice s = .error .exited := by
  rw [askAndRegister, Server.evdnsGetaddrinfo, h]
  rfl

theorem requestDomain_eq (ctx : Socks5ctx) (choice : Choice) {m : List UInt8} (h7 : 7 ≤ m.length)
    (h32 : m.length ≤ 32) : Socks5.requestDomain p choice ctx (scratch 64 m) m.length s =
      if 59 < (m.getD 4 0).toNat then .error .outOfBounds
      else askAndRegister p (hostOf m) choice { s with
        context := some { ctx with requestPort := portAtEnd m } } := by
  simp only [Socks5.requestDomain, fetch_scratch m (show 4 < 64 by omega), ok_bind]
  by_cases h59 : 59 < (m.getD 4 0).toNat
  · rw [if_pos h59, hostnameLoop_error h59, error_bind]
  · rw [if_neg h59, hostnameLoop_eq (not_lt.1 h59), ok_bind,
      fetch_scratch m (show m.length - 2 < 64 by omega), ok_bind,
      fetch_scratch m (show m.length - 1 < 64 by omega), ok_bind]
    rfl

/-- **`handle_second`** in terms of the plaintext it reads. -/
theorem handleSecond_eq {choice : Choice} (hctx : s.context = some ctx)
    (hself : ctx.self = some p) (hp : s.bevs[p]? = some c) (hl : c.live = true) :
    Socks5.handleSecond P.table p (some .socks5Ctx) choice s =
      match parseRequest (readPlain P c) with
      | .error f => .error f
      | .ok .ignored => .ok { s with bevs := s.bevs.set p (c.consume 63) }
      | .ok (.ipv4 port) => .ok { s with
          context := some { ctx with
            requestIp := ipv4Text (readPlain P c) choice.ip2, requestPort := port }
          bevs := s.bevs.set p (((c.consume 63).queue (P.encrypt connectReply.toList)).register
            (clientCallbacks .handleLast none))
          replies := s.replies ++ [connectReply.toList] }
      | .ok (.domain host port) => askAndRegister p host choice { s with
          context := some { ctx with requestPort := port }
          bevs := s.bevs.set p (c.consume 63) } := by
  have hplt : p < s.bevs.length := (List.getElem?_eq_some_iff.1 hp).1
  obtain ⟨self, partner, port₀, ip₀⟩ := ctx
  cases hself
  set m := readPlain P c with hm
  have hlen : (c.input.pending.take 63).length = m.length := by simp [hm, readPlain]
  simp only [Socks5.handleSecond, nonnull_some, getContext_eq hctx, ok_bind,
    Heap.read_eq_ok hp hl]
  rw [decryptBytes_scratch P (by simp), show P.decrypt (c.input.pending.take 63) = m from rfl, hlen]
  simp only [parseRequest]
  by_cases h7 : m.length < 7
  · rw [if_pos h7, if_pos h7]
    rfl
  rw [if_neg h7, if_neg h7]
  by_cases h32 : 32 < m.length
  · rw [if_pos h32, if_pos h32]
    rfl
  rw [if_neg h32, if_neg h32, ok_bind]
  simp only [getElem_scratch]
  by_cases h1 : m.getD 1 0 = 1
  swap
  · rw [if_pos h1, if_pos h1]
    rfl
  rw [if_neg (not_not.2 h1), if_neg (not_not.2 h1)]
  by_cases hv4 : m.getD 3 0 = 1
  · -- ATYP = 1
    rw [if_pos hv4, if_pos hv4]
    have hreq := requestIpv4_eq (P := P) (p := p) ⟨some p, partner, port₀, ip₀⟩ choice
      (s := { s with bevs := s.bevs.set p (c.consume 63) }) (not_lt.1 h7) (not_lt.1 h32)
      (List.getElem?_set_self hplt) (by simpa using hl)
    rw [hreq]
    simp
  rw [if_neg hv4, if_neg hv4]
  by_cases hname : m.getD 3 0 = 3
  swap
  · rw [if_neg hname, if_neg hname]
    rfl
  -- ATYP = 3
  rw [if_pos hname, if_pos hname, requestDomain_eq _ choice (not_lt.1 h7) (not_lt.1 h32)]
  split
  · rfl
  · rfl

/-! ## The resolver -/

/-- The bufferevent `dns_cb` creates, once `bufferevent_socket_connect` has
returned `re`. -/
def newRemote (re : ℤ) : Bufferevent Callbacks where
  live := true
  callbacks := ⟨some .remoteReadCb, some .remoteEventCb, some .socks5Ctx⟩
  link := if re = 0 then .connecting else .down
  readEnabled := true
  writeEnabled := true
  readTimeout := 15
  input := .empty
  output := .empty
  readPending := false
  eventPending := {}
  reported := {}

/-- The session after `dns_cb` has got an IPv4 address. -/
def attachRemote (re : ℤ) (addr : InAddr) (ctx : Socks5ctx) (s : Session) : Session :=
  { s with
    context := some { ctx with
      requestIp := inetNtop addr
      partner := if re = 0 then some s.bevs.length else ctx.partner }
    bevs := s.bevs ++ [newRemote re]
    connects := s.connects ++ [(addr, UInt16.ofNat ctx.requestPort)] }

theorem dnsCb_found {re : ℤ} {addr : InAddr} (hctx : s.context = some ctx) :
    Server.dnsCb re (.found ⟨.inet, addr⟩) (some .socks5Ctx) s =
      .ok (attachRemote re addr ctx s) := by
  by_cases hre : re = 0 <;>
    simp [Server.dnsCb, evutilInetNtop, getContext_eq hctx, Heap.socketNew, Heap.setTimeouts,
      Heap.setcb, Heap.enable, Heap.socketConnect, Heap.update, Heap.deref, attachRemote, newRemote,
      Bufferevent.register, hre]

theorem dnsCb_deleted {re : ℤ} {addr : InAddr} (hctx : s.context = none) :
    Server.dnsCb re (.found ⟨.inet, addr⟩) (some .socks5Ctx) s = .error .useAfterFree := by
  simp [Server.dnsCb, evutilInetNtop, Session.getContext, hctx]

/-- **What the resolver can do to a session** that still has its context: an
error changes nothing, an answer leaves its address list behind, and an answer
that is no IPv4 address ends the program. -/
theorem resolve_cases (hctx : s.context = some ctx) (re : ℤ) (result : DnsResult) :
    (∃ e, result = .error e ∧ Server.resolve re result s = .ok s) ∨
      (∃ addr, result = .found ⟨.inet, addr⟩ ∧ Server.resolve re result s =
        .ok (attachRemote re addr ctx { s with addrinfos := s.addrinfos + 1 })) ∨
      ((∃ addr, result = .found ⟨.unknown, addr⟩) ∧
        Server.resolve re result s = .error .exited) := by
  cases result with
  | error e => exact .inl ⟨e, rfl, rfl⟩
  | found answer =>
      obtain ⟨family, addr⟩ := answer
      cases family with
      | unknown => exact .inr (.inr ⟨⟨addr, rfl⟩, rfl⟩)
      | inet => exact .inr (.inl ⟨addr, rfl, dnsCb_found (by exact hctx)⟩)

/-- Once the context is deleted, the resolver's callback returns from an error only. -/
theorem resolve_deleted {t : Session} {re : ℤ} {result : DnsResult} (hctx : s.context = none)
    (h : Server.resolve re result s = .ok t) : t = s := by
  cases result with
  | error code => exact (Except.ok.inj h).symm
  | found answer =>
      obtain ⟨family, addr⟩ := answer
      cases family with
      | unknown => cases h
      | inet => cases h.symm.trans (dnsCb_deleted (by exact hctx))

/-! ## The relay phase -/

variable {q : BevPtr} {r : Bufferevent Callbacks}

/-- Without a partner `handle_last` throws away what it reads. -/
theorem handleLast_drain (hctx : s.context = some ctx) (hself : ctx.self = some p)
    (hpartner : ctx.partner = none) (hp : s.bevs[p]? = some c) (hl : c.live = true) :
    Socks5.handleLast P.table (some .socks5Ctx) s =
      .ok { s with bevs := s.bevs.set p c.drained } := by
  simp [Socks5.handleLast, getContext_eq hctx, hself, hpartner, Heap.inputLength,
    Heap.deref_eq_ok hp hl, Heap.drainInput, Heap.update_eq_ok hp hl,
    Bufferevent.consume_eq_drained]

/-- With a partner `handle_last` decrypts all of it to the partner. -/
theorem handleLast_relay (hctx : s.context = some ctx) (hself : ctx.self = some p)
    (hpartner : ctx.partner = some q) (hpq : p ≠ q) (hp : s.bevs[p]? = some c)
    (hq : s.bevs[q]? = some r) (hl : c.live = true) (hr : r.live = true) :
    Socks5.handleLast P.table (some .socks5Ctx) s = .ok { s with
      bevs := (s.bevs.set p c.drained).set q (r.queue (P.decrypt c.input.pending)) } := by
  simp only [Socks5.handleLast, nonnull_some, ok_bind, getContext_eq hctx, hself, hpartner,
    Cipher.decrypt, Cipher.relay_eq P.table.inverse hp hq hpq hl hr]
  rfl

/-- `remote_read_cb` encrypts all of it to the client. -/
theorem remoteReadCb_eq (hctx : s.context = some ctx) (hself : ctx.self = some p)
    (hpartner : ctx.partner = some q) (hpq : p ≠ q) (hp : s.bevs[p]? = some c)
    (hq : s.bevs[q]? = some r) (hl : c.live = true) (hr : r.live = true) :
    Server.remoteReadCb P.table (some .socks5Ctx) s = .ok { s with
      bevs := (s.bevs.set q r.drained).set p (c.queue (P.encrypt r.input.pending)) } := by
  simp only [Server.remoteReadCb, ok_bind, getContext_eq hctx, hself, hpartner,
    Cipher.encrypt, Cipher.relay_eq P.table hq hp (Ne.symm hpq) hr hl]
  rfl

/-! ## Replies and teardown -/

theorem releaseLocal_alone (hctx : s.context = some ctx) (hself : ctx.self = some p)
    (hpartner : ctx.partner = none) (hp : s.bevs[p]? = some c) (hl : c.live = true) :
    Server.releaseLocal s = .ok { s with context := none, bevs := s.bevs.set p c.release } := by
  simp [Server.releaseLocal, getContext_eq hctx, hself, hpartner, Heap.free,
    Heap.update_eq_ok hp hl, Session.deleteContext]

theorem releaseLocal_both (hctx : s.context = some ctx) (hself : ctx.self = some p)
    (hpartner : ctx.partner = some q) (hpq : p ≠ q) (hp : s.bevs[p]? = some c)
    (hq : s.bevs[q]? = some r) (hl : c.live = true) (hr : r.live = true) :
    Server.releaseLocal s = .ok { s with
      context := none, bevs := (s.bevs.set q r.release).set p c.release } := by
  have hp' : (s.bevs.set q r.release)[p]? = some c := by
    rw [List.getElem?_set_ne (Ne.symm hpq), hp]
  simp [Server.releaseLocal, getContext_eq hctx, hself, hpartner, Heap.free,
    Heap.update_eq_ok hq hr, Heap.update_eq_ok hp' hl, Session.deleteContext]

/-- Without a timeout, `local_event_cb` on EOF or ERROR tears the session down. -/
theorem localEventCb_terminal {w : What} (ht : w.timeout = false)
    (hw : w.eof = true ∨ w.error = true) :
    Server.localEventCb w (some .socks5Ctx) s = Server.releaseLocal s := by
  simp [Server.localEventCb, ht, hw]

/-- `CONNECTED` is answered with the CONNECT reply. -/
theorem remoteEventCb_connected {w : What} (hw : w.connected = true)
    (hctx : s.context = some ctx) (hself : ctx.self = some p) (hp : s.bevs[p]? = some c)
    (hl : c.live = true) :
    Server.remoteEventCb P.table q w (some .socks5Ctx) s = .ok { s with
      bevs := s.bevs.set p (c.queue (P.encrypt connectReply.toList))
      replies := s.replies ++ [connectReply.toList] } := by
  simp only [Server.remoteEventCb, hw, if_true, getContext_eq hctx, ok_bind, hself]
  exact reply_eq P _ (by decide) hp hl

theorem releaseRemote_eq (hself : ctx.self = some p) (hpq : p ≠ q) (hp : s.bevs[p]? = some c)
    (hq : s.bevs[q]? = some r) (hl : c.live = true) (hr : r.live = true) :
    Server.releaseRemote (some q) ctx s = .ok { s with
      context := none, bevs := (s.bevs.set p c.release).set q r.release } := by
  have hq' : (s.bevs.set p c.release)[q]? = some r := by
    rw [List.getElem?_set_ne hpq, hq]
  simp [Server.releaseRemote, hself, Heap.free, Heap.update_eq_ok hp hl, Heap.update_eq_ok hq' hr,
    Session.deleteContext]

/-- Any other event with EOF, ERROR or TIMEOUT tears the session down, whichever
of them it is, as long as the partner is the bufferevent that reports it. -/
theorem remoteEventCb_terminal {w : What} (hw : w.connected = false)
    (hw' : w.eof = true ∨ w.error = true ∨ w.timeout = true) (hctx : s.context = some ctx)
    (hself : ctx.self = some p) (hpartner : (w.eof = true ∨ w.error = true) → ctx.partner = some q)
    (hpq : p ≠ q) (hp : s.bevs[p]? = some c) (hq : s.bevs[q]? = some r) (hl : c.live = true)
    (hr : r.live = true) :
    Server.remoteEventCb P.table q w (some .socks5Ctx) s = .ok { s with
      context := none, bevs := (s.bevs.set p c.release).set q r.release } := by
  simp only [Server.remoteEventCb, hw, Bool.false_eq_true, if_false, getContext_eq hctx, ok_bind]
  by_cases he : w.eof = true ∨ w.error = true
  · rw [if_pos he, hpartner he]
    exact releaseRemote_eq hself hpq hp hq hl hr
  · have ht : w.timeout = true := by tauto
    rw [if_neg he, if_pos ht]
    exact releaseRemote_eq hself hpq hp hq hl hr

end Handlers

end LightSocks
