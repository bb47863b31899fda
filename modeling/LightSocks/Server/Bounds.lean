import LightSocks.Lib.AccessLog
import LightSocks.Server.Delivery

/-!
# The indices `handle_second` uses

Between the decryption of a message and the reaction to it, `handle_second` indexes
two local arrays: `connect[64]`, with the message at its head, and `ip2[32]`, which
starts out unset.  The loop bounds are the length of the message and a byte out of
it, and neither is compared with anything.

* `parseConnect` — that part of `handle_second` with a log of its accesses;
  `handleSecond_eq_act` says that the handler is this parser followed by `act`.
* `accesses_ipv4`, `accesses_domain` — the log, access by access.
* `accesses_inBounds` — the messages for which every index is in bounds and every
  byte of the address has been written.
-/

namespace LightSocks

open Memory

/-- The local arrays `handle_second` indexes. -/
inductive Buffer where
  | connect
  | ip2
  deriving DecidableEq, Repr

/-- What `handle_second` has got out of a message when it starts to act on it. -/
inductive Parsed where
  /-- Not CONNECT, or an unsupported address type. -/
  | unsupported
  | address (addr : InAddr) (port : ℕ)
  | name (hostname : List UInt8) (port : ℕ)
  deriving DecidableEq, Repr

namespace Socks5

/-! ## The parser with its log -/

/-- `connect[data_len - 2] << 8 | connect[data_len - 1]`. -/
def parsePort (connect : Vector UInt8 64) (dataLen : ℕ) : Logged Buffer Fault ℕ := do
  return portOf (← Logged.fetch .connect .outOfBounds connect (dataLen - 2))
    (← Logged.fetch .connect .outOfBounds connect (dataLen - 1))

/-- `evutil_inet_ntop(AF_INET, ip2, …)` reads four bytes. -/
def readInAddr (ip2 : Vector UInt8 32) : Logged Buffer Fault InAddr := do
  return ⟨← Logged.fetch .ip2 .outOfBounds ip2 0, ← Logged.fetch .ip2 .outOfBounds ip2 1,
    ← Logged.fetch .ip2 .outOfBounds ip2 2, ← Logged.fetch .ip2 .outOfBounds ip2 3⟩

/-- The `ATYP = 1` case: copy to `ip2`, read the address, read the port. -/
def parseIpv4 (connect : Vector UInt8 64) (dataLen : ℕ) (ip2 : Vector UInt8 32) :
    Logged Buffer Fault Parsed := do
  let ip2 ← Logged.fillLoop .ip2 .outOfBounds (Logged.fetch .connect .outOfBounds connect) 4
    (dataLen - 2 - 4) ip2
  let addr ← readInAddr ip2
  return .address addr (← parsePort connect dataLen)

/-- `for (i = 5; domain_size != 0; domain_size--) { hostname += connect[i]; i++; }`. -/
def parseHostname (connect : Vector UInt8 64) (domainSize : ℕ) :
    Logged Buffer Fault (List UInt8) :=
  Logged.forLoop (fun i hostname => do
    return hostname ++ [← Logged.fetch .connect .outOfBounds connect i]) 5 domainSize []

/-- The `ATYP = 3` case: the length byte, the host name, the port. -/
def parseDomain (connect : Vector UInt8 64) (dataLen : ℕ) : Logged Buffer Fault Parsed := do
  let domainSize := (← Logged.fetch .connect .outOfBounds connect 4).toNat
  let hostname ← parseHostname connect domainSize
  return .name hostname (← parsePort connect dataLen)

/-- `handle_second` from `connect[1] != 0x01` on, up to where it acts on the message. -/
def parseConnect (connect : Vector UInt8 64) (dataLen : ℕ) (ip2 : Vector UInt8 32) :
    Logged Buffer Fault Parsed := do
  let cmd ← Logged.fetch .connect .outOfBounds connect 1
  if cmd ≠ 0x01 then return .unsupported
  let atyp ← Logged.fetch .connect .outOfBounds connect 3
  if atyp = 0x01 then parseIpv4 connect dataLen ip2
  else if atyp = 0x03 then parseDomain connect dataLen
  else return .unsupported

/-- The rest of `handle_second`: the reply or the lookup, and the callbacks. -/
def act (password : Table) (bev : BevPtr) (choice : Choice) (context : Socks5ctx) (s : Session) :
    Parsed → Except Fault Session
  | .unsupported => .ok s
  | .address addr port => do
      let context := { context with requestIp := inetNtop addr, requestPort := port }
      let s ← { s with context := some context }.reply password bev connectReply
      let bevs ← s.bevs.setcb bev ⟨some .handleLast, some .localEventCb, none⟩
      return { s with bevs }
  | .name hostname port => do
      let s := { s with context := some { context with requestPort := port } }
      let s ← Server.evdnsGetaddrinfo (cStr hostname) choice s
      let bevs ← s.bevs.setcb bev ⟨some .handleLast, some .localEventCb, some .socks5Ctx⟩
      return { s with bevs }

variable {password : Table} {bev : BevPtr} {choice : Choice} {context : Socks5ctx}
  {connect : Vector UInt8 64} {dataLen : ℕ} {s : Session}

theorem result_readInAddr (ip2 : Vector UInt8 32) :
    (readInAddr ip2).result = .ok (inAddrOf ip2) := by
  simp only [readInAddr, Logged.result_bind, Logged.result_fetch,
    fetch_of_lt _ _ (show 0 < 32 by decide), fetch_of_lt _ _ (show 1 < 32 by decide),
    fetch_of_lt _ _ (show 2 < 32 by decide), fetch_of_lt _ _ (show 3 < 32 by decide), ok_bind]
  rfl

theorem requestIpv4_eq_act : requestIpv4 password bev choice context connect dataLen s =
    (parseIpv4 connect dataLen choice.ip2).result >>= act password bev choice context s := by
  simp only [requestIpv4, parseIpv4, result_readInAddr, parsePort, Logged.result_bind,
    Logged.result_fillLoop, Logged.result_fetch, Logged.result_pure, bind_assoc, ok_bind]
  rfl

theorem result_parseHostname (connect : Vector UInt8 64) (domainSize : ℕ) :
    (parseHostname connect domainSize).result = hostnameLoop connect domainSize := by
  rw [parseHostname, Logged.result_forLoop, hostnameLoop]
  simp only [Logged.result_bind, Logged.result_fetch, Logged.result_pure, pure_eq_ok]

theorem requestDomain_eq_act (password : Table) :
    requestDomain bev choice context connect dataLen s =
      (parseDomain connect dataLen).result >>= act password bev choice context s := by
  simp only [requestDomain, parseDomain, parsePort, Logged.result_bind, result_parseHostname,
    Logged.result_fetch, Logged.result_pure, bind_assoc, ok_bind]
  rfl

/-- The checks in front of the two cases, on the bytes `cmd` and `atyp`. -/
theorem request_eq_act {cmd atyp : UInt8} (hcmd : fetch Fault.outOfBounds connect 1 = .ok cmd)
    (hatyp : fetch Fault.outOfBounds connect 3 = .ok atyp) :
    (if cmd ≠ 0x01 then .ok s
      else if atyp = 0x01 then requestIpv4 password bev choice context connect dataLen s
      else if atyp = 0x03 then requestDomain bev choice context connect dataLen s
      else .ok s) =
    (parseConnect connect dataLen choice.ip2).result >>= act password bev choice context s := by
  rw [requestIpv4_eq_act, requestDomain_eq_act password]
  simp only [parseConnect, Logged.result_bind, Logged.result_fetch, hcmd, ok_bind]
  by_cases h1 : cmd ≠ 0x01
  · rw [if_pos h1, if_pos h1]
    rfl
  rw [if_neg h1, if_neg h1, Logged.result_bind, Logged.result_fetch, hatyp, ok_bind]
  by_cases hv4 : atyp = 0x01
  · rw [if_pos hv4, if_pos hv4]
  rw [if_neg hv4, if_neg hv4]
  by_cases hname : atyp = 0x03
  · rw [if_pos hname, if_pos hname]
  rw [if_neg hname, if_neg hname]
  rfl

/-- **`handle_second` is the parser followed by `act`**, whatever the message. -/
theorem handleSecond_eq_act {arg : Option CtxPtr} :
    handleSecond password bev arg choice s = (do
      let _ ← nonnull arg
      let context ← s.getContext
      let self ← nonnull context.self
      let (data, bevs) ← s.bevs.read self 63
      let s := { s with bevs }
      if data.length < 7 then return s
      let connect ← Cipher.decryptBytes password (scratch 64 data) data.length
      let parsed ← (parseConnect connect data.length choice.ip2).result
      act password bev choice context s parsed) := by
  unfold handleSecond
  refine bind_congr fun _ => bind_congr fun context => bind_congr fun self => bind_congr fun r => ?_
  obtain ⟨data, bevs⟩ := r
  dsimp only
  split
  · rfl
  · apply bind_congr
    intro connect
    exact request_eq_act (fetch_of_lt _ _ (by decide)) (fetch_of_lt _ _ (by decide))

end Socks5

/-! ## What the parser logs -/

/-- The accesses of `handle_second` for the message `m`, once its bytes have been
decrypted.  A message of fewer than seven bytes is not looked at. -/
def accesses (m : List UInt8) (ip2 : Vector UInt8 32) : List (Access Buffer) :=
  if m.length < 7 then [] else (Socks5.parseConnect (scratch 64 m) m.length ip2).log

/-- What sets `ip2[j]` from the message. -/
def copied (j : ℕ) : List (Access Buffer) := [.read .connect (4 + j), .write .ip2 j]

/-- The accesses of the copying loop of the `ATYP = 1` case, in `n` rounds. -/
def copyLog (n : ℕ) : List (Access Buffer) :=
  (List.range' 4 n).flatMap fun i => [.read .connect i] ++ [.write .ip2 (i - 4)]

/-- The accesses of `evutil_inet_ntop`. -/
def addrLog : List (Access Buffer) :=
  [.read .ip2 0, .read .ip2 1, .read .ip2 2, .read .ip2 3]

/-- The accesses of the host name loop in `n` rounds. -/
def nameLog (n : ℕ) : List (Access Buffer) :=
  (List.range' 5 n).flatMap fun i => [.read .connect i]

/-- The accesses that read the port. -/
def portLog (m : List UInt8) : List (Access Buffer) :=
  [.read .connect (m.length - 2), .read .connect (m.length - 1)]

section Log

variable {m : List UInt8} {ip2 : Vector UInt8 32}

theorem parsePort_eq (h : m.length ≤ 63) (h7 : 7 ≤ m.length) :
    (Socks5.parsePort (scratch 64 m) m.length).result = .ok (portAtEnd m) := by
  simp only [Socks5.parsePort, Logged.result_bind, Logged.result_fetch,
    fetch_scratch m (show m.length - 2 < 64 by omega),
    fetch_scratch m (show m.length - 1 < 64 by omega), ok_bind]
  rfl

theorem log_parsePort (h : m.length ≤ 63) (h7 : 7 ≤ m.length) :
    (Socks5.parsePort (scratch 64 m) m.length).log = portLog m := by
  rw [Socks5.parsePort, Logged.log_fetch_bind (by omega), Logged.log_fetch_bind (by omega)]
  rfl

theorem log_readInAddr : (Socks5.readInAddr ip2).log = addrLog := by
  rw [Socks5.readInAddr, Logged.log_fetch_bind (by decide), Logged.log_fetch_bind (by decide),
    Logged.log_fetch_bind (by decide), Logged.log_fetch_bind (by decide)]
  rfl

theorem result_copy (h38 : m.length ≤ 38) : (Logged.fillLoop .ip2 .outOfBounds
    (Logged.fetch Buffer.connect Fault.outOfBounds (scratch 64 m)) 4 (m.length - 2 - 4)
      ip2).result = .ok (overwrite ip2 (m.length - 2 - 4) fun j => m.getD (4 + j) 0) := by
  rw [Logged.result_fillLoop]
  exact fillLoop_eq _ (by omega) fun j hj => fetch_scratch m (by omega)

/-- The copying loop runs over `ip2` from a message of 39 bytes on. -/
theorem log_parseIpv4 (h : m.length ≤ 63) (h7 : 7 ≤ m.length) :
    (Socks5.parseIpv4 (scratch 64 m) m.length ip2).log =
      if m.length ≤ 38 then copyLog (m.length - 6) ++ (addrLog ++ portLog m)
      else copyLog 33 := by
  have hfetch : ∀ i, i ≤ 4 + 32 → ∃ x,
      (Logged.fetch Buffer.connect Fault.outOfBounds (scratch 64 m) i).result = .ok x :=
    fun i hi => ⟨_, fetch_scratch m (by omega)⟩
  have hlog := Logged.log_fillLoop (b := .ip2) (e := Fault.outOfBounds)
    (fun i => [.read .connect i])
    (fun i _ _ => Logged.log_fetch Buffer.connect Fault.outOfBounds (scratch 64 m) i)
    (fun i _ hi => hfetch i hi) (m.length - 2 - 4) ip2
  rw [Socks5.parseIpv4]
  split
  · rename_i h38
    rw [Logged.log_bind_of_ok (result_copy h38), hlog,
      Logged.log_bind_of_ok (Socks5.result_readInAddr _), log_readInAddr,
      Logged.log_bind_of_ok (parsePort_eq h h7), log_parsePort h h7, Logged.log_pure,
      List.append_nil, show min (m.length - 2 - 4) (32 + 1) = m.length - 6 by omega, copyLog]
  · rename_i h38
    have hres : (Logged.fillLoop .ip2 .outOfBounds
        (Logged.fetch Buffer.connect Fault.outOfBounds (scratch 64 m)) 4 (m.length - 2 - 4)
        ip2).result = .error .outOfBounds := by
      rw [Logged.result_fillLoop]
      exact fillLoop_error (by omega) fun j hj => ⟨_, fetch_scratch m (by omega)⟩
    rw [Logged.log_bind_of_error hres, hlog,
      show min (m.length - 2 - 4) (32 + 1) = 33 by omega, copyLog]

/-- The host name loop runs over `connect` from a declared length of 60 on. -/
theorem log_parseHostname (n : ℕ) :
    (Socks5.parseHostname (scratch 64 m) n).log = nameLog (min n 60) := by
  rw [Socks5.parseHostname, Logged.log_forLoop (fun i => [.read .connect i]) (k := 64)]
  · rfl
  · intro i hostname _ hi
    rcases Nat.lt_or_ge i 64 with hlt | hge
    · rw [Logged.log_fetch_bind hlt]
      rfl
    · rw [Logged.log_bind_of_error (fetch_of_le _ _ hge)]
      rfl
  · intro i hostname _ hi
    refine ⟨hostname ++ [m.getD i 0], ?_⟩
    rw [Logged.result_bind, Logged.result_fetch, fetch_scratch m hi]
    rfl
  · intro hostname
    refine ⟨.outOfBounds, ?_⟩
    rw [Logged.result_bind, Logged.result_fetch, fetch_of_le _ _ le_rfl]
    rfl
  · decide

theorem log_parseDomain (h : m.length ≤ 63) (h7 : 7 ≤ m.length) :
    (Socks5.parseDomain (scratch 64 m) m.length).log = .read .connect 4 ::
      if (m.getD 4 0).toNat ≤ 59 then nameLog (m.getD 4 0).toNat ++ portLog m
      else nameLog 60 := by
  have hres := Socks5.result_parseHostname (scratch 64 m) (m.getD 4 0).toNat
  rw [Socks5.parseDomain, Logged.log_fetch_bind (by decide), get_scratch]
  dsimp only
  split
  · rename_i h59
    rw [hostnameLoop_eq h59] at hres
    rw [Logged.log_bind_of_ok hres, log_parseHostname, Logged.log_bind_of_ok (parsePort_eq h h7),
      log_parsePort h h7, Logged.log_pure, List.append_nil, Nat.min_eq_left (by omega)]
  · rename_i h59
    rw [hostnameLoop_error (not_le.1 h59)] at hres
    rw [Logged.log_bind_of_error hres, log_parseHostname, Nat.min_eq_right (by omega)]

/-- The command is read first, the address type only for CONNECT. -/
theorem accesses_eq (h7 : 7 ≤ m.length) : accesses m ip2 = .read .connect 1 ::
    if m.getD 1 0 = 0x01 then .read .connect 3 ::
      if m.getD 3 0 = 0x01 then (Socks5.parseIpv4 (scratch 64 m) m.length ip2).log
      else if m.getD 3 0 = 0x03 then (Socks5.parseDomain (scratch 64 m) m.length).log
      else []
    else [] := by
  rw [accesses, if_neg (not_lt.2 h7), Socks5.parseConnect, Logged.log_fetch_bind (by decide),
    get_scratch]
  congr 1
  dsimp only
  by_cases hcmd : m.getD 1 0 = 0x01
  · rw [if_neg (not_not.2 hcmd), if_pos hcmd, Logged.log_fetch_bind (by decide), get_scratch]
    congr 1
    dsimp only
    split
    · rfl
    · split <;> rfl
  · rw [if_pos hcmd, if_neg hcmd]
    rfl

theorem accesses_ipv4 (h : m.length ≤ 63) (h4 : AsksIpv4 m) :
    accesses m ip2 = [.read .connect 1, .read .connect 3] ++
      if m.length ≤ 38 then copyLog (m.length - 6) ++ (addrLog ++ portLog m) else copyLog 33 := by
  obtain ⟨h7, hcmd, hatyp⟩ := h4
  rw [accesses_eq h7, if_pos hcmd, if_pos hatyp, log_parseIpv4 h h7]
  rfl

theorem accesses_domain (h : m.length ≤ 63) (hd : AsksDomain m) :
    accesses m ip2 = [.read .connect 1, .read .connect 3, .read .connect 4] ++
      if (m.getD 4 0).toNat ≤ 59 then nameLog (m.getD 4 0).toNat ++ portLog m
      else nameLog 60 := by
  obtain ⟨h7, hcmd, hatyp⟩ := hd
  rw [accesses_eq h7, if_pos hcmd, if_neg (by rw [hatyp]; decide), if_pos hatyp,
    log_parseDomain h h7]
  rfl

theorem accesses_other (h4 : ¬ AsksIpv4 m) (hd : ¬ AsksDomain m) {a : Access Buffer}
    (ha : a ∈ accesses m ip2) :
    7 ≤ m.length ∧ (a = .read .connect 1 ∨ a = .read .connect 3) := by
  have h7 : 7 ≤ m.length := by
    by_contra hlt
    rw [accesses, if_pos (not_le.1 hlt)] at ha
    cases ha
  refine ⟨h7, ?_⟩
  rw [accesses_eq h7] at ha
  by_cases hcmd : m.getD 1 0 = 0x01
  · rw [if_pos hcmd, if_neg fun h => h4 ⟨h7, hcmd, h⟩, if_neg fun h => hd ⟨h7, hcmd, h⟩] at ha
    simpa using ha
  · rw [if_neg hcmd] at ha
    left
    simpa using ha

/-! ## When every index is in bounds -/

theorem mem_copyLog {n : ℕ} {a : Access Buffer} :
    a ∈ copyLog n ↔ ∃ j, j < n ∧ (a = .read .connect (4 + j) ∨ a = .write .ip2 j) := by
  simp only [copyLog, List.mem_flatMap, List.mem_range'_1, List.cons_append, List.nil_append,
    List.mem_cons, List.not_mem_nil, or_false]
  constructor
  · rintro ⟨i, ⟨hlo, hi⟩, ha⟩
    exact ⟨i - 4, by omega, by rwa [show 4 + (i - 4) = i by omega]⟩
  · rintro ⟨j, hj, ha⟩
    exact ⟨4 + j, by omega, by rwa [show 4 + j - 4 = j by omega]⟩

theorem copied_in_copyLog {j n : ℕ} (h : j < n) : copied j <:+: copyLog n := by
  apply List.infix_of_mem_flatten
  exact List.mem_map.2 ⟨4 + j, by simpa using h, by simp [copied]⟩

theorem mem_nameLog {n : ℕ} {a : Access Buffer} :
    a ∈ nameLog n ↔ ∃ j, j < n ∧ a = .read .connect (5 + j) := by
  simp only [nameLog, List.mem_flatMap, List.mem_range'_1, List.mem_singleton]
  constructor
  · rintro ⟨i, ⟨hlo, hi⟩, ha⟩
    exact ⟨i - 5, by omega, by rwa [show 5 + (i - 5) = i by omega]⟩
  · rintro ⟨j, hj, ha⟩
    exact ⟨5 + j, by omega, ha⟩

/-- What is asked of the accesses for the message `m`: the message is not left, `ip2` is
not left, and a byte of `ip2` is read only when it has been copied from the message. -/
structure InBounds (m : List UInt8) (log : List (Access Buffer)) : Prop where
  connect : ∀ i, .read .connect i ∈ log → i < m.length
  ip2 : ∀ i, .write .ip2 i ∈ log → i < 32
  set : SetBefore .ip2 copied log

/-- The message is as long as its address type and its length byte say, and an `ATYP = 1`
request has no more behind the address than `ip2` has room for. -/
def WellSized (m : List UInt8) : Prop :=
  (AsksIpv4 m → 10 ≤ m.length ∧ m.length ≤ 38) ∧
    (AsksDomain m → 5 + (m.getD 4 0).toNat ≤ m.length)

instance (m : List UInt8) : Decidable (WellSized m) := inferInstanceAs (Decidable (_ ∧ _))

theorem inBounds_ipv4 (h : m.length ≤ 63) (h4 : AsksIpv4 m) :
    InBounds m (accesses m ip2) ↔ 10 ≤ m.length ∧ m.length ≤ 38 := by
  rw [accesses_ipv4 h h4]
  constructor
  · intro hin
    by_cases h38 : m.length ≤ 38
    · rw [if_pos h38] at hin
      refine ⟨?_, h38⟩
      have hread : Access.read Buffer.ip2 3 ∈ [.read .connect 1, .read .connect 3] ++
          (copyLog (m.length - 6) ++ (addrLog ++ portLog m)) := by
        simp [addrLog]
      have hset := (hin.set.mem_log hread).subset
        (show Access.write Buffer.ip2 3 ∈ copied 3 by simp [copied])
      obtain ⟨j, hj, hw⟩ : ∃ j, j < m.length - 6 ∧ 3 = j := by
        simpa [mem_copyLog, addrLog, portLog] using hset
      omega
    · -- the copying loop has run over `ip2`
      rw [if_neg h38] at hin
      have hwrite := hin.ip2 32 (List.mem_append_right _ (mem_copyLog.2 ⟨32, by decide, .inr rfl⟩))
      omega
  · rintro ⟨h10, h38⟩
    rw [if_pos h38, ← List.append_assoc]
    constructor
    · intro i hi
      simp only [List.mem_append, mem_copyLog, addrLog, portLog, List.mem_cons, List.not_mem_nil,
        Access.read.injEq, reduceCtorEq, true_and, false_and, or_false, false_or] at hi
      rcases hi with ((rfl | rfl) | ⟨j, hj, rfl⟩) | (rfl | rfl) <;> omega
    · intro i hi
      simp only [List.mem_append, mem_copyLog, addrLog, portLog, List.mem_cons, List.not_mem_nil,
        Access.write.injEq, reduceCtorEq, true_and, or_false, false_or] at hi
      obtain ⟨j, hj, rfl⟩ := hi
      omega
    · refine .of_append ?_ ?_
      · intro i hi
        simp [mem_copyLog] at hi
      · intro i hi
        have hi4 : i < m.length - 6 := by
          simp only [addrLog, portLog, List.mem_append, List.mem_cons, List.not_mem_nil,
            Access.read.injEq, reduceCtorEq, true_and, false_and, or_false] at hi
          omega
        exact (copied_in_copyLog hi4).trans (List.suffix_append _ _).isInfix

theorem inBounds_domain (h : m.length ≤ 63) (hd : AsksDomain m) :
    InBounds m (accesses m ip2) ↔ 5 + (m.getD 4 0).toNat ≤ m.length := by
  have h7 : 7 ≤ m.length := hd.1
  rw [accesses_domain h hd]
  constructor
  · intro hin
    by_contra hlt
    -- the host name loop reaches the first byte behind the message
    have hname : Access.read Buffer.connect m.length ∈
        if (m.getD 4 0).toNat ≤ 59 then nameLog (m.getD 4 0).toNat ++ portLog m
        else nameLog 60 := by
      split
      · exact List.mem_append_left _ (mem_nameLog.2 ⟨m.length - 5, by omega, by congr 1; omega⟩)
      · exact mem_nameLog.2 ⟨m.length - 5, by omega, by congr 1; omega⟩
    exact absurd (hin.connect _ (List.mem_append_right _ hname)) (lt_irrefl _)
  · intro hlen
    rw [if_pos (by omega)]
    constructor
    · intro i hi
      simp only [List.mem_append, mem_nameLog, portLog, List.mem_cons, List.not_mem_nil,
        Access.read.injEq, true_and, or_false] at hi
      rcases hi with (rfl | rfl | rfl) | ⟨j, hj, rfl⟩ | rfl | rfl <;> omega
    · intro i hi
      simp [mem_nameLog, portLog] at hi
    · intro i pre post heq
      have hi : Access.read Buffer.ip2 i ∈ pre ++ .read .ip2 i :: post := by simp
      rw [← heq] at hi
      simp [mem_nameLog, portLog] at hi

theorem inBounds_other (h4 : ¬ AsksIpv4 m) (hd : ¬ AsksDomain m) :
    InBounds m (accesses m ip2) := by
  constructor
  · intro i hi
    obtain ⟨h7, hread | hread⟩ := accesses_other h4 hd hi
    · cases hread
      omega
    · cases hread
      omega
  · intro i hi
    obtain ⟨-, hwrite | hwrite⟩ := accesses_other h4 hd hi
    · cases hwrite
    · cases hwrite
  · intro i pre post heq
    have hi : Access.read Buffer.ip2 i ∈ accesses m ip2 := by
      rw [heq]
      simp
    obtain ⟨-, hread | hread⟩ := accesses_other h4 hd hi
    · cases hread
    · cases hread

theorem inBounds_iff (h : m.length ≤ 63) : InBounds m (accesses m ip2) ↔ WellSized m := by
  by_cases h4 : AsksIpv4 m
  · rw [inBounds_ipv4 h h4]
    exact ⟨fun hlen => ⟨fun _ => hlen, fun hd => absurd hd h4.not_asksDomain⟩, fun hw => hw.1 h4⟩
  by_cases hd : AsksDomain m
  · rw [inBounds_domain h hd]
    exact ⟨fun hlen => ⟨fun h => absurd h h4, fun _ => hlen⟩, fun hw => hw.2 hd⟩
  · exact ⟨fun _ => ⟨fun h => absurd h h4, fun h => absurd h hd⟩,
      fun _ => inBounds_other h4 hd⟩

/-- What a client sends by the message format is well sized. -/
theorem wellSized_ipv4Request (addr : InAddr) (hi lo : UInt8) :
    WellSized (ipv4Request addr hi lo) :=
  ⟨fun _ => ⟨le_rfl, by simp [ipv4Request]⟩,
    fun hd => absurd hd (asksIpv4_ipv4Request addr hi lo).not_asksDomain⟩

theorem wellSized_domainRequest (host : List UInt8) (hi lo : UInt8) :
    WellSized (domainRequest host hi lo) := by
  refine ⟨fun h4 => absurd h4 not_asksIpv4_domainRequest, fun _ => ?_⟩
  have hlen : ((domainRequest host hi lo).getD 4 0).toNat ≤ host.length := by
    simpa [domainRequest] using Nat.mod_le host.length 256
  rw [length_domainRequest]
  omega

/-- **The address is that of the message**, whatever `ip2` held before. -/
theorem parseIpv4_eq (h10 : 10 ≤ m.length) (h38 : m.length ≤ 38) :
    (Socks5.parseIpv4 (scratch 64 m) m.length ip2).result =
      .ok (.address ⟨m.getD 4 0, m.getD 5 0, m.getD 6 0, m.getD 7 0⟩ (portAtEnd m)) := by
  have hbyte : ∀ (j : ℕ) (hj : j < 32), j < 4 →
      (overwrite ip2 (m.length - 2 - 4) fun j => m.getD (4 + j) 0)[j] = m.getD (4 + j) 0 := by
    intro j hj h4
    have h := get_overwrite ip2 (m.length - 2 - 4) (fun j => m.getD (4 + j) 0) ⟨j, hj⟩
    rwa [if_pos (show j < m.length - 2 - 4 by omega)] at h
  rw [Socks5.parseIpv4, Logged.result_bind, result_copy h38, ok_bind, Logged.result_bind,
    Socks5.result_readInAddr, ok_bind, Logged.result_bind, parsePort_eq (by omega) (by omega),
    ok_bind, Socks5.inAddrOf, hbyte 0 _ (by decide), hbyte 1 _ (by decide), hbyte 2 _ (by decide),
    hbyte 3 _ (by decide)]
  rfl

/-- **When parsing stays in bounds.**  For every message `handle_second` can read, all of
it decrypted, and whatever `ip2` held before: every index of `connect` is below the
length of the message, every index of `ip2` that is written is below 32, and every byte
of `ip2` that is read has been copied from the message, exactly when the message is well
sized. -/
theorem accesses_inBounds (h : m.length ≤ 63) :
    InBounds m (accesses m ip2) ↔ WellSized m := inBounds_iff h

/-- The 10 bytes of a CONNECT to 127.0.0.1, port 80. -/
theorem accesses_inBounds_localhost :
    InBounds (ipv4Request ⟨127, 0, 0, 1⟩ 0x00 0x50)
      (accesses (ipv4Request ⟨127, 0, 0, 1⟩ 0x00 0x50) (Vector.replicate 32 0)) :=
  (accesses_inBounds (by decide)).2 (wellSized_ipv4Request _ _ _)

end Log

/-- Three requests that do not stay in bounds: a host name declared longer than the
message, an address with a byte missing, and an address with 29 bytes behind it. -/
theorem accesses_not_inBounds :
    ¬ InBounds [5, 1, 0, 3, 200, 97, 0, 80]
      (accesses [5, 1, 0, 3, 200, 97, 0, 80] (Vector.replicate 32 0)) ∧
    ¬ InBounds [5, 1, 0, 1, 127, 0, 0, 0, 80]
      (accesses [5, 1, 0, 1, 127, 0, 0, 0, 80] (Vector.replicate 32 0)) ∧
    ¬ InBounds ([5, 1, 0, 1, 127, 0, 0, 1] ++ List.replicate 31 0)
      (accesses ([5, 1, 0, 1, 127, 0, 0, 1] ++ List.replicate 31 0) (Vector.replicate 32 0)) := by
  refine ⟨?_, ?_, ?_⟩
  · rw [inBounds_iff (by decide)]
    decide
  · rw [inBounds_iff (by decide)]
    decide
  · rw [inBounds_iff (by decide)]
    decide

end LightSocks
