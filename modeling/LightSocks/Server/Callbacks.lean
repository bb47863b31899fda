import LightSocks.Cipher
import LightSocks.Inet

/-!
# The server's callbacks

One accepted client is one session: a `Socks5ctx`, the bufferevent of the client
and, once a name has been resolved, a bufferevent to the remote host.  This file
follows `server.cpp` and `socks5.cpp` function by function.  Each callback is a
function from the state of the session to the state after it, or to the `Fault`
that ends it.

What the environment decides inside a callback is an argument of it, a `Choice`:
whether `evdns_getaddrinfo` answers before it returns, what
`bufferevent_socket_connect` returns, and what the uninitialised array `ip2` of
`handle_second` happens to hold.
-/

namespace LightSocks

open Memory

/-- The read callbacks the server registers. -/
inductive ReadCb where
  | localReadCb
  | handleSecond
  | handleLast
  | remoteReadCb
  deriving DecidableEq, Repr

/-- The event callbacks the server registers. -/
inductive EventCb where
  | localEventCb
  | remoteEventCb
  deriving DecidableEq, Repr

/-- The address of the session's `Socks5ctx`. -/
inductive CtxPtr where
  | socks5Ctx
  deriving DecidableEq, Repr

/-- What `bufferevent_setcb` registers.  The server never registers a write
callback. -/
structure Callbacks where
  readcb : Option ReadCb
  eventcb : Option EventCb
  cbarg : Option CtxPtr
  deriving DecidableEq, Repr

/-- `struct Socks5ctx`. -/
structure Socks5ctx where
  /-- The client. -/
  self : Option BevPtr
  /-- The remote host. -/
  partner : Option BevPtr
  requestPort : ℕ
  requestIp : List UInt8
  deriving DecidableEq, Repr

/-- The address family of an answer.  `AF_INET6`, which `evutil_inet_ntop` formats as well,
is not among them: the hints that `handle_second` passes ask for `AF_INET`. -/
inductive AiFamily where
  | inet
  /-- A family that `evutil_inet_ntop` does not know. -/
  | unknown
  deriving DecidableEq, Repr

/-- `evutil_addrinfo`, as far as `dns_cb` reads it. -/
structure Addrinfo where
  aiFamily : AiFamily
  sinAddr : InAddr
  deriving DecidableEq, Repr

/-- The first two arguments of `dns_cb`: a non-zero error code and no answer, or
the code zero and an answer. -/
inductive DnsResult where
  | error (errcode : ℤ)
  | found (answer : Addrinfo)
  deriving DecidableEq, Repr

/-- What the environment decides while a callback runs. -/
structure Choice where
  /-- The answer `evdns_getaddrinfo` gives at once, if it does. -/
  resolved : Option DnsResult
  /-- What `bufferevent_socket_connect` returns. -/
  re : ℤ
  /-- What the uninitialised `ip2[32]` holds. -/
  ip2 : Vector UInt8 32

/-- The state of one session. -/
structure Session where
  /-- The `Socks5ctx`, until it is deleted. -/
  context : Option Socks5ctx
  /-- The bufferevents of the session, in the order they were created: the
  client's first. -/
  bevs : Heap Callbacks
  /-- The host names whose resolution is outstanding; the argument of every
  such request is the session's context. -/
  dns : List (List UInt8)
  /-- The `evutil_addrinfo` lists handed to `dns_cb` and not released. -/
  addrinfos : ℕ
  /-- The host names passed to `evdns_getaddrinfo`, in order. -/
  queries : List (List UInt8)
  /-- The targets passed to `bufferevent_socket_connect`, in order. -/
  connects : List (InAddr × UInt16)
  /-- The replies written to the client through `encrypt_byte`, in clear and in
  order. -/
  replies : List (List UInt8)
  deriving DecidableEq, Repr

namespace Session

/-- Follow a pointer to the session's context. -/
def getContext (s : Session) : Except Fault Socks5ctx :=
  match s.context with
  | some c => .ok c
  | none => .error .useAfterFree

/-- `delete context`. -/
def deleteContext (s : Session) : Session := { s with context := none }

/-- `Cipher::encrypt_byte(reply, sizeof(reply)); bufferevent_write(p, reply,
sizeof(reply))`. -/
def reply (password : Table) (p : BevPtr) {n : ℕ} (bytes : Vector UInt8 n) (s : Session) :
    Except Fault Session := do
  let coded ← Cipher.encryptByte password bytes n
  let bevs ← s.bevs.write p coded.toList
  return { s with bevs, replies := s.replies ++ [bytes.toList] }

end Session

/-- The method reply: no authentication. -/
def methodReply : Vector UInt8 2 := #v[0x05, 0x00]

/-- The CONNECT reply: succeeded. -/
def connectReply : Vector UInt8 7 := #v[0x05, 0x00, 0x00, 0x03, 0x00, 0x00, 0x00]

/-- `connect[i] << 8 | connect[j]`. -/
def portOf (hi lo : UInt8) : ℕ := hi.toNat <<< 8 ||| lo.toNat

/-- `evutil_inet_ntop`: null for a family it does not know. -/
def evutilInetNtop (family : AiFamily) (addr : InAddr) : Option (List UInt8) :=
  match family with
  | .inet => some (inetNtop addr)
  | .unknown => none

namespace Server

/-! ## `server.cpp`: the resolver's callback -/

/-- `server::dns_cb`.  The call that would release the answer stands after a
`return`. -/
def dnsCb (re : ℤ) (result : DnsResult) (ctx : Option CtxPtr) (s : Session) :
    Except Fault Session :=
  match ctx, result with
  | none, _ => .ok s
  | some _, .error _ => .ok s
  | some ctx, .found answer =>
      match evutilInetNtop answer.aiFamily answer.sinAddr with
      | none => .error .exited
      | some tempIp => do
          let context ← s.getContext
          let context := { context with requestIp := tempIp }
          let (bufevRemote, bevs) := s.bevs.socketNew ⟨none, none, none⟩ .down
          -- a text that does not parse leaves the zeroed address in place
          let sinAddr := (inetPton context.requestIp).getD ⟨0, 0, 0, 0⟩
          let sinPort := UInt16.ofNat context.requestPort
          let bevs ← bevs.setTimeouts bufevRemote 15
          let bevs ← bevs.setcb bufevRemote ⟨some .remoteReadCb, some .remoteEventCb, some ctx⟩
          let bevs ← bevs.enable bufevRemote
          let bevs ← bevs.socketConnect bufevRemote re
          let connects := s.connects ++ [(sinAddr, sinPort)]
          if re = 0 then
            let context := { context with partner := some bufevRemote }
            return { s with context := some context, bevs, connects }
          else
            return { s with context := some context, bevs, connects }

/-- The resolver completes a request: it allocates the answer, if there is one,
and calls `dns_cb`. -/
def resolve (re : ℤ) (result : DnsResult) (s : Session) : Except Fault Session :=
  match result with
  | .error _ => dnsCb re result (some .socks5Ctx) s
  | .found _ => dnsCb re result (some .socks5Ctx) { s with addrinfos := s.addrinfos + 1 }

/-- `evdns_getaddrinfo(base_dns_loop, nodename, nullptr, &hints, dns_cb,
context)`: answer at once, or leave the request outstanding. -/
def evdnsGetaddrinfo (nodename : List UInt8) (choice : Choice) (s : Session) :
    Except Fault Session :=
  let s := { s with queries := s.queries ++ [nodename] }
  match choice.resolved with
  | some result => resolve choice.re result s
  | none => .ok { s with dns := s.dns ++ [nodename] }

end Server

namespace Socks5

/-! ## `socks5.cpp`: the handshake -/

/-- `socks5::handle_first`. -/
def handleFirst (password : Table) (bev : BevPtr) (s : Session) : Except Fault Session := do
  let context ← s.getContext
  let self ← nonnull context.self
  let (data, bevs) ← s.bevs.read self 63
  let s := { s with bevs }
  let request ← Cipher.decryptBytes password (scratch 64 data) data.length
  if request[0] = 0x05 ∧ request[1] = 0x01 ∧ request[2] = 0x00 then
    let s ← s.reply password self methodReply
    let bevs ← s.bevs.setcb bev ⟨some .handleSecond, some .localEventCb, some .socks5Ctx⟩
    return { s with bevs }
  else
    return s

/-- The first four bytes of an array, as `evutil_inet_ntop(AF_INET, …)` reads
them. -/
def inAddrOf (bytes : Vector UInt8 32) : InAddr := ⟨bytes[0], bytes[1], bytes[2], bytes[3]⟩

/-- `for (i = 5; domain_size != 0; domain_size--) { hostname += connect[i]; i++; }`. -/
def hostnameLoop (connect : Vector UInt8 64) (domainSize : ℕ) : Except Fault (List UInt8) :=
  forLoop (fun i hostname => do return hostname ++ [← fetch .outOfBounds connect i]) 5 domainSize []

/-- `hostname.c_str()`, read as a C string. -/
def cStr (text : List UInt8) : List UInt8 := text.takeWhile (· ≠ 0)

/-- The `ATYP = 1` case of `socks5::handle_second`.  The callbacks are registered
again with a null argument. -/
def requestIpv4 (password : Table) (bev : BevPtr) (choice : Choice) (context : Socks5ctx)
    (connect : Vector UInt8 64) (dataLen : ℕ) (s : Session) : Except Fault Session := do
  let ip2 ← fillLoop .outOfBounds (fetch .outOfBounds connect) 4 (dataLen - 2 - 4) choice.ip2
  let port := portOf (← fetch .outOfBounds connect (dataLen - 2))
    (← fetch .outOfBounds connect (dataLen - 1))
  let context := { context with requestIp := inetNtop (inAddrOf ip2), requestPort := port }
  let s ← { s with context := some context }.reply password bev connectReply
  let bevs ← s.bevs.setcb bev ⟨some .handleLast, some .localEventCb, none⟩
  return { s with bevs }

/-- The `ATYP = 3` case of `socks5::handle_second`. -/
def requestDomain (bev : BevPtr) (choice : Choice) (context : Socks5ctx)
    (connect : Vector UInt8 64) (dataLen : ℕ) (s : Session) : Except Fault Session := do
  let domainSize := (← fetch .outOfBounds connect 4).toNat
  let hostname ← hostnameLoop connect domainSize
  let port := portOf (← fetch .outOfBounds connect (dataLen - 2))
    (← fetch .outOfBounds connect (dataLen - 1))
  let s := { s with context := some { context with requestPort := port } }
  let s ← Server.evdnsGetaddrinfo (cStr hostname) choice s
  let bevs ← s.bevs.setcb bev ⟨some .handleLast, some .localEventCb, some .socks5Ctx⟩
  return { s with bevs }

/-- `socks5::handle_second`. -/
def handleSecond (password : Table) (bev : BevPtr) (arg : Option CtxPtr) (choice : Choice)
    (s : Session) : Except Fault Session := do
  let _ ← nonnull arg
  let context ← s.getContext
  let self ← nonnull context.self
  let (data, bevs) ← s.bevs.read self 63
  let s := { s with bevs }
  if data.length < 7 then return s
  let connect ← Cipher.decryptBytes password (scratch 64 data) data.length
  if connect[1] ≠ 0x01 then return s
  if connect[3] = 0x01 then requestIpv4 password bev choice context connect data.length s
  else if connect[3] = 0x03 then requestDomain bev choice context connect data.length s
  -- ATYP = 4 and every other value: a warning, nothing else
  else return s

/-- `socks5::handle_last`. -/
def handleLast (password : Table) (arg : Option CtxPtr) (s : Session) : Except Fault Session := do
  let _ ← nonnull arg
  let context ← s.getContext
  match context.partner with
  | none =>
      let self ← nonnull context.self
      let len ← s.bevs.inputLength self
      let bevs ← s.bevs.drainInput self len
      return { s with bevs }
  | some _ =>
      let bevs ← Cipher.decrypt password context.self context.partner s.bevs
      return { s with bevs }

end Socks5

namespace Server

/-! ## `server.cpp`: the two connections -/

/-- `server::local_read_cb`. -/
def localReadCb (password : Table) (bev : BevPtr) (arg : Option CtxPtr) (s : Session) :
    Except Fault Session :=
  match arg with
  | none => .ok s
  | some _ => Socks5.handleFirst password bev s

/-- The body both branches of `local_event_cb` share: free the partner if there
is one, free the client, delete the context. -/
def releaseLocal (s : Session) : Except Fault Session := do
  let context ← s.getContext
  let bevs ← match context.partner with
    | some partner => s.bevs.free partner
    | none => .ok s.bevs
  let self ← nonnull context.self
  let bevs ← bevs.free self
  return { s with bevs }.deleteContext

/-- `server::local_event_cb`.  The variable `context` is null after the first
branch has run. -/
def localEventCb (what : What) (ctx : Option CtxPtr) (s : Session) : Except Fault Session :=
  match ctx with
  | none => .ok s
  | some _ => do
      let (context, s) ←
        if what.timeout then do
          let s ← releaseLocal s
          pure (none, s)
        else pure (ctx, s)
      if what.eof ∨ what.error then
        let _ ← nonnull context
        releaseLocal s
      else return s

/-- The body both branches of `remote_event_cb` share: free the client if there
is one, free the bufferevent `remote`, delete the context. -/
def releaseRemote (remote : Option BevPtr) (context : Socks5ctx) (s : Session) :
    Except Fault Session := do
  let bevs ← match context.self with
    | some self => s.bevs.free self
    | none => .ok s.bevs
  let remote ← nonnull remote
  let bevs ← bevs.free remote
  return { s with bevs }.deleteContext

/-- `server::remote_event_cb`. -/
def remoteEventCb (password : Table) (bev : BevPtr) (what : What) (ctx : Option CtxPtr)
    (s : Session) : Except Fault Session :=
  match ctx with
  | none => .ok s
  | some _ =>
      if what.connected then do
        let context ← s.getContext
        match context.self with
        | none => return s
        | some self => s.reply password self connectReply
      else if what.eof ∨ what.error then do
        let context ← s.getContext
        releaseRemote context.partner context s
      else if what.timeout then do
        let context ← s.getContext
        releaseRemote (some bev) context s
      else .ok s

/-- `server::remote_read_cb`. -/
def remoteReadCb (password : Table) (arg : Option CtxPtr) (s : Session) : Except Fault Session :=
  match arg with
  | none => .ok s
  | some _ => do
      let context ← s.getContext
      let bevs ← match context.self with
        | none => do
            let remote ← nonnull context.partner
            let len ← s.bevs.inputLength remote
            s.bevs.drainInput remote len
        | some _ => .ok s.bevs
      let bevs ← Cipher.encrypt password context.self context.partner bevs
      return { s with bevs }

/-- `server::listen_cb`: a session starts. -/
def listenCb : Except Fault Session := do
  let (bufevLocal, bevs) := Heap.socketNew [] ⟨none, none, none⟩ .up
  let bevs ← bevs.setTimeouts bufevLocal 0
  let socks5Ctx : Socks5ctx :=
    { self := some bufevLocal, partner := none, requestPort := 0, requestIp := [] }
  let bevs ← bevs.setcb bufevLocal ⟨some .localReadCb, some .localEventCb, some .socks5Ctx⟩
  let bevs ← bevs.enable bufevLocal
  return { context := some socks5Ctx, bevs, dns := [], addrinfos := 0, queries := []
           connects := [], replies := [] }

end Server

end LightSocks
