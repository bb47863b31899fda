import LightSocks.Client.ReadCallbacks
import LightSocks.Lib.Stage
import LightSocks.Server.Teardown

/-!
# The tunnel

The application talks to the client program, the client program to the server,
the server to the remote host.  Each of the four callbacks that move data on the
way is a stage with the same table, and the network between the two programs may
cut the stream anew.

* `clientUpload`, `serverUpload` — `client::local_read_cb` encrypts,
  `socks5::handle_last` decrypts.
* `serverDownload`, `clientDownload` — the replies of the handshake and
  `server::remote_read_cb` encrypt, `client::remote_read_cb` decrypts.
* `tunnel_transparent` — what goes in at one end comes out at the other.
-/

namespace LightSocks

/-! ## The two ends -/

/-- Bytes have arrived, and the read callback is about to run. -/
def received {κ : Type} (b : Bufferevent κ) (data : List UInt8) : Bufferevent κ :=
  (b.socket (.recv data)).takeRead

/-- Bytes arrive on `p`. -/
def Heap.receive {κ : Type} (h : Heap κ) (p : BevPtr) (data : List UInt8) :
    Except Fault (Heap κ) :=
  h.update p fun b => received b data

/-- Bytes arrive on `p`. -/
def Session.receive (s : Session) (p : BevPtr) (data : List UInt8) : Except Fault Session := do
  let bevs ← s.bevs.receive p data
  return { s with bevs }

/-- Everything ever written to `p`. -/
def Heap.written {κ : Type} (h : Heap κ) (p : BevPtr) : List UInt8 :=
  ((h[p]?).map fun b => b.output.stream).getD []

/-- Two live bufferevents whose input buffers are empty. -/
structure Drained {κ : Type} (b d : Bufferevent κ) : Prop where
  liveFirst : b.live = true
  liveSecond : d.live = true
  emptyFirst : b.input.pending = []
  emptySecond : d.input.pending = []

section Ends

variable {κ : Type} {b d : Bufferevent κ}

theorem pending_received (hb : b.input.pending = []) (data : List UInt8) :
    (received b data).input.pending = data := by
  simp [received, Bufferevent.takeRead, Bufferevent.socket, hb]

/-- What the first has received is passed on to the second. -/
theorem Drained.first (h : Drained b d) (data bytes : List UInt8) :
    Drained (received b data).drained (d.queue bytes) :=
  ⟨h.liveFirst, h.liveSecond, rfl, h.emptySecond⟩

/-- What the second has received is passed on to the first. -/
theorem Drained.second (h : Drained b d) (data bytes : List UInt8) :
    Drained (b.queue bytes) (received d data).drained :=
  ⟨h.liveFirst, h.liveSecond, h.emptyFirst, rfl⟩

theorem Drained.queue (h : Drained b d) (bytes : List UInt8) : Drained (b.queue bytes) d :=
  ⟨h.liveFirst, h.liveSecond, h.emptyFirst, h.emptySecond⟩

end Ends

/-- The client program between two callbacks: the application at 0, the server
at 1. -/
def ClientReady {κ : Type} (h : Heap κ) : Prop := ∃ b d, h = [b, d] ∧ Drained b d

/-- The server between two callbacks, with a partner: the client at 0, the
remote host at 1. -/
def ServerReady (s : Session) : Prop :=
  ∃ ctx c r, s.context = some ctx ∧ ctx.self = some 0 ∧ ctx.partner = some 1 ∧ s.bevs = [c, r] ∧
    Drained c r

/-- A session with a partner is ready whenever no read callback is due. -/
theorem serverReady_of_partner {P : Key} {s : Session} (hs : Reachable P s) (hp : HasPartner s)
    (hidle : ∀ b ∈ s.bevs, b.readPending = false) : ServerReady s := by
  obtain ⟨m, hm⟩ := hs.shape
  obtain ⟨target, rfl⟩ := hm.relay_of_hasPartner hp
  cases hm with
  | @relay c r _ _ _ _ hc hr _ =>
      have hcread := hc.idle (hidle c List.mem_cons_self)
      have hrread := hr.idle (hidle r (List.mem_cons_of_mem _ List.mem_cons_self))
      exact ⟨_, c, r, rfl, rfl, rfl, rfl, hc.live, hr.live, hcread, hrread⟩

/-! ## The client program -/

section ClientStages

variable {κ : Type} (P : Key)

/-- `client::local_read_cb`, one delivery of the application after another. -/
def clientUpload : Stage Fault (Heap κ) (List UInt8) UInt8 UInt8 where
  take data h := do
    let h ← h.receive 0 data
    Client.localReadCb P.table 0 (some 1) h
  payload data := data
  code := P.enc
  out h := h.written 1
  Ready := ClientReady
  Fits _ := True
  take_eq := by
    rintro _ data ⟨b, d, rfl, hb⟩ -
    refine ⟨[(received b data).drained, d.queue (P.encrypt data)], ?_,
      ⟨_, _, rfl, hb.first data _⟩, Fifo.stream_push _ _⟩
    rw [Heap.receive, Heap.update_eq_ok (b := b) rfl hb.liveFirst, ok_bind,
      Client.localReadCb_eq (b := received b data) (d := d) P rfl rfl (by simp) hb.liveFirst
        hb.liveSecond, pending_received hb.emptyFirst]
    rfl

/-- `client::remote_read_cb`, one delivery of the server after another. -/
def clientDownload : Stage Fault (Heap κ) (List UInt8) UInt8 UInt8 where
  take data h := do
    let h ← h.receive 1 data
    Client.remoteReadCb P.table 1 (some 0) h
  payload data := data
  code := P.dec
  out h := h.written 0
  Ready := ClientReady
  Fits _ := True
  take_eq := by
    rintro _ data ⟨b, d, rfl, hb⟩ -
    refine ⟨[b.queue (P.decrypt data), (received d data).drained], ?_,
      ⟨_, _, rfl, hb.second data _⟩, Fifo.stream_push _ _⟩
    rw [Heap.receive, Heap.update_eq_ok (b := d) rfl hb.liveSecond, ok_bind,
      Client.remoteReadCb_eq (b := received d data) (d := b) P rfl rfl (by simp) hb.liveSecond
        hb.liveFirst, pending_received hb.emptySecond]
    rfl

end ClientStages

/-! ## The server -/

/-- What the server writes to the client. -/
inductive ServerWrite where
  /-- A reply, through `encrypt_byte`. -/
  | reply {n : ℕ} (bytes : Vector UInt8 n)
  /-- What the remote host has sent, through `encrypt`. -/
  | relay (data : List UInt8)

/-- The bytes, in clear. -/
def ServerWrite.payload : ServerWrite → List UInt8
  | .reply bytes => bytes.toList
  | .relay data => data

/-- A reply fits the scratch array of `encrypt_byte`. -/
def ServerWrite.Fits : ServerWrite → Prop
  | @reply n _ => n ≤ 32
  | .relay _ => True

section ServerStages

variable (P : Key)

/-- `socks5::handle_last`, one delivery of the client after another. -/
def serverUpload : Stage Fault Session (List UInt8) UInt8 UInt8 where
  take data s := do
    let s ← s.receive 0 data
    Socks5.handleLast P.table (some .socks5Ctx) s
  payload data := data
  code := P.dec
  out s := s.bevs.written 1
  Ready := ServerReady
  Fits _ := True
  take_eq := by
    rintro s data ⟨ctx, c, r, hctx, hself, hpartner, hbevs, hc⟩ -
    refine ⟨{ s with bevs := [(received c data).drained, r.queue (P.decrypt data)] }, ?_,
      ⟨ctx, _, _, hctx, hself, hpartner, rfl, hc.first data _⟩, ?_⟩
    · rw [Session.receive, hbevs, Heap.receive, Heap.update_eq_ok (b := c) rfl hc.liveFirst,
        ok_bind, pure_eq_ok, ok_bind]
      have hlast := handleLast_relay (P := P) (s := { s with bevs := [received c data, r] })
        (p := 0) (q := 1) (c := received c data) (r := r) hctx hself hpartner (by simp) rfl rfl
        hc.liveFirst hc.liveSecond
      rw [pending_received hc.emptyFirst] at hlast
      exact hlast
    · rw [hbevs]
      exact Fifo.stream_push _ _

/-- The replies and `server::remote_read_cb`, in any order. -/
def serverDownload : Stage Fault Session ServerWrite UInt8 UInt8 where
  take
    | .reply bytes, s => do
        let context ← s.getContext
        let self ← nonnull context.self
        s.reply P.table self bytes
    | .relay data, s => do
        let s ← s.receive 1 data
        Server.remoteReadCb P.table (some .socks5Ctx) s
  payload := ServerWrite.payload
  code := P.enc
  out s := s.bevs.written 0
  Ready := ServerReady
  Fits := ServerWrite.Fits
  take_eq := by
    rintro s w ⟨ctx, c, r, hctx, hself, hpartner, hbevs, hc⟩ hfits
    cases w with
    | @reply n bytes =>
        refine ⟨{ s with
            bevs := [c.queue (P.encrypt bytes.toList), r]
            replies := s.replies ++ [bytes.toList] }, ?_,
          ⟨ctx, _, _, hctx, hself, hpartner, rfl, hc.queue _⟩, ?_⟩
        · have hreply := reply_eq P bytes hfits (s := s) (p := 0) (c := c) (by rw [hbevs]; rfl)
            hc.liveFirst
          rw [hbevs] at hreply
          simp only [getContext_eq hctx, ok_bind, hself, nonnull_some]
          exact hreply
        · rw [hbevs]
          exact Fifo.stream_push _ _
    | relay data =>
        refine ⟨{ s with bevs := [c.queue (P.encrypt data), (received r data).drained] }, ?_,
          ⟨ctx, _, _, hctx, hself, hpartner, rfl, hc.second data _⟩, ?_⟩
        · dsimp only
          rw [Session.receive, hbevs, Heap.receive, Heap.update_eq_ok (b := r) rfl hc.liveSecond,
            ok_bind, pure_eq_ok, ok_bind]
          have hread := remoteReadCb_eq (P := P) (s := { s with bevs := [c, received r data] })
            (p := 0) (q := 1) (c := c) (r := received r data) hctx hself hpartner (by simp) rfl rfl
            hc.liveFirst hc.liveSecond
          rw [pending_received hc.emptySecond] at hread
          exact hread
        · rw [hbevs]
          exact Fifo.stream_push _ _

end ServerStages

/-! ## Through both programs -/

section Through

variable {κ : Type} {P : Key} {h : Heap κ} {s : Session}

/-- From the application to the remote host. -/
theorem upload_transparent (hh : ClientReady h) (hs : ServerReady s)
    (parts : List (List UInt8)) :
    ∃ h', (clientUpload P).feed parts h = .ok h' ∧ ClientReady h' ∧
      ∀ wire : List (List UInt8), h'.written 1 = h.written 1 ++ wire.flatten →
        ∃ s', (serverUpload P).feed wire s = .ok s' ∧ ServerReady s' ∧
          s'.bevs.written 1 = s.bevs.written 1 ++ parts.flatten := by
  have hflat : ∀ xs : List (List UInt8), xs.flatMap (fun data => data) = xs.flatten :=
    fun _ => List.flatMap_id'
  obtain ⟨h', hfeed, hready, -⟩ := (clientUpload P).feed_eq hh fun _ _ => trivial
  refine ⟨h', hfeed, hready, fun wire hwire => ?_⟩
  rw [← hflat wire] at hwire
  rw [← hflat parts]
  exact (clientUpload P).roundTrip (serverUpload P) P.dec_enc hh (fun _ _ => trivial) hfeed hs
    (fun _ _ => trivial) hwire

/-- From the server to the application. -/
theorem download_transparent (hh : ClientReady h) (hs : ServerReady s)
    {writes : List ServerWrite} (hfits : ∀ w ∈ writes, w.Fits) :
    ∃ s', (serverDownload P).feed writes s = .ok s' ∧ ServerReady s' ∧
      ∀ wire : List (List UInt8), s'.bevs.written 0 = s.bevs.written 0 ++ wire.flatten →
        ∃ h', (clientDownload P).feed wire h = .ok h' ∧ ClientReady h' ∧
          h'.written 0 = h.written 0 ++ writes.flatMap ServerWrite.payload := by
  have hflat : ∀ xs : List (List UInt8), xs.flatMap (fun data => data) = xs.flatten :=
    fun _ => List.flatMap_id'
  obtain ⟨s', hfeed, hready, -⟩ := (serverDownload P).feed_eq hs hfits
  refine ⟨s', hfeed, hready, fun wire hwire => ?_⟩
  rw [← hflat wire] at hwire
  exact (serverDownload P).roundTrip (clientDownload P) P.dec_enc hs hfits hfeed hh
    (fun _ _ => trivial) hwire

/-- **The tunnel is transparent.**  What the application sends, in any portions,
is what the remote host is sent, however the network cuts the encrypted stream;
and whatever the server writes to the client, replies and relayed data in any
order, is what the application is sent.  Every callback on the way returns and
leaves its input buffer empty. -/
theorem tunnel_transparent (P : Key) (hh : ClientReady h) (hs : ServerReady s) :
    (∀ parts : List (List UInt8),
      ∃ h', (clientUpload P).feed parts h = .ok h' ∧ ClientReady h' ∧
        ∀ wire : List (List UInt8), h'.written 1 = h.written 1 ++ wire.flatten →
          ∃ s', (serverUpload P).feed wire s = .ok s' ∧ ServerReady s' ∧
            s'.bevs.written 1 = s.bevs.written 1 ++ parts.flatten) ∧
    ∀ writes : List ServerWrite, (∀ w ∈ writes, w.Fits) →
      ∃ s', (serverDownload P).feed writes s = .ok s' ∧ ServerReady s' ∧
        ∀ wire : List (List UInt8), s'.bevs.written 0 = s.bevs.written 0 ++ wire.flatten →
          ∃ h', (clientDownload P).feed wire h = .ok h' ∧ ClientReady h' ∧
            h'.written 0 = h.written 0 ++ writes.flatMap ServerWrite.payload :=
  ⟨upload_transparent hh hs, fun _ hfits => download_transparent hh hs hfits⟩

end Through

/-- Two bytes up in two portions, a reply and one byte down. -/
theorem tunnel_transparent_joined : ∃ (h : Heap Unit) (s : Session),
    ClientReady h ∧ ServerReady s ∧ Reachable Key.identity s ∧
    (∃ h', (clientUpload Key.identity).feed [[0x68], [0x69]] h = .ok h' ∧
      ∀ wire : List (List UInt8), h'.written 1 = h.written 1 ++ wire.flatten →
        ∃ s', (serverUpload Key.identity).feed wire s = .ok s' ∧
          s'.bevs.written 1 = s.bevs.written 1 ++ [0x68, 0x69]) ∧
    ∃ s', (serverDownload Key.identity).feed [.reply methodReply, .relay [0x68]] s = .ok s' ∧
      ∀ wire : List (List UInt8), s'.bevs.written 0 = s.bevs.written 0 ++ wire.flatten →
        ∃ h', (clientDownload Key.identity).feed wire h = .ok h' ∧
          h'.written 0 = h.written 0 ++ [0x05, 0x00, 0x68] := by
  obtain ⟨c, hr, hc⟩ := reach_joined Key.identity [0x61] 0x00 0x50 .example ⟨127, 0, 0, 1⟩
  have hh : ClientReady (Heap.socketNew (Heap.socketNew [] () .up).2 () .up).2 :=
    ⟨_, _, rfl, rfl, rfl, rfl, rfl⟩
  have hs := serverReady_of_partner ⟨_, hr⟩ ⟨_, rfl, by simp⟩ (by
    intro b hb
    simp only [Session.paired, List.mem_cons, List.not_mem_nil, or_false] at hb
    rcases hb with rfl | rfl
    · exact hc.noRead
    · rfl)
  obtain ⟨hup, hdown⟩ := tunnel_transparent Key.identity hh hs
  obtain ⟨h', hfeed, -, hwire⟩ := hup [[0x68], [0x69]]
  obtain ⟨s', hfeed', -, hwire'⟩ := hdown [.reply methodReply, .relay [0x68]] (by
    intro w hw
    simp only [List.mem_cons, List.not_mem_nil, or_false] at hw
    rcases hw with rfl | rfl
    · exact show 2 ≤ 32 by decide
    · exact trivial)
  refine ⟨_, _, hh, hs, ⟨_, hr⟩, ⟨h', hfeed, fun wire hw => ?_⟩, s', hfeed', fun wire hw => ?_⟩
  · obtain ⟨t, ht, -, hout⟩ := hwire wire hw
    exact ⟨t, ht, hout⟩
  · obtain ⟨t, ht, -, hout⟩ := hwire' wire hw
    exact ⟨t, ht, hout⟩

end LightSocks
