import LightSocks.Server.Simulation

/-!
# What a callback leaves behind

The phases of a session account for everything in it, but only as long as nobody else
calls back with its context.  Here nothing is assumed of the session: the heap may hold
any number of bufferevents, whoever they belong to.

* `faces` — what there is to a heap besides buffers and flags: which bufferevents are
  live, and what they have registered.
* `Releases` — what both teardown functions do: two bufferevents are freed, the context is
  deleted.
* `Aftermath` — all that can come of an event, one constructor for each thing a callback
  does.
* `Step.aftermath` — every event has one of these.
* `Pointers`, `Aftermath.pointers` — what that comes to for the two pointers of the context.
-/

namespace LightSocks

open Transition

variable {P : Key} {s t : Session} {p q : BevPtr} {b b' : Bufferevent Callbacks}
  {ctx : Socks5ctx}

/-! ## Heaps up to their buffers -/

/-- Whether a bufferevent is live, and what it has registered. -/
def Bufferevent.face {κ : Type} (b : Bufferevent κ) : Bool × κ := (b.live, b.callbacks)

/-- The faces of all bufferevents. -/
def Heap.faces {κ : Type} (h : Heap κ) : List (Bool × κ) := h.map Bufferevent.face

section Faces

variable {κ : Type} {h h' : Heap κ} {c c' : Bufferevent κ}

@[simp] theorem length_faces (h : Heap κ) : (Heap.faces h).length = h.length := List.length_map _

theorem faces_set (hp : h[p]? = some c) (hc : c'.face = c.face) :
    Heap.faces (h.set p c') = Heap.faces h := by
  calc Heap.faces (h.set p c') = (Heap.faces h).set p c.face := by
        rw [Heap.faces, List.map_set, hc, Heap.faces]
    _ = Heap.faces (h.set p c) := List.map_set.symm
    _ = Heap.faces h := by rw [Heap.set_self hp]

theorem faces_read {n : ℕ} {data : List UInt8} (hr : h.read p n = .ok (data, h')) :
    Heap.faces h' = Heap.faces h := by
  obtain ⟨c, hp, -, rfl⟩ := Heap.read_ok hr
  exact faces_set hp rfl

theorem faces_write {data : List UInt8} (hw : h.write p data = .ok h') :
    Heap.faces h' = Heap.faces h := by
  obtain ⟨c, hp, -, rfl⟩ := Heap.update_ok hw
  exact faces_set hp rfl

theorem faces_drainInput {n : ℕ} (hd : h.drainInput p n = .ok h') :
    Heap.faces h' = Heap.faces h := by
  obtain ⟨c, hp, -, rfl⟩ := Heap.update_ok hd
  exact faces_set hp rfl

/-- The relay loop only reads and writes. -/
theorem faces_relay {table : Table} {src dst : Option BevPtr}
    (hr : Cipher.relay table src dst h = .ok h') : Heap.faces h' = Heap.faces h := by
  fun_induction Cipher.relay table src dst h with
  | case1 | case2 | case4 => cases hr
  | case3 =>
      cases hr
      rename_i hread
      exact faces_read hread
  | case5 =>
      rename_i hread _ _ hwrite ih
      obtain ⟨q, -, hwrite⟩ := bind_eq_ok.1 hwrite
      obtain ⟨coded, -, hwrite⟩ := bind_eq_ok.1 hwrite
      exact (ih hr).trans ((faces_write hwrite).trans (faces_read hread))

theorem getElem?_faces (hq : h[q]? = some c) : (Heap.faces h)[q]? = some c.face := by
  rw [Heap.faces, List.getElem?_map, hq]
  rfl

/-- A face is that of a bufferevent. -/
theorem of_getElem?_faces (hq : (Heap.faces h)[q]? = some c'.face) :
    ∃ c : Bufferevent κ, h[q]? = some c ∧ c'.live = c.live ∧ c'.callbacks = c.callbacks := by
  rw [Heap.faces, List.getElem?_map] at hq
  obtain ⟨c, hc, hface⟩ := Option.map_eq_some_iff.1 hq
  simp only [Bufferevent.face, Prod.mk.injEq] at hface
  exact ⟨c, hc, hface.1.symm, hface.2.symm⟩

/-- Equal faces, bufferevent by bufferevent. -/
theorem face_of_faces (hf : Heap.faces h' = Heap.faces h) (hq : h'[q]? = some c') :
    ∃ c : Bufferevent κ, h[q]? = some c ∧ c'.live = c.live ∧ c'.callbacks = c.callbacks :=
  of_getElem?_faces (hf ▸ getElem?_faces hq)

theorem length_of_faces (hf : Heap.faces h' = Heap.faces h) : h'.length = h.length := by
  rw [← length_faces h', hf, length_faces]

/-- The bufferevent `q` has not been freed. -/
def Heap.Live (h : Heap κ) (q : BevPtr) : Prop := ∃ b, h[q]? = some b ∧ b.live = true

theorem live_iff_faces : h.Live q ↔ ∃ c, (Heap.faces h)[q]? = some (true, c) := by
  constructor
  · rintro ⟨c, hc, hl⟩
    exact ⟨c.callbacks, (getElem?_faces hc).trans (by rw [Bufferevent.face, hl])⟩
  · rintro ⟨c, hc⟩
    rw [Heap.faces, List.getElem?_map] at hc
    obtain ⟨d, hd, hface⟩ := Option.map_eq_some_iff.1 hc
    exact ⟨d, hd, congrArg Prod.fst hface⟩

theorem live_of_faces (hf : Heap.faces h' = Heap.faces h) : h'.Live q ↔ h.Live q := by
  rw [live_iff_faces, live_iff_faces, hf]

/-- Other callbacks, but nobody is freed. -/
theorem live_of_registered {k : κ} (hp : h[p]? = some c)
    (hf : Heap.faces h' = (Heap.faces h).set p (c.live, k)) : h'.Live q ↔ h.Live q := by
  have hlt : p < (Heap.faces h).length := by
    rw [length_faces]
    exact (List.getElem?_eq_some_iff.1 hp).1
  rw [live_iff_faces, live_iff_faces, hf]
  by_cases hpq : p = q
  · subst hpq
    rw [List.getElem?_set_self hlt, getElem?_faces hp]
    simp [Bufferevent.face]
  · rw [List.getElem?_set_ne hpq]

/-- A bufferevent is created. -/
theorem live_snoc {olds : List (Bool × κ)} {k : κ} (hf : Heap.faces h' = olds ++ [(true, k)]) :
    h'.Live q ↔ (∃ c, olds[q]? = some (true, c)) ∨ q = olds.length := by
  rw [live_iff_faces, hf]
  rcases lt_or_ge q olds.length with hlt | hge
  · rw [List.getElem?_append_left hlt]
    simp [hlt.ne]
  · have hnone : olds[q]? = none := List.getElem?_eq_none hge
    rw [List.getElem?_append_right hge, hnone]
    constructor
    · rintro ⟨c, hc⟩
      have hlt : q - olds.length < 1 := (List.getElem?_eq_some_iff.1 hc).1
      exact .inr (le_antisymm (Nat.le_of_sub_eq_zero (Nat.lt_one_iff.1 hlt)) hge)
    · rintro (⟨c, hc⟩ | rfl)
      · cases hc
      · exact ⟨k, by rw [Nat.sub_self]; rfl⟩

/-! ## Freeing -/

/-- Nothing has changed but that some bufferevents may have been freed. -/
structure Shrinks (h h' : Heap κ) : Prop where
  length : h'.length = h.length
  old : ∀ (q : BevPtr) (c' : Bufferevent κ), h'[q]? = some c' → ∃ c : Bufferevent κ,
    h[q]? = some c ∧ c'.callbacks = c.callbacks ∧ (c'.live = true → c.live = true)

theorem Shrinks.refl (h : Heap κ) : Shrinks h h := ⟨rfl, fun _ c hc => ⟨c, hc, rfl, id⟩⟩

theorem Shrinks.trans {h₁ h₂ h₃ : Heap κ} (h₁₂ : Shrinks h₁ h₂) (h₂₃ : Shrinks h₂ h₃) :
    Shrinks h₁ h₃ := by
  refine ⟨h₂₃.length.trans h₁₂.length, ?_⟩
  intro q c₃ hc₃
  obtain ⟨c₂, hc₂, hcb₂, hl₂⟩ := h₂₃.old q c₃ hc₃
  obtain ⟨c₁, hc₁, hcb₁, hl₁⟩ := h₁₂.old q c₂ hc₂
  exact ⟨c₁, hc₁, hcb₂.trans hcb₁, fun hl => hl₁ (hl₂ hl)⟩

theorem Shrinks.of_faces {h₁ : Heap κ} (hs : Shrinks h₁ h') (hf : Heap.faces h₁ = Heap.faces h) :
    Shrinks h h' := by
  refine ⟨hs.length.trans (length_of_faces hf), ?_⟩
  intro q c' hc'
  obtain ⟨c, hc, hcb, hl⟩ := hs.old q c' hc'
  obtain ⟨d, hd, hlive, hcallbacks⟩ := face_of_faces hf hc
  exact ⟨d, hd, hcb.trans hcallbacks, fun h => hlive ▸ hl h⟩

/-- `bufferevent_free`, when it returns. -/
theorem Heap.free_ok (hf : h.free p = .ok h') :
    Shrinks h h' ∧ ∀ q, h'.Live q ↔ h.Live q ∧ p ≠ q := by
  obtain ⟨c, hp, -, rfl⟩ := Heap.update_ok hf
  have hlt : p < h.length := (List.getElem?_eq_some_iff.1 hp).1
  refine ⟨⟨List.length_set, ?_⟩, ?_⟩
  · intro q c' hc'
    by_cases hpq : p = q
    · subst hpq
      rw [List.getElem?_set_self hlt] at hc'
      cases hc'
      exact ⟨c, hp, rfl, fun hl => absurd hl (by simp)⟩
    · rw [List.getElem?_set_ne hpq] at hc'
      exact ⟨c', hc', rfl, id⟩
  · intro q
    by_cases hpq : p = q
    · subst hpq
      refine iff_of_false ?_ fun h => h.2 rfl
      rintro ⟨c', hc', hl⟩
      rw [List.getElem?_set_self hlt] at hc'
      cases hc'
      cases hl
    · rw [Heap.Live, List.getElem?_set_ne hpq]
      exact (and_iff_left hpq).symm

end Faces

/-! ## Ending a session -/

/-- What both teardown functions do: they free the client and another bufferevent, and
delete the context. -/
structure Releases (s : Session) (ctx : Socks5ctx) (second : Option BevPtr) (t : Session) :
    Prop where
  context : s.context = some ctx
  rest : t = { s with bevs := t.bevs, context := none }
  bevs : Shrinks s.bevs t.bevs
  live : ∀ q, t.bevs.Live q ↔ s.bevs.Live q ∧ ctx.self ≠ some q ∧ second ≠ some q

/-- A pointer that may be null is freed if it is not. -/
theorem free_opt {h h' : Heap Callbacks} {o : Option BevPtr}
    (hf : (match o with | some p => h.free p | none => .ok h) = .ok h') :
    Shrinks h h' ∧ ∀ q, h'.Live q ↔ h.Live q ∧ o ≠ some q := by
  cases o with
  | none =>
      cases hf
      exact ⟨.refl h, fun q => (and_iff_left (Option.some_ne_none q).symm).symm⟩
  | some p =>
      obtain ⟨hshrinks, hlive⟩ := Heap.free_ok hf
      exact ⟨hshrinks, fun q => (hlive q).trans (by rw [ne_eq, ne_eq, Option.some.injEq])⟩

theorem releases_releaseLocal (h : Server.releaseLocal s = .ok t) :
    ∃ ctx, Releases s ctx ctx.partner t := by
  unfold Server.releaseLocal at h
  obtain ⟨ctx, hctx, h⟩ := bind_eq_ok.1 h
  have hfirst : ∃ bevs, (Shrinks s.bevs bevs ∧ ∀ q, bevs.Live q ↔
      s.bevs.Live q ∧ ctx.partner ≠ some q) ∧ (do
      let self ← nonnull ctx.self
      let bevs ← Heap.free bevs self
      return { s with bevs }.deleteContext) = .ok t := by
    split at h
    · rename_i partner hpartner
      obtain ⟨bevs, hfree, h⟩ := bind_eq_ok.1 h
      rw [hpartner]
      exact ⟨bevs, free_opt (o := some partner) hfree, h⟩
    · rename_i hpartner
      obtain ⟨_, hsame, h⟩ := bind_eq_ok.1 h
      rw [hpartner]
      exact ⟨_, free_opt (o := none) hsame, h⟩
  obtain ⟨bevs₁, ⟨hshrinks₁, hlive₁⟩, h⟩ := hfirst
  obtain ⟨self, hself, h⟩ := bind_eq_ok.1 h
  obtain ⟨bevs₂, hfree, h⟩ := bind_eq_ok.1 h
  obtain ⟨hshrinks₂, hlive₂⟩ := Heap.free_ok hfree
  cases h
  refine ⟨ctx, getContext_ok hctx, rfl, hshrinks₁.trans hshrinks₂, fun q => (hlive₂ q).trans ?_⟩
  rw [hlive₁, nonnull_ok hself, ne_eq (some self), Option.some.injEq, and_assoc]
  exact and_congr_right fun _ => and_comm

theorem releases_releaseRemote {remote : Option BevPtr} (hctx : s.context = some ctx)
    (h : Server.releaseRemote remote ctx s = .ok t) : Releases s ctx remote t := by
  unfold Server.releaseRemote at h
  have hfirst : ∃ bevs, (Shrinks s.bevs bevs ∧ ∀ q, bevs.Live q ↔
      s.bevs.Live q ∧ ctx.self ≠ some q) ∧ (do
        let remote ← nonnull remote
        let bevs ← Heap.free bevs remote
        return { s with bevs }.deleteContext) = .ok t := by
    split at h
    · rename_i self hself
      obtain ⟨bevs, hfree, h⟩ := bind_eq_ok.1 h
      rw [hself]
      exact ⟨bevs, free_opt (o := some self) hfree, h⟩
    · rename_i hself
      obtain ⟨_, hsame, h⟩ := bind_eq_ok.1 h
      rw [hself]
      exact ⟨_, free_opt (o := none) hsame, h⟩
  obtain ⟨bevs₁, ⟨hshrinks₁, hlive₁⟩, h⟩ := hfirst
  obtain ⟨r, hr, h⟩ := bind_eq_ok.1 h
  obtain ⟨bevs₂, hfree, h⟩ := bind_eq_ok.1 h
  obtain ⟨hshrinks₂, hlive₂⟩ := Heap.free_ok hfree
  cases h
  refine ⟨hctx, rfl, hshrinks₁.trans hshrinks₂, fun q => (hlive₂ q).trans ?_⟩
  rw [hlive₁, nonnull_ok hr, ne_eq (some r), Option.some.injEq, and_assoc]

section EventCb

variable {w : What} {arg : Option CtxPtr}

/-- `local_event_cb` releases the session, or does nothing. -/
theorem localEventCb_cases (h : Server.localEventCb w arg s = .ok t) :
    t = s ∧ (arg = none ∨ w.terminal = false) ∨
      w.terminal = true ∧ arg ≠ none ∧ ∃ ctx, Releases s ctx ctx.partner t := by
  unfold Server.localEventCb at h
  split at h
  · exact .inl ⟨(Except.ok.inj h).symm, .inl rfl⟩
  dsimp only at h
  split at h
  · -- TIMEOUT: with EOF or ERROR on top of it, the null context would be followed
    rename_i htimeout
    obtain ⟨s₁, hreleased, h⟩ := bind_eq_ok.1 h
    obtain ⟨_, hpair, h⟩ := bind_eq_ok.1 h
    cases hpair
    split at h
    · cases h
    · cases h
      exact .inr ⟨by simp [What.terminal, htimeout], by simp, releases_releaseLocal hreleased⟩
  · rename_i htimeout
    obtain ⟨_, hpair, h⟩ := bind_eq_ok.1 h
    cases hpair
    split at h
    · rename_i hends
      obtain ⟨_, -, h⟩ := bind_eq_ok.1 h
      exact .inr ⟨by simpa [What.terminal, htimeout] using hends, by simp,
        releases_releaseLocal h⟩
    · rename_i hends
      cases h
      exact .inl ⟨rfl, .inr (by simpa [What.terminal, htimeout] using hends)⟩

/-- `remote_event_cb` replies, releases the session, or does nothing. -/
theorem remoteEventCb_cases (h : Server.remoteEventCb P.table p w arg s = .ok t) :
    t = s ∧ (arg = none ∨ w.connected = true ∧ (∃ ctx, s.context = some ctx ∧ ctx.self = none) ∨
      w.connected = false ∧ w.terminal = false) ∨
    (w.connected = false ∧ w.terminal = true ∧ arg ≠ none ∧ ∃ ctx second,
      Releases s ctx second t ∧ (second = ctx.partner ∨ second = some p)) ∨
    w.connected = true ∧ ∃ bevs,
      t = { s with bevs, replies := s.replies ++ [connectReply.toList] } ∧
        Heap.faces bevs = Heap.faces s.bevs := by
  unfold Server.remoteEventCb at h
  split at h
  · exact .inl ⟨(Except.ok.inj h).symm, .inl rfl⟩
  split at h
  · rename_i hconn
    obtain ⟨ctx, hctx, h⟩ := bind_eq_ok.1 h
    split at h
    · rename_i hself
      exact .inl ⟨(Except.ok.inj h).symm, .inr (.inl ⟨hconn, ctx, getContext_ok hctx, hself⟩)⟩
    · unfold Session.reply at h
      obtain ⟨coded, -, h⟩ := bind_eq_ok.1 h
      obtain ⟨bevs, hwrite, h⟩ := bind_eq_ok.1 h
      cases h
      exact .inr (.inr ⟨hconn, bevs, rfl, faces_write hwrite⟩)
  rename_i hconn
  split at h
  · rename_i hends
    obtain ⟨ctx, hctx, h⟩ := bind_eq_ok.1 h
    have hreleased := releases_releaseRemote (getContext_ok hctx) h
    exact .inr (.inl ⟨by simpa using hconn, by simp [What.terminal, hends], by simp, ctx,
      ctx.partner, hreleased, .inl rfl⟩)
  rename_i hends
  split at h
  · rename_i htimeout
    obtain ⟨ctx, hctx, h⟩ := bind_eq_ok.1 h
    have hreleased := releases_releaseRemote (getContext_ok hctx) h
    exact .inr (.inl ⟨by simpa using hconn, by simp [What.terminal, htimeout], by simp, ctx,
      some p, hreleased, .inr rfl⟩)
  · rename_i htimeout
    refine .inl ⟨(Except.ok.inj h).symm, .inr (.inr ⟨by simpa using hconn, ?_⟩)⟩
    simpa [What.terminal, htimeout] using hends

end EventCb

/-! ## What can come of an event -/

/-- The bufferevent an event concerns. -/
def Event.bev : Event → Option BevPtr
  | .socket p _ | .readCb p _ | .eventCb p => some p
  | .dnsDone _ _ _ => none

/-- The lookups an event completes. -/
def Event.lookups : Event → List (List UInt8)
  | .dnsDone nodename _ _ => [nodename]
  | _ => []

/-- An event callback is told EOF, ERROR or TIMEOUT, and its argument is not null. -/
def Ends (s : Session) (e : Event) : Prop :=
  ∃ p b w, e = .eventCb p ∧ s.bevs[p]? = some b ∧ b.nextEvent = some w ∧ w.terminal = true ∧
    b.callbacks.cbarg ≠ none

/-- `remote_event_cb` is told CONNECTED of `p`. -/
def ReportsConnected (s : Session) (p : BevPtr) : Prop :=
  ∃ b, s.bevs[p]? = some b ∧ b.nextEvent = some { connected := true } ∧
    b.callbacks = remoteCallbacks

/-- A client does not register the callbacks of a remote host. -/
theorem clientCallbacks_ne {rd : ReadCb} {arg : Option CtxPtr} (hrd : rd ≠ .remoteReadCb) :
    clientCallbacks rd arg ≠ remoteCallbacks := by
  intro heq
  injection heq with hreadcb
  exact hrd (Option.some.inj hreadcb)

/-- Who registered what is on `p`: the client of the context, or the resolver's
callback. -/
inductive Role (s : Session) (p : BevPtr) (b : Bufferevent Callbacks) : Prop where
  | client {rd : ReadCb} {arg : Option CtxPtr} {ctx : Socks5ctx} (readcb : rd ≠ .remoteReadCb)
      (callbacks : b.callbacks = clientCallbacks rd arg) (context : s.context = some ctx)
      (self : ctx.self = some p)
  | remote (callbacks : b.callbacks = remoteCallbacks)

/-- No lookups and no log. -/
structure Blank (s : Session) : Prop where
  dns : s.dns = []
  connects : s.connects = []
  replies : s.replies = []

theorem Blank.bevs (h : Blank s) (bevs : Heap Callbacks) : Blank { s with bevs } :=
  ⟨h.dns, h.connects, h.replies⟩

/-- The read callback of `p` reads a request for a host name. -/
def Heap.asks (P : Key) (h : Heap Callbacks) (p : BevPtr) : Bool :=
  h[p]?.any fun b => b.callbacks.readcb == some .handleSecond && AsksDomain (readPlain P b)

theorem asks_of_ne (hb : s.bevs[p]? = some b) (hcb : b.callbacks.readcb ≠ some .handleSecond) :
    s.bevs.asks P p = false := by
  simp [Heap.asks, hb, hcb]

theorem asks_of_not (hb : s.bevs[p]? = some b) (hnot : ¬ AsksDomain (readPlain P b)) :
    s.bevs.asks P p = false := by
  simp [Heap.asks, hb, hnot]

/-- **All that can come of an event**, in a session with no lookups and no log. -/
inductive Aftermath (P : Key) (s : Session) : Event → Session → Prop where
  /-- Bytes are moved, or nothing is done at all. -/
  | quiet {e : Event} {t : Session} (ends : ¬ Ends s e)
      (connected : ∀ p, e = .eventCb p → ReportsConnected s p →
        ∃ ctx, s.context = some ctx ∧ ctx.self = none)
      (kind : kind P s e = .internal ∨ kind P s e = .terminal)
      (faces : Heap.faces t.bevs = Heap.faces s.bevs) (context : t.context = s.context)
      (blank : Blank t) (asks : ∀ p choice, e = .readCb p choice → s.bevs.asks P p = false) :
      Aftermath P s e t
  /-- `handle_first` accepts the greeting. -/
  | greeted {p : BevPtr} {b : Bufferevent Callbacks} {choice : Choice} {t : Session}
      (bev : s.bevs[p]? = some b) (live : b.live = true)
      (readcb : b.callbacks.readcb = some .localReadCb)
      (faces : Heap.faces t.bevs =
        (Heap.faces s.bevs).set p (b.live, clientCallbacks .handleSecond (some .socks5Ctx)))
      (context : t.context = s.context) (dns : t.dns = []) (connects : t.connects = [])
      (replies : t.replies = [methodReply.toList]) : Aftermath P s (.readCb p choice) t
  /-- `handle_second` takes an `ATYP = 1` request. -/
  | tookIpv4 {p : BevPtr} {b : Bufferevent Callbacks} {choice : Choice} {t : Session}
      {ctx : Socks5ctx} {ip : List UInt8} {port : ℕ}
      (bev : s.bevs[p]? = some b) (live : b.live = true)
      (readcb : b.callbacks.readcb = some .handleSecond)
      (kind : kind P s (.readCb p choice) = .takesIpv4)
      (faces : Heap.faces t.bevs =
        (Heap.faces s.bevs).set p (b.live, clientCallbacks .handleLast none))
      (context : s.context = some ctx)
      (context' : t.context = some { ctx with requestIp := ip, requestPort := port })
      (dns : t.dns = []) (connects : t.connects = [])
      (replies : t.replies = [connectReply.toList]) : Aftermath P s (.readCb p choice) t
  /-- `handle_second` asks for an address, and gets none yet. -/
  | asked {p : BevPtr} {b : Bufferevent Callbacks} {choice : Choice} {t : Session}
      {ctx : Socks5ctx} {port : ℕ}
      (bev : s.bevs[p]? = some b) (live : b.live = true)
      (readcb : b.callbacks.readcb = some .handleSecond)
      (kind : kind P s (.readCb p choice) = .internal)
      (faces : Heap.faces t.bevs =
        (Heap.faces s.bevs).set p (b.live, clientCallbacks .handleLast (some .socks5Ctx)))
      (context : s.context = some ctx)
      (context' : t.context = some { ctx with requestPort := port })
      (connects : t.connects = []) (replies : t.replies = [])
      (once : t.dns.length + choice.resolved.toList.length = 1) : Aftermath P s (.readCb p choice) t
  /-- `handle_second` asks for an address, and `dns_cb` runs at once. -/
  | answeredAtOnce {p : BevPtr} {b : Bufferevent Callbacks} {choice : Choice} {t : Session}
      {ctx : Socks5ctx} {port : ℕ} {addr : InAddr}
      (bev : s.bevs[p]? = some b) (live : b.live = true)
      (readcb : b.callbacks.readcb = some .handleSecond)
      (kind : kind P s (.readCb p choice) = .getsAddress addr)
      (faces : Heap.faces t.bevs =
        (Heap.faces s.bevs).set p (b.live, clientCallbacks .handleLast (some .socks5Ctx)) ++
          [(true, remoteCallbacks)])
      (context : s.context = some ctx)
      (context' : t.context = some { ctx with
        requestPort := port
        requestIp := inetNtop addr
        partner := if choice.re = 0 then some s.bevs.length else ctx.partner })
      (dns : t.dns = []) (connects : t.connects = [(addr, UInt16.ofNat port)])
      (replies : t.replies = []) : Aftermath P s (.readCb p choice) t
  /-- `dns_cb` is given an address. -/
  | answered {nodename : List UInt8} {result : DnsResult} {re : ℤ} {t : Session}
      {ctx : Socks5ctx} {addr : InAddr}
      (kind : kind P s (.dnsDone nodename result re) = .getsAddress addr)
      (faces : Heap.faces t.bevs = Heap.faces s.bevs ++ [(true, remoteCallbacks)])
      (context : s.context = some ctx)
      (context' : t.context = some { ctx with
        requestIp := inetNtop addr
        partner := if re = 0 then some s.bevs.length else ctx.partner })
      (dns : t.dns = []) (connects : t.connects = [(addr, UInt16.ofNat ctx.requestPort)])
      (replies : t.replies = []) : Aftermath P s (.dnsDone nodename result re) t
  /-- `remote_event_cb` announces the connection. -/
  | connected {p : BevPtr} {t : Session} (reports : ReportsConnected s p)
      (faces : Heap.faces t.bevs = Heap.faces s.bevs) (context : t.context = s.context)
      (dns : t.dns = []) (connects : t.connects = [])
      (replies : t.replies = [connectReply.toList]) : Aftermath P s (.eventCb p) t
  /-- The context is deleted, and two bufferevents are freed. -/
  | released {p : BevPtr} {t : Session} {ctx : Socks5ctx} {second : Option BevPtr}
      (ends : Ends s (.eventCb p)) (context : s.context = some ctx) (context' : t.context = none)
      (bevs : Shrinks s.bevs t.bevs)
      (live : ∀ q, t.bevs.Live q ↔ s.bevs.Live q ∧ ctx.self ≠ some q ∧ second ≠ some q)
      (second_eq : second = ctx.partner ∨ second = some p ∧
        ∃ b, s.bevs[p]? = some b ∧ b.callbacks = remoteCallbacks)
      (blank : Blank t) : Aftermath P s (.eventCb p) t

theorem not_ends_readCb {choice : Choice} : ¬ Ends s (.readCb p choice) := by
  rintro ⟨_, _, _, he, -⟩
  cases he

theorem not_ends_dnsDone {nodename : List UInt8} {result : DnsResult} {re : ℤ} :
    ¬ Ends s (.dnsDone nodename result re) := by
  rintro ⟨_, _, _, he, -⟩
  cases he

/-- A read callback that only moves bytes. -/
theorem Aftermath.ofRead {choice : Choice}
    (hasks : s.bevs.asks P p = false) (hkind : kind P s (.readCb p choice) = .internal)
    (hfaces : Heap.faces t.bevs = Heap.faces s.bevs) (hctx : t.context = s.context)
    (hblank : Blank t) : Aftermath P s (.readCb p choice) t := by
  refine .quiet not_ends_readCb (fun _ he => by cases he) (.inl hkind) hfaces hctx hblank ?_
  rintro _ _ ⟨⟩
  exact hasks

/-! ## Callback by callback -/

theorem faces_handleLast {T : Table} {arg : Option CtxPtr} (h : Socks5.handleLast T arg s = .ok t) :
    ∃ bevs, t = { s with bevs } ∧ Heap.faces bevs = Heap.faces s.bevs := by
  unfold Socks5.handleLast at h
  obtain ⟨_, -, h⟩ := bind_eq_ok.1 h
  obtain ⟨ctx, -, h⟩ := bind_eq_ok.1 h
  split at h
  · obtain ⟨self, -, h⟩ := bind_eq_ok.1 h
    obtain ⟨len, -, h⟩ := bind_eq_ok.1 h
    obtain ⟨bevs, hbevs, h⟩ := bind_eq_ok.1 h
    exact ⟨bevs, (Except.ok.inj h).symm, faces_drainInput hbevs⟩
  · obtain ⟨bevs, hbevs, h⟩ := bind_eq_ok.1 h
    exact ⟨bevs, (Except.ok.inj h).symm, faces_relay hbevs⟩

theorem faces_remoteReadCb {T : Table} {arg : Option CtxPtr}
    (h : Server.remoteReadCb T arg s = .ok t) :
    ∃ bevs, t = { s with bevs } ∧ Heap.faces bevs = Heap.faces s.bevs := by
  unfold Server.remoteReadCb at h
  split at h
  · cases h
    exact ⟨s.bevs, rfl, rfl⟩
  · obtain ⟨ctx, -, h⟩ := bind_eq_ok.1 h
    split at h
    · obtain ⟨remote, -, h⟩ := bind_eq_ok.1 h
      obtain ⟨len, -, h⟩ := bind_eq_ok.1 h
      obtain ⟨drained, hdrained, h⟩ := bind_eq_ok.1 h
      obtain ⟨bevs, hbevs, h⟩ := bind_eq_ok.1 h
      exact ⟨bevs, (Except.ok.inj h).symm,
        (faces_relay hbevs).trans (faces_drainInput hdrained)⟩
    · obtain ⟨_, hsame, h⟩ := bind_eq_ok.1 h
      cases hsame
      obtain ⟨bevs, hbevs, h⟩ := bind_eq_ok.1 h
      exact ⟨bevs, (Except.ok.inj h).symm, faces_relay hbevs⟩

/-- A bufferevent that is put in the place of another one with the same face. -/
theorem faces_setBev (hb : s.bevs[p]? = some b) (h : b'.face = b.face) :
    Heap.faces (s.setBev p b').bevs = Heap.faces s.bevs := faces_set hb h

/-- Other callbacks are registered on a bufferevent that has just been put in its place. -/
theorem faces_setBev_register {d : Bufferevent Callbacks} (c : Callbacks)
    (hl : d.live = b.live) :
    Heap.faces ((s.setBev p b').bevs.set p (d.register c)) =
      (Heap.faces s.bevs).set p (b.live, c) := by
  unfold Heap.faces Session.setBev
  rw [List.set_set, List.map_set, Bufferevent.face, Bufferevent.live_register, hl]
  rfl

section ReadCb

variable {choice : Choice} {d : Bufferevent Callbacks}

/-- A lookup is noted, and perhaps answered at once. -/
theorem evdnsGetaddrinfo_ok {host : List UInt8} (hctx : s.context = some ctx)
    (h : Server.evdnsGetaddrinfo host choice s = .ok t) :
    (choice.resolved.map DnsResult.kind).getD .internal = .internal ∧ t.bevs = s.bevs ∧
        t.context = s.context ∧ t.connects = s.connects ∧ t.replies = s.replies ∧
        t.dns.length + choice.resolved.toList.length = s.dns.length + 1 ∨
      ∃ addr, (choice.resolved.map DnsResult.kind).getD .internal = .getsAddress addr ∧
        t = attachRemote choice.re addr ctx
          { s with queries := s.queries ++ [host], addrinfos := s.addrinfos + 1 } := by
  unfold Server.evdnsGetaddrinfo at h
  cases hres : choice.resolved with
  | none =>
      rw [hres] at h
      cases h
      exact .inl ⟨rfl, rfl, rfl, rfl, rfl, by simp⟩
  | some result =>
      rw [hres] at h
      rcases resolve_cases (s := { s with queries := s.queries ++ [host] }) hctx choice.re result
        with ⟨_, rfl, hr⟩ | ⟨addr, rfl, hr⟩ | ⟨-, hr⟩
      · cases h.symm.trans hr
        exact .inl ⟨rfl, rfl, rfl, rfl, rfl, by simp⟩
      · exact .inr ⟨addr, rfl, Except.ok.inj (h.symm.trans hr)⟩
      · cases h.symm.trans hr

theorem faces_attachRemote (re : ℤ) (addr : InAddr) (ctx : Socks5ctx) (s : Session) :
    Heap.faces (attachRemote re addr ctx s).bevs =
      Heap.faces s.bevs ++ [(true, remoteCallbacks)] := by
  unfold Heap.faces attachRemote
  rw [List.map_append]
  rfl

theorem aftermath_handleFirst (hblank : Blank s) (hb : s.bevs[p]? = some b) (hl : b.live = true)
    (hctx : s.context = some ctx) (hself : ctx.self = some p)
    (hcb : b.callbacks.readcb = some .localReadCb)
    (h : Socks5.handleFirst P.table p (s.setBev p b.takeRead) = .ok t) :
    Aftermath P s (.readCb p choice) t := by
  have hplt : p < s.bevs.length := (List.getElem?_eq_some_iff.1 hb).1
  rw [handleFirst_eq (s := s.setBev p b.takeRead) hctx hself (List.getElem?_set_self hplt) hl] at h
  split at h
  · cases h
  split at h
  · cases h
    exact .greeted hb hl hcb (faces_setBev_register _ rfl) rfl hblank.dns hblank.connects
      (by rw [Session.setBev, hblank.replies]; rfl)
  · cases h
    refine .ofRead (asks_of_ne hb (by simp [hcb])) (kind_readCb hb (by simp [hcb])) ?_ rfl
      (hblank.bevs _)
    rw [Session.setBev, List.set_set]
    exact faces_set hb rfl

theorem aftermath_askAndRegister {host : List UInt8} {port : ℕ} (hblank : Blank s)
    (hb : s.bevs[p]? = some b) (hl : b.live = true) (hctx : s.context = some ctx)
    (hcb : b.callbacks.readcb = some .handleSecond)
    (hkind : kind P s (.readCb p choice) = (choice.resolved.map DnsResult.kind).getD .internal)
    (hd : d.live = b.live) (h : askAndRegister p host choice { s with
      context := some { ctx with requestPort := port }, bevs := s.bevs.set p d } = .ok t) :
    Aftermath P s (.readCb p choice) t := by
  have hplt : p < s.bevs.length := (List.getElem?_eq_some_iff.1 hb).1
  obtain ⟨u, hu, -⟩ := bind_eq_ok.1 h
  rcases evdnsGetaddrinfo_ok rfl hu with
    ⟨hk, hbevs, huctx, hconnects, hreplies, honce⟩ | ⟨addr, hk, rfl⟩
  · -- the lookup is outstanding, or has failed at once
    have hd' : u.bevs[p]? = some d := by
      rw [hbevs]
      exact List.getElem?_set_self hplt
    rw [askAndRegister_eq hu hd' (hd.trans hl)] at h
    cases h
    refine .asked hb hl hcb (hkind.trans hk) ?_ hctx huctx (hconnects.trans hblank.connects)
      (hreplies.trans hblank.replies) (by rw [hblank.dns] at honce; exact honce)
    show Heap.faces (u.bevs.set p _) = _
    rw [hbevs]
    exact faces_setBev_register _ hd
  · -- it has been answered at once
    have hd' : (s.bevs.set p d ++ [newRemote choice.re])[p]? = some d := by
      rw [List.getElem?_append_left (by rwa [List.length_set]), List.getElem?_set_self hplt]
    have hctx' : (attachRemote choice.re addr { ctx with requestPort := port }
        { s with bevs := s.bevs.set p d }).context = some { ctx with
          requestPort := port
          requestIp := inetNtop addr
          partner := if choice.re = 0 then some s.bevs.length else ctx.partner } := by
      simp [attachRemote]
    rw [askAndRegister_eq hu hd' (hd.trans hl)] at h
    cases h
    refine .answeredAtOnce hb hl hcb (hkind.trans hk) ?_ hctx hctx' hblank.dns
      (by simp [attachRemote, hblank.connects]) hblank.replies
    show Heap.faces ((s.bevs.set p d ++ [newRemote choice.re]).set p _) = _
    rw [List.set_append_left _ _ (by rwa [List.length_set]), Heap.faces, List.map_append,
      ← Heap.faces]
    exact congrArg (· ++ _) (faces_setBev_register _ hd)

theorem aftermath_handleSecond (hblank : Blank s) (hb : s.bevs[p]? = some b) (hl : b.live = true)
    (hctx : s.context = some ctx) (hself : ctx.self = some p)
    (hcb : b.callbacks.readcb = some .handleSecond)
    (h : Socks5.handleSecond P.table p (some .socks5Ctx) choice (s.setBev p b.takeRead) = .ok t) :
    Aftermath P s (.readCb p choice) t := by
  have hplt : p < s.bevs.length := (List.getElem?_eq_some_iff.1 hb).1
  have hkind : kind P s (.readCb p choice) = messageKind (readPlain P b) choice :=
    kind_handleSecond hb hcb
  rw [handleSecond_eq (s := s.setBev p b.takeRead) hctx hself (List.getElem?_set_self hplt) hl]
    at h
  have hplain : readPlain P b.takeRead = readPlain P b := rfl
  rw [hplain] at h
  rcases parseRequest_cases (readPlain P b) with
    hparse | ⟨-, ⟨hparse, h4, hd⟩ | ⟨hparse, h4⟩ | ⟨hparse, hd, h4⟩⟩
  all_goals rw [hparse] at h
  · cases h
  · -- ignored
    cases h
    rw [messageKind, if_neg h4, if_neg hd] at hkind
    refine .ofRead (asks_of_not hb hd) hkind ?_ rfl (hblank.bevs _)
    rw [Session.setBev, List.set_set]
    exact faces_set hb rfl
  · -- ATYP = 1
    cases h
    rw [messageKind, if_pos h4] at hkind
    exact .tookIpv4 hb hl hcb hkind (faces_setBev_register _ rfl) hctx rfl hblank.dns
      hblank.connects (by rw [Session.setBev, hblank.replies]; rfl)
  · -- ATYP = 3
    rw [messageKind, if_neg h4, if_pos hd] at hkind
    rw [Session.setBev, List.set_set] at h
    exact aftermath_askAndRegister (d := b.takeRead.consume 63) hblank hb hl hctx hcb hkind rfl h

/-- **What can come of a read callback.** -/
theorem aftermath_callRead (hblank : Blank s) (hb : s.bevs[p]? = some b) (hl : b.live = true)
    (hrole : Role s p b)
    (h : Session.callRead P.table p b.callbacks choice (s.setBev p b.takeRead) = .ok t) :
    Aftermath P s (.readCb p choice) t := by
  have hsame : Heap.faces (s.setBev p b.takeRead).bevs = Heap.faces s.bevs := faces_setBev hb rfl
  cases hrole with
  | remote hcb =>
      have hne : b.callbacks.readcb ≠ some .handleSecond := by simp [hcb, remoteCallbacks]
      rw [hcb] at h
      change Server.remoteReadCb P.table (some .socks5Ctx) _ = .ok t at h
      obtain ⟨bevs, rfl, hfaces⟩ := faces_remoteReadCb h
      exact .ofRead (asks_of_ne hb hne) (kind_readCb hb hne) (hfaces.trans hsame) rfl
        (hblank.bevs _)
  | @client rd arg ctx hrd hcb hctx hself =>
      have hreadcb : b.callbacks.readcb = some rd := by
        rw [hcb]
        rfl
      rw [hcb] at h
      cases rd with
      | remoteReadCb => exact absurd rfl hrd
      | localReadCb =>
          cases arg with
          | none =>
              cases h
              exact .ofRead (asks_of_ne hb (by simp [hreadcb]))
                (kind_readCb hb (by simp [hreadcb])) hsame rfl (hblank.bevs _)
          | some _ => exact aftermath_handleFirst hblank hb hl hctx hself hreadcb h
      | handleSecond =>
          cases arg with
          | none => cases h
          | some _ => exact aftermath_handleSecond hblank hb hl hctx hself hreadcb h
      | handleLast =>
          change Socks5.handleLast P.table arg _ = .ok t at h
          obtain ⟨bevs, rfl, hfaces⟩ := faces_handleLast h
          exact .ofRead (asks_of_ne hb (by simp [hreadcb]))
            (kind_readCb hb (by simp [hreadcb])) (hfaces.trans hsame) rfl (hblank.bevs _)

end ReadCb

section EventCb

variable {w : What}

/-- An event callback ends the session if it is told EOF, ERROR or TIMEOUT, unless its argument
is null. -/
theorem ends_eventCb_iff (hb : s.bevs[p]? = some b) (hw : b.nextEvent = some w) :
    Ends s (.eventCb p) ↔ w.terminal = true ∧ b.callbacks.cbarg ≠ none := by
  constructor
  · rintro ⟨_, b', w', ⟨⟩, hb', hw', hrest⟩
    cases hb.symm.trans hb'
    cases hw.symm.trans hw'
    exact hrest
  · intro hrest
    exact ⟨p, b, w, rfl, hb, hw, hrest⟩

theorem ReportsConnected.told (h : ReportsConnected s p) (hb : s.bevs[p]? = some b)
    (hw : b.nextEvent = some w) : w = { connected := true } ∧ b.callbacks = remoteCallbacks := by
  obtain ⟨b', hb', hw', hcb⟩ := h
  cases hb.symm.trans hb'
  exact ⟨Option.some.inj (hw.symm.trans hw'), hcb⟩

/-- CONNECTED does not end a session. -/
theorem ReportsConnected.not_ends (h : ReportsConnected s p) : ¬ Ends s (.eventCb p) := by
  obtain ⟨b, hb, hw, -⟩ := h
  rw [ends_eventCb_iff hb hw]
  rintro ⟨hterm, -⟩
  cases hterm

/-- An event callback that does nothing. -/
theorem Aftermath.ofEvent (hblank : Blank s) (hb : s.bevs[p]? = some b)
    (hends : ¬ Ends s (.eventCb p))
    (hconnected : ReportsConnected s p → ∃ ctx, s.context = some ctx ∧ ctx.self = none) :
    Aftermath P s (.eventCb p) (s.setBev p (b.takeEvent w)) := by
  refine .quiet hends ?_ (kind_eventCb_cases P s p) (faces_setBev hb rfl) rfl (hblank.bevs _)
    fun _ _ he => by cases he
  rintro _ ⟨⟩ hrep
  exact hconnected hrep

/-- An event callback that deletes the context. -/
theorem Releases.aftermath {second : Option BevPtr}
    (h : Releases (s.setBev p (b.takeEvent w)) ctx second t) (hblank : Blank s)
    (hb : s.bevs[p]? = some b) (hends : Ends s (.eventCb p))
    (hsecond : second = ctx.partner ∨ second = some p ∧ b.callbacks = remoteCallbacks) :
    Aftermath P s (.eventCb p) t := by
  have hsame : Heap.faces (s.setBev p (b.takeEvent w)).bevs = Heap.faces s.bevs :=
    faces_setBev hb rfl
  have hrest := h.rest
  refine .released hends h.context (by rw [hrest]) (h.bevs.of_faces hsame)
    (fun q => (h.live q).trans (and_congr_left' (live_of_faces hsame)))
    (hsecond.imp_right fun hp => ⟨hp.1, b, hb, hp.2⟩) ?_
  rw [hrest]
  exact ⟨hblank.dns, hblank.connects, hblank.replies⟩

theorem aftermath_localEventCb (hblank : Blank s) (hb : s.bevs[p]? = some b)
    (hw : b.nextEvent = some w) (hne : b.callbacks ≠ remoteCallbacks)
    (h : Server.localEventCb w b.callbacks.cbarg (s.setBev p (b.takeEvent w)) = .ok t) :
    Aftermath P s (.eventCb p) t := by
  rcases localEventCb_cases h with ⟨rfl, hquiet⟩ | ⟨hterm, hnull, ctx, hr⟩
  · refine .ofEvent hblank hb ?_ fun hrep => absurd (hrep.told hb hw).2 hne
    rw [ends_eventCb_iff hb hw]
    rintro ⟨hterm, hnull⟩
    rcases hquiet with h | h
    · exact hnull h
    · cases hterm.symm.trans h
  · exact hr.aftermath hblank hb ((ends_eventCb_iff hb hw).2 ⟨hterm, hnull⟩) (.inl rfl)

theorem aftermath_remoteEventCb (hblank : Blank s) (hb : s.bevs[p]? = some b)
    (hw : b.nextEvent = some w) (hcb : b.callbacks = remoteCallbacks)
    (h : Server.remoteEventCb P.table p w (some .socks5Ctx) (s.setBev p (b.takeEvent w)) = .ok t) :
    Aftermath P s (.eventCb p) t := by
  have harg : b.callbacks.cbarg ≠ none := by rw [hcb]; exact Option.some_ne_none _
  have hwcases := (Bufferevent.nextEvent_cases hw).2
  rcases remoteEventCb_cases h with
    ⟨rfl, hnull | ⟨hconn, hself⟩ | ⟨hconn, hterm⟩⟩ | ⟨-, hterm, -, ctx, second, hr, hsecond⟩ |
      ⟨hconn, bevs, rfl, hfaces⟩
  · cases hnull
  · -- CONNECTED, with nobody to tell
    refine .ofEvent hblank hb ?_ fun _ => hself
    rw [ends_eventCb_iff hb hw]
    rintro ⟨hterm, -⟩
    rcases hwcases with ⟨-, rfl⟩ | ⟨hno, rfl, -⟩
    · cases hterm
    · cases hno.symm.trans hconn
  · refine .ofEvent hblank hb ?_ fun hrep => ?_
    · rw [ends_eventCb_iff hb hw, hterm]
      rintro ⟨h, -⟩
      cases h
    · rw [(hrep.told hb hw).1] at hconn
      cases hconn
  · exact hr.aftermath hblank hb ((ends_eventCb_iff hb hw).2 ⟨hterm, harg⟩)
      (hsecond.imp_right fun h => ⟨h, hcb⟩)
  · have hrep : ReportsConnected s p := by
      rcases hwcases with ⟨-, rfl⟩ | ⟨hno, rfl, -⟩
      · exact ⟨b, hb, hw, hcb⟩
      · cases hno.symm.trans hconn
    exact .connected hrep (hfaces.trans (faces_setBev hb rfl)) rfl hblank.dns hblank.connects
      (by simp [Session.setBev, hblank.replies])

/-- **What can come of an event callback.** -/
theorem aftermath_callEvent (hblank : Blank s) (hb : s.bevs[p]? = some b)
    (hw : b.nextEvent = some w) (hrole : Role s p b)
    (h : Session.callEvent P.table p b.callbacks w (s.setBev p (b.takeEvent w)) = .ok t) :
    Aftermath P s (.eventCb p) t := by
  cases hrole with
  | client hrd hcb hctx hself =>
      refine aftermath_localEventCb hblank hb hw (hcb ▸ clientCallbacks_ne hrd) ?_
      rw [hcb] at h ⊢
      exact h
  | remote hcb =>
      rw [hcb] at h
      exact aftermath_remoteEventCb hblank hb hw hcb h

end EventCb

/-- **What can come of an answer.** -/
theorem aftermath_resolve {nodename : List UInt8} {result : DnsResult} {re : ℤ}
    (hdns : s.dns = [nodename]) (hconnects : s.connects = []) (hreplies : s.replies = [])
    (h : Server.resolve re result { s with dns := s.dns.erase nodename } = .ok t) :
    Aftermath P s (.dnsDone nodename result re) t := by
  have hnone : s.dns.erase nodename = [] := by
    rw [hdns]
    exact List.erase_cons_head ..
  have hquiet : t = { s with dns := s.dns.erase nodename } → result.kind = .internal →
      Aftermath P s (.dnsDone nodename result re) t := by
    rintro rfl hkind
    exact .quiet not_ends_dnsDone (fun _ he => by cases he) (.inl hkind) rfl rfl
      ⟨hnone, hconnects, hreplies⟩ fun _ _ he => by cases he
  cases hctx : s.context with
  | some ctx =>
      rcases resolve_cases (s := { s with dns := s.dns.erase nodename }) hctx re result with
        ⟨_, rfl, hr⟩ | ⟨addr, rfl, hr⟩ | ⟨-, hr⟩
      · exact hquiet (Except.ok.inj (h.symm.trans hr)) rfl
      · cases h.symm.trans hr
        exact .answered rfl (faces_attachRemote ..) hctx rfl hnone
          (by simp [attachRemote, hconnects]) hreplies
      · cases h.symm.trans hr
  | none =>
      cases result with
      | error code => exact hquiet (resolve_deleted hctx h) rfl
      | found answer =>
          obtain ⟨family, addr⟩ := answer
          cases family with
          | unknown => cases h
          | inet => cases h.symm.trans (dnsCb_deleted (by exact hctx))

/-- **Every event has one of these aftermaths**, when nothing is outstanding but the lookup it
completes. -/
theorem Step.aftermath {e : Event} (hs : Step P s e t) (hdns : s.dns = e.lookups)
    (hconnects : s.connects = []) (hreplies : s.replies = [])
    (hrole : ∀ p b, e.bev = some p → s.bevs[p]? = some b → b.live = true → Role s p b) :
    Aftermath P s e t := by
  cases e with
  | socket p e =>
      obtain ⟨b, hb, -, hr⟩ := Session.fire_socket hs
      cases hr
      have hface : (b.socket e).face = b.face := by cases e <;> rfl
      have hends : ¬ Ends s (.socket p e) := by
        rintro ⟨_, _, _, he, -⟩
        cases he
      exact .quiet hends (fun _ he => by cases he) (.inl rfl) (faces_setBev hb hface) rfl
        ⟨hdns, hconnects, hreplies⟩ fun _ _ he => by cases he
  | readCb p choice =>
      obtain ⟨b, hb, hdue, hr⟩ := Session.fire_readCb hs
      have hl : b.live = true := by
        simp only [Bufferevent.readDue, Bool.and_eq_true] at hdue
        exact hdue.1.1
      exact aftermath_callRead ⟨hdns, hconnects, hreplies⟩ hb hl (hrole p b rfl hb hl) hr.symm
  | eventCb p =>
      obtain ⟨b, w, hb, hw, hr⟩ := Session.fire_eventCb hs
      exact aftermath_callEvent ⟨hdns, hconnects, hreplies⟩ hb hw
        (hrole p b rfl hb (Bufferevent.nextEvent_cases hw).1) hr.symm
  | dnsDone nodename result re =>
      obtain ⟨-, hr⟩ := Session.fire_dnsDone hs
      exact aftermath_resolve hdns hconnects hreplies hr.symm

/-! ## The life of the context -/

/-- **What deletes a context**: an event callback that is told EOF, ERROR or TIMEOUT. -/
theorem Aftermath.context_none_iff {e : Event} (h : Aftermath P s e t)
    (hctx : s.context = some ctx) : t.context = none ↔ Ends s e := by
  cases h with
  | quiet ends connected kind faces context blank =>
      refine iff_of_false ?_ ends
      rw [context, hctx]
      exact Option.some_ne_none ctx
  | greeted bev live readcb faces context dns connects replies =>
      refine iff_of_false ?_ not_ends_readCb
      rw [context, hctx]
      exact Option.some_ne_none ctx
  | tookIpv4 _ _ _ _ _ _ context' _ _ _ | asked _ _ _ _ _ _ context' _ _
  | answeredAtOnce _ _ _ _ _ _ context' _ _ _ =>
      refine iff_of_false ?_ not_ends_readCb
      rw [context']
      exact Option.some_ne_none _
  | answered kind faces context context' dns connects replies =>
      refine iff_of_false ?_ not_ends_dnsDone
      rw [context']
      exact Option.some_ne_none _
  | connected reports faces context dns connects replies =>
      refine iff_of_false ?_ reports.not_ends
      rw [context, hctx]
      exact Option.some_ne_none ctx
  | released ends context context' bevs live second_eq blank =>
      exact iff_of_true context' ends

/-- Only `handle_second` leaves a lookup outstanding. -/
theorem Aftermath.of_dns {e : Event} (h : Aftermath P s e t) (hdns : t.dns ≠ []) :
    ∃ p b choice ctx, e = .readCb p choice ∧ s.bevs[p]? = some b ∧ b.live = true ∧
      b.callbacks.readcb = some .handleSecond ∧ t.context = some ctx := by
  cases h with
  | quiet _ _ _ _ _ blank | released _ _ _ _ _ _ blank => exact absurd blank.dns hdns
  | greeted _ _ _ _ _ dns _ _ | tookIpv4 _ _ _ _ _ _ _ dns _ _
  | answeredAtOnce _ _ _ _ _ _ _ dns _ _ | answered _ _ _ _ dns _ _ | connected _ _ _ dns _ _ =>
      exact absurd dns hdns
  | asked bev live readcb kind faces context context' connects replies =>
      exact ⟨_, _, _, _, rfl, bev, live, readcb, context'⟩

/-! ## What tells a client success -/

/-- `handle_second` takes an `ATYP = 1` request. -/
theorem Aftermath.of_takesIpv4 {e : Event} (h : Aftermath P s e t)
    (hkind : kind P s e = .takesIpv4) : ∃ p choice ctx ctx', e = .readCb p choice ∧
      s.context = some ctx ∧ t.context = some ctx' ∧ ctx'.partner = ctx.partner ∧
      t.replies = [connectReply.toList] := by
  cases h with
  | quiet _ _ kind _ _ _ => rcases kind with h | h <;> cases h.symm.trans hkind
  | greeted bev live readcb faces context dns connects replies =>
      rw [kind_readCb bev (by simp [readcb])] at hkind
      cases hkind
  | tookIpv4 bev live readcb kind faces context context' dns connects replies =>
      exact ⟨_, _, _, _, rfl, context, context', rfl, replies⟩
  | asked _ _ _ kind _ _ _ _ _ | answeredAtOnce _ _ _ kind _ _ _ _ _ _
  | answered kind _ _ _ _ _ _ => cases kind.symm.trans hkind
  | @connected p | @released p =>
      rcases kind_eventCb_cases P s p with h | h <;> cases h.symm.trans hkind

/-- `remote_event_cb` is told CONNECTED, and finds a context with a client. -/
theorem Aftermath.of_reportsConnected (h : Aftermath P s (.eventCb p) t)
    (hreports : ReportsConnected s p) (hself : ∀ ctx, s.context = some ctx → ctx.self ≠ none) :
    t.context = s.context ∧ t.replies = [connectReply.toList] := by
  cases h with
  | quiet ends connected kind faces context blank =>
      obtain ⟨ctx, hctx, hnone⟩ := connected p rfl hreports
      exact absurd hnone (hself ctx hctx)
  | connected reports faces context dns connects replies => exact ⟨context, replies⟩
  | released ends context context' bevs live second_eq blank =>
      exact absurd ends hreports.not_ends

/-! ## The pointers of the context -/

/-- What becomes of the two pointers of the context, and of what is live. -/
inductive Pointers (P : Key) (s : Session) (e : Event) (t : Session) : Prop where
  /-- Nobody is created, attached or freed. -/
  | kept (kind : ∀ addr, kind P s e ≠ .getsAddress addr)
      (self : t.context.map (·.self) = s.context.map (·.self))
      (partner : t.context.map (·.partner) = s.context.map (·.partner))
      (live : ∀ q, t.bevs.Live q ↔ s.bevs.Live q) (connects : t.connects = [])
  /-- `dns_cb` creates a bufferevent, and attaches it if the connect has started. -/
  | attached {ctx ctx' : Socks5ctx} {addr : InAddr} {target : Target}
      (kind : kind P s e = .getsAddress addr) (context : s.context = some ctx)
      (context' : t.context = some ctx') (self : ctx'.self = ctx.self)
      (partner : ctx'.partner = if e.connectResult = 0 then some s.bevs.length else ctx.partner)
      (live : ∀ q, t.bevs.Live q ↔ s.bevs.Live q ∨ q = s.bevs.length)
      (connects : t.connects = [target])
  /-- The context is deleted, and two bufferevents are freed. -/
  | released {p : BevPtr} {ctx : Socks5ctx} {second : Option BevPtr} (event : e = .eventCb p)
      (context : s.context = some ctx) (context' : t.context = none)
      (live : ∀ q, t.bevs.Live q ↔ s.bevs.Live q ∧ ctx.self ≠ some q ∧ second ≠ some q)
      (second_eq : second = ctx.partner ∨ second = some p ∧
        ∃ b, s.bevs[p]? = some b ∧ b.callbacks = remoteCallbacks)
      (connects : t.connects = [])

/-- Other callbacks on an old bufferevent, and a new one. -/
theorem live_attached {b : Bufferevent Callbacks} {c : Callbacks} {h h' : Heap Callbacks}
    (hb : h[p]? = some b)
    (hf : Heap.faces h' = (Heap.faces h).set p (b.live, c) ++ [(true, remoteCallbacks)]) :
    h'.Live q ↔ h.Live q ∨ q = h.length := by
  have hset : Heap.faces (h.set p (b.register c)) = (Heap.faces h).set p (b.live, c) :=
    List.map_set
  have hold : (∃ d, ((Heap.faces h).set p (b.live, c))[q]? = some (true, d)) ↔ h.Live q := by
    rw [← live_of_registered hb hset, live_iff_faces, hset]
  rw [live_snoc hf, hold, List.length_set, length_faces]

/-- **What an event does to the pointers.** -/
theorem Aftermath.pointers {e : Event} (h : Aftermath P s e t) : Pointers P s e t := by
  cases h with
  | quiet ends connected kind faces context blank =>
      refine .kept ?_ (by rw [context]) (by rw [context]) (fun q => live_of_faces faces)
        blank.connects
      rintro addr haddr
      rcases kind with h | h <;> cases h.symm.trans haddr
  | greeted bev live readcb faces context dns connects replies =>
      refine .kept ?_ (by rw [context]) (by rw [context]) (fun q => live_of_registered bev faces)
        connects
      rintro addr haddr
      rw [kind_readCb bev (by simp [readcb])] at haddr
      cases haddr
  | tookIpv4 bev live readcb kind faces context context' dns connects replies =>
      refine .kept ?_ (by rw [context, context']; rfl) (by rw [context, context']; rfl)
        (fun q => live_of_registered bev faces) connects
      rintro addr haddr
      cases kind.symm.trans haddr
  | asked bev live readcb kind faces context context' connects replies =>
      refine .kept ?_ (by rw [context, context']; rfl) (by rw [context, context']; rfl)
        (fun q => live_of_registered bev faces) connects
      rintro addr haddr
      cases kind.symm.trans haddr
  | answeredAtOnce bev live readcb kind faces context context' dns connects replies =>
      exact .attached kind context context' rfl rfl (fun q => live_attached bev faces) connects
  | answered kind faces context context' dns connects replies =>
      refine .attached kind context context' rfl rfl (fun q => ?_) connects
      rw [live_snoc faces, ← live_iff_faces, length_faces]
  | connected reports faces context dns connects replies =>
      obtain ⟨b, hb, hw, -⟩ := reports
      refine .kept ?_ (by rw [context]) (by rw [context]) (fun q => live_of_faces faces) connects
      rintro addr haddr
      rw [kind_eventCb hb hw] at haddr
      cases haddr
  | released ends context context' bevs live second_eq blank =>
      exact .released rfl context context' live second_eq blank.connects

end LightSocks
