import LightSocks.Server.Delivery
import LightSocks.Server.Footprint

/-!
# Sessions that share the heap

What a session is to the callbacks is the address of its context, and the allocator may
give the address of a deleted context to the session that is accepted next.  This file
puts all sessions on one heap, with the addresses in it.

* `World` — the contexts by address, all bufferevents and all lookups, and along with
  them what the server itself does not know: which session each of them is for.
* `World.view` — what there is to see of the world through the address of one context.
  That is a `Session`, and the callbacks are those of a session.
* `Consistent` — what holds in every state that can be reached: a client is live only as
  long as its context is, and the port of an outstanding lookup is the one in its context.
* `Ran` — a callback has run with the address of some context.  It keeps the world
  consistent whichever session's context it finds there, and so does every step.
-/

namespace LightSocks

open Transition

/-- The address of a `Socks5ctx`. -/
abbrev Addr := ℕ

/-- A lookup: the session whose request it is for, the argument `dns_cb` will be called
with, and what was requested. -/
structure Lookup where
  session : ℕ
  arg : Addr
  host : List UInt8
  port : ℕ
  deriving DecidableEq, Repr

/-- What a bufferevent has been created for. -/
inductive Purpose where
  | client (session : ℕ)
  | remote (lookup : Lookup) (target : Target)
  deriving DecidableEq, Repr

/-- The session a bufferevent has been created for. -/
def Purpose.session : Purpose → ℕ
  | .client k => k
  | .remote lookup _ => lookup.session

/-- Where a bufferevent comes from: its purpose, and the context its callbacks are
registered with. -/
structure Origin where
  arg : Addr
  purpose : Purpose
  deriving DecidableEq, Repr

/-- The session that has a context at some address. -/
structure Occupant where
  session : ℕ
  context : Socks5ctx
  deriving DecidableEq, Repr

/-- A reply that has been written: to whom, and on behalf of which session. -/
structure Reply where
  client : ℕ
  answers : ℕ
  bytes : List UInt8
  deriving DecidableEq, Repr

/-- All sessions of a server.  `contexts`, `bevs` and `dns` are the server's own; `origins`,
`replies` and the numbers of the sessions are an account of them. -/
structure World where
  contexts : Addr → Option Occupant
  bevs : Heap Callbacks
  /-- One for each of `bevs`. -/
  origins : List Origin
  dns : List Lookup
  replies : List Reply
  /-- How many sessions have been accepted. -/
  accepted : ℕ

/-- What happens next. -/
inductive WorldEvent where
  /-- A client connects, and its context is allocated at `addr`. -/
  | accept (addr : Addr)
  /-- Something happens to a bufferevent, or one of its callbacks runs. -/
  | event (e : Event)
  /-- The resolver completes a lookup. -/
  | answer (lookup : Lookup) (result : DnsResult) (re : ℤ)

namespace Server

/-- `server::listen_cb`, on a heap that already holds other bufferevents. -/
def listenCbOn (bevs : Heap Callbacks) : Except Fault (Socks5ctx × Heap Callbacks) := do
  let (bufevLocal, bevs) := bevs.socketNew ⟨none, none, none⟩ .up
  let bevs ← bevs.setTimeouts bufevLocal 0
  let socks5Ctx : Socks5ctx :=
    { self := some bufevLocal, partner := none, requestPort := 0, requestIp := [] }
  let bevs ← bevs.setcb bufevLocal ⟨some .localReadCb, some .localEventCb, some .socks5Ctx⟩
  let bevs ← bevs.enable bufevLocal
  return (socks5Ctx, bevs)

/-- On the empty heap that is `listen_cb` as a session sees it. -/
theorem listenCb_eq_listenCbOn : listenCb = (listenCbOn []).map fun (context, bevs) =>
    { context := some context, bevs, dns := [], addrinfos := 0, queries := [], connects := []
      replies := [] } := rfl

end Server

namespace World

/-- Nobody has connected yet. -/
def start : World :=
  { contexts := fun _ => none, bevs := [], origins := [], dns := [], replies := [], accepted := 0 }

/-- What there is to see through the address `a`, with the lookups that are about to be
completed, and with no log. -/
def view (w : World) (a : Addr) (lookups : List (List UInt8)) : Session :=
  { context := (w.contexts a).map (·.context), bevs := w.bevs, dns := lookups, addrinfos := 0
    queries := [], connects := [], replies := [] }

/-- The lookup a callback has just asked for, if it has asked for one. -/
def request (session : ℕ) (a : Addr) (t : Session) : Lookup :=
  { session, arg := a, host := t.queries.headD []
    port := (t.context.map (·.requestPort)).getD 0 }

/-- A callback that ran with the address `a` has left `t` behind.  It ran on behalf of a
session; what it has connected to is the answer to `lookup`. -/
def absorb (w : World) (a : Addr) (session : ℕ) (lookup : Lookup) (t : Session) : World where
  contexts := Function.update w.contexts a
    ((w.contexts a).bind fun o => t.context.map fun context => { o with context })
  bevs := t.bevs
  origins := w.origins ++ t.connects.map fun target => ⟨a, .remote lookup target⟩
  dns := w.dns ++ t.dns.map fun host => { lookup with host }
  replies := w.replies ++
    (w.contexts a).toList.flatMap fun o => t.replies.map fun bytes => ⟨o.session, session, bytes⟩
  accepted := w.accepted

/-- A client has connected. -/
def accept (w : World) (a : Addr) : Except Fault World := do
  let (context, bevs) ← Server.listenCbOn w.bevs
  return { w with
    contexts := Function.update w.contexts a (some ⟨w.accepted, context⟩)
    bevs
    origins := w.origins ++ [⟨a, .client w.accepted⟩]
    accepted := w.accepted + 1 }

/-- What an event does, or `none` when it cannot happen now. -/
def fire (password : Table) (w : World) : WorldEvent → Option (Except Fault World)
  | .accept a =>
      match w.contexts a with
      | some _ => none
      | none => some (w.accept a)
  | .event e =>
      match e.bev.bind fun p => w.origins[p]? with
      | none => none
      | some origin =>
          ((w.view origin.arg []).fire password e).map fun r => r.map fun t =>
            w.absorb origin.arg origin.purpose.session
              (request origin.purpose.session origin.arg t) t
  | .answer lookup result re =>
      if lookup ∈ w.dns then
        ((w.view lookup.arg [lookup.host]).fire password (.dnsDone lookup.host result re)).map
          fun r => r.map fun t =>
            { w with dns := w.dns.erase lookup }.absorb lookup.arg lookup.session lookup t
      else none

end World

/-- The event happens and its callback returns. -/
def WorldStep (P : Key) (w : World) (e : WorldEvent) (w' : World) : Prop :=
  w.fire P.table e = some (.ok w')

/-- The event happens and its callback does not return. -/
def WorldFaults (P : Key) (w : World) (e : WorldEvent) (f : Fault) : Prop :=
  w.fire P.table e = some (.error f)

theorem worldStep_deterministic (P : Key) (w : World) (e : WorldEvent) (v v' : World)
    (h₁ : WorldStep P w e v) (h₂ : WorldStep P w e v') : v = v' := by
  have h := h₁.symm.trans h₂
  simpa using h

variable {P : Key} {w w' : World} {a : Addr} {p q : BevPtr} {b b' : Bufferevent Callbacks}
  {o : Occupant} {t : Session}

/-! ## What an event does -/

section Fire

variable {T : Table} {e : Event} {origin : Origin} {lookup : Lookup} {result : DnsResult} {re : ℤ}
  {f : Fault}

/-- An event on a bufferevent is one seen through the address it is registered with. -/
theorem World.fire_event (hbev : e.bev = some p) (horigin : w.origins[p]? = some origin) :
    w.fire T (.event e) = ((w.view origin.arg []).fire T e).map fun r => r.map fun t =>
      w.absorb origin.arg origin.purpose.session
        (World.request origin.purpose.session origin.arg t) t := by
  simp only [World.fire, hbev, Option.bind_some, horigin]

theorem World.fire_answer (hmem : lookup ∈ w.dns) : w.fire T (.answer lookup result re) =
    ((w.view lookup.arg [lookup.host]).fire T (.dnsDone lookup.host result re)).map
      fun r => r.map fun t =>
        { w with dns := w.dns.erase lookup }.absorb lookup.arg lookup.session lookup t :=
  if_pos hmem

/-- What fails with its result changed fails as it is. -/
theorem map_map_eq_error {α β : Type} {o : Option (Except Fault α)} {g : α → β} :
    (o.map fun r => r.map g) = some (.error f) ↔ o = some (.error f) := by
  rcases o with _ | r
  · simp
  · cases r <;> simp [Except.map]

theorem WorldStep.event (hbev : e.bev = some p) (horigin : w.origins[p]? = some origin)
    (h : Step P (w.view origin.arg []) e t) : WorldStep P w (.event e)
      (w.absorb origin.arg origin.purpose.session
        (World.request origin.purpose.session origin.arg t) t) := by
  rw [WorldStep, World.fire_event hbev horigin, h]
  rfl

theorem WorldStep.answer (hmem : lookup ∈ w.dns)
    (h : Step P (w.view lookup.arg [lookup.host]) (.dnsDone lookup.host result re) t) :
    WorldStep P w (.answer lookup result re)
      ({ w with dns := w.dns.erase lookup }.absorb lookup.arg lookup.session lookup t) := by
  rw [WorldStep, World.fire_answer hmem, h]
  rfl

/-- A callback fails in the world as it fails in what there is to see of it. -/
theorem worldFaults_event (hbev : e.bev = some p) (horigin : w.origins[p]? = some origin) :
    WorldFaults P w (.event e) f ↔ Faults P (w.view origin.arg []) e f := by
  rw [WorldFaults, World.fire_event hbev horigin, map_map_eq_error, Faults]

theorem worldFaults_answer (hmem : lookup ∈ w.dns) :
    WorldFaults P w (.answer lookup result re) f ↔
      Faults P (w.view lookup.arg [lookup.host]) (.dnsDone lookup.host result re) f := by
  rw [WorldFaults, World.fire_answer hmem, map_map_eq_error, Faults]

end Fire

/-- What does not touch the context and logs nothing. -/
theorem World.absorb_view (w : World) (a : Addr) (k : ℕ) (lookup : Lookup)
    (bevs : Heap Callbacks) :
    w.absorb a k lookup { w.view a [] with bevs } = { w with bevs } := by
  simp only [World.absorb, World.view, List.map_nil, List.append_nil, Option.map_map]
  have hcontexts : ((w.contexts a).bind fun o => (w.contexts a).map
      ((fun context => { o with context }) ∘ Occupant.context)) = w.contexts a := by
    cases w.contexts a <;> rfl
  simp [hcontexts]

/-- Something happens to a socket. -/
theorem step_socket {e : SocketEvent} {origin : Origin} (hb : w.bevs[p]? = some b)
    (horigin : w.origins[p]? = some origin) (he : b.Admits e) :
    WorldStep P w (.event (.socket p e)) { w with bevs := w.bevs.set p (b.socket e) } := by
  have hmoved : Step P (w.view origin.arg []) (.socket p e)
      { w.view origin.arg [] with bevs := w.bevs.set p (b.socket e) } := .socket hb he
  exact World.absorb_view w .. ▸ WorldStep.event rfl horigin hmoved

/-- A context that has been deleted. -/
theorem World.absorb_deleted (w : World) (a : Addr) (k : ℕ) (lookup : Lookup)
    (bevs : Heap Callbacks) :
    w.absorb a k lookup { w.view a [] with context := none, bevs } =
      { w with contexts := Function.update w.contexts a none, bevs } := by
  simp [World.absorb, World.view]

/-! ## What can be reached -/

/-- What holds in every state that can be reached. -/
structure Consistent (w : World) : Prop where
  length : w.origins.length = w.bevs.length
  /-- A client is live only as long as its context, which points at it. -/
  client : ∀ (p : BevPtr) (b : Bufferevent Callbacks) (a : Addr) (k : ℕ),
    w.bevs[p]? = some b → w.origins[p]? = some ⟨a, .client k⟩ →
    (∃ rd arg, rd ≠ .remoteReadCb ∧ b.callbacks = clientCallbacks rd arg) ∧
      (b.live = true → ∃ o, w.contexts a = some o ∧ o.session = k ∧ o.context.self = some p)
  remote : ∀ (p : BevPtr) (b : Bufferevent Callbacks) (a : Addr) (l : Lookup) (target : Target),
    w.bevs[p]? = some b → w.origins[p]? = some ⟨a, .remote l target⟩ →
    b.callbacks = remoteCallbacks
  self : ∀ a o, w.contexts a = some o →
    ∃ p, o.context.self = some p ∧ w.origins[p]? = some ⟨a, .client o.session⟩
  /-- While a lookup is outstanding its session makes no other request. -/
  lookup : ∀ l ∈ w.dns, ∀ o, w.contexts l.arg = some o → o.session = l.session →
    o.context.requestPort = l.port ∧
      ∀ (p : BevPtr) (b : Bufferevent Callbacks), o.context.self = some p →
        w.bevs[p]? = some b → b.callbacks.readcb = some .handleLast
  fresh : (∀ origin ∈ w.origins, origin.purpose.session < w.accepted) ∧
    ∀ l ∈ w.dns, l.session < w.accepted

namespace Consistent

theorem start : Consistent World.start := by
  refine ⟨rfl, ?_, ?_, ?_, ?_, ?_, ?_⟩
  · intro p b a k hb
    cases hb
  · intro p b a l target hb
    cases hb
  · intro a o h
    cases h
  · intro l h
    cases h
  · intro origin h
    cases h
  · intro l h
    cases h

/-- A lookup that is completed is taken off the list. -/
theorem erase (hw : Consistent w) (l : Lookup) : Consistent { w with dns := w.dns.erase l } :=
  { hw with
    lookup := fun m hm => hw.lookup m (List.mem_of_mem_erase hm)
    fresh := ⟨hw.fresh.1, fun m hm => hw.fresh.2 m (List.mem_of_mem_erase hm)⟩ }

/-- The bufferevents of a world have the roles their origins say. -/
theorem role (hw : Consistent w) {purpose : Purpose} (hb : w.bevs[p]? = some b)
    (hl : b.live = true) (horigin : w.origins[p]? = some ⟨a, purpose⟩)
    (lookups : List (List UInt8)) : Role (w.view a lookups) p b := by
  cases purpose with
  | client k =>
      obtain ⟨⟨rd, arg, hrd, hcb⟩, hlive⟩ := hw.client p b a k hb horigin
      obtain ⟨o, ho, -, hself⟩ := hlive hl
      exact .client hrd hcb (by rw [World.view, ho]; rfl) hself
  | remote l target => exact .remote (hw.remote p b a l target hb horigin)

end Consistent

/-! ### One callback -/

section Absorb

variable {session : ℕ} {lookup : Lookup} {lookups : List (List UInt8)} {sp : Option BevPtr}
  {re : ℤ} {speaks : Prop} {a' : Addr} {o' : Occupant}

/-- Only the context at the address the callback ran with can have changed. -/
theorem World.absorb_contexts (h : (w.absorb a session lookup t).contexts a' = some o') :
    a' ≠ a ∧ w.contexts a' = some o' ∨ a' = a ∧ ∃ o context, w.contexts a = some o ∧
      t.context = some context ∧ o' = { o with context } := by
  by_cases ha : a' = a
  · subst ha
    refine .inr ⟨rfl, ?_⟩
    simp only [World.absorb, Function.update_self] at h
    obtain ⟨o, ho, h⟩ := Option.bind_eq_some_iff.1 h
    obtain ⟨context, hcontext, h⟩ := Option.map_eq_some_iff.1 h
    exact ⟨o, context, ho, hcontext, h.symm⟩
  · refine .inl ⟨ha, ?_⟩
    simpa only [World.absorb, Function.update_of_ne ha] using h

theorem World.absorb_contexts_ne (ha : a' ≠ a) :
    (w.absorb a session lookup t).contexts a' = w.contexts a' := Function.update_of_ne ha ..

theorem World.absorb_contexts_self {context : Socks5ctx} (ho : w.contexts a = some o)
    (hcontext : t.context = some context) :
    (w.absorb a session lookup t).contexts a = some { o with context } := by
  simp [World.absorb, ho, hcontext]

/-- Contexts stay with their sessions. -/
theorem World.absorb_session (h : (w.absorb a session lookup t).contexts a' = some o') :
    ∃ o, w.contexts a' = some o ∧ o.session = o'.session := by
  rcases World.absorb_contexts h with ⟨-, ho⟩ | ⟨rfl, o, context, ho, -, rfl⟩
  · exact ⟨o', ho, rfl⟩
  · exact ⟨o, ho, rfl⟩

/-- The only context a callback can delete is the one it ran with. -/
theorem World.absorb_contexts_none (hsome : w.contexts a' ≠ none)
    (hnone : (w.absorb a session lookup t).contexts a' = none) : a' = a ∧ t.context = none := by
  by_cases ha : a' = a
  · subst ha
    refine ⟨rfl, Option.eq_none_iff_forall_ne_some.2 ?_⟩
    intro context hcontext
    obtain ⟨o, ho⟩ := Option.ne_none_iff_exists'.1 hsome
    cases hnone.symm.trans (World.absorb_contexts_self ho hcontext)
  · exact absurd ((World.absorb_contexts_ne ha).symm.trans hnone) hsome

/-- A callback has run with the address `a`, on `sp` if it was that of a bufferevent. -/
structure Ran (w : World) (a : Addr) (lookup : Lookup) (sp : Option BevPtr) (re : ℤ)
    (speaks : Prop) (t : Session) : Prop where
  effect : ∃ lookups, Effect (w.view a lookups) sp re speaks t
  bev : ∀ p, sp = some p → ∃ b purpose, w.bevs[p]? = some b ∧ b.live = true ∧
    w.origins[p]? = some ⟨a, purpose⟩
  fresh : lookup.session < w.accepted
  asked : t.dns ≠ [] → lookup.arg = a ∧
    ∀ ctx, t.context = some ctx → ctx.requestPort = lookup.port

namespace Ran

/-- `handle_second` runs for the session that has the context. -/
theorem of_requests (h : Ran w a lookup sp re speaks t) (hw : Consistent w)
    (hreq : Requests (w.view a lookups) sp) : ∃ p b o, sp = some p ∧ w.bevs[p]? = some b ∧
      b.callbacks.readcb = some .handleSecond ∧ w.contexts a = some o ∧
      w.origins[p]? = some ⟨a, .client o.session⟩ ∧ o.context.self = some p := by
  obtain ⟨p, b, rfl, hb, hcb⟩ := hreq
  obtain ⟨b', purpose, hb', hl, horigin⟩ := h.bev p rfl
  cases hb.symm.trans hb'
  cases purpose with
  | client k =>
      obtain ⟨o, ho, rfl, hself⟩ := (hw.client p b a k hb horigin).2 hl
      exact ⟨p, b, o, rfl, hb, hcb, ho, horigin, hself⟩
  | remote l target =>
      rw [hw.remote p b a l target hb horigin] at hcb
      cases hcb

/-- The origins there were stay, in their place. -/
theorem origins (hw : Consistent w) {origin : Origin} (hp : p < w.bevs.length) :
    (w.absorb a session lookup t).origins[p]? = some origin ↔ w.origins[p]? = some origin := by
  rw [World.absorb, List.getElem?_append_left (by rw [hw.length]; exact hp)]

/-- The new ones are those of remote hosts. -/
theorem origins_new (hw : Consistent w) {origin : Origin} (hp : w.bevs.length ≤ p)
    (horigin : (w.absorb a session lookup t).origins[p]? = some origin) :
    ∃ target ∈ t.connects, origin = ⟨a, .remote lookup target⟩ := by
  rw [World.absorb, List.getElem?_append_right (by rw [hw.length]; exact hp)] at horigin
  obtain ⟨target, hmem, heq⟩ := List.mem_map.1 (List.mem_of_getElem? horigin)
  exact ⟨target, hmem, heq.symm⟩

theorem client (h : Ran w a lookup sp re speaks t) (hw : Consistent w) {k : ℕ}
    (hb' : (w.absorb a session lookup t).bevs[p]? = some b')
    (horigin : (w.absorb a session lookup t).origins[p]? = some ⟨a', .client k⟩) :
    (∃ rd arg, rd ≠ .remoteReadCb ∧ b'.callbacks = clientCallbacks rd arg) ∧
      (b'.live = true → ∃ o, (w.absorb a session lookup t).contexts a' = some o ∧
        o.session = k ∧ o.context.self = some p) := by
  obtain ⟨lookups, heff⟩ := h.effect
  by_cases hp : p < w.bevs.length
  swap
  · obtain ⟨target, -, heq⟩ := origins_new hw (not_lt.1 hp) horigin
    cases heq
  rw [origins hw hp] at horigin
  obtain ⟨b, hb, hl, hcb⟩ := heff.old p b' hp hb'
  obtain ⟨⟨rd, arg, hrd, hold⟩, hlive⟩ := hw.client p b a' k hb horigin
  constructor
  · rcases hcb with hsame | ⟨-, hadv⟩
    · exact ⟨rd, arg, hrd, hsame.trans hold⟩
    · exact hadv.after
  · intro hl'
    obtain ⟨o, ho, rfl, hself⟩ := hlive (hl hl')
    by_cases ha : a' = a
    swap
    · exact ⟨o, (World.absorb_contexts_ne ha).trans ho, rfl, hself⟩
    subst ha
    have hctx : (w.view a' lookups).context = some o.context := by
      rw [World.view, ho]
      rfl
    cases hcontext : t.context with
    | none =>
        -- a deleted context takes its client along
        rw [heff.deleted hcontext o.context p b' hctx hself hb'] at hl'
        cases hl'
    | some context =>
        obtain ⟨ctx, hctx', hself', -, -⟩ := heff.kept context hcontext
        cases hctx.symm.trans hctx'
        exact ⟨_, World.absorb_contexts_self ho hcontext, rfl, hself'.trans hself⟩

theorem remote (h : Ran w a lookup sp re speaks t) (hw : Consistent w) {l : Lookup}
    {target : Target} (hb' : (w.absorb a session lookup t).bevs[p]? = some b')
    (horigin : (w.absorb a session lookup t).origins[p]? = some ⟨a', .remote l target⟩) :
    b'.callbacks = remoteCallbacks := by
  obtain ⟨lookups, heff⟩ := h.effect
  by_cases hp : p < w.bevs.length
  swap
  · exact heff.new p b' (not_lt.1 hp) hb'
  rw [origins hw hp] at horigin
  obtain ⟨b, hb, -, hcb⟩ := heff.old p b' hp hb'
  have hold := hw.remote p b a' l target hb horigin
  rcases hcb with hsame | ⟨-, hadv⟩
  · exact hsame.trans hold
  · rw [hold] at hadv
    rcases hadv.before with h | h
    · cases h
    · cases h

theorem self (h : Ran w a lookup sp re speaks t) (hw : Consistent w)
    (ho' : (w.absorb a session lookup t).contexts a' = some o') :
    ∃ p, o'.context.self = some p ∧
      (w.absorb a session lookup t).origins[p]? = some ⟨a', .client o'.session⟩ := by
  obtain ⟨lookups, heff⟩ := h.effect
  have hkept : ∃ o, w.contexts a' = some o ∧ o'.session = o.session ∧
      o'.context.self = o.context.self := by
    rcases World.absorb_contexts ho' with ⟨-, ho⟩ | ⟨rfl, o, context, ho, hcontext, rfl⟩
    · exact ⟨o', ho, rfl, rfl⟩
    · obtain ⟨ctx, hctx, hself, -, -⟩ := heff.kept context hcontext
      rw [World.view, ho] at hctx
      cases hctx
      exact ⟨o, ho, rfl, hself⟩
  obtain ⟨o, ho, hsession, hself⟩ := hkept
  obtain ⟨p, hp, horigin⟩ := hw.self a' o ho
  have hlt : p < w.bevs.length := hw.length ▸ (List.getElem?_eq_some_iff.1 horigin).1
  exact ⟨p, hself.trans hp, (origins hw hlt).2 (hsession ▸ horigin)⟩

/-- The lookups that were outstanding before. -/
theorem lookup_old (h : Ran w a lookup sp re speaks t) (hw : Consistent w) {l : Lookup}
    (hl : l ∈ w.dns) (ho' : (w.absorb a session lookup t).contexts l.arg = some o')
    (hsession : o'.session = l.session) : o'.context.requestPort = l.port ∧
      ∀ (p : BevPtr) (b : Bufferevent Callbacks), o'.context.self = some p →
        (w.absorb a session lookup t).bevs[p]? = some b →
          b.callbacks.readcb = some .handleLast := by
  obtain ⟨lookups, heff⟩ := h.effect
  -- the client's bufferevent has `handle_last`, and nothing is registered after that
  have hclient : ∀ o, w.contexts l.arg = some o → o.session = l.session →
      ∀ (p : BevPtr) (b : Bufferevent Callbacks), o.context.self = some p →
        (w.absorb a session lookup t).bevs[p]? = some b →
          b.callbacks.readcb = some .handleLast := by
    intro o ho hs p b' hself hb'
    obtain ⟨p', hself', horigin⟩ := hw.self l.arg o ho
    cases hself.symm.trans hself'
    have hlt : p < w.bevs.length := hw.length ▸ (List.getElem?_eq_some_iff.1 horigin).1
    obtain ⟨b, hb, -, hcb⟩ := heff.old p b' hlt hb'
    have hlast := (hw.lookup l hl o ho hs).2 p b hself hb
    rcases hcb with hsame | ⟨-, hadv⟩
    · rw [hsame]
      exact hlast
    · rcases hadv.before with h | h
      · cases hlast.symm.trans h
      · cases hlast.symm.trans h
  rcases World.absorb_contexts ho' with ⟨-, ho⟩ | ⟨ha, o, context, ho, hcontext, rfl⟩
  · exact ⟨(hw.lookup l hl o' ho hsession).1, hclient o' ho hsession⟩
  · rw [← ha] at ho
    obtain ⟨ctx, hctx, hself, hport, -⟩ := heff.kept context hcontext
    have hview : (w.view a lookups).context = some o.context := by
      rw [World.view, ← ha, ho]
      rfl
    cases hview.symm.trans hctx
    obtain ⟨hold, hlast⟩ := hw.lookup l hl o ho hsession
    refine ⟨?_, fun p b hp => hclient o ho hsession p b (hself.symm.trans hp)⟩
    rcases hport with hsame | hreq
    · exact hsame.trans hold
    · -- a session whose lookup is outstanding does not get to `handle_second`
      obtain ⟨p, b, o₁, -, hb, hsecond, ho₁, -, hself₁⟩ := h.of_requests hw hreq
      rw [← ha] at ho₁
      cases ho.symm.trans ho₁
      cases (hlast p b hself₁ hb).symm.trans hsecond

/-- The lookup the callback has asked for. -/
theorem lookup_new (h : Ran w a lookup sp re speaks t) (hw : Consistent w) (hdns : t.dns ≠ [])
    (ho' : (w.absorb a session lookup t).contexts a = some o') :
    o'.context.requestPort = lookup.port ∧
      ∀ (p : BevPtr) (b : Bufferevent Callbacks), o'.context.self = some p →
        (w.absorb a session lookup t).bevs[p]? = some b →
          b.callbacks.readcb = some .handleLast := by
  obtain ⟨lookups, heff⟩ := h.effect
  rcases World.absorb_contexts ho' with ⟨ha, -⟩ | ⟨-, o, context, ho, hcontext, rfl⟩
  · exact absurd rfl ha
  refine ⟨(h.asked hdns).2 context hcontext, ?_⟩
  intro p b hp hb
  obtain ⟨ctx, hctx, hself, -, -⟩ := heff.kept context hcontext
  obtain ⟨hreq, hlast⟩ := heff.asked hdns
  obtain ⟨p₁, -, o₁, hsp, -, -, ho₁, -, hself₁⟩ := h.of_requests hw hreq
  rw [World.view, ho₁] at hctx
  cases hctx
  cases (hself.symm.trans hp).symm.trans hself₁
  exact hlast _ b hsp hb

/-- **A callback keeps the world consistent**, whichever session's context it finds. -/
theorem consistent (h : Ran w a lookup sp re speaks t) (hw : Consistent w) :
    Consistent (w.absorb a session lookup t) where
  length := by
    obtain ⟨lookups, heff⟩ := h.effect
    have hview : (w.view a lookups).bevs = w.bevs := rfl
    simp [World.absorb, hw.length, heff.length, hview]
  client _ _ _ _ hb ho := h.client hw hb ho
  remote _ _ _ _ _ hb ho := h.remote hw hb ho
  self _ _ ho := h.self hw ho
  lookup l hl o ho hs := by
    rcases List.mem_append.1 hl with hl | hl
    · exact h.lookup_old hw hl ho hs
    · obtain ⟨host, hhost, rfl⟩ := List.mem_map.1 hl
      have hdns := List.ne_nil_of_mem hhost
      obtain ⟨rfl, -⟩ := h.asked hdns
      exact h.lookup_new hw hdns ho
  fresh := by
    constructor
    · intro origin horigin
      rcases List.mem_append.1 horigin with h' | h'
      · exact hw.fresh.1 origin h'
      · obtain ⟨target, -, rfl⟩ := List.mem_map.1 h'
        exact h.fresh
    · intro l hl
      rcases List.mem_append.1 hl with h' | h'
      · exact hw.fresh.2 l h'
      · obtain ⟨host, -, rfl⟩ := List.mem_map.1 h'
        exact h.fresh

end Ran

end Absorb

/-! ### One step -/

/-- The bufferevent of a client that has just connected. -/
def newClient : Bufferevent Callbacks where
  live := true
  callbacks := clientCallbacks .localReadCb (some .socks5Ctx)
  link := .up
  readEnabled := true
  writeEnabled := true
  readTimeout := 0
  input := .empty
  output := .empty
  readPending := false
  eventPending := {}
  reported := {}

/-- The world after a client has connected. -/
def World.accepting (w : World) (a : Addr) : World :=
  { w with
    contexts := Function.update w.contexts a (some ⟨w.accepted, ⟨some w.bevs.length, none, 0, []⟩⟩)
    bevs := w.bevs ++ [newClient]
    origins := w.origins ++ [⟨a, .client w.accepted⟩]
    accepted := w.accepted + 1 }

theorem World.accept_eq (w : World) (a : Addr) : w.accept a = .ok (w.accepting a) := by
  have hlisten : Server.listenCbOn w.bevs =
      .ok (⟨some w.bevs.length, none, 0, []⟩, w.bevs ++ [newClient]) := by
    simp [Server.listenCbOn, Heap.socketNew, Heap.setTimeouts, Heap.setcb, Heap.enable,
      Heap.update, Heap.deref, Bufferevent.register, newClient, clientCallbacks]
  rw [World.accept, hlisten]
  rfl

theorem step_accept (hfree : w.contexts a = none) : WorldStep P w (.accept a) (w.accepting a) := by
  rw [WorldStep, ← World.accept_eq, World.fire, hfree]

/-- **What a step is**: a client that connects, an event on a bufferevent, or the answer
to a lookup. -/
inductive StepCase (P : Key) (w : World) : WorldEvent → World → Prop where
  | accept {a : Addr} (free : w.contexts a = none) : StepCase P w (.accept a) (w.accepting a)
  | event {e : Event} {p : BevPtr} {origin : Origin} {t : Session} (bev : e.bev = some p)
      (origin_eq : w.origins[p]? = some origin) (step : Step P (w.view origin.arg []) e t) :
      StepCase P w (.event e) (w.absorb origin.arg origin.purpose.session
        (World.request origin.purpose.session origin.arg t) t)
  | answer {lookup : Lookup} {result : DnsResult} {re : ℤ} {t : Session} (mem : lookup ∈ w.dns)
      (step : Step P (w.view lookup.arg [lookup.host]) (.dnsDone lookup.host result re) t) :
      StepCase P w (.answer lookup result re)
        ({ w with dns := w.dns.erase lookup }.absorb lookup.arg lookup.session lookup t)

theorem WorldStep.cases {e : WorldEvent} (h : WorldStep P w e w') : StepCase P w e w' := by
  have hok : ∀ {o : Option (Except Fault Session)} {f : Session → World},
      (o.map fun r => r.map f) = some (.ok w') → ∃ t, o = some (.ok t) ∧ f t = w' := by
    intro o f hmap
    obtain ⟨r, rfl, hr⟩ := Option.map_eq_some_iff.1 hmap
    cases r with
    | error err => cases hr
    | ok t => exact ⟨t, rfl, Except.ok.inj hr⟩
  unfold WorldStep World.fire at h
  cases e with
  | accept a =>
      dsimp only at h
      split at h
      · cases h
      · rename_i hfree
        rw [World.accept_eq] at h
        cases h
        exact .accept hfree
  | event e =>
      dsimp only at h
      split at h
      · cases h
      · rename_i origin horigin
        obtain ⟨p, hp, horigin⟩ := Option.bind_eq_some_iff.1 horigin
        obtain ⟨t, hstep, rfl⟩ := hok h
        exact .event hp horigin hstep
  | answer lookup result re =>
      dsimp only at h
      split at h
      · rename_i hmem
        obtain ⟨t, hstep, rfl⟩ := hok h
        exact .answer hmem hstep
      · cases h

/-! ## Every step keeps the world consistent -/

/-- An event on a bufferevent finds it live. -/
theorem Step.bev_live {s : Session} {e : Event} (h : Step P s e t) (hbev : e.bev = some p) :
    ∃ b, s.bevs[p]? = some b ∧ b.live = true := by
  cases e with
  | socket q e =>
      cases hbev
      obtain ⟨b, hb, hadmits, -⟩ := Session.fire_socket h
      refine ⟨b, hb, ?_⟩
      cases e <;> exact hadmits.1
  | readCb q choice =>
      cases hbev
      obtain ⟨b, hb, hdue, -⟩ := Session.fire_readCb h
      simp only [Bufferevent.readDue, Bool.and_eq_true] at hdue
      exact ⟨b, hb, hdue.1.1⟩
  | eventCb q =>
      cases hbev
      obtain ⟨b, w, hb, hw, -⟩ := Session.fire_eventCb h
      exact ⟨b, hb, (Bufferevent.nextEvent_cases hw).1⟩
  | dnsDone nodename result re => cases hbev

theorem Event.lookups_of_bev {e : Event} (hbev : e.bev = some p) : e.lookups = [] := by
  cases e with
  | dnsDone nodename result re => cases hbev
  | _ => rfl

/-- A callback has run with the address `a`: what it has left behind, and what has become of
the world it saw. -/
structure Called (P : Key) (w : World) (a : Addr) (lookup : Lookup) (e : Event) (t : Session) :
    Prop where
  step : Step P (w.view a e.lookups) e t
  aftermath : Aftermath P (w.view a e.lookups) e t
  ran : Ran w a lookup e.bev e.connectResult (Speaks (w.view a e.lookups) e) t

/-- An event runs with the address its bufferevent is registered with. -/
theorem Called.of_event (hw : Consistent w) {e : Event} {origin : Origin} (hbev : e.bev = some p)
    (horigin : w.origins[p]? = some origin) (hstep : Step P (w.view origin.arg []) e t) :
    Called P w origin.arg (World.request origin.purpose.session origin.arg t) e t := by
  have hnone := Event.lookups_of_bev hbev
  have haft : Aftermath P (w.view origin.arg []) e t := by
    refine hstep.aftermath hnone.symm rfl rfl ?_
    intro q b hq hb hl
    cases hbev.symm.trans hq
    exact hw.role hb hl horigin []
  rw [← hnone] at hstep haft
  refine ⟨hstep, haft, ⟨_, haft.effect⟩, ?_, hw.fresh.1 origin (List.mem_of_getElem? horigin),
    fun _ => ⟨rfl, ?_⟩⟩
  · intro q hq
    cases hbev.symm.trans hq
    obtain ⟨b, hb, hl⟩ := hstep.bev_live hbev
    exact ⟨b, origin.purpose, hb, hl, horigin⟩
  · intro ctx hctx
    simp [World.request, hctx]

/-- An answer runs with the address the lookup was given. -/
theorem Called.of_answer (hw : Consistent w) {lookup : Lookup} {result : DnsResult} {re : ℤ}
    (hmem : lookup ∈ w.dns)
    (hstep : Step P (w.view lookup.arg [lookup.host]) (.dnsDone lookup.host result re) t) :
    Called P { w with dns := w.dns.erase lookup } lookup.arg lookup
      (.dnsDone lookup.host result re) t := by
  have haft : Aftermath P (w.view lookup.arg [lookup.host]) (.dnsDone lookup.host result re) t :=
    hstep.aftermath rfl rfl rfl fun q b hq => by cases hq
  refine ⟨hstep, haft, ⟨_, haft.effect⟩, fun q hq => (by cases hq), hw.fresh.2 lookup hmem, ?_⟩
  intro hdns
  obtain ⟨q, b, hq, -, -⟩ := (haft.effect.asked hdns).1
  cases hq

/-- The callback an event runs, as an event of a session: with which address, and which. -/
def World.callback (w : World) : WorldEvent → Option (Addr × Event)
  | .accept _ => none
  | .event e => (e.bev.bind fun p => w.origins[p]?).map fun origin => (origin.arg, e)
  | .answer lookup result re => some (lookup.arg, .dnsDone lookup.host result re)

/-- The callback of an event on a bufferevent is that event, with the address the bufferevent
is registered with. -/
theorem World.callback_event {e e' : Event} (h : w.callback (.event e) = some (a, e')) :
    e' = e ∧ ∃ p origin, e.bev = some p ∧ w.origins[p]? = some origin ∧ origin.arg = a := by
  obtain ⟨origin, hbind, heq⟩ := Option.map_eq_some_iff.1 h
  obtain ⟨p, hbev, horigin⟩ := Option.bind_eq_some_iff.1 hbind
  cases heq
  exact ⟨rfl, p, origin, hbev, horigin, rfl⟩

/-- The session an event is for. -/
def WorldEvent.session (w : World) : WorldEvent → Option ℕ
  | .accept _ => none
  | .event e => (e.bev.bind fun p => w.origins[p]?).map fun origin => origin.purpose.session
  | .answer lookup _ _ => some lookup.session

/-- **What a step is**, whether a socket or the resolver is behind it: a client that connects,
or a callback. -/
inductive CallbackCase (P : Key) (w : World) : WorldEvent → World → Prop where
  | accept {a : Addr} (free : w.contexts a = none) : CallbackCase P w (.accept a) (w.accepting a)
  | callback {e : WorldEvent} {a : Addr} {e' : Event} {session : ℕ} {lookup : Lookup}
      {dns : List Lookup} {t : Session} (runs : w.callback e = some (a, e'))
      (consistent : Consistent { w with dns := dns })
      (called : Called P { w with dns := dns } a lookup e' t) :
      CallbackCase P w e ({ w with dns := dns }.absorb a session lookup t)

theorem WorldStep.callbackCase {e : WorldEvent} (h : WorldStep P w e w') (hw : Consistent w) :
    CallbackCase P w e w' := by
  cases h.cases with
  | accept free => exact .accept free
  | @event e p origin t bev origin_eq step =>
      have hruns : w.callback (.event e) = some (origin.arg, e) := by
        simp [World.callback, bev, origin_eq]
      exact .callback hruns hw (Called.of_event hw bev origin_eq step)
  | answer mem step => exact .callback rfl (hw.erase _) (Called.of_answer hw mem step)

/-- An entry of a list that has grown by one is an old one, or the new one. -/
theorem getElem?_snoc {α : Type} {l : List α} {n : ℕ} {x y : α} (h : (l ++ [x])[n]? = some y) :
    l[n]? = some y ∨ n = l.length ∧ y = x := by
  rcases lt_or_ge n l.length with hlt | hge
  · rw [List.getElem?_append_left hlt] at h
    exact .inl h
  · rw [List.getElem?_append_right hge] at h
    obtain ⟨hp, hy⟩ := List.getElem?_eq_some_iff.1 h
    have hlen : [x].length = 1 := rfl
    refine .inr ⟨by omega, ?_⟩
    rw [← hy, List.getElem_singleton]

section Accepting

variable {a' : Addr} {origin : Origin}

/-- A context is an old one or that of the new session. -/
theorem World.accepting_contexts (ho : (w.accepting a).contexts a' = some o) :
    w.contexts a' = some o ∨ a' = a ∧ o = ⟨w.accepted, ⟨some w.bevs.length, none, 0, []⟩⟩ := by
  by_cases ha : a' = a
  · subst ha
    simp only [World.accepting, Function.update_self] at ho
    exact .inr ⟨rfl, (Option.some.inj ho).symm⟩
  · simp only [World.accepting, Function.update_of_ne ha] at ho
    exact .inl ho

theorem World.accepting_contexts_old (hfree : w.contexts a = none) (ho : w.contexts a' = some o) :
    (w.accepting a).contexts a' = some o := by
  have ha : a' ≠ a := by
    rintro rfl
    cases hfree.symm.trans ho
  exact (Function.update_of_ne ha ..).trans ho

theorem World.accepting_origins_old (horigin : w.origins[p]? = some origin) :
    (w.accepting a).origins[p]? = some origin := by
  rw [World.accepting, List.getElem?_append_left (List.getElem?_eq_some_iff.1 horigin).1]
  exact horigin

/-- The bufferevents there were are untouched. -/
theorem Consistent.accepting_bevs_old (hw : Consistent w) (horigin : w.origins[p]? = some origin)
    (hb : (w.accepting a).bevs[p]? = some b) : w.bevs[p]? = some b := by
  have hp : p < w.bevs.length := hw.length ▸ (List.getElem?_eq_some_iff.1 horigin).1
  rwa [World.accepting, List.getElem?_append_left hp] at hb

/-- A session that has just been accepted has its own client, and no lookup. -/
theorem Consistent.accepting (hw : Consistent w) (hfree : w.contexts a = none) :
    Consistent (w.accepting a) where
  length := by
    simp [World.accepting, hw.length]
  client p b a' k hb ho := by
    rcases getElem?_snoc ho with ho | ⟨rfl, heq⟩
    · obtain ⟨hcb, hlive⟩ := hw.client p b a' k (hw.accepting_bevs_old ho hb) ho
      refine ⟨hcb, ?_⟩
      intro hl
      obtain ⟨o, hctx, hk, hself⟩ := hlive hl
      exact ⟨o, World.accepting_contexts_old hfree hctx, hk, hself⟩
    · cases heq
      rcases getElem?_snoc hb with hb | ⟨-, rfl⟩
      · have hp := (List.getElem?_eq_some_iff.1 hb).1
        rw [hw.length] at hp
        exact absurd hp (lt_irrefl _)
      · refine ⟨⟨.localReadCb, some .socks5Ctx, by decide, rfl⟩, ?_⟩
        intro _
        exact ⟨_, Function.update_self .., rfl, congrArg some hw.length.symm⟩
  remote p b a' l target hb ho := by
    rcases getElem?_snoc ho with ho | ⟨-, heq⟩
    · exact hw.remote p b a' l target (hw.accepting_bevs_old ho hb) ho
    · cases heq
  self a' o ho := by
    rcases World.accepting_contexts ho with ho | ⟨rfl, rfl⟩
    · obtain ⟨p, hself, horigin⟩ := hw.self a' o ho
      exact ⟨p, hself, World.accepting_origins_old horigin⟩
    · refine ⟨w.bevs.length, rfl, ?_⟩
      rw [World.accepting, ← hw.length, List.getElem?_concat_length]
  lookup l hl o ho hs := by
    rcases World.accepting_contexts ho with ho | ⟨-, rfl⟩
    · obtain ⟨hport, hlast⟩ := hw.lookup l hl o ho hs
      refine ⟨hport, ?_⟩
      intro p b hself hb
      obtain ⟨p', hself', horigin⟩ := hw.self l.arg o ho
      cases hself.symm.trans hself'
      exact hlast p b hself (hw.accepting_bevs_old horigin hb)
    · -- the number of a session that has been accepted before
      exact absurd hs (hw.fresh.2 l hl).ne'
  fresh := by
    constructor
    · intro origin ho
      rcases List.mem_append.1 ho with ho | ho
      · exact (hw.fresh.1 origin ho).trans (Nat.lt_succ_self _)
      · cases List.mem_singleton.1 ho
        exact Nat.lt_succ_self _
    · intro l hl
      exact (hw.fresh.2 l hl).trans (Nat.lt_succ_self _)

end Accepting

/-- **Every step keeps the world consistent.** -/
theorem WorldStep.consistent {e : WorldEvent} (h : WorldStep P w e w') (hw : Consistent w) :
    Consistent w' := by
  cases h.cases with
  | accept free => exact hw.accepting free
  | event bev origin_eq step => exact (Called.of_event hw bev origin_eq step).ran.consistent hw
  | answer mem step => exact (Called.of_answer hw mem step).ran.consistent (hw.erase _)

/-! ## The numbers of the sessions -/

theorem Consistent.occupant_lt {o : Occupant} (hw : Consistent w) (ho : w.contexts a = some o) :
    o.session < w.accepted := by
  obtain ⟨p, -, horigin⟩ := hw.self a o ho
  exact hw.fresh.1 _ (List.mem_of_getElem? horigin)

/-- Every event but a new client is for a session that has been accepted. -/
theorem WorldStep.session_lt {e : WorldEvent} (h : WorldStep P w e w') (hw : Consistent w) :
    (∃ a, e = .accept a ∧ w.contexts a = none ∧ w' = w.accepting a) ∨
      ∃ k < w.accepted, e.session w = some k ∧ w'.accepted = w.accepted ∧
        ∀ r ∈ w'.replies, r ∈ w.replies ∨ r.client < w.accepted := by
  have hreplies : ∀ {v : World} {a k lookup t}, v.contexts = w.contexts → v.replies = w.replies →
      ∀ r ∈ (v.absorb a k lookup t).replies, r ∈ w.replies ∨ r.client < w.accepted := by
    intro v a k lookup t hcontexts hold r hr
    rcases List.mem_append.1 hr with hr | hr
    · exact .inl (hold ▸ hr)
    · obtain ⟨o, ho, hr⟩ := List.mem_flatMap.1 hr
      obtain ⟨bytes, -, rfl⟩ := List.mem_map.1 hr
      exact .inr (hw.occupant_lt (hcontexts ▸ Option.mem_toList.1 ho))
  cases h.cases with
  | accept free => exact .inl ⟨_, rfl, free, rfl⟩
  | event hbev horigin hstep =>
      refine .inr ⟨_, hw.fresh.1 _ (List.mem_of_getElem? horigin), ?_, rfl, hreplies rfl rfl⟩
      simp [WorldEvent.session, hbev, horigin]
  | answer hmem hstep =>
      exact .inr ⟨_, hw.fresh.2 _ hmem, rfl, rfl, hreplies rfl rfl⟩

end LightSocks
