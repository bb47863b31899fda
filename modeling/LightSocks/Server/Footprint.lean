import LightSocks.Server.Aftermath

/-!
# What a callback touches

What an invariant of many sessions on one heap needs to know of a callback, of whichever
session it is: what it can change about the bufferevents there are, about the context it
finds, and about the lookups.

* `Effect` — that, for one event.
* `Step.effect` — every event has such an effect: it is read off the aftermath.
-/

namespace LightSocks

open Transition

variable {P : Key} {s t : Session} {p q : BevPtr} {b b' : Bufferevent Callbacks}
  {ctx : Socks5ctx}

/-! ## The effect of an event -/

/-- The client's callbacks move on in the handshake. -/
inductive Advance : Callbacks → Callbacks → Prop where
  | greeted {c : Callbacks} (h : c.readcb = some .localReadCb) :
      Advance c (clientCallbacks .handleSecond (some .socks5Ctx))
  | requested {c : Callbacks} (h : c.readcb = some .handleSecond) (arg : Option CtxPtr) :
      Advance c (clientCallbacks .handleLast arg)

theorem Advance.before {c c' : Callbacks} (h : Advance c c') :
    c.readcb = some .localReadCb ∨ c.readcb = some .handleSecond := by
  cases h with
  | greeted h => exact .inl h
  | requested h _ => exact .inr h

theorem Advance.after {c c' : Callbacks} (h : Advance c c') :
    ∃ rd arg, rd ≠ .remoteReadCb ∧ c' = clientCallbacks rd arg := by
  cases h with
  | greeted _ => exact ⟨.handleSecond, some .socks5Ctx, by decide, rfl⟩
  | requested _ arg => exact ⟨.handleLast, arg, by decide, rfl⟩

/-- The callback that runs is `handle_second`, on the bufferevent `p`. -/
def Requests (s : Session) (p : Option BevPtr) : Prop :=
  ∃ q b, p = some q ∧ s.bevs[q]? = some b ∧ b.callbacks.readcb = some .handleSecond

/-- What becomes of the context, when it is not deleted: the client stays, the port
changes with a request only, and a new partner is a new bufferevent whose connect to that
port has started. -/
def KeptContext (s : Session) (p : Option BevPtr) (re : ℤ) (t : Session) : Prop :=
  ∀ ctx', t.context = some ctx' → ∃ ctx, s.context = some ctx ∧ ctx'.self = ctx.self ∧
    (ctx'.requestPort = ctx.requestPort ∨ Requests s p) ∧
    (ctx'.partner = ctx.partner ∨ ctx'.partner = some s.bevs.length ∧ re = 0 ∧
      (p = none ∨ Requests s p) ∧ ∃ addr, t.connects = [(addr, UInt16.ofNat ctx'.requestPort)])

/-- What an event can do to a session that starts out with no log and no lookups, its
callback running on `p`: `re` is what a connect returns, and `speaks` says whether the
callback is one that replies. -/
structure Effect (s : Session) (p : Option BevPtr) (re : ℤ) (speaks : Prop) (t : Session) :
    Prop where
  length : t.bevs.length = s.bevs.length + t.connects.length
  old : ∀ q b', q < s.bevs.length → t.bevs[q]? = some b' → ∃ b, s.bevs[q]? = some b ∧
    (b'.live = true → b.live = true) ∧
    (b'.callbacks = b.callbacks ∨ p = some q ∧ Advance b.callbacks b'.callbacks)
  new : ∀ q b', s.bevs.length ≤ q → t.bevs[q]? = some b' → b'.callbacks = remoteCallbacks
  deleted : t.context = none → ∀ ctx q b', s.context = some ctx → ctx.self = some q →
    t.bevs[q]? = some b' → b'.live = false
  kept : KeptContext s p re t
  asked : t.dns ≠ [] → Requests s p ∧ ∀ q b', p = some q → t.bevs[q]? = some b' →
    b'.callbacks.readcb = some .handleLast
  replied : t.replies ≠ [] → speaks

/-- A face of a heap is one of the old ones, in its place, or one of the new ones. -/
theorem face_of_append {h h' : Heap Callbacks} {olds news : List (Bool × Callbacks)}
    (hfaces : Heap.faces h' = olds ++ news) (hlen : olds.length = h.length)
    (hq : h'[q]? = some b') :
    (q < h.length → olds[q]? = some b'.face) ∧ (h.length ≤ q → b'.face ∈ news) := by
  have hface : (olds ++ news)[q]? = some b'.face := hfaces ▸ getElem?_faces hq
  constructor
  · intro hlt
    rw [← hlen] at hlt
    rwa [List.getElem?_append_left hlt] at hface
  · intro hge
    rw [← hlen] at hge
    rw [List.getElem?_append_right hge] at hface
    exact List.mem_of_getElem? hface

theorem length_of_append {h' : Heap Callbacks} {olds news : List (Bool × Callbacks)}
    (hfaces : Heap.faces h' = olds ++ news) : h'.length = olds.length + news.length := by
  rw [← length_faces h', hfaces, List.length_append]

section Builders

variable {sp : Option BevPtr} {re : ℤ} {speaks : Prop} (news : List (Bool × Callbacks))

/-- An event that registers nothing. -/
theorem Effect.unregistered (hfaces : Heap.faces t.bevs = Heap.faces s.bevs ++ news)
    (hnews : ∀ f ∈ news, f.2 = remoteCallbacks) (hlen : news.length = t.connects.length)
    (hctx : t.context = none → s.context = none) (hkept : KeptContext s sp re t) (hdns : t.dns = [])
    (hreplied : t.replies ≠ [] → speaks) : Effect s sp re speaks t := by
  have hold := length_faces s.bevs
  refine ⟨?_, ?_, ?_, ?_, hkept, fun h => absurd hdns h, hreplied⟩
  · rw [length_of_append hfaces, hold, hlen]
  · intro q b' hq hb'
    obtain ⟨b, hb, hlive, hcb⟩ := of_getElem?_faces ((face_of_append hfaces hold hb').1 hq)
    exact ⟨b, hb, fun hl => hlive.symm.trans hl, .inl hcb⟩
  · intro q b' hq hb'
    exact hnews _ ((face_of_append hfaces hold hb').2 hq)
  · intro h ctx _ _ hs
    rw [hctx h] at hs
    cases hs

/-- An event that registers other callbacks on the client. -/
theorem Effect.registered {c : Callbacks} (hb : s.bevs[p]? = some b) (hadv : Advance b.callbacks c)
    (hfaces : Heap.faces t.bevs = (Heap.faces s.bevs).set p (b.live, c) ++ news)
    (hnews : ∀ f ∈ news, f.2 = remoteCallbacks) (hlen : news.length = t.connects.length)
    (hctx : t.context = none → s.context = none) (hkept : KeptContext s (some p) re t)
    (hdns : t.dns ≠ [] → b.callbacks.readcb = some .handleSecond)
    (hreplied : t.replies ≠ [] → speaks) : Effect s (some p) re speaks t := by
  have hold : ((Heap.faces s.bevs).set p (b.live, c)).length = s.bevs.length := by
    rw [List.length_set, length_faces]
  have hp : p < s.bevs.length := (List.getElem?_eq_some_iff.1 hb).1
  have hset : ∀ b', t.bevs[p]? = some b' → b'.live = b.live ∧ b'.callbacks = c := by
    intro b' hb'
    have hface := (face_of_append hfaces hold hb').1 hp
    rw [List.getElem?_set_self (by rwa [length_faces])] at hface
    exact Prod.mk.inj (Option.some.inj hface).symm
  refine ⟨?_, ?_, ?_, ?_, hkept, fun h => ⟨⟨p, b, rfl, hb, hdns h⟩, ?_⟩, hreplied⟩
  · rw [length_of_append hfaces, hold, hlen]
  · intro q b' hq hb'
    by_cases hpq : p = q
    · subst hpq
      obtain ⟨hlive, hcb⟩ := hset b' hb'
      refine ⟨b, hb, fun hl => hlive.symm.trans hl, .inr ⟨rfl, ?_⟩⟩
      rw [hcb]
      exact hadv
    · have hface := (face_of_append hfaces hold hb').1 hq
      rw [List.getElem?_set_ne hpq] at hface
      obtain ⟨d, hd, hlive, hcb⟩ := of_getElem?_faces hface
      exact ⟨d, hd, fun hl => hlive.symm.trans hl, .inl hcb⟩
  · intro q b' hq hb'
    exact hnews _ ((face_of_append hfaces hold hb').2 hq)
  · intro h ctx _ _ hs
    rw [hctx h] at hs
    cases hs
  · rintro q b' hpq hb'
    obtain rfl := Option.some.inj hpq
    rw [(hset b' hb').2]
    cases hadv with
    | greeted hr =>
        rw [hdns h] at hr
        cases hr
    | requested hr arg => rfl

/-- An event that ends with the context deleted. -/
theorem Effect.released (hbevs : Shrinks s.bevs t.bevs) (hctx : t.context = none)
    (hself : ∀ ctx q b', s.context = some ctx → ctx.self = some q → t.bevs[q]? = some b' →
      b'.live = false) (hdns : t.dns = []) (hconnects : t.connects = [])
    (hreplies : t.replies = []) : Effect s sp re speaks t := by
  refine ⟨?_, ?_, ?_, fun _ => hself, ?_,
    fun h => absurd hdns h, fun h => absurd hreplies h⟩
  · rw [hconnects, hbevs.length]
    rfl
  · intro q b' _ hb'
    obtain ⟨b, hb, hcb, hl⟩ := hbevs.old q b' hb'
    exact ⟨b, hb, hl, .inl hcb⟩
  · intro q b' hq hb'
    have hlt := (List.getElem?_eq_some_iff.1 hb').1
    rw [hbevs.length] at hlt
    omega
  · intro ctx' h
    rw [hctx] at h
    cases h

/-- An event that only moves bytes. -/
theorem Effect.quiet (hfaces : Heap.faces t.bevs = Heap.faces s.bevs) (hctx : t.context = s.context)
    (hdns : t.dns = []) (hconnects : t.connects = []) (hreplied : t.replies ≠ [] → speaks) :
    Effect s sp re speaks t := by
  refine .unregistered [] (by rw [hfaces, List.append_nil]) (by simp)
    (by rw [hconnects]; rfl) (fun h => hctx ▸ h) ?_ hdns hreplied
  intro ctx' h
  exact ⟨ctx', hctx ▸ h, rfl, .inl rfl, .inl rfl⟩

end Builders

/-! ## Event by event -/

/-- The events whose callbacks may reply: a read callback of a client, and CONNECTED. -/
def Speaks (s : Session) : Event → Prop
  | .readCb p _ => ∃ b, s.bevs[p]? = some b ∧ b.live = true ∧ b.callbacks ≠ remoteCallbacks
  | .eventCb p => ∃ b, s.bevs[p]? = some b ∧ b.nextEvent = some { connected := true }
  | _ => False

/-- What an answer makes of the context. -/
theorem keptContext_answered {sp : Option BevPtr} {re : ℤ} {ctx' : Socks5ctx}
    (hctx : s.context = some ctx) (hctx' : t.context = some ctx')
    (hself : ctx'.self = ctx.self) (hport : ctx'.requestPort = ctx.requestPort ∨ Requests s sp)
    (hpartner : ctx'.partner = if re = 0 then some s.bevs.length else ctx.partner)
    (hsp : sp = none ∨ Requests s sp) {addr : InAddr}
    (hconnects : t.connects = [(addr, UInt16.ofNat ctx'.requestPort)]) :
    KeptContext s sp re t := by
  intro ctx'' h
  cases hctx'.symm.trans h
  refine ⟨ctx, hctx, hself, hport, ?_⟩
  by_cases hre : re = 0
  · exact .inr ⟨hpartner.trans (if_pos hre), hre, hsp, addr, hconnects⟩
  · exact .inl (hpartner.trans (if_neg hre))

/-- **The effect of an event is part of its aftermath.** -/
theorem Aftermath.effect {e : Event} (h : Aftermath P s e t) :
    Effect s e.bev e.connectResult (Speaks s e) t := by
  have hclient : ∀ {p b rd} {choice : Choice}, s.bevs[p]? = some b → b.live = true →
      b.callbacks.readcb = some rd → rd ≠ .remoteReadCb → Speaks s (.readCb p choice) := by
    intro p b rd choice hb hl hcb hrd
    refine ⟨b, hb, hl, fun heq => ?_⟩
    rw [heq] at hcb
    exact hrd (Option.some.inj hcb).symm
  cases h with
  | quiet _ _ _ faces context blank =>
      exact .quiet faces context blank.dns blank.connects fun h => absurd blank.replies h
  | @greeted p b choice _ bev live readcb faces context dns connects _ =>
      exact .registered [] bev (.greeted readcb) (by rw [List.append_nil]; exact faces) (by simp)
        (by rw [connects]; rfl) (fun h => context ▸ h)
        (fun ctx' h => ⟨ctx', context ▸ h, rfl, .inl rfl, .inl rfl⟩) (fun h => absurd dns h)
        fun _ => hclient bev live readcb (by decide)
  | @tookIpv4 p b choice _ ctx ip port bev live readcb _ faces context context' dns connects _ =>
      refine .registered [] bev (.requested readcb none) (by rw [List.append_nil]; exact faces)
        (by simp) (by rw [connects]; rfl) ?_ ?_ (fun h => absurd dns h)
        fun _ => hclient bev live readcb (by decide)
      · intro h
        cases context'.symm.trans h
      · intro ctx' h
        cases context'.symm.trans h
        exact ⟨ctx, context, rfl, .inr ⟨p, b, rfl, bev, readcb⟩, .inl rfl⟩
  | @asked p b choice _ ctx port bev live readcb _ faces context context' connects replies =>
      refine .registered [] bev (.requested readcb (some .socks5Ctx))
        (by rw [List.append_nil]; exact faces) (by simp) (by rw [connects]; rfl) ?_ ?_
        (fun _ => readcb) fun _ => hclient bev live readcb (by decide)
      · intro h
        cases context'.symm.trans h
      · intro ctx' h
        cases context'.symm.trans h
        exact ⟨ctx, context, rfl, .inr ⟨p, b, rfl, bev, readcb⟩, .inl rfl⟩
  | @answeredAtOnce p b choice _ ctx port addr bev live readcb _ faces context context' dns
      connects _ =>
      have hreq : Requests s (some p) := ⟨p, b, rfl, bev, readcb⟩
      refine .registered [(true, remoteCallbacks)] bev (.requested readcb (some .socks5Ctx)) faces
        (by simp) (by rw [connects]; rfl) ?_
        (keptContext_answered context context' rfl (.inr hreq) rfl (.inr hreq) connects)
        (fun h => absurd dns h) fun _ => hclient bev live readcb (by decide)
      intro h
      cases context'.symm.trans h
  | answered _ faces context context' dns connects replies =>
      refine .unregistered [(true, remoteCallbacks)] faces (by simp) (by rw [connects]; rfl) ?_
        (keptContext_answered context context' rfl (.inl rfl) rfl (.inl rfl) connects) dns
        fun h => absurd replies h
      intro h
      cases context'.symm.trans h
  | @connected p _ reports faces context dns connects _ =>
      refine .quiet faces context dns connects fun _ => ?_
      obtain ⟨b, hb, hw, -⟩ := reports
      exact ⟨b, hb, hw⟩
  | released _ context context' bevs live _ blank =>
      refine .released bevs context' ?_ blank.dns blank.connects blank.replies
      intro ctx q b' hs hq hb'
      cases context.symm.trans hs
      by_contra hl
      exact ((live q).1 ⟨b', hb', by simpa using hl⟩).2.1 hq

/-- **What an event touches**, when nothing is outstanding but the lookup it completes. -/
theorem Step.effect {e : Event} (hs : Step P s e t) (hdns : s.dns = e.lookups)
    (hconnects : s.connects = []) (hreplies : s.replies = [])
    (hrole : ∀ p b, e.bev = some p → s.bevs[p]? = some b → b.live = true → Role s p b) :
    Effect s e.bev e.connectResult (Speaks s e) t :=
  (hs.aftermath hdns hconnects hreplies hrole).effect

end LightSocks
