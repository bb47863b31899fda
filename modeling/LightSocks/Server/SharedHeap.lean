import LightSocks.Server.AddressReuse
import LightSocks.Server.Locality

/-!
# One session among others on the heap

All sessions of a server share the heap and the allocator, and each of them is nothing to
its callbacks but the address of a context.  Here a world is taken apart into what it has of
each session.

* `World.places`, `Holds` — what a world has of one session, and that it is all there is to
  that session when it runs alone.
* `Holds.absorb_own`, `Holds.absorb_other` — a callback is a callback of the session it is
  for, and nothing to the others.
* `Apart` — what happens next does not find another session's context at its address.
* `Lifts` — what an event of a session is in the server.
* `WorldStep.session_step`, `WorldStep.session_stays` — then one session takes a step that it
  could take alone, and the others stay as they are.
-/

namespace LightSocks

open Transition

variable {P : Key} {w w' : World} {a a' : Addr} {j k : ℕ} {s t : Session}

/-! ## What a world has of a session -/

/-- The target a bufferevent of the session `k` has been created for. -/
def Purpose.targetOf (k : ℕ) : Purpose → Option Target
  | .client _ => none
  | .remote lookup target => if lookup.session = k then some target else none

namespace World

/-- The bufferevents of the session `k`, in the order they were created. -/
def places (w : World) (k : ℕ) : List BevPtr :=
  w.origins.findIdxs fun origin => origin.purpose.session = k

/-- Where the bufferevents of the session `k` are, and where its next ones would be. -/
def placeOf (w : World) (k i : ℕ) : BevPtr := place (w.places k) w.bevs.length i

/-- The host names the session `k` waits for. -/
def hostsOf (w : World) (k : ℕ) : List (List UInt8) :=
  (w.dns.filter fun l => l.session = k).map (·.host)

/-- What the session `k` has been connected to. -/
def targetsOf (w : World) (k : ℕ) : List Target :=
  w.origins.filterMap fun origin => origin.purpose.targetOf k

/-- What has been said to the client of the session `k`. -/
def repliesTo (w : World) (k : ℕ) : List (List UInt8) :=
  (w.replies.filter fun r => r.client = k).map (·.bytes)

/-- The context of the session `k`, if it is the one at the address `a`. -/
def contextOf (w : World) (a : Addr) (k : ℕ) : Option Socks5ctx :=
  ((w.contexts a).filter fun o => o.session = k).map (·.context)

theorem mem_places {p : BevPtr} : p ∈ w.places k ↔
    ∃ origin, w.origins[p]? = some origin ∧ origin.purpose.session = k := by
  rw [places, List.mem_findIdxs_iff_exists_getElem_pos]
  constructor
  · rintro ⟨hp, hk⟩
    exact ⟨_, List.getElem?_eq_getElem hp, of_decide_eq_true hk⟩
  · rintro ⟨origin, horigin, hk⟩
    obtain ⟨hp, rfl⟩ := List.getElem?_eq_some_iff.1 horigin
    exact ⟨hp, decide_eq_true hk⟩

end World

/-- Everything about the session `k` has the address `a`. -/
structure Home (w : World) (a : Addr) (k : ℕ) : Prop where
  origins : ∀ origin ∈ w.origins, origin.purpose.session = k → origin.arg = a
  dns : ∀ l ∈ w.dns, l.session = k → l.arg = a

/-- The world has of the session `k`, whose context is or was at `a`, what `s` is. -/
structure Holds (w : World) (a : Addr) (k : ℕ) (s : Session) : Prop where
  home : Home w a k
  length : s.bevs.length = (w.places k).length
  bevs : ∀ (i : ℕ) (p : BevPtr), (w.places k)[i]? = some p → w.bevs[p]? = s.bevs[i]?
  client : ∀ (p : BevPtr) (a' : Addr), w.origins[p]? = some ⟨a', .client k⟩ →
    (w.places k)[0]? = some p
  context : w.contextOf a k = s.context.map (Socks5ctx.rename (w.placeOf k))
  elsewhere : ∀ a' o, w.contexts a' = some o → o.session = k → a' = a
  dns : s.dns.Perm (w.hostsOf k)
  connects : s.connects = w.targetsOf k
  replies : s.replies = w.repliesTo k

/-! ## The window of a session -/

/-- The pointers in a context are to bufferevents of the session. -/
def Session.Enclosed (s : Session) : Prop :=
  ∀ c, s.context = some c → ∀ p, c.self = some p ∨ c.partner = some p → p < s.bevs.length

theorem Socks5ctx.rename_congr {ρ σ : ℕ → ℕ} {n : ℕ} {c : Socks5ctx}
    (hc : ∀ p, c.self = some p ∨ c.partner = some p → p < n) (h : ∀ i < n, ρ i = σ i) :
    c.rename ρ = c.rename σ := by
  obtain ⟨self, partner, port, ip⟩ := c
  have hself : self.map ρ = self.map σ :=
    Option.map_congr fun p hp => h p (hc p (.inl hp))
  have hpartner : partner.map ρ = partner.map σ :=
    Option.map_congr fun p hp => h p (hc p (.inr hp))
  simp only [Socks5ctx.rename, hself, hpartner]

/-- **The bufferevents of a session are a window on the heap.** -/
theorem Holds.window (h : Holds w a k s) (hw : Consistent w) :
    HeapWindow (w.placeOf k) id w.bevs s.bevs w.bevs := by
  refine Window.of_places List.nodup_findIdxs h.length ?_
  intro i p hp
  obtain ⟨origin, horigin, -⟩ := World.mem_places.1 (List.mem_of_getElem? hp)
  have hlt : p < w.bevs.length := hw.length ▸ (List.getElem?_eq_some_iff.1 horigin).1
  refine ⟨w.bevs[p], ?_, List.getElem?_eq_getElem hlt⟩
  rw [← h.bevs i p hp]
  exact List.getElem?_eq_getElem hlt

theorem Holds.bevs_placeOf (h : Holds w a k s) (hw : Consistent w) (i : BevPtr) :
    w.bevs[w.placeOf k i]? = s.bevs[i]? := by
  rw [(h.window hw).inside i]
  cases s.bevs[i]? <;> rfl

/-- A bufferevent of a session, and its number there. -/
theorem Holds.exists_place (h : Holds w a k s) {p : BevPtr} {origin : Origin}
    (horigin : w.origins[p]? = some origin) (hk : origin.purpose.session = k) :
    ∃ i, w.placeOf k i = p ∧ s.bevs[i]? = w.bevs[p]? := by
  obtain ⟨i, hi⟩ := List.mem_iff_getElem?.1 (World.mem_places.2 ⟨origin, horigin, hk⟩)
  exact ⟨i, place_of_getElem? hi, (h.bevs i p hi).symm⟩

/-- As long as it has the same bufferevents, its pointers mean the same. -/
theorem Holds.rename_eq (h : Holds w a j s) (hs : s.Enclosed) (hplaces : w'.places j = w.places j) :
    s.context.map (Socks5ctx.rename (w'.placeOf j)) =
      s.context.map (Socks5ctx.rename (w.placeOf j)) := by
  refine Option.map_congr fun c hc => Socks5ctx.rename_congr (hs c hc) ?_
  intro i hi
  rw [h.length] at hi
  have hp := List.getElem?_eq_getElem hi
  rw [World.placeOf, World.placeOf, hplaces, place_of_getElem? hp, place_of_getElem? hp]

/-! ## A callback of the session -/

section Absorb

variable {lookup : Lookup}

theorem World.absorb_bevs (w : World) (a : Addr) (k : ℕ) (lookup : Lookup) (t : Session) :
    (w.absorb a k lookup t).bevs = t.bevs := rfl

theorem World.absorb_contexts_at (w : World) (a : Addr) (k : ℕ) (lookup : Lookup) (t : Session) :
    (w.absorb a k lookup t).contexts a =
      (w.contexts a).bind fun o => t.context.map fun context => { o with context } :=
  Function.update_self ..

/-- What a callback has created is the session's it is for. -/
theorem World.absorb_places_own (hlookup : lookup.session = k) :
    (w.absorb a k lookup t).places k =
      w.places k ++ List.range' w.origins.length t.connects.length := by
  have hall : ∀ n, (t.connects.map fun target => (⟨a, .remote lookup target⟩ : Origin)).findIdxs
      (fun origin => origin.purpose.session = k) n = List.range' n t.connects.length := by
    intro n
    rw [findIdxs_of_forall, List.length_map]
    intro origin horigin
    obtain ⟨target, -, rfl⟩ := List.mem_map.1 horigin
    exact decide_eq_true hlookup
  rw [places, absorb, List.findIdxs_append, Nat.zero_add, hall, places]

theorem World.absorb_places_other (hlookup : lookup.session = k) (hj : j ≠ k) :
    (w.absorb a k lookup t).places j = w.places j := by
  have hnone : ∀ n, (t.connects.map fun target => (⟨a, .remote lookup target⟩ : Origin)).findIdxs
      (fun origin => origin.purpose.session = j) n = [] := by
    intro n
    refine List.findIdxs_eq_nil_iff.2 fun origin horigin => ?_
    obtain ⟨target, -, rfl⟩ := List.mem_map.1 horigin
    exact decide_eq_false fun h => hj (h.symm.trans hlookup)
  rw [places, absorb, List.findIdxs_append, hnone, List.append_nil, places]

theorem World.absorb_placeOf (hw : Consistent w) (hlookup : lookup.session = k)
    (hlen : t.bevs.length = w.bevs.length + t.connects.length) :
    (w.absorb a k lookup t).placeOf k = w.placeOf k := by
  funext i
  rw [placeOf, absorb_places_own hlookup, absorb_bevs, hlen, hw.length]
  exact place_append ..

/-- The clients are those there were. -/
theorem World.absorb_client {p : BevPtr}
    (h : (w.absorb a k lookup t).origins[p]? = some ⟨a', .client j⟩) :
    w.origins[p]? = some ⟨a', .client j⟩ := by
  rw [absorb] at h
  rcases lt_or_ge p w.origins.length with hp | hp
  · rwa [List.getElem?_append_left hp] at h
  · rw [List.getElem?_append_right hp] at h
    obtain ⟨target, -, heq⟩ := List.mem_map.1 (List.mem_of_getElem? h)
    cases heq

/-- **A callback of the session.**  What the session becomes when it runs alone is what the
world has of it afterwards. -/
theorem Holds.absorb_own {s' : Session} (h : Holds w a k s) (hw : Consistent w)
    (hm : Mirrors s (w.placeOf k) w.bevs s' t)
    (hlen : t.bevs.length = w.bevs.length + t.connects.length) (hlookup : lookup.session = k)
    (harg : t.dns ≠ [] → lookup.arg = a) (hown : ∀ o, w.contexts a = some o → o.session = k)
    (hgone : w.contexts a = none → t.context = none ∧ t.replies = []) :
    Holds (w.absorb a k lookup t) a k s' := by
  have hplace := World.absorb_placeOf (a := a) hw hlookup hlen
  have hplaces := World.absorb_places_own (w := w) (a := a) (t := t) hlookup
  refine ⟨⟨?_, ?_⟩, ?_, ?_, ?_, ?_, ?_, ?_, ?_, ?_⟩
  · intro origin horigin hk
    rcases List.mem_append.1 horigin with hold | hnew
    · exact h.home.origins origin hold hk
    · obtain ⟨target, -, rfl⟩ := List.mem_map.1 hnew
      rfl
  · intro l hl hk
    rcases List.mem_append.1 hl with hold | hnew
    · exact h.home.dns l hold hk
    · obtain ⟨host, hmem, rfl⟩ := List.mem_map.1 hnew
      exact harg (List.ne_nil_of_mem hmem)
  · -- the next bufferevent would be in the same place
    refine hm.bevs.injective ?_
    rw [hm.bevs.next_eq, hplaces, World.placeOf, place_of_le (by simp), hlen]
    simp
  · intro i p hp
    have hρ : w.placeOf k i = p := by
      rw [← hplace]
      exact place_of_getElem? hp
    have hin := hm.bevs.inside i
    rw [hρ] at hin
    exact hin.trans Option.map_id_apply
  · intro p a' horigin
    have hfirst := h.client p a' (World.absorb_client horigin)
    rw [hplaces, List.getElem?_append_left (List.getElem?_eq_some_iff.1 hfirst).1]
    exact hfirst
  · rw [hplace, ← hm.context, World.contextOf, World.absorb_contexts_at]
    cases ho : w.contexts a with
    | none => exact (hgone ho).1.symm
    | some o =>
        cases t.context with
        | none => rfl
        | some c => simp [hown o ho]
  · intro a' o ho hk
    rcases World.absorb_contexts ho with ⟨-, ho⟩ | ⟨rfl, -⟩
    · exact h.elsewhere a' o ho hk
    · rfl
  · have hhosts : (w.absorb a k lookup t).hostsOf k = w.hostsOf k ++ t.dns := by
      simp [World.hostsOf, World.absorb, List.filter_map, Function.comp_def, hlookup]
    rw [hm.dns, hhosts]
    exact h.dns.append_right _
  · rw [hm.connects, h.connects]
    simp [World.targetsOf, World.absorb, List.filterMap_map, Purpose.targetOf, hlookup]
  · rw [hm.replies, h.replies]
    cases ho : w.contexts a with
    | none => simp [World.repliesTo, World.absorb, ho, (hgone ho).2]
    | some o =>
        simp [World.repliesTo, World.absorb, ho, hown o ho, List.filter_map, Function.comp_def]

/-! ## A callback of another session -/

/-- **A callback of another session** does not change what the world has of this one. -/
theorem Holds.absorb_other (h : Holds w a' j s) (hw : Consistent w) (hs : s.Enclosed) (hj : j ≠ k)
    (hlookup : lookup.session = k)
    (hout : ∀ q < w.bevs.length, q ∉ w.places k → t.bevs[q]? = w.bevs[q]?)
    (hown : ∀ o, w.contexts a = some o → o.session = k) :
    Holds (w.absorb a k lookup t) a' j s := by
  have hplaces := World.absorb_places_other (w := w) (a := a) (t := t) hlookup hj
  refine ⟨⟨?_, ?_⟩, ?_, ?_, ?_, ?_, ?_, ?_, ?_, ?_⟩
  · intro origin horigin hk
    rcases List.mem_append.1 horigin with hold | hnew
    · exact h.home.origins origin hold hk
    · obtain ⟨target, -, rfl⟩ := List.mem_map.1 hnew
      exact absurd (hk.symm.trans hlookup) hj
  · intro l hl hk
    rcases List.mem_append.1 hl with hold | hnew
    · exact h.home.dns l hold hk
    · obtain ⟨host, -, rfl⟩ := List.mem_map.1 hnew
      exact absurd (hk.symm.trans hlookup) hj
  · rw [hplaces]
    exact h.length
  · intro i p hp
    rw [hplaces] at hp
    obtain ⟨origin, horigin, hsession⟩ := World.mem_places.1 (List.mem_of_getElem? hp)
    have hlt : p < w.bevs.length := hw.length ▸ (List.getElem?_eq_some_iff.1 horigin).1
    refine (hout p hlt ?_).trans (h.bevs i p hp)
    intro hk
    obtain ⟨origin', horigin', hsession'⟩ := World.mem_places.1 hk
    cases horigin.symm.trans horigin'
    exact hj (hsession.symm.trans hsession')
  · intro p a' horigin
    rw [hplaces]
    exact h.client p a' (World.absorb_client horigin)
  · rw [h.rename_eq hs hplaces, ← h.context, World.contextOf, World.contextOf]
    by_cases ha : a' = a
    · subst ha
      -- the address is, or was, that of the session that runs
      rw [World.absorb_contexts_at]
      cases ho : w.contexts a' with
      | none => rfl
      | some o =>
          have hne : o.session ≠ j := fun hj' => hj (hj'.symm.trans (hown o ho))
          cases t.context with
          | none => simp [Option.filter_some, hne]
          | some c => simp [Option.filter_some, hne]
    · rw [World.absorb_contexts_ne ha]
  · intro a₁ o ho hk
    rcases World.absorb_contexts ho with ⟨-, hold⟩ | ⟨rfl, o', c, hold, -, rfl⟩
    · exact h.elsewhere a₁ o hold hk
    · exact h.elsewhere _ o' hold hk
  · have hne : k ≠ j := hj.symm
    have hhosts : (w.absorb a k lookup t).hostsOf j = w.hostsOf j := by
      simp [World.hostsOf, World.absorb, List.filter_map, Function.comp_def, hlookup, hne]
    rw [hhosts]
    exact h.dns
  · have hne : k ≠ j := hj.symm
    rw [h.connects]
    simp [World.targetsOf, World.absorb, List.filterMap_map, Purpose.targetOf, hlookup, hne]
  · rw [h.replies]
    cases ho : w.contexts a with
    | none => simp [World.repliesTo, World.absorb, ho]
    | some o =>
        have hne : k ≠ j := hj.symm
        simp [World.repliesTo, World.absorb, ho, hown o ho, hne, List.filter_map,
          Function.comp_def]

end Absorb

/-! ## Once the context is gone -/

theorem getContext_deleted (hctx : s.context = none) : s.getContext = .error .useAfterFree := by
  rw [Session.getContext, hctx]

/-- A read callback returns only if it has nothing to do. -/
theorem callRead_deleted {T : Table} {p : BevPtr} {c : Callbacks} {choice : Choice}
    (hctx : s.context = none) (h : Session.callRead T p c choice s = .ok t) : t = s := by
  have hget := getContext_deleted hctx
  obtain ⟨readcb, eventcb, arg⟩ := c
  cases readcb with
  | none => exact (Except.ok.inj h).symm
  | some cb =>
      cases cb with
      | localReadCb =>
          cases arg with
          | none => exact (Except.ok.inj h).symm
          | some arg => simp [Session.callRead, Server.localReadCb, Socks5.handleFirst, hget] at h
      | handleSecond =>
          cases arg <;> simp [Session.callRead, Socks5.handleSecond, hget] at h
      | handleLast =>
          cases arg <;> simp [Session.callRead, Socks5.handleLast, hget] at h
      | remoteReadCb =>
          cases arg with
          | none => exact (Except.ok.inj h).symm
          | some arg => simp [Session.callRead, Server.remoteReadCb, hget] at h

/-- An event callback brings no context back and says nothing. -/
theorem callEvent_deleted {p : BevPtr} {c : Callbacks} {what : What} (hctx : s.context = none)
    (h : Session.callEvent P.table p c what s = .ok t) :
    t.context = none ∧ t.replies = s.replies := by
  have hsame : t = s → t.context = none ∧ t.replies = s.replies := by
    rintro rfl
    exact ⟨hctx, rfl⟩
  -- there is nothing to release
  have hreleased : ∀ ctx second, ¬ Releases s ctx second t := by
    intro ctx second hr
    cases hctx.symm.trans hr.context
  unfold Session.callEvent at h
  split at h
  · exact hsame (Except.ok.inj h).symm
  · rcases localEventCb_cases h with ⟨heq, -⟩ | ⟨-, -, ctx, hr⟩
    · exact hsame heq
    · exact absurd hr (hreleased ctx _)
  · rcases remoteEventCb_cases h with ⟨heq, -⟩ | ⟨-, -, -, ctx, second, hr, -⟩ | ⟨hconn, -⟩
    · exact hsame heq
    · exact absurd hr (hreleased ctx second)
    · cases harg : c.cbarg with
      | none =>
          rw [harg] at h
          exact hsame (Except.ok.inj h).symm
      | some arg => simp [harg, Server.remoteEventCb, hconn, getContext_deleted hctx] at h

/-- What happens once the context is gone brings none back and says nothing. -/
theorem Step.deleted {e : Event} (hs : Step P s e t) (hctx : s.context = none) :
    t.context = none ∧ t.replies = s.replies := by
  cases e with
  | socket p e =>
      obtain ⟨b, -, -, hr⟩ := Session.fire_socket hs
      cases hr
      exact ⟨hctx, rfl⟩
  | readCb p choice =>
      obtain ⟨b, -, -, hr⟩ := Session.fire_readCb hs
      rw [callRead_deleted (by exact hctx) hr.symm]
      exact ⟨hctx, rfl⟩
  | eventCb p =>
      obtain ⟨b, what, -, -, hr⟩ := Session.fire_eventCb hs
      exact callEvent_deleted (s := s.setBev p (b.takeEvent what)) hctx hr.symm
  | dnsDone nodename result re =>
      obtain ⟨-, hr⟩ := Session.fire_dnsDone hs
      rw [resolve_deleted (by exact hctx) hr.symm]
      exact ⟨hctx, rfl⟩

/-! ## What happens next -/

/-- The same event, on another bufferevent. -/
def Event.on (i : BevPtr) : Event → Event
  | .socket _ e => .socket i e
  | .readCb _ choice => .readCb i choice
  | .eventCb _ => .eventCb i
  | .dnsDone nodename result re => .dnsDone nodename result re

section On

variable {e : Event} {p i : BevPtr} {ρ : ℕ → ℕ}

theorem Event.rename_on (hbev : e.bev = some p) (hρ : ρ i = p) : (e.on i).rename ρ = e := by
  cases e with
  | dnsDone nodename result re => rfl
  | socket q e =>
      cases hbev
      rw [← hρ]
      rfl
  | readCb q choice =>
      cases hbev
      rw [← hρ]
      rfl
  | eventCb q =>
      cases hbev
      rw [← hρ]
      rfl

theorem Event.bev_on (hbev : e.bev = some p) : (e.on i).bev = some i := by
  cases e with
  | dnsDone nodename result re => cases hbev
  | _ => rfl

end On

/-- What happens next does not find another session's context at its address.  Nothing is
looked for when a socket does something, or when the resolver reports an error. -/
def Apart (w : World) : WorldEvent → Prop
  | .accept _ => True
  | .event (.socket _ _) => True
  | .event e => ∀ p origin o, e.bev = some p → w.origins[p]? = some origin →
      w.contexts origin.arg = some o → o.session = origin.purpose.session
  | .answer _ (.error _) _ => True
  | .answer lookup (.found _) _ => ∀ o, w.contexts lookup.arg = some o → o.session = lookup.session

/-- A session, and what there is to see through its address. -/
theorem Holds.mirrors (h : Holds w a k s) (hw : Consistent w)
    (hown : ∀ o, w.contexts a = some o → o.session = k) :
    Mirrors s (w.placeOf k) w.bevs s (w.view a []) where
  bevs := h.window hw
  context := by
    rw [← h.context, World.view, World.contextOf]
    cases ho : w.contexts a with
    | none => rfl
    | some o => simp [Option.filter_some, hown o ho]
  dns := (List.append_nil _).symm
  addrinfos := rfl
  queries := (List.append_nil _).symm
  connects := (List.append_nil _).symm
  replies := (List.append_nil _).symm

/-- What a callback run with the address of a session leaves alone. -/
theorem Mirrors.outside {log : Session} {s' : Session} {q : BevPtr}
    (h : Mirrors log (w.placeOf k) w.bevs s' t) (hlt : q < w.bevs.length) (hq : q ∉ w.places k) :
    t.bevs[q]? = w.bevs[q]? :=
  h.bevs.outside q (place_ne hq hlt)

/-! ### Changes that no callback makes -/

/-- The lookup of a session is completed. -/
theorem Holds.erase_own {lookup : Lookup} (h : Holds w a k s) (hmem : lookup ∈ w.dns)
    (hlookup : lookup.session = k) :
    Holds { w with dns := w.dns.erase lookup } a k { s with dns := s.dns.erase lookup.host } where
  home := ⟨h.home.origins, fun l hl => h.home.dns l (List.mem_of_mem_erase hl)⟩
  length := h.length
  bevs := h.bevs
  client := h.client
  context := h.context
  elsewhere := h.elsewhere
  dns := by
    have hperm : (w.hostsOf k).Perm
        (lookup.host :: World.hostsOf { w with dns := w.dns.erase lookup } k) := by
      have hcons := ((List.perm_cons_erase hmem).filter fun l => l.session = k).map (·.host)
      rwa [List.filter_cons_of_pos (by simpa using hlookup)] at hcons
    have herase := (h.dns.trans hperm).erase lookup.host
    rwa [List.erase_cons_head] at herase
  connects := h.connects
  replies := h.replies

/-- The lookup of another session is completed. -/
theorem Holds.erase_other {lookup : Lookup} (h : Holds w a j s) (hmem : lookup ∈ w.dns)
    (hj : lookup.session ≠ j) : Holds { w with dns := w.dns.erase lookup } a j s where
  home := ⟨h.home.origins, fun l hl => h.home.dns l (List.mem_of_mem_erase hl)⟩
  length := h.length
  bevs := h.bevs
  client := h.client
  context := h.context
  elsewhere := h.elsewhere
  dns := by
    have hcons := ((List.perm_cons_erase hmem).filter fun l => l.session = j).map (·.host)
    rw [List.filter_cons_of_neg (by simpa using hj)] at hcons
    exact h.dns.trans hcons
  connects := h.connects
  replies := h.replies

/-- A bufferevent of the session has changed. -/
theorem Holds.setBev_own {i p : BevPtr} {b : Bufferevent Callbacks} (h : Holds w a k s)
    (hw : Consistent w) (hp : w.placeOf k i = p) :
    Holds { w with bevs := w.bevs.set p b } a k (s.setBev i b) := by
  have hwindow := (h.window hw).set i b
  have hlen : (w.bevs.set p b).length = w.bevs.length := List.length_set
  have hplace : World.placeOf { w with bevs := w.bevs.set p b } k = w.placeOf k := by
    funext j
    exact congrArg (place (w.places k) · j) hlen
  refine { h with home := ⟨h.home.origins, h.home.dns⟩, length := ?_, bevs := ?_, context := ?_ }
  · rw [Session.setBev, List.length_set]
    exact h.length
  · intro j q hq
    have hin := hwindow.inside j
    have hρ : w.placeOf k j = q := place_of_getElem? hq
    rw [hρ, hp] at hin
    exact hin.trans Option.map_id_apply
  · rw [hplace]
    exact h.context

/-- A bufferevent of another session has changed. -/
theorem Holds.setBev_other {p : BevPtr} {b : Bufferevent Callbacks} (h : Holds w a j s)
    (hp : p ∉ w.places j) : Holds { w with bevs := w.bevs.set p b } a j s := by
  have hlen : (w.bevs.set p b).length = w.bevs.length := List.length_set
  have hplace : World.placeOf { w with bevs := w.bevs.set p b } j = w.placeOf j := by
    funext i
    exact congrArg (place (w.places j) · i) hlen
  refine { h with home := ⟨h.home.origins, h.home.dns⟩, bevs := ?_, context := ?_ }
  · intro i q hq
    have hne : p ≠ q := by
      rintro rfl
      exact hp (List.mem_of_getElem? hq)
    exact (List.getElem?_set_ne hne).trans (h.bevs i q hq)
  · rw [hplace]
    exact h.context

/-- When the resolver reports an error, nothing but the lookup is gone. -/
theorem World.absorb_error {lookup : Lookup} {code re : ℤ}
    (hstep : Step P (w.view lookup.arg [lookup.host])
      (.dnsDone lookup.host (.error code) re) t) :
    { w with dns := w.dns.erase lookup }.absorb lookup.arg lookup.session lookup t =
      { w with dns := w.dns.erase lookup } := by
  obtain ⟨-, hr⟩ := Session.fire_dnsDone hstep
  have ht : t = { w.view lookup.arg [] with bevs := w.bevs } := by
    refine (Except.ok.inj hr).trans ?_
    simp only [World.view, List.erase_cons_head]
  rw [ht]
  exact World.absorb_view { w with dns := w.dns.erase lookup } ..

/-! ### A client connects -/

theorem World.accepting_places_other (w : World) (a : Addr) (hj : j ≠ w.accepted) :
    (w.accepting a).places j = w.places j := by
  have hne : w.accepted ≠ j := hj.symm
  rw [places, accepting, List.findIdxs_append, places]
  simp [Purpose.session, hne]

theorem World.accepting_places_own (hw : Consistent w) (a : Addr) :
    (w.accepting a).places w.accepted = [w.bevs.length] := by
  have hnone : w.origins.findIdxs (fun origin => origin.purpose.session = w.accepted) = [] := by
    refine List.findIdxs_eq_nil_iff.2 fun origin horigin => decide_eq_false ?_
    exact (hw.fresh.1 origin horigin).ne
  rw [places, accepting, List.findIdxs_append, hnone, hw.length]
  simp [Purpose.session]

/-- The client that has just connected has the next bufferevent. -/
theorem World.accepting_placeOf (hw : Consistent w) (a : Addr) :
    (w.accepting a).placeOf w.accepted 0 = w.bevs.length := by
  rw [placeOf, accepting_places_own hw]
  rfl

/-- The session of a client that connects. -/
theorem Holds.accepted (hw : Consistent w) (hheard : ∀ r ∈ w.replies, r.client < w.accepted) :
    Holds (w.accepting a) a w.accepted Session.accepted := by
  have hplaces := World.accepting_places_own hw a
  have hplace := World.accepting_placeOf hw a
  refine ⟨⟨?_, ?_⟩, ?_, ?_, ?_, ?_, ?_, ?_, ?_, ?_⟩
  · intro origin horigin hk
    rcases List.mem_append.1 horigin with hold | hnew
    · exact absurd hk (hw.fresh.1 origin hold).ne
    · rw [List.mem_singleton.1 hnew]
  · intro l hl hk
    exact absurd hk (hw.fresh.2 l hl).ne
  · rw [hplaces]
    rfl
  · intro i p hp
    rw [hplaces] at hp
    obtain ⟨rfl, rfl⟩ := getElem?_one hp
    exact List.getElem?_concat_length
  · intro p a' horigin
    rw [hplaces]
    rcases getElem?_snoc horigin with hold | ⟨rfl, -⟩
    · exact absurd rfl (hw.fresh.1 _ (List.mem_of_getElem? hold)).ne
    · rw [hw.length]
      rfl
  · have hctx : (w.accepting a).contexts a =
        some ⟨w.accepted, ⟨some w.bevs.length, none, 0, []⟩⟩ := Function.update_self ..
    simp [World.contextOf, hctx, Session.accepted, Socks5ctx.rename, hplace]
  · intro a' o ho hk
    rcases World.accepting_contexts ho with ho | ⟨rfl, -⟩
    · obtain ⟨p, -, horigin⟩ := hw.self a' o ho
      exact absurd hk (hw.fresh.1 _ (List.mem_of_getElem? horigin)).ne
    · rfl
  · have hhosts : (w.accepting a).hostsOf w.accepted = [] := by
      refine List.map_eq_nil_iff.2 (List.filter_eq_nil_iff.2 fun l hl => ?_)
      simpa using (hw.fresh.2 l hl).ne
    rw [hhosts]
    exact .nil
  · have htargets : w.targetsOf w.accepted = [] := by
      refine List.filterMap_eq_nil_iff.2 fun origin horigin => ?_
      have hlt := hw.fresh.1 origin horigin
      cases hp : origin.purpose with
      | client k => rfl
      | remote l target =>
          rw [hp] at hlt
          exact if_neg hlt.ne
    have hnew : (w.accepting a).targetsOf w.accepted =
        w.targetsOf w.accepted ++ (Purpose.targetOf w.accepted (.client w.accepted)).toList := by
      rw [World.targetsOf, World.accepting, List.filterMap_append]
      rfl
    rw [hnew, htargets]
    rfl
  · have hreplies : (w.accepting a).repliesTo w.accepted = [] := by
      refine List.map_eq_nil_iff.2 (List.filter_eq_nil_iff.2 fun r hr => ?_)
      simpa using (hheard r hr).ne
    rw [hreplies]
    rfl

/-- It is nothing to the others. -/
theorem Holds.accepting (h : Holds w a' j s) (hw : Consistent w) (hs : s.Enclosed)
    (hj : j < w.accepted) (hfree : w.contexts a = none) : Holds (w.accepting a) a' j s := by
  have hplaces := w.accepting_places_other a hj.ne
  have hne : w.accepted ≠ j := hj.ne'
  refine ⟨⟨?_, h.home.dns⟩, ?_, ?_, ?_, ?_, ?_, h.dns, ?_, h.replies⟩
  · intro origin horigin hk
    rcases List.mem_append.1 horigin with hold | hnew
    · exact h.home.origins origin hold hk
    · rw [List.mem_singleton.1 hnew] at hk
      exact absurd hk hne
  · rw [hplaces]
    exact h.length
  · intro i p hp
    rw [hplaces] at hp
    obtain ⟨origin, horigin, -⟩ := World.mem_places.1 (List.mem_of_getElem? hp)
    have hlt : p < w.bevs.length := hw.length ▸ (List.getElem?_eq_some_iff.1 horigin).1
    rw [World.accepting, List.getElem?_append_left hlt]
    exact h.bevs i p hp
  · intro p a₁ horigin
    rw [hplaces]
    rcases getElem?_snoc horigin with hold | ⟨-, heq⟩
    · exact h.client p a₁ hold
    · cases heq
      exact absurd rfl hne
  · rw [h.rename_eq hs hplaces, ← h.context, World.contextOf, World.contextOf]
    by_cases ha : a' = a
    · have hctx : (w.accepting a).contexts a =
          some ⟨w.accepted, ⟨some w.bevs.length, none, 0, []⟩⟩ := Function.update_self ..
      simp [ha, hctx, hfree, Option.filter_some, hne]
    · have hctx : (w.accepting a).contexts a' = w.contexts a' := Function.update_of_ne ha ..
      rw [hctx]
  · intro a₁ o ho hk
    rcases World.accepting_contexts ho with ho | ⟨-, rfl⟩
    · exact h.elsewhere a₁ o ho hk
    · exact absurd hk hne
  · have hnew : (w.accepting a).targetsOf j =
        w.targetsOf j ++ (Purpose.targetOf j (.client w.accepted)).toList := by
      rw [World.targetsOf, World.accepting, List.filterMap_append]
      rfl
    rw [hnew, h.connects]
    exact (List.append_nil _).symm

/-! ### Every session goes on as it would alone -/

/-- What an event of the session `k` is in the server: the same event, on the bufferevent
where the server has it, or the same answer, to a lookup that `k` has made. -/
inductive Lifts (w : World) (k : ℕ) : Event → WorldEvent → Prop where
  | event {e : Event} (hbev : e.bev ≠ none) : Lifts w k e (.event (e.rename (w.placeOf k)))
  | answer {lookup : Lookup} {result : DnsResult} {re : ℤ} (hmem : lookup ∈ w.dns)
      (hsession : lookup.session = k) :
      Lifts w k (.dnsDone lookup.host result re) (.answer lookup result re)

/-- An event on a bufferevent of the session, as an event of the session. -/
theorem Lifts.on {e : Event} {p i : BevPtr} (hbev : e.bev = some p) (hi : w.placeOf k i = p) :
    Lifts w k (e.on i) (.event e) := by
  have hlift : Lifts w k (e.on i) (.event ((e.on i).rename (w.placeOf k))) :=
    .event (by rw [Event.bev_on hbev]; simp)
  rwa [Event.rename_on hbev hi] at hlift

theorem Lifts.event_eq {e : Event} {e' : WorldEvent} (h : Lifts w k e e') (hbev : e.bev ≠ none) :
    e' = .event (e.rename (w.placeOf k)) := by
  cases h with
  | event => rfl
  | answer => exact absurd rfl hbev

/-- An event on a bufferevent of the session is an event of the session, when the context at
its address is its own. -/
theorem Holds.fire_event {e : Event} {p : BevPtr} {origin : Origin} (h : Holds w a k s)
    (hw : Consistent w) (hbev : e.bev = some p) (horigin : w.origins[p]? = some origin)
    (hk : origin.purpose.session = k) (hown : ∀ o, w.contexts a = some o → o.session = k) :
    ∃ e', Lifts w k e' (.event e) ∧
      Option.Rel (Related (Mirrors s (w.placeOf k) w.bevs)) (s.fire P.table e')
        ((w.view a []).fire P.table e) := by
  obtain ⟨i, hi, -⟩ := h.exists_place horigin hk
  have hrel := (h.mirrors hw hown).fire P.table (Event.bev_on (i := i) hbev)
  rw [Event.rename_on hbev hi] at hrel
  exact ⟨_, .on hbev hi, hrel⟩

/-- The session waits for its lookup. -/
theorem Holds.mem_dns {lookup : Lookup} (h : Holds w a k s) (hmem : lookup ∈ w.dns)
    (hk : lookup.session = k) : lookup.host ∈ s.dns :=
  h.dns.mem_iff.2 (List.mem_map_of_mem (List.mem_filter.2 ⟨hmem, decide_eq_true hk⟩))

/-- An answer to a lookup of the session is an answer to the session, when the context at its
address is its own. -/
theorem Holds.fire_answer {lookup : Lookup} (result : DnsResult) (re : ℤ) (h : Holds w a k s)
    (hw : Consistent w) (hmem : lookup ∈ w.dns) (hk : lookup.session = k)
    (hown : ∀ o, w.contexts a = some o → o.session = k) :
    Option.Rel (Related (Mirrors { s with dns := s.dns.erase lookup.host } (w.placeOf k) w.bevs))
      (s.fire P.table (.dnsDone lookup.host result re))
      ((w.view a [lookup.host]).fire P.table (.dnsDone lookup.host result re)) := by
  have hmirrors := (h.erase_own hmem hk).mirrors (hw.erase lookup) hown
  simp only [Session.fire]
  rw [if_pos (h.mem_dns hmem hk), if_pos (by exact List.mem_singleton_self _)]
  rw [World.view, List.erase_cons_head]
  exact .some (hmirrors.resolve re result)

/-- The pointers of a session that can be reached are to bufferevents of its own. -/
theorem Reachable.enclosed (h : Reachable P s) : s.Enclosed := by
  obtain ⟨m, hs⟩ := h.shape
  intro c hc p hp
  cases hs with
  | orphaned => cases hc
  | abandoned => cases hc
  | closedAlone => cases hc
  | closedPaired => cases hc
  | relay =>
      cases hc
      rcases hp with hp | hp
      · cases hp
        exact Nat.zero_lt_two
      · cases hp
        exact Nat.one_lt_two
  | stranded =>
      cases hc
      rcases hp with hp | hp
      · cases hp
        exact Nat.zero_lt_two
      · cases hp
  | _ =>
      cases hc
      rcases hp with hp | hp
      · cases hp
        exact Nat.zero_lt_one
      · cases hp

/-- What the session does alone, the world absorbs. -/
theorem Holds.absorb_event {e : Event} {p : BevPtr} {origin : Origin} {s' : Session}
    (h : Holds w origin.arg origin.purpose.session s) (hw : Consistent w) (hbev : e.bev = some p)
    (horigin : w.origins[p]? = some origin)
    (hown : ∀ o, w.contexts origin.arg = some o → o.session = origin.purpose.session)
    (hstep : Step P (w.view origin.arg []) e t)
    (hm : Mirrors s (w.placeOf origin.purpose.session) w.bevs s' t) :
    Holds (w.absorb origin.arg origin.purpose.session
        (World.request origin.purpose.session origin.arg t) t)
      origin.arg origin.purpose.session s' := by
  obtain ⟨lookups, heff⟩ := (Called.of_event hw hbev horigin hstep).ran.effect
  refine h.absorb_own hw hm heff.length rfl (fun _ => rfl) hown fun hnone => ?_
  exact hstep.deleted (by rw [World.view, hnone]; rfl)

theorem Holds.absorb_answer {lookup : Lookup} {result : DnsResult} {re : ℤ} {s' : Session}
    (h : Holds w lookup.arg lookup.session s) (hw : Consistent w) (hmem : lookup ∈ w.dns)
    (hown : ∀ o, w.contexts lookup.arg = some o → o.session = lookup.session)
    (hstep : Step P (w.view lookup.arg [lookup.host]) (.dnsDone lookup.host result re) t)
    (hm : Mirrors { s with dns := s.dns.erase lookup.host } (w.placeOf lookup.session) w.bevs
      s' t) :
    Holds ({ w with dns := w.dns.erase lookup }.absorb lookup.arg lookup.session lookup t)
      lookup.arg lookup.session s' := by
  obtain ⟨lookups, heff⟩ := (Called.of_answer hw hmem hstep).ran.effect
  refine (h.erase_own hmem rfl).absorb_own (hw.erase lookup) hm heff.length rfl (fun _ => rfl) hown
    fun hnone => ?_
  exact hstep.deleted (by rw [World.view]; exact congrArg (Option.map _) hnone)

/-- **The session an event is for takes a step**, which it could take alone. -/
theorem WorldStep.session_step {e : WorldEvent} (h : WorldStep P w e w') (hw : Consistent w)
    (hapart : Apart w e) (hk : e.session w = some k) (hs : Holds w a k s) :
    ∃ e' s', Lifts w k e' e ∧ Step P s e' s' ∧ Holds w' a k s' := by
  cases h.cases with
  | accept free => cases hk
  | @event e p origin t hbev horigin hstep =>
      have hsession : origin.purpose.session = k := by
        simpa [WorldEvent.session, hbev, horigin] using hk
      obtain rfl := hs.home.origins origin (List.mem_of_getElem? horigin) hsession
      cases e with
      | dnsDone nodename result re => cases hbev
      | socket q e =>
          obtain rfl := Option.some.inj hbev
          obtain ⟨b, hb, hadmits, hr⟩ := Session.fire_socket hstep
          cases hr
          obtain ⟨i, hi, hcell⟩ := hs.exists_place horigin hsession
          refine ⟨.socket i e, _, .on (e := .socket q e) rfl hi,
            .socket (hcell.trans hb) hadmits, ?_⟩
          rw [Session.setBev, World.absorb_view]
          exact hs.setBev_own hw hi
      | _ =>
          have hown : ∀ o, w.contexts origin.arg = some o → o.session = k := by
            intro o ho
            exact (hapart _ origin o hbev horigin ho).trans hsession
          obtain ⟨e', hlift, hrel⟩ := hs.fire_event (P := P) hw hbev horigin hsession hown
          obtain ⟨s', hs', hm⟩ := Related.of_rel_ok hrel hstep
          subst hsession
          exact ⟨e', s', hlift, hs', hs.absorb_event hw hbev horigin hown hstep hm⟩
  | @answer lookup result re t hmem hstep =>
      have hsession : lookup.session = k := Option.some.inj hk
      subst hsession
      obtain rfl := hs.home.dns lookup hmem rfl
      cases result with
      | error code =>
          -- an error changes nothing
          have hfire : s.fire P.table (.dnsDone lookup.host (.error code) re) =
              some (.ok { s with dns := s.dns.erase lookup.host }) :=
            if_pos (hs.mem_dns hmem rfl)
          rw [World.absorb_error hstep]
          exact ⟨_, _, .answer hmem rfl, hfire, hs.erase_own hmem rfl⟩
      | found answer =>
          have hrel := hs.fire_answer (P := P) (.found answer) re hw hmem rfl hapart
          obtain ⟨s', hs', hm⟩ := Related.of_rel_ok hrel hstep
          exact ⟨_, s', .answer hmem rfl, hs', hs.absorb_answer hw hmem hapart hstep hm⟩

/-- **The other sessions stay as they are.** -/
theorem WorldStep.session_stays {e : WorldEvent} {s' : Session} (h : WorldStep P w e w')
    (hw : Consistent w) (hapart : Apart w e) (hk : e.session w = some k) (hs : Holds w a k s)
    (hj : j ≠ k) (hother : Holds w a' j s') (henclosed : s'.Enclosed) : Holds w' a' j s' := by
  cases h.cases with
  | accept free => cases hk
  | @event e p origin t hbev horigin hstep =>
      have hsession : origin.purpose.session = k := by
        simpa [WorldEvent.session, hbev, horigin] using hk
      obtain rfl := hs.home.origins origin (List.mem_of_getElem? horigin) hsession
      cases e with
      | dnsDone nodename result re => cases hbev
      | socket q e =>
          obtain rfl := Option.some.inj hbev
          obtain ⟨b, hb, hadmits, hr⟩ := Session.fire_socket hstep
          cases hr
          rw [Session.setBev, World.absorb_view]
          refine hother.setBev_other fun hmem => ?_
          obtain ⟨origin', horigin', hsession'⟩ := World.mem_places.1 hmem
          cases horigin.symm.trans horigin'
          exact hj (hsession'.symm.trans hsession)
      | _ =>
          have hown : ∀ o, w.contexts origin.arg = some o → o.session = k := by
            intro o ho
            exact (hapart _ origin o hbev horigin ho).trans hsession
          obtain ⟨e', -, hrel⟩ := hs.fire_event (P := P) hw hbev horigin hsession hown
          obtain ⟨s₁, -, hm⟩ := Related.of_rel_ok hrel hstep
          subst hsession
          exact hother.absorb_other hw henclosed hj rfl (fun q hlt hq => hm.outside hlt hq) hown
  | @answer lookup result re t hmem hstep =>
      have hsession : lookup.session = k := Option.some.inj hk
      subst hsession
      obtain rfl := hs.home.dns lookup hmem rfl
      have herased := hother.erase_other hmem hj.symm
      cases result with
      | error code =>
          rw [World.absorb_error hstep]
          exact herased
      | found answer =>
          have hrel := hs.fire_answer (P := P) (.found answer) re hw hmem rfl hapart
          obtain ⟨s₁, -, hm⟩ := Related.of_rel_ok hrel hstep
          exact herased.absorb_other (hw.erase lookup) henclosed hj rfl
            (fun q hlt hq => hm.outside hlt hq) hapart

end LightSocks
