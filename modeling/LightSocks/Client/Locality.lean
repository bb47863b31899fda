import LightSocks.HeapWindow
import LightSocks.Client.Simulation

/-!
# The callbacks of a connection do not look elsewhere

The client has no contexts: the callback argument of a bufferevent is another bufferevent.
Seen through a window on the heap, the callbacks of a connection do what they would do on a
heap of their own, where the arguments have other addresses too.

* `Callbacks.rename`, `Event.rename` — registrations and events with other addresses.
* `HeapWindow.transfer`, `HeapWindow.pass` — the read callbacks.
* `HeapWindow.callRead`, `HeapWindow.callWrite`, `HeapWindow.callEvent` — callback by
  callback.
* `HeapWindow.fire` — whatever happens next.
-/

namespace LightSocks

open Memory Client

namespace Client

/-- The same registration, with another address as the argument. -/
def Callbacks.rename (σ : ℕ → ℕ) (c : Callbacks) : Callbacks :=
  { c with cbarg := c.cbarg.map σ }

/-- The same event, at another address. -/
def Event.rename (σ : ℕ → ℕ) : Event → Event
  | .accept re => .accept re
  | .socket p e => .socket (σ p) e
  | .readCb p => .readCb (σ p)

/-- The bufferevent an event happens to. -/
def Event.bev : Event → Option BevPtr
  | .accept _ => none
  | .socket p _ => some p
  | .readCb p => some p

end Client

namespace HeapWindow

/-! ## The read callbacks -/

section Read

variable {κ κ' : Type} {ρ : ℕ → ℕ} {φ : κ → κ'} {g₀ g : Heap κ'} {h : Heap κ} {table : Table}

/-- One round of the loop, and the rest. -/
theorem transfer_eq_bind (p : BevPtr) (len : ℕ) (temp : List UInt8) (h : Heap κ) :
    Client.transfer table p len temp h =
      if len = 0 then .ok (temp, h)
      else h.read p 1023 >>= fun r => substitute table 1024 r.1 >>= fun tempData =>
        r.2.inputLength p >>= fun len₁ => Client.transfer table p len₁ (temp ++ tempData) r.2 := by
  rw [Client.transfer]
  by_cases hlen : len = 0
  · rw [dif_pos hlen, if_pos hlen]
  rw [dif_neg hlen, if_neg hlen]
  split
  · rename_i e hr
    rw [hr]
    rfl
  · rename_i data h₁ hr
    rw [hr, ok_bind]
    dsimp only
    split
    · rename_i e hs
      rw [hs]
      rfl
    · rename_i tempData hs
      rw [hs, ok_bind]
      split
      · rename_i e hn
        rw [hn]
        rfl
      · rename_i len₁ hn
        rw [hn]
        rfl

/-- **The reading loop.** -/
theorem transfer (hw : HeapWindow ρ φ g₀ h g) (p : BevPtr) (len : ℕ) (temp : List UInt8) :
    Related (fun x y => x.1 = y.1 ∧ HeapWindow ρ φ g₀ x.2 y.2)
      (Client.transfer table p len temp h) (Client.transfer table (ρ p) len temp g) := by
  induction hn : Cipher.pendingInput h p + min len 1 using Nat.strong_induction_on
    generalizing len temp h g with
  | _ n ih =>
      rw [transfer_eq_bind, transfer_eq_bind]
      by_cases hlen : len = 0
      · rw [if_pos hlen, if_pos hlen]
        exact .ok ⟨rfl, hw⟩
      rw [if_neg hlen, if_neg hlen]
      refine (hw.read p 1023).bind_eq ?_
      rintro ⟨data, h₁⟩ ⟨_, g₁⟩ hr ⟨rfl, hw₁⟩
      dsimp only at hw₁ ⊢
      refine (Related.refl (R := Eq) (fun _ => rfl) _).bind ?_
      rintro tempData _ rfl
      refine (hw₁.inputLength p).bind_eq ?_
      rintro len₁ _ hlen₁ rfl
      -- what is counted down is the loop's own measure
      obtain ⟨-, hpending⟩ := Cipher.pendingInput_read hr
      have hlen₁' : len₁ = Cipher.pendingInput h₁ p := Client.inputLength_eq hlen₁
      exact ih _ (by omega) hw₁ len₁ _ rfl

theorem pass (hw : HeapWindow ρ φ g₀ h g) (p : BevPtr) (arg : Option BevPtr) :
    Related (HeapWindow ρ φ g₀) (Client.pass table p arg h)
      (Client.pass table (ρ p) (arg.map ρ) g) := by
  unfold Client.pass
  refine (hw.inputLength p).bind ?_
  rintro len _ rfl
  have hrest : ∀ h g, HeapWindow ρ φ g₀ h g → Related (HeapWindow ρ φ g₀)
      (Client.transfer table p len [] h >>= fun r => LightSocks.nonnull arg >>= fun partner =>
        r.2.write partner r.1)
      (Client.transfer table (ρ p) len [] g >>= fun r =>
        LightSocks.nonnull (arg.map ρ) >>= fun partner => r.2.write partner r.1) := by
    intro h g hw
    refine (hw.transfer p len []).bind ?_
    rintro ⟨temp, h⟩ ⟨_, g⟩ ⟨rfl, hw⟩
    refine (nonnull ρ arg).bind ?_
    rintro q _ rfl
    exact hw.write q temp
  cases arg with
  | none => exact (hw.drainInput p len).bind hrest
  | some q => exact hrest h g hw

end Read

/-! ## The other callbacks -/

section Callbacks

variable {ρ σ : ℕ → ℕ} {g₀ g h : State} {T : Table}

theorem freeBoth (hw : HeapWindow ρ (Callbacks.rename σ) g₀ h g) (p : BevPtr)
    (partner : Option BevPtr) : Related (HeapWindow ρ (Callbacks.rename σ) g₀)
      (Client.freeBoth p partner h) (Client.freeBoth (ρ p) (partner.map ρ) g) := by
  unfold Client.freeBoth
  refine (hw.free p).bind ?_
  intro h g hw
  refine (nonnull ρ partner).bind ?_
  rintro q _ rfl
  exact hw.free q

/-- A side has ended: what becomes of the other one, and of itself. -/
theorem finish (hw : HeapWindow ρ (Callbacks.rename σ) g₀ h g) (p q : BevPtr) (e : EventCb) :
    Related (HeapWindow ρ (Callbacks.rename σ) g₀)
      (do let len ← h.outputLength q
          let h ← if len ≠ 0 then do
              let h ← h.setcb q ⟨none, some .closeOnFinishedWriteCb, some e, none⟩
              h.disableRead q
            else h.free q
          h.free p)
      (do let len ← g.outputLength (ρ q)
          let g ← if len ≠ 0 then do
              let g ← g.setcb (ρ q) ⟨none, some .closeOnFinishedWriteCb, some e, none⟩
              g.disableRead (ρ q)
            else g.free (ρ q)
          g.free (ρ p)) := by
  refine (hw.outputLength q).bind ?_
  rintro len _ rfl
  refine .ite Iff.rfl ?_ ?_
  · refine (hw.setcb q ⟨none, some .closeOnFinishedWriteCb, some e, none⟩).bind ?_
    intro h g hw
    refine (hw.disableRead q).bind ?_
    intro h g hw
    exact hw.free p
  · refine (hw.free q).bind ?_
    intro h g hw
    exact hw.free p

theorem localEventCb (hw : HeapWindow ρ (Callbacks.rename σ) g₀ h g) (p : BevPtr) (what : What)
    (ctx : Option BevPtr) : Related (HeapWindow ρ (Callbacks.rename σ) g₀)
      (Client.localEventCb T p what ctx h) (Client.localEventCb T (ρ p) what (ctx.map ρ) g) := by
  unfold Client.localEventCb
  refine .ite Iff.rfl ?_ (.ite Iff.rfl (hw.freeBoth p ctx) (.ite Iff.rfl (hw.freeBoth p ctx)
    (hw.freeBoth p ctx)))
  cases ctx with
  | none => exact hw.free p
  | some q =>
      refine (hw.pass p (some q)).bind ?_
      intro h g hw
      exact hw.finish p q .remoteEventCb

theorem remoteEventCb (hw : HeapWindow ρ (Callbacks.rename σ) g₀ h g) (p : BevPtr) (what : What)
    (ctx : Option BevPtr) : Related (HeapWindow ρ (Callbacks.rename σ) g₀)
      (Client.remoteEventCb T p what ctx h)
      (Client.remoteEventCb T (ρ p) what (ctx.map ρ) g) := by
  unfold Client.remoteEventCb
  refine .ite Iff.rfl (.ok hw) (.ite Iff.rfl ?_ (.ite Iff.rfl (hw.freeBoth p ctx) (.ok hw)))
  cases ctx with
  | none => exact hw.free p
  | some q =>
      refine (hw.outputLength q).bind ?_
      rintro _ _ -
      refine (hw.pass p (some q)).bind ?_
      intro h g hw
      exact hw.finish p q .localEventCb

theorem callRead (hw : HeapWindow ρ (Callbacks.rename σ) g₀ h g) (p : BevPtr) (c : Callbacks) :
    Related (HeapWindow ρ (Callbacks.rename σ) g₀) (Client.callRead T p c h)
      (Client.callRead T (ρ p) (c.rename ρ) g) := by
  obtain ⟨readcb, writecb, eventcb, cbarg⟩ := c
  cases readcb with
  | none => exact .ok hw
  | some cb =>
      cases cb with
      | localReadCb => exact hw.pass p cbarg
      | remoteReadCb => exact hw.pass p cbarg

theorem callWrite (hw : HeapWindow ρ (Callbacks.rename σ) g₀ h g) (p : BevPtr) (c : Callbacks) :
    Related (HeapWindow ρ (Callbacks.rename σ) g₀) (Client.callWrite p c h)
      (Client.callWrite (ρ p) (c.rename ρ) g) := by
  obtain ⟨readcb, writecb, eventcb, cbarg⟩ := c
  cases writecb with
  | none => exact .ok hw
  | some cb =>
      cases cb with
      | closeOnFinishedWriteCb =>
          refine (hw.outputLength p).bind ?_
          rintro len _ rfl
          exact .ite Iff.rfl (hw.free p) (.ok hw)

theorem callEvent (hw : HeapWindow ρ (Callbacks.rename σ) g₀ h g) (p : BevPtr) (c : Callbacks)
    (what : What) : Related (HeapWindow ρ (Callbacks.rename σ) g₀)
      (Client.callEvent T p c what h) (Client.callEvent T (ρ p) (c.rename ρ) what g) := by
  obtain ⟨readcb, writecb, eventcb, cbarg⟩ := c
  cases eventcb with
  | none => exact .ok hw
  | some cb =>
      cases cb with
      | localEventCb => exact hw.localEventCb p what cbarg
      | remoteEventCb => exact hw.remoteEventCb p what cbarg

/-- What follows a socket event of a bufferevent whose argument is where the window shows
it. -/
theorem notify (hw : HeapWindow ρ (Callbacks.rename σ) g₀ h g) (p : BevPtr) (e : SocketEvent)
    {b : Bufferevent Callbacks} (hb : b.callbacks.rename σ = b.callbacks.rename ρ) :
    Related (HeapWindow ρ (Callbacks.rename σ) g₀) (Client.notify T p e b h)
      (Client.notify T (ρ p) e (b.mapCallbacks (Callbacks.rename σ)) g) := by
  have hcall : Related (HeapWindow ρ (Callbacks.rename σ) g₀)
      (Client.callEvent T p b.callbacks b.eventPending (h.set p (b.takeEvent b.eventPending)))
      (Client.callEvent T (ρ p) (b.callbacks.rename σ) b.eventPending
        (g.set (ρ p) ((b.takeEvent b.eventPending).mapCallbacks (Callbacks.rename σ)))) := by
    rw [hb]
    exact HeapWindow.callEvent (hw.set p _) p _ _
  cases e with
  | recv data => exact .ok (hw.set p b)
  | flush n =>
      refine .ite Iff.rfl ?_ (.ok (hw.set p b))
      show Related _ _ (Client.callWrite (ρ p) (b.callbacks.rename σ) _)
      rw [hb]
      exact HeapWindow.callWrite (hw.set p b) p _
  | connected | connectError | eof | readError | writeError | timeout => exact hcall

/-- **An event** is possible on both sides or on none, and then does the same. -/
theorem fire (hw : HeapWindow ρ (Callbacks.rename σ) g₀ h g) {p : BevPtr} {e : Event}
    (hbev : e.bev = some p) (hlive : ∀ b, h[p]? = some b → b.live = true →
      b.callbacks.rename σ = b.callbacks.rename ρ) :
    Option.Rel (Related (HeapWindow ρ (Callbacks.rename σ) g₀)) (Client.fire T h e)
      (Client.fire T g (e.rename ρ)) := by
  have hcell : g[ρ p]? = h[p]?.map (Bufferevent.mapCallbacks (Callbacks.rename σ)) := hw.inside p
  cases e with
  | accept re => cases hbev
  | socket q e =>
      obtain rfl := Option.some.inj hbev
      simp only [Client.fire, Event.rename, hcell]
      cases hb : h[q]? with
      | none => exact .none
      | some b =>
          simp only [Option.map_some, Bufferevent.admits_mapCallbacks,
            Bufferevent.socket_mapCallbacks]
          by_cases he : b.Admits e
          · rw [if_pos he, if_pos he]
            refine .some (hw.notify q e ?_)
            have hsocket : (b.socket e).callbacks = b.callbacks := by cases e <;> rfl
            rw [hsocket]
            exact hlive b hb (live_of_admits he)
          · rw [if_neg he, if_neg he]
            exact .none
  | readCb q =>
      obtain rfl := Option.some.inj hbev
      simp only [Client.fire, Event.rename, hcell]
      cases hb : h[q]? with
      | none => exact .none
      | some b =>
          simp only [Option.map_some]
          by_cases hdue : b.readDue = true
          · rw [if_pos hdue, if_pos (by exact hdue)]
            have hbl : b.live = true := by
              simp only [Bufferevent.readDue, Bool.and_eq_true] at hdue
              exact hdue.1.1
            have hc : (b.mapCallbacks (Callbacks.rename σ)).callbacks = b.callbacks.rename ρ :=
              hlive b hb hbl
            rw [hc]
            exact .some (HeapWindow.callRead (hw.set q b.takeRead) q _)
          · rw [if_neg hdue, if_neg (by exact hdue)]
            exact .none

end Callbacks

end HeapWindow

end LightSocks
