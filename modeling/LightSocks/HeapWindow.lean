import LightSocks.Cipher
import LightSocks.Lib.Window

/-!
# Buffered sockets seen through a window

A program that owns a few of the bufferevents of a heap does to them what it would do if
there were no others: every operation on its own heap keeps step with the same operation
on the whole.  What is registered may differ, because a callback argument can be an
address itself.

* `Bufferevent.mapCallbacks` — a bufferevent with something else registered.
* `HeapWindow` — the bufferevents of a heap that a program owns.
* `HeapWindow.deref`, `HeapWindow.update` — from which the other operations follow.
* `HeapWindow.relay` — the bulk functions of the cipher.
-/

namespace LightSocks

open Memory

/-- The same bufferevent, with the registration translated. -/
def Bufferevent.mapCallbacks {κ κ' : Type} (φ : κ → κ') (b : Bufferevent κ) : Bufferevent κ' where
  live := b.live
  callbacks := φ b.callbacks
  link := b.link
  readEnabled := b.readEnabled
  writeEnabled := b.writeEnabled
  readTimeout := b.readTimeout
  input := b.input
  output := b.output
  readPending := b.readPending
  eventPending := b.eventPending
  reported := b.reported

section MapCallbacks

variable {κ κ' : Type} (φ : κ → κ') (b : Bufferevent κ)

@[simp] theorem Bufferevent.mapCallbacks_id : b.mapCallbacks id = b := rfl

theorem Bufferevent.socket_mapCallbacks (e : SocketEvent) :
    (b.mapCallbacks φ).socket e = (b.socket e).mapCallbacks φ := by
  cases e <;> rfl

theorem Bufferevent.admits_mapCallbacks (e : SocketEvent) :
    (b.mapCallbacks φ).Admits e ↔ b.Admits e := by
  cases e <;> rfl

end MapCallbacks

/-- `h` is what is seen of `g` through the addresses `ρ 0, ρ 1, …`. -/
abbrev HeapWindow {κ κ' : Type} (ρ : ℕ → ℕ) (φ : κ → κ') (g₀ : Heap κ') (h : Heap κ)
    (g : Heap κ') : Prop := Window ρ (Bufferevent.mapCallbacks φ) g₀ h g

namespace HeapWindow

variable {κ κ' : Type} {ρ : ℕ → ℕ} {φ : κ → κ'} {g₀ g : Heap κ'} {h : Heap κ}

/-! ## One operation -/

theorem deref (hw : HeapWindow ρ φ g₀ h g) (i : BevPtr) :
    Related (fun b c => c = b.mapCallbacks φ) (h.deref i) (g.deref (ρ i)) := by
  unfold Heap.deref
  rw [hw.inside]
  cases h[i]? with
  | none => exact .error _
  | some b =>
      simp only [Option.map_some]
      cases hl : b.live with
      | true =>
          rw [if_pos rfl, if_pos (by exact hl)]
          exact .ok rfl
      | false =>
          rw [if_neg (by decide), if_neg (by simp [Bufferevent.mapCallbacks, hl])]
          exact .error _

/-- **An update** that does not depend on what is registered. -/
theorem update (hw : HeapWindow ρ φ g₀ h g) (i : BevPtr) {F : Bufferevent κ → Bufferevent κ}
    {G : Bufferevent κ' → Bufferevent κ'}
    (hFG : ∀ b, G (b.mapCallbacks φ) = (F b).mapCallbacks φ) :
    Related (HeapWindow ρ φ g₀) (h.update i F) (g.update (ρ i) G) := by
  refine (hw.deref i).bind ?_
  rintro b c rfl
  refine .ok ?_
  rw [hFG]
  exact hw.set i (F b)

theorem read (hw : HeapWindow ρ φ g₀ h g) (i : BevPtr) (n : ℕ) :
    Related (fun x y => x.1 = y.1 ∧ HeapWindow ρ φ g₀ x.2 y.2) (h.read i n) (g.read (ρ i) n) := by
  refine (hw.deref i).bind ?_
  rintro b c rfl
  exact .ok ⟨rfl, hw.set i (b.consume n)⟩

theorem write (hw : HeapWindow ρ φ g₀ h g) (i : BevPtr) (data : List UInt8) :
    Related (HeapWindow ρ φ g₀) (h.write i data) (g.write (ρ i) data) :=
  hw.update i fun _ => rfl

theorem inputLength (hw : HeapWindow ρ φ g₀ h g) (i : BevPtr) :
    Related Eq (h.inputLength i) (g.inputLength (ρ i)) := by
  refine (hw.deref i).bind ?_
  rintro b c rfl
  exact .ok rfl

theorem outputLength (hw : HeapWindow ρ φ g₀ h g) (i : BevPtr) :
    Related Eq (h.outputLength i) (g.outputLength (ρ i)) := by
  refine (hw.deref i).bind ?_
  rintro b c rfl
  exact .ok rfl

theorem drainInput (hw : HeapWindow ρ φ g₀ h g) (i : BevPtr) (n : ℕ) :
    Related (HeapWindow ρ φ g₀) (h.drainInput i n) (g.drainInput (ρ i) n) :=
  hw.update i fun _ => rfl

theorem setcb (hw : HeapWindow ρ φ g₀ h g) (i : BevPtr) (c : κ) :
    Related (HeapWindow ρ φ g₀) (h.setcb i c) (g.setcb (ρ i) (φ c)) :=
  hw.update i fun _ => rfl

theorem enable (hw : HeapWindow ρ φ g₀ h g) (i : BevPtr) :
    Related (HeapWindow ρ φ g₀) (h.enable i) (g.enable (ρ i)) :=
  hw.update i fun _ => rfl

theorem disableRead (hw : HeapWindow ρ φ g₀ h g) (i : BevPtr) :
    Related (HeapWindow ρ φ g₀) (h.disableRead i) (g.disableRead (ρ i)) :=
  hw.update i fun _ => rfl

theorem setTimeouts (hw : HeapWindow ρ φ g₀ h g) (i : BevPtr) (seconds : ℕ) :
    Related (HeapWindow ρ φ g₀) (h.setTimeouts i seconds) (g.setTimeouts (ρ i) seconds) :=
  hw.update i fun _ => rfl

theorem socketConnect (hw : HeapWindow ρ φ g₀ h g) (i : BevPtr) (re : ℤ) :
    Related (HeapWindow ρ φ g₀) (h.socketConnect i re) (g.socketConnect (ρ i) re) := by
  refine hw.update i fun b => ?_
  by_cases hre : re = 0
  · rw [if_pos hre, if_pos hre]
    rfl
  · rw [if_neg hre, if_neg hre]

theorem free (hw : HeapWindow ρ φ g₀ h g) (i : BevPtr) :
    Related (HeapWindow ρ φ g₀) (h.free i) (g.free (ρ i)) :=
  hw.update i fun _ => rfl

/-- A new bufferevent has the next address on both sides. -/
theorem socketNew (hw : HeapWindow ρ φ g₀ h g) (none : κ) (link : Link) :
    (g.socketNew (φ none) link).1 = ρ (h.socketNew none link).1 ∧
      HeapWindow ρ φ g₀ (h.socketNew none link).2 (g.socketNew (φ none) link).2 :=
  ⟨hw.next_eq.symm, hw.push _⟩

/-! ## The bulk functions -/

/-- One round of the loop, and the rest. -/
theorem relay_eq_bind (table : Table) (p : BevPtr) (dst : Option BevPtr) (h : Heap κ) :
    Cipher.relay table (some p) dst h = h.read p 2047 >>= fun r =>
      if r.1 = [] then .ok r.2
      else (do
        let q ← nonnull dst
        r.2.write q (← substitute table 2048 r.1)) >>= Cipher.relay table (some p) dst := by
  rw [Cipher.relay]
  split
  · rename_i e hr
    rw [hr]
    rfl
  · rename_i data h₁ hr
    rw [hr, ok_bind]
    dsimp only
    by_cases hd : data = []
    · rw [dif_pos hd, if_pos hd]
    · rw [dif_neg hd, if_neg hd]
      split
      · rename_i e hwr
        rw [hwr]
        rfl
      · rename_i h₂ hwr
        rw [hwr]
        rfl

theorem nonnull (ρ : ℕ → ℕ) (p : Option BevPtr) :
    Related (fun i j => j = ρ i) (LightSocks.nonnull p) (LightSocks.nonnull (p.map ρ)) := by
  cases p with
  | none => exact .error _
  | some i => exact .ok rfl

/-- **The bulk functions** of the cipher. -/
theorem relay (hw : HeapWindow ρ φ g₀ h g) (table : Table) (src dst : Option BevPtr) :
    Related (HeapWindow ρ φ g₀) (Cipher.relay table src dst h)
      (Cipher.relay table (src.map ρ) (dst.map ρ) g) := by
  cases src with
  | none =>
      rw [Option.map_none, Cipher.relay, Cipher.relay]
      exact .error _
  | some p =>
      rw [Option.map_some]
      induction hn : Cipher.pendingInput h p using Nat.strong_induction_on generalizing h g with
      | _ n ih =>
          rw [relay_eq_bind, relay_eq_bind]
          refine (hw.read p 2047).bind_eq ?_
          rintro ⟨data, h₁⟩ ⟨data', g₁⟩ hr ⟨rfl, hw₁⟩
          dsimp only
          by_cases hd : data = []
          · rw [if_pos hd, if_pos hd]
            exact .ok hw₁
          rw [if_neg hd, if_neg hd]
          -- the round writes what has been read
          have hround : Related (HeapWindow ρ φ g₀)
              (do let q ← LightSocks.nonnull dst
                  h₁.write q (← substitute table 2048 data))
              (do let q ← LightSocks.nonnull (dst.map ρ)
                  g₁.write q (← substitute table 2048 data)) := by
            refine (nonnull ρ dst).bind ?_
            rintro q q' rfl
            refine (Related.refl (R := Eq) (fun _ => rfl) _).bind ?_
            rintro coded _ rfl
            exact hw₁.write q coded
          refine hround.bind_eq ?_
          intro h₂ g₂ hwr hw₂
          obtain ⟨q, -, hwr⟩ := bind_eq_ok.1 hwr
          obtain ⟨coded, -, hwr⟩ := bind_eq_ok.1 hwr
          obtain ⟨hlen, hpending⟩ := Cipher.pendingInput_read hr
          have hpos := List.length_pos_of_ne_nil hd
          have hsame := Cipher.pendingInput_write (p := p) hwr
          exact ih _ (by omega) hw₂ rfl

end HeapWindow

end LightSocks
