import Mathlib

/-!
# Values in the order of their first occurrence

A sequence of draws is watched, and every value is noted when it is seen for the
first time.

* `firstSeen` — the values among the first `n` draws, in that order.
* `mem_firstSeen`, `nodup_firstSeen`, `firstSeen_ordered` — each of them once, an
  earlier one before a later one.
* `length_firstSeen_eq_card` — over a finite type the list is full exactly when
  every value has been drawn, and `exists_completing` finds the draw that
  completes it.
-/

namespace Draws

variable {α : Type*} [DecidableEq α]

/-- The values among the first `n` draws, in the order of their first
occurrence. -/
def firstSeen (draws : ℕ → α) : ℕ → List α
  | 0 => []
  | n + 1 =>
      if draws n ∈ firstSeen draws n then firstSeen draws n else firstSeen draws n ++ [draws n]

variable {draws : ℕ → α} {n : ℕ}

theorem firstSeen_of_mem (h : draws n ∈ firstSeen draws n) :
    firstSeen draws (n + 1) = firstSeen draws n := if_pos h

theorem firstSeen_of_notMem (h : draws n ∉ firstSeen draws n) :
    firstSeen draws (n + 1) = firstSeen draws n ++ [draws n] := if_neg h

@[simp] theorem mem_firstSeen {a : α} : a ∈ firstSeen draws n ↔ ∃ k < n, draws k = a := by
  induction n with
  | zero => simp [firstSeen]
  | succ n ih =>
      have hsplit : (∃ k < n + 1, draws k = a) ↔ (∃ k < n, draws k = a) ∨ draws n = a := by
        simp only [Nat.lt_succ_iff_lt_or_eq, or_and_right, exists_or, exists_eq_left]
      rw [hsplit]
      by_cases h : draws n ∈ firstSeen draws n
      · rw [firstSeen_of_mem h, ih]
        refine ⟨.inl, ?_⟩
        rintro (hk | rfl)
        · exact hk
        · exact ih.1 h
      · rw [firstSeen_of_notMem h, List.mem_append, List.mem_singleton, ih, eq_comm (a := a)]

theorem nodup_firstSeen (draws : ℕ → α) (n : ℕ) : (firstSeen draws n).Nodup := by
  induction n with
  | zero => exact List.nodup_nil
  | succ n ih =>
      by_cases h : draws n ∈ firstSeen draws n
      · rwa [firstSeen_of_mem h]
      · rw [firstSeen_of_notMem h]
        simpa using ih.concat h

/-- **The order of first occurrence.**  Whenever an entry of the list is drawn,
every entry before it has been drawn already. -/
theorem firstSeen_ordered {i j : ℕ} (hij : i < j) (hj : j < (firstSeen draws n).length) {k : ℕ}
    (hk : draws k = (firstSeen draws n)[j]) :
    ∃ k' < k, draws k' = (firstSeen draws n)[i] := by
  induction n with
  | zero => cases hj
  | succ n ih =>
      by_cases h : draws n ∈ firstSeen draws n
      · simp only [firstSeen_of_mem h] at hj hk ⊢
        exact ih hj hk
      · simp only [firstSeen_of_notMem h] at hj hk ⊢
        rw [List.length_append, List.length_singleton] at hj
        have hi : i < (firstSeen draws n).length := by omega
        rw [List.getElem_append_left hi]
        rcases Nat.lt_succ_iff_lt_or_eq.1 hj with hj' | rfl
        · rw [List.getElem_append_left hj'] at hk
          exact ih hj' hk
        · -- the last entry has only just been seen
          rw [List.getElem_concat_length rfl] at hk
          obtain ⟨k', hlt, hk'⟩ := mem_firstSeen.1 (List.getElem_mem hi)
          refine ⟨k', ?_, hk'⟩
          by_contra hle
          exact h (mem_firstSeen.2 ⟨k, by omega, hk⟩)

section Finite

variable [Fintype α]

theorem length_firstSeen_le (draws : ℕ → α) (n : ℕ) :
    (firstSeen draws n).length ≤ Fintype.card α := (nodup_firstSeen draws n).length_le_card

/-- **The list is full once every value has been drawn.** -/
theorem length_firstSeen_eq_card :
    (firstSeen draws n).length = Fintype.card α ↔ ∀ a, ∃ k < n, draws k = a := by
  rw [← List.toFinset_card_of_nodup (nodup_firstSeen draws n), Finset.card_eq_iff_eq_univ,
    Finset.eq_univ_iff_forall]
  simp

/-- If every value occurs there is a draw that completes them. -/
theorem exists_completing [Nonempty α] (hall : ∀ a, ∃ k, draws k = a) :
    ∃ n, (∀ a, ∃ k < n + 1, draws k = a) ∧ ¬ ∀ a, ∃ k < n, draws k = a := by
  choose f hf using hall
  have hbound : ∃ n, ∀ a, ∃ k < n, draws k = a :=
    ⟨Finset.univ.sup f + 1, fun a =>
      ⟨f a, Nat.lt_succ_of_le (Finset.le_sup (Finset.mem_univ a)), hf a⟩⟩
  obtain ⟨n, hn⟩ : ∃ n, Nat.find hbound = n + 1 := by
    refine Nat.exists_eq_succ_of_ne_zero fun h0 => ?_
    have hzero := Nat.find_spec hbound
    rw [h0] at hzero
    obtain ⟨k, hk, -⟩ := hzero (Classical.arbitrary α)
    cases hk
  refine ⟨n, ?_, ?_⟩
  · rw [← hn]
    exact Nat.find_spec hbound
  · exact Nat.find_min hbound (by omega)

end Finite

end Draws
