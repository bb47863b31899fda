import Mathlib

/-!
# Working on part of a memory

A procedure that has been handed the addresses of a few cells cannot tell which other
cells there are, nor where its own have been placed.  Here a memory is a list of cells,
an address is a position in it and an allocation appends.

* `Related` — two computations that keep step: both return, with related results, or both
  fail, and in the same way.
* `Ensures` — what holds of the result of one computation, if it returns.
* `Window ρ f m₀ l m` — `l` is what can be seen of the memory `m` through the addresses
  `ρ 0, ρ 1, …`, each cell up to `f`; all other cells are as they were in `m₀`.
* `Window.set`, `Window.push` — a store and an allocation on the part are the same on the
  whole.
* `place`, `Window.of_places` — the window that a list of addresses opens.
-/

/-! ## Computations in step -/

/-- Both computations return, with results related by `R`, or both fail in the same way. -/
inductive Related {ε α β : Type} (R : α → β → Prop) : Except ε α → Except ε β → Prop where
  | ok {a : α} {b : β} (rel : R a b) : Related R (.ok a) (.ok b)
  | error (e : ε) : Related R (.error e) (.error e)

namespace Related

variable {ε α β γ δ : Type} {R : α → β → Prop} {S : γ → δ → Prop} {x : Except ε α}
  {y : Except ε β}

/-- The sequence rule, with what the first part has returned. -/
theorem bind_eq {f : α → Except ε γ} {g : β → Except ε δ} (h : Related R x y)
    (hfg : ∀ a b, x = .ok a → R a b → Related S (f a) (g b)) :
    Related S (x >>= f) (y >>= g) := by
  cases h with
  | ok rel => exact hfg _ _ rfl rel
  | error e => exact .error e

/-- **The sequence rule.** -/
theorem bind {f : α → Except ε γ} {g : β → Except ε δ} (h : Related R x y)
    (hfg : ∀ a b, R a b → Related S (f a) (g b)) : Related S (x >>= f) (y >>= g) :=
  h.bind_eq fun a b _ => hfg a b

theorem mono {R' : α → β → Prop} (h : Related R x y) (himp : ∀ a b, R a b → R' a b) :
    Related R' x y := by
  cases h with
  | ok rel => exact .ok (himp _ _ rel)
  | error e => exact .error e

/-- What the first returns has a counterpart. -/
theorem of_ok {a : α} (h : Related R (.ok a) y) : ∃ b, y = .ok b ∧ R a b := by
  cases h with
  | ok rel => exact ⟨_, rfl, rel⟩

/-- What the second returns has a counterpart. -/
theorem of_ok_right {b : β} (h : Related R x (.ok b)) : ∃ a, x = .ok a ∧ R a b := by
  cases h with
  | ok rel => exact ⟨_, rfl, rel⟩

/-- A computation keeps step with itself. -/
theorem refl {R : α → α → Prop} (hR : ∀ a, R a a) (x : Except ε α) : Related R x x := by
  cases x with
  | ok a => exact .ok (hR a)
  | error e => exact .error e

/-- When the second is possible at all and returns, so does the first. -/
theorem of_rel_ok {o : Option (Except ε α)} {o' : Option (Except ε β)} {b : β}
    (h : Option.Rel (Related R) o o') (ho' : o' = some (.ok b)) :
    ∃ a, o = some (.ok a) ∧ R a b := by
  subst ho'
  cases h with
  | some hrel =>
      obtain ⟨a, rfl, hab⟩ := hrel.of_ok_right
      exact ⟨a, rfl, hab⟩

/-- When the first is possible at all and returns, so does the second. -/
theorem rel_of_ok {o : Option (Except ε α)} {o' : Option (Except ε β)} {a : α}
    (h : Option.Rel (Related R) o o') (ho : o = some (.ok a)) :
    ∃ b, o' = some (.ok b) ∧ R a b := by
  subst ho
  cases h with
  | some hrel =>
      obtain ⟨b, rfl, hab⟩ := hrel.of_ok
      exact ⟨b, rfl, hab⟩

/-- They fail together. -/
theorem rel_error_iff {o : Option (Except ε α)} {o' : Option (Except ε β)} {e : ε}
    (h : Option.Rel (Related R) o o') : o = some (.error e) ↔ o' = some (.error e) := by
  cases h with
  | none => exact iff_of_false (by simp) (by simp)
  | some hrel =>
      cases hrel with
      | ok rel => exact iff_of_false (by simp) (by simp)
      | error e' => simp

/-- A test that comes out the same on both sides. -/
theorem ite {p q : Prop} [Decidable p] [Decidable q] {x' : Except ε α} {y' : Except ε β}
    (hpq : p ↔ q) (h : Related R x y) (h' : Related R x' y') :
    Related R (if p then x else x') (if q then y else y') := by
  by_cases hp : p
  · rw [if_pos hp, if_pos (hpq.1 hp)]
    exact h
  · rw [if_neg hp, if_neg (mt hpq.2 hp)]
    exact h'

end Related

/-- If the computation returns, what it returns satisfies `Q`. -/
def Ensures {ε α : Type} (Q : α → Prop) (x : Except ε α) : Prop := ∀ a, x = .ok a → Q a

namespace Ensures

variable {ε α β : Type} {Q : α → Prop} {R : β → Prop} {x : Except ε α} {f : α → Except ε β}

theorem ok {a : α} (h : Q a) : Ensures Q (.ok a : Except ε α) := by
  rintro _ ⟨⟩
  exact h

theorem error (Q : α → Prop) (e : ε) : Ensures Q (.error e : Except ε α) := by
  rintro _ ⟨⟩

theorem mono {Q' : α → Prop} (h : Ensures Q x) (himp : ∀ a, Q a → Q' a) : Ensures Q' x :=
  fun a ha => himp a (h a ha)

/-- The sequence rule, with what the first part has returned. -/
theorem bind_eq (h : ∀ a, x = .ok a → Ensures R (f a)) : Ensures R (x >>= f) := by
  cases x with
  | ok a => exact h a rfl
  | error e => exact .error R e

/-- **The sequence rule.** -/
theorem bind (h : Ensures Q x) (hf : ∀ a, Q a → Ensures R (f a)) : Ensures R (x >>= f) :=
  bind_eq fun a ha => hf a (h a ha)

theorem ite {p : Prop} [Decidable p] {y : Except ε α} (hx : p → Ensures Q x)
    (hy : ¬ p → Ensures Q y) : Ensures Q (if p then x else y) := by
  by_cases hp : p
  · rw [if_pos hp]
    exact hx hp
  · rw [if_neg hp]
    exact hy hp

end Ensures

/-! ## Windows -/

/-- The cells of `l` are those of `m` at the addresses `ρ 0, ρ 1, …`, up to `f`.  The next
cell that is allocated comes next on both sides, and elsewhere `m` is as `m₀`. -/
structure Window {α β : Type} (ρ : ℕ → ℕ) (f : α → β) (m₀ : List β) (l : List α) (m : List β) :
    Prop where
  injective : Function.Injective ρ
  inside : ∀ i, m[ρ i]? = l[i]?.map f
  next : ∀ j, ρ (l.length + j) = m.length + j
  outside : ∀ q, (∀ i, ρ i ≠ q) → m[q]? = m₀[q]?

namespace Window

variable {α β : Type} {ρ : ℕ → ℕ} {f : α → β} {m₀ m : List β} {l : List α} {i : ℕ} {a : α}

/-- The address of the next cell. -/
theorem next_eq (h : Window ρ f m₀ l m) : ρ l.length = m.length := h.next 0

theorem lookup (h : Window ρ f m₀ l m) (hi : l[i]? = some a) : m[ρ i]? = some (f a) := by
  rw [h.inside, hi]
  rfl

/-- The window shows what is there, and nothing else. -/
theorem lt_iff (h : Window ρ f m₀ l m) : ρ i < m.length ↔ i < l.length := by
  rw [← not_le, ← not_le, not_iff_not, ← List.getElem?_eq_none_iff, ← List.getElem?_eq_none_iff,
    h.inside, Option.map_eq_none_iff]

/-- **A store** through the window. -/
theorem set (h : Window ρ f m₀ l m) (i : ℕ) (a : α) :
    Window ρ f m₀ (l.set i a) (m.set (ρ i) (f a)) where
  injective := h.injective
  inside j := by
    by_cases hij : i = j
    · subst hij
      by_cases hi : i < l.length
      · rw [List.getElem?_set_self hi, List.getElem?_set_self (h.lt_iff.2 hi)]
        rfl
      · rw [List.set_eq_of_length_le (not_lt.1 hi),
          List.set_eq_of_length_le (not_lt.1 (mt h.lt_iff.1 hi))]
        exact h.inside i
    · rw [List.getElem?_set_ne hij, List.getElem?_set_ne (h.injective.ne hij)]
      exact h.inside j
  next j := by
    rw [List.length_set, List.length_set]
    exact h.next j
  outside q hq := by
    rw [List.getElem?_set_ne (hq i)]
    exact h.outside q hq

/-- **An allocation** through the window. -/
theorem push (h : Window ρ f m₀ l m) (a : α) : Window ρ f m₀ (l ++ [a]) (m ++ [f a]) where
  injective := h.injective
  inside i := by
    rcases lt_trichotomy i l.length with hlt | rfl | hgt
    · rw [List.getElem?_append_left hlt, List.getElem?_append_left (h.lt_iff.2 hlt)]
      exact h.inside i
    · rw [h.next_eq, List.getElem?_concat_length, List.getElem?_concat_length]
      rfl
    · obtain ⟨j, rfl⟩ := Nat.exists_eq_add_of_lt hgt
      have hρ : ρ (l.length + j + 1) = m.length + j + 1 := h.next (j + 1)
      rw [hρ, List.getElem?_eq_none (by simp), List.getElem?_eq_none (by simp)]
      rfl
  next j := by
    rw [List.length_append, List.length_append, List.length_singleton, List.length_singleton,
      Nat.add_assoc, Nat.add_assoc]
    exact h.next (1 + j)
  outside q hq := by
    have hlt : q ≠ m.length := fun heq => hq l.length (h.next_eq.trans heq.symm)
    rcases lt_or_gt_of_ne hlt with hlt | hgt
    · rw [List.getElem?_append_left hlt]
      exact h.outside q hq
    · -- what lies behind the next cell is in the window
      obtain ⟨j, rfl⟩ := Nat.exists_eq_add_of_lt hgt
      exact absurd (h.next (j + 1)) (hq _)

end Window

/-! ## The window of a list of addresses -/

/-- The addresses `ps`, and behind them those from `n` on. -/
def place (ps : List ℕ) (n i : ℕ) : ℕ := ps.getD i (n + (i - ps.length))

section Place

variable {ps : List ℕ} {n i : ℕ}

theorem place_of_getElem? {p : ℕ} (h : ps[i]? = some p) : place ps n i = p := by
  rw [place, List.getD_eq_getElem?_getD, h]
  rfl

theorem place_of_le (h : ps.length ≤ i) : place ps n i = n + (i - ps.length) := by
  rw [place, List.getD_eq_default _ _ h]

theorem place_mem (h : i < ps.length) : place ps n i ∈ ps := by
  rw [place_of_getElem? (List.getElem?_eq_getElem h)]
  exact List.getElem_mem h

/-- The places are those of the list and everything from `n` on. -/
theorem exists_place {q : ℕ} (h : q ∈ ps ∨ n ≤ q) : ∃ i, place ps n i = q := by
  rcases h with h | h
  · obtain ⟨i, hi⟩ := List.mem_iff_getElem?.1 h
    exact ⟨i, place_of_getElem? hi⟩
  · refine ⟨ps.length + (q - n), ?_⟩
    rw [place_of_le (Nat.le_add_right _ _)]
    omega

theorem place_injective (hnodup : ps.Nodup) (hlt : ∀ p ∈ ps, p < n) :
    Function.Injective (place ps n) := by
  intro i j hij
  rcases lt_or_ge i ps.length with hi | hi
  · rcases lt_or_ge j ps.length with hj | hj
    · rw [place_of_getElem? (List.getElem?_eq_getElem hi),
        place_of_getElem? (List.getElem?_eq_getElem hj)] at hij
      exact (hnodup.getElem_inj_iff).1 hij
    · have hmem := hlt _ (place_mem (n := n) hi)
      rw [hij, place_of_le hj] at hmem
      omega
  · rcases lt_or_ge j ps.length with hj | hj
    · have hmem := hlt _ (place_mem (n := n) hj)
      rw [← hij, place_of_le hi] at hmem
      omega
    · rw [place_of_le hi, place_of_le hj] at hij
      omega

/-- When the next cells are put on the list, nothing moves. -/
theorem place_append (ps : List ℕ) (n m i : ℕ) :
    place (ps ++ List.range' n m) (n + m) i = place ps n i := by
  rcases lt_or_ge i ps.length with hi | hi
  · have hp := List.getElem?_eq_getElem hi
    rw [place_of_getElem? hp, place_of_getElem? (by rwa [List.getElem?_append_left hi])]
  rw [place_of_le hi]
  rcases lt_or_ge i (ps.length + m) with hm | hm
  · refine place_of_getElem? ?_
    rw [List.getElem?_append_right hi, List.getElem?_range' (by omega), Nat.one_mul]
  · have hlen : (ps ++ List.range' n m).length = ps.length + m := by simp
    rw [place_of_le (by omega), hlen]
    omega

/-- What is neither on the list nor behind `n` is not in the window. -/
theorem place_ne {q : ℕ} (hq : q ∉ ps) (hlt : q < n) (i : ℕ) : place ps n i ≠ q := by
  rintro rfl
  rcases lt_or_ge i ps.length with hi | hi
  · exact hq (place_mem hi)
  · rw [place_of_le hi] at hlt
    omega

/-- If all entries satisfy a test, their indices are all there are. -/
theorem findIdxs_of_forall {α : Type} {test : α → Bool} {l : List α} (h : ∀ x ∈ l, test x = true)
    (n : ℕ) : l.findIdxs test n = List.range' n l.length := by
  induction l generalizing n with
  | nil => rfl
  | cons x l ih =>
      rw [List.findIdxs_cons, if_pos (h x List.mem_cons_self),
        ih (fun y hy => h y (List.mem_cons_of_mem _ hy)), List.length_cons, List.range'_succ]

/-- **The window that a list of addresses opens.** -/
theorem Window.of_places {α β : Type} {f : α → β} {l : List α} {m : List β} (hnodup : ps.Nodup)
    (hlen : l.length = ps.length)
    (hcell : ∀ i p : ℕ, ps[i]? = some p → ∃ a, l[i]? = some a ∧ m[p]? = some (f a)) :
    Window (place ps m.length) f m l m where
  injective := by
    refine place_injective hnodup ?_
    intro p hp
    obtain ⟨i, hi⟩ := List.mem_iff_getElem?.1 hp
    obtain ⟨a, -, ha⟩ := hcell i p hi
    exact (List.getElem?_eq_some_iff.1 ha).1
  inside i := by
    rcases lt_or_ge i ps.length with hi | hi
    · obtain ⟨a, ha, hm⟩ := hcell i _ (List.getElem?_eq_getElem hi)
      rw [place_of_getElem? (List.getElem?_eq_getElem hi), ha, hm]
      rfl
    · rw [place_of_le hi, List.getElem?_eq_none (by omega), List.getElem?_eq_none (by omega)]
      rfl
  next j := by
    rw [place_of_le (by omega), hlen]
    omega
  outside _ _ := rfl

end Place
