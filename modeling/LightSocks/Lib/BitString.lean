import Mathlib

/-!
# Numbers as bit strings

Codecs that regroup bits are read off the string of all bits they are given.

* `bits` — the last binary digits of a number, the most significant first.
* `bits_append` — a number put together from two parts has the digits of the one, and then
  those of the other.
* `digits` — the digits of several numbers in a row.
-/

namespace BitString

variable {w k m n : ℕ} {l l' : List ℕ}

/-- The last `w` binary digits of `n`, the most significant first. -/
def bits : ℕ → ℕ → List Bool
  | 0, _ => []
  | w + 1, n => bits w (n / 2) ++ [n.testBit 0]

@[simp] theorem length_bits (w n : ℕ) : (bits w n).length = w := by
  induction w generalizing n with
  | zero => rfl
  | succ w ih => rw [bits, List.length_append, ih, List.length_singleton]

/-- **Digits are put together as numbers are.** -/
theorem bits_append (w : ℕ) (hn : n < 2 ^ k) :
    bits (w + k) (m * 2 ^ k + n) = bits w m ++ bits k n := by
  induction k generalizing n with
  | zero =>
      obtain rfl : n = 0 := by omega
      simp [bits]
  | succ k ih =>
      have hpow : m * 2 ^ (k + 1) = 2 * (m * 2 ^ k) := by ring
      have hhalf : (m * 2 ^ (k + 1) + n) / 2 = m * 2 ^ k + n / 2 := by omega
      have hlast : (m * 2 ^ (k + 1) + n).testBit 0 = n.testBit 0 := by
        simp only [Nat.testBit_zero, decide_eq_decide]
        omega
      rw [← Nat.add_assoc, bits, bits, hhalf, hlast, ih (by omega), List.append_assoc]

/-- The digits of a number, cut in two. -/
theorem bits_eq_append (w k n : ℕ) : bits (w + k) n = bits w (n / 2 ^ k) ++ bits k (n % 2 ^ k) := by
  have hparts : n / 2 ^ k * 2 ^ k + n % 2 ^ k = n := Nat.div_add_mod' n (2 ^ k)
  conv_lhs => rw [← hparts]
  exact bits_append w (Nat.mod_lt _ (Nat.two_pow_pos k))

/-- The last `w` digits of each of the numbers, one after the other. -/
def digits (w : ℕ) (l : List ℕ) : List Bool := l.flatMap (bits w)

@[simp] theorem digits_append (w : ℕ) (l l' : List ℕ) :
    digits w (l ++ l') = digits w l ++ digits w l' := List.flatMap_append

@[simp] theorem length_digits (w : ℕ) (l : List ℕ) : (digits w l).length = w * l.length := by
  induction l with
  | nil => rfl
  | cons n l ih =>
      rw [digits, List.flatMap_cons, List.length_append, length_bits, List.length_cons]
      exact (congrArg (w + ·) ih).trans (by ring)

theorem digits_prefix (w : ℕ) (h : l <+: l') : digits w l <+: digits w l' := by
  obtain ⟨rest, rfl⟩ := h
  rw [digits_append]
  exact List.prefix_append _ _

end BitString
