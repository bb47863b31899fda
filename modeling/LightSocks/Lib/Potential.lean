import LightSocks.Lib.Transition

/-!
# Potentials

What a system can do on its own is bounded by what has been put into it.

* `Costs` — a run, with what its steps have cost.
* `Costs.potential` — the accounting rule: costs are paid for out of a potential and of gains.
* `weight` — a potential that is a sum over the places of a list, one place at a time.
-/

namespace Transition

variable {S L : Type*} {step : S → L → S → Prop} {s t : S} {ls : List L}

/-- The steps labelled `ls` lead from `s` to `t`, and cost `n` together; what a step costs depends
on the state before it. -/
inductive Costs (step : S → L → S → Prop) (cost : S → L → ℕ) : S → List L → S → ℕ → Prop
  | nil (s : S) : Costs step cost s [] s 0
  | cons {s t u : S} {l : L} {ls : List L} {n : ℕ} : step s l t → Costs step cost t ls u n →
      Costs step cost s (l :: ls) u (cost s l + n)

/-- Every run costs something. -/
theorem Run.costs (h : Run step s ls t) (cost : S → L → ℕ) : ∃ n, Costs step cost s ls t n := by
  induction h with
  | nil s => exact ⟨0, .nil s⟩
  | cons hs _ ih =>
      obtain ⟨n, hn⟩ := ih
      exact ⟨_, .cons hs hn⟩

/-- **The accounting rule.**  If every step pays its cost out of the potential and its gain, so
does every run. -/
theorem Costs.potential {Φ : S → ℕ} {cost : S → L → ℕ} {gain : L → ℕ} {I : S → Prop} {n : ℕ}
    (hstep : ∀ s l t, I s → step s l t → I t ∧ cost s l + Φ t ≤ Φ s + gain l)
    (h : Costs step cost s ls t n) (hs : I s) : n + Φ t ≤ Φ s + (ls.map gain).sum := by
  induction h with
  | nil s => simp
  | cons hfirst _ ih =>
      obtain ⟨hI, hpaid⟩ := hstep _ _ _ hs hfirst
      have hrest := ih hI
      simp only [List.map_cons, List.sum_cons]
      omega

end Transition

/-! ## Sums over the places of a list -/

namespace Weight

variable {α : Type*} {f : α → ℕ} {l l' : List α} {i : ℕ} {a b : α}

/-- What the elements of a list weigh together. -/
def weight (f : α → ℕ) (l : List α) : ℕ := (l.map f).sum

theorem weight_append (f : α → ℕ) (l l' : List α) :
    weight f (l ++ l') = weight f l + weight f l' := by
  rw [weight, List.map_append, List.sum_append]
  rfl

theorem weight_set (h : l[i]? = some a) :
    weight f (l.set i b) + f a = weight f l + f b := by
  induction l generalizing i with
  | nil => cases h
  | cons c l ih =>
      cases i with
      | zero =>
          obtain rfl := Option.some.inj h
          simp only [weight, List.set_cons_zero, List.map_cons, List.sum_cons]
          omega
      | succ i =>
          have hrest := ih (i := i) h
          simp only [weight, List.set_cons_succ, List.map_cons, List.sum_cons] at hrest ⊢
          omega

/-- Nothing gets heavier in its place, and what is added has no weight. -/
theorem weight_le (hold : ∀ (i : ℕ) (a : α), l[i]? = some a → ∃ a', l'[i]? = some a' ∧ f a' ≤ f a)
    (hnew : ∀ (i : ℕ) (a' : α), l.length ≤ i → l'[i]? = some a' → f a' = 0) :
    weight f l' ≤ weight f l := by
  induction l generalizing l' with
  | nil =>
      refine (List.sum_eq_zero ?_).le
      intro n hn
      obtain ⟨a', ha', rfl⟩ := List.mem_map.1 hn
      obtain ⟨i, hi⟩ := List.mem_iff_getElem?.1 ha'
      exact hnew i a' (Nat.zero_le i) hi
  | cons c l ih =>
      cases l' with
      | nil =>
          obtain ⟨a', ha', -⟩ := hold 0 c rfl
          cases ha'
      | cons c' l' =>
          have hfirst : f c' ≤ f c := by
            obtain ⟨a', ha', hle⟩ := hold 0 c rfl
            obtain rfl := Option.some.inj ha'
            exact hle
          have hrest : weight f l' ≤ weight f l := ih (fun i a ha => hold (i + 1) a ha)
            fun i a' hi ha' => hnew (i + 1) a' (Nat.succ_le_succ hi) ha'
          simp only [weight, List.map_cons, List.sum_cons] at hrest ⊢
          omega

end Weight
