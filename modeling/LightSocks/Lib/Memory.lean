import Mathlib

/-!
# Fixed-size arrays, bounds-checked access and counted loops

The memory a C function works on: arrays of a fixed size, read and written
through an index that may be out of range, and `for` loops over an index range
whose body may go wrong.  An access outside the array stops the computation
with the error it is given.

* `forLoop_inv` — the loop rule: an invariant the body keeps holds at the end.
* `forLoop_error` — the other half: a body that must fail at some index makes
  the whole loop fail.
* `fillLoop_eq` / `fillLoop_error` — copying into an array element by element
  succeeds exactly when the count fits, and then says what every element is.
* `scatter` — the loop `for i: a[g(i)] = v(i)`; `scatter_get` reads it back at
  every position `g` hits, for an injective `g`.
-/

namespace Memory

variable {ε α σ : Type*}

/-! ## Checked access -/

/-- `a[i]`, or the error when `i` is out of range. -/
def fetch (e : ε) {n : ℕ} (a : Vector α n) (i : ℕ) : Except ε α :=
  if h : i < n then .ok (a.get ⟨i, h⟩) else .error e

/-- `a[i] = x`, or the error when `i` is out of range. -/
def store (e : ε) {n : ℕ} (a : Vector α n) (i : ℕ) (x : α) : Except ε (Vector α n) :=
  if h : i < n then .ok (a.set i x h) else .error e

theorem fetch_of_lt (e : ε) {n : ℕ} (a : Vector α n) {i : ℕ} (h : i < n) :
    fetch e a i = .ok (a.get ⟨i, h⟩) := dif_pos h

theorem fetch_of_le (e : ε) {n : ℕ} (a : Vector α n) {i : ℕ} (h : n ≤ i) :
    fetch e a i = .error e := dif_neg (not_lt.2 h)

theorem store_of_lt (e : ε) {n : ℕ} (a : Vector α n) {i : ℕ} (x : α) (h : i < n) :
    store e a i x = .ok (a.set i x h) := dif_pos h

theorem store_of_le (e : ε) {n : ℕ} (a : Vector α n) {i : ℕ} (x : α) (h : n ≤ i) :
    store e a i x = .error e := dif_neg (not_lt.2 h)

/-! ## Counted loops -/

/-- `for (i = lo; i < lo + n; i++) s = body(i, s)`. -/
def forLoop (body : ℕ → σ → Except ε σ) : ℕ → ℕ → σ → Except ε σ
  | _, 0, s => .ok s
  | i, n + 1, s => body i s >>= forLoop body (i + 1) n

/-- **The loop rule.** -/
theorem forLoop_inv (body : ℕ → σ → Except ε σ) (I : ℕ → σ → Prop) :
    ∀ {n lo : ℕ} {s : σ}, I lo s →
      (∀ i s, lo ≤ i → i < lo + n → I i s → ∃ t, body i s = .ok t ∧ I (i + 1) t) →
      ∃ t, forLoop body lo n s = .ok t ∧ I (lo + n) t := by
  intro n
  induction n with
  | zero => intro lo s hs _; exact ⟨s, rfl, hs⟩
  | succ n ih =>
      intro lo s hs hstep
      obtain ⟨t, ht, hIt⟩ := hstep lo s le_rfl (by omega) hs
      obtain ⟨u, hu, hIu⟩ := ih hIt fun i s hi hi' => hstep i s (by omega) (by omega)
      refine ⟨u, ?_, by rwa [show lo + (n + 1) = lo + 1 + n by omega]⟩
      rw [forLoop, ht]
      exact hu

/-- A loop whose body keeps the invariant up to an index where it must fail,
fails. -/
theorem forLoop_error {body : ℕ → σ → Except ε σ} {e : ε} (I : ℕ → σ → Prop) {k : ℕ} :
    ∀ {n lo : ℕ} {s : σ}, I lo s → lo ≤ k → k < lo + n →
      (∀ i s, lo ≤ i → i < k → I i s → ∃ t, body i s = .ok t ∧ I (i + 1) t) →
      (∀ s, I k s → body k s = .error e) → forLoop body lo n s = .error e := by
  intro n
  induction n with
  | zero => intro lo s _ h₁ h₂ _ _; omega
  | succ n ih =>
      intro lo s hs h₁ h₂ hstep hfail
      rw [forLoop]
      rcases Nat.eq_or_lt_of_le h₁ with rfl | hlt
      · rw [hfail s hs]; rfl
      · obtain ⟨t, ht, hIt⟩ := hstep lo s le_rfl hlt hs
        rw [ht]
        exact ih hIt hlt (by omega) (fun i s hi hi' => hstep i s (by omega) hi') hfail

/-- `for (i = lo; i < lo + count; i++) dst[i - lo] = src(i)`. -/
def fillLoop (e : ε) (src : ℕ → Except ε α) (lo count : ℕ) {n : ℕ} (dst : Vector α n) :
    Except ε (Vector α n) :=
  forLoop (fun i d => src i >>= store e d (i - lo)) lo count dst

/-- The array whose first `count` elements are given by `f` and whose others
are those of `dst`. -/
def overwrite {n : ℕ} (dst : Vector α n) (count : ℕ) (f : ℕ → α) : Vector α n :=
  Vector.ofFn fun i : Fin n => if i.1 < count then f i.1 else dst.get i

@[simp] theorem get_overwrite {n : ℕ} (dst : Vector α n) (count : ℕ) (f : ℕ → α) (i : Fin n) :
    (overwrite dst count f).get i = if i.1 < count then f i.1 else dst.get i := by
  simp [overwrite, Vector.get_eq_getElem]

theorem ext_get {n : ℕ} {a b : Vector α n} (h : ∀ i : Fin n, a.get i = b.get i) : a = b := by
  apply Vector.ext
  intro i hi
  simpa [Vector.get_eq_getElem] using h ⟨i, hi⟩

theorem get_set {n : ℕ} (a : Vector α n) (i : ℕ) (x : α) (h : i < n) (j : Fin n) :
    (a.set i x h).get j = if i = j.1 then x else a.get j := by
  simp [Vector.get_eq_getElem, Vector.getElem_set]

theorem overwrite_succ {n : ℕ} (dst : Vector α n) (k : ℕ) (f : ℕ → α) (h : k < n) :
    (overwrite dst k f).set k (f k) h = overwrite dst (k + 1) f := by
  apply ext_get
  intro j
  rw [get_set, get_overwrite, get_overwrite]
  by_cases hk : k = j.1
  · subst hk; simp
  · by_cases hj : j.1 < k
    · simp [hk, hj, Nat.lt_succ_of_lt hj]
    · simp [hk, hj, show ¬ j.1 < k + 1 by omega]

theorem overwrite_zero {n : ℕ} (dst : Vector α n) (f : ℕ → α) : overwrite dst 0 f = dst :=
  ext_get fun j => by simp

/-- Filling an array from a source that is there, as long as the count fits. -/
theorem fillLoop_eq {e : ε} {src : ℕ → Except ε α} {lo count n : ℕ} {dst : Vector α n}
    (f : ℕ → α) (hn : count ≤ n) (hsrc : ∀ j, j < count → src (lo + j) = .ok (f j)) :
    fillLoop e src lo count dst = .ok (overwrite dst count f) := by
  have hstart : lo ≤ lo ∧ dst = overwrite dst (lo - lo) f := ⟨le_rfl, by simp [overwrite_zero]⟩
  obtain ⟨t, ht, hI⟩ := forLoop_inv (fun i d => src i >>= store e d (i - lo))
    (fun i d => lo ≤ i ∧ d = overwrite dst (i - lo) f) (n := count) hstart (by
      rintro i d hlo hi ⟨-, rfl⟩
      have hs := hsrc (i - lo) (by omega)
      rw [show lo + (i - lo) = i by omega] at hs
      refine ⟨overwrite dst (i - lo + 1) f, ?_, by omega, by congr 1; omega⟩
      simp only [hs]
      rw [← overwrite_succ dst (i - lo) f (by omega)]
      exact store_of_lt e _ _ _)
  obtain ⟨-, rfl⟩ := hI
  rw [fillLoop, ht]
  congr 2
  omega

/-- Filling past the end of an array fails. -/
theorem fillLoop_error {e : ε} {src : ℕ → Except ε α} {lo count n : ℕ} {dst : Vector α n}
    (hn : n < count) (hsrc : ∀ j, j ≤ n → ∃ x, src (lo + j) = .ok x) :
    fillLoop e src lo count dst = .error e := by
  refine forLoop_error (k := lo + n) (fun _ _ => True) trivial (by omega) (by omega) ?_ ?_
  · intro i d hlo hi _
    obtain ⟨x, hx⟩ := hsrc (i - lo) (by omega)
    rw [show lo + (i - lo) = i by omega] at hx
    refine ⟨d.set (i - lo) x (by omega), ?_, trivial⟩
    simp only [hx]
    exact store_of_lt e _ _ _
  · intro d _
    obtain ⟨x, hx⟩ := hsrc n le_rfl
    simp only [hx]
    exact store_of_le e _ _ (by omega)

/-! ## Scattering -/

/-- `for (i = 0; i < m; i++) a[g(i)] = v(i)`. -/
def scatter {m n : ℕ} (g : Fin m → Fin n) (v : Fin m → α) (init : Vector α n) : Vector α n :=
  (List.finRange m).foldl (fun a i => a.set (g i).1 (v i) (g i).2) init

theorem foldl_set_get {m n : ℕ} {g : Fin m → Fin n} (hg : Function.Injective g) (v : Fin m → α)
    (l : List (Fin m)) (a : Vector α n) (j : Fin m) :
    (l.foldl (fun a i => a.set (g i).1 (v i) (g i).2) a).get (g j) =
      if j ∈ l then v j else a.get (g j) := by
  induction l generalizing a with
  | nil => simp
  | cons i l ih =>
      rw [List.foldl_cons, ih]
      by_cases hj : j ∈ l
      · simp [hj]
      · rw [if_neg hj, get_set]
        by_cases hij : i = j
        · subst hij; simp
        · have hne : (g i).1 ≠ (g j).1 := fun h => hij (hg (Fin.ext h))
          simp [hne, hj, Ne.symm hij]

/-- **Scattering through an injection is read back exactly.** -/
theorem scatter_get {m n : ℕ} {g : Fin m → Fin n} (hg : Function.Injective g) (v : Fin m → α)
    (init : Vector α n) (j : Fin m) : (scatter g v init).get (g j) = v j := by
  rw [scatter, foldl_set_get hg]
  simp

end Memory
