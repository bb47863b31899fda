import LightSocks.Lib.Memory

/-!
# Computations with a log of their array accesses

A bounds-checked computation says that it went wrong, but not which elements it
has touched.  Where a property speaks of indices (each one read is below some
length, each element used has been written before), the same computation is run
with a log of its accesses: in order, and with the one that fails as the last.

* `Logged` — a result with its log, as a monad.
* `result_bind`, `result_forLoop` — without the log it is the plain computation.
* `log_forLoop`, `log_fillLoop` — what a loop logs, up to the index at which it fails.
* `SetBefore` — each read of an array comes after what has set the element.
-/

namespace Memory

/-- One access to an array, under the name of the array. -/
inductive Access (β : Type) where
  | read (a : β) (i : ℕ)
  | write (a : β) (i : ℕ)
  deriving DecidableEq, Repr

/-- A result and the accesses that led to it. -/
structure Logged (β ε α : Type) where
  log : List (Access β)
  result : Except ε α

namespace Logged

variable {β ε α γ σ : Type}

/-- An error ends the computation, and with it the log. -/
instance : Monad (Logged β ε) where
  pure a := ⟨[], .ok a⟩
  bind x f :=
    match x.result with
    | .ok a => ⟨x.log ++ (f a).log, (f a).result⟩
    | .error e => ⟨x.log, .error e⟩

/-- `a[i]`, with the access. -/
def fetch (b : β) (e : ε) {n : ℕ} (a : Vector α n) (i : ℕ) : Logged β ε α :=
  ⟨[.read b i], Memory.fetch e a i⟩

/-- `a[i] = x`, with the access. -/
def store (b : β) (e : ε) {n : ℕ} (a : Vector α n) (i : ℕ) (x : α) : Logged β ε (Vector α n) :=
  ⟨[.write b i], Memory.store e a i x⟩

/-- `for (i = lo; i < lo + n; i++) s = body(i, s)`. -/
def forLoop (body : ℕ → σ → Logged β ε σ) : ℕ → ℕ → σ → Logged β ε σ
  | _, 0, s => pure s
  | i, n + 1, s => body i s >>= forLoop body (i + 1) n

/-- `for (i = lo; i < lo + count; i++) dst[i - lo] = src(i)`, where `b` names `dst`. -/
def fillLoop (b : β) (e : ε) (src : ℕ → Logged β ε α) (lo count : ℕ) {n : ℕ}
    (dst : Vector α n) : Logged β ε (Vector α n) :=
  forLoop (fun i d => src i >>= store b e d (i - lo)) lo count dst

/-! ## Without the log -/

@[simp] theorem result_pure (a : α) : (pure a : Logged β ε α).result = .ok a := rfl

@[simp] theorem result_fetch (b : β) (e : ε) {n : ℕ} (a : Vector α n) (i : ℕ) :
    (fetch b e a i).result = Memory.fetch e a i := rfl

@[simp] theorem result_store (b : β) (e : ε) {n : ℕ} (a : Vector α n) (i : ℕ) (x : α) :
    (store b e a i x).result = Memory.store e a i x := rfl

@[simp] theorem result_bind (x : Logged β ε α) (f : α → Logged β ε γ) :
    (x >>= f).result = x.result >>= fun a => (f a).result := by
  obtain ⟨log, result⟩ := x
  cases result with
  | ok a => rfl
  | error e => rfl

/-- **A logged loop is the plain loop.** -/
theorem result_forLoop (body : ℕ → σ → Logged β ε σ) (lo n : ℕ) (s : σ) :
    (forLoop body lo n s).result = Memory.forLoop (fun i s => (body i s).result) lo n s := by
  induction n generalizing lo s with
  | zero => rfl
  | succ n ih =>
      rw [forLoop, result_bind, Memory.forLoop]
      exact congrArg _ (funext fun t => ih (lo + 1) t)

theorem result_fillLoop (b : β) (e : ε) (src : ℕ → Logged β ε α) (lo count : ℕ) {n : ℕ}
    (dst : Vector α n) : (fillLoop b e src lo count dst).result =
      Memory.fillLoop e (fun i => (src i).result) lo count dst := by
  rw [fillLoop, result_forLoop, Memory.fillLoop]
  simp only [result_bind, result_store]

/-! ## The log -/

@[simp] theorem log_pure (a : α) : (pure a : Logged β ε α).log = [] := rfl

@[simp] theorem log_fetch (b : β) (e : ε) {n : ℕ} (a : Vector α n) (i : ℕ) :
    (fetch b e a i).log = [.read b i] := rfl

@[simp] theorem log_store (b : β) (e : ε) {n : ℕ} (a : Vector α n) (i : ℕ) (x : α) :
    (store b e a i x).log = [.write b i] := rfl

theorem log_bind_of_ok {x : Logged β ε α} {a : α} (h : x.result = .ok a) (f : α → Logged β ε γ) :
    (x >>= f).log = x.log ++ (f a).log := by
  obtain ⟨log, result⟩ := x
  cases h
  rfl

theorem log_bind_of_error {x : Logged β ε α} {e : ε} (h : x.result = .error e)
    (f : α → Logged β ε γ) : (x >>= f).log = x.log := by
  obtain ⟨log, result⟩ := x
  cases h
  rfl

theorem log_fetch_bind {b : β} {e : ε} {n i : ℕ} {a : Vector α n} (h : i < n)
    (f : α → Logged β ε γ) :
    (fetch b e a i >>= f).log = .read b i :: (f (a.get ⟨i, h⟩)).log :=
  log_bind_of_ok (fetch_of_lt e a h) f

/-- **What a loop logs.**  If the body logs `acc i` at the index `i` and fails at `k`
first, the loop logs the accesses of its indices in order, those of `k` included. -/
theorem log_forLoop {body : ℕ → σ → Logged β ε σ} (acc : ℕ → List (Access β)) {lo k : ℕ}
    (hlog : ∀ i s, lo ≤ i → i ≤ k → (body i s).log = acc i)
    (hok : ∀ i s, lo ≤ i → i < k → ∃ t, (body i s).result = .ok t)
    (herror : ∀ s, ∃ e, (body k s).result = .error e) (n : ℕ) (hlo : lo ≤ k) (s : σ) :
    (forLoop body lo n s).log = (List.range' lo (min n (k + 1 - lo))).flatMap acc := by
  induction n generalizing lo s with
  | zero => simp [forLoop]
  | succ n ih =>
      rw [forLoop]
      rcases Nat.eq_or_lt_of_le hlo with rfl | hlt
      · obtain ⟨e, he⟩ := herror s
        rw [log_bind_of_error he, hlog lo s le_rfl le_rfl,
          show min (n + 1) (lo + 1 - lo) = 1 by omega]
        simp
      · obtain ⟨t, ht⟩ := hok lo s le_rfl hlt
        have hrest : (forLoop body (lo + 1) n t).log =
            (List.range' (lo + 1) (min n (k + 1 - (lo + 1)))).flatMap acc :=
          ih (fun i s hi => hlog i s (by omega)) (fun i s hi => hok i s (by omega)) hlt t
        rw [log_bind_of_ok ht, hlog lo s le_rfl hlo, hrest,
          show min (n + 1) (k + 1 - lo) = min n (k + 1 - (lo + 1)) + 1 by omega,
          List.range'_succ, List.flatMap_cons]

/-- Filling an array of `n` elements from a source that is there logs each element as it
is read and written, up to the first that does not fit. -/
theorem log_fillLoop {b : β} {e : ε} {src : ℕ → Logged β ε α} (acc : ℕ → List (Access β))
    {lo n : ℕ} (hlog : ∀ i, lo ≤ i → i ≤ lo + n → (src i).log = acc i)
    (hok : ∀ i, lo ≤ i → i ≤ lo + n → ∃ x, (src i).result = .ok x) (count : ℕ) (dst : Vector α n) :
    (fillLoop b e src lo count dst).log =
      (List.range' lo (min count (n + 1))).flatMap fun i => acc i ++ [.write b (i - lo)] := by
  have hbody : ∀ i (d : Vector α n), lo ≤ i → i ≤ lo + n →
      ∃ x, (src i).result = .ok x ∧
        (src i >>= store b e d (i - lo)).log = acc i ++ [.write b (i - lo)] := by
    intro i d hlo hi
    obtain ⟨x, hx⟩ := hok i hlo hi
    exact ⟨x, hx, by rw [log_bind_of_ok hx, hlog i hlo hi, log_store]⟩
  rw [fillLoop, log_forLoop (fun i => acc i ++ [.write b (i - lo)]) (k := lo + n),
    show lo + n + 1 - lo = n + 1 by omega]
  · intro i d hlo hi
    obtain ⟨x, -, hlog⟩ := hbody i d hlo hi
    exact hlog
  · intro i d hlo hi
    obtain ⟨x, hx, -⟩ := hbody i d hlo hi.le
    refine ⟨d.set (i - lo) x (by omega), ?_⟩
    rw [result_bind, hx]
    exact store_of_lt e _ _ _
  · intro d
    obtain ⟨x, hx, -⟩ := hbody (lo + n) d (by omega) le_rfl
    refine ⟨e, ?_⟩
    rw [result_bind, hx]
    exact store_of_le e _ _ (by omega)
  · omega

end Logged

/-! ## Reads of what has been written -/

section SetBefore

variable {β : Type}

/-- Each read of an element of `a` comes after the accesses `src` names for it, one
right after the other. -/
def SetBefore (a : β) (src : ℕ → List (Access β)) (log : List (Access β)) : Prop :=
  ∀ (i : ℕ) (pre post : List (Access β)), log = pre ++ .read a i :: post → src i <:+: pre

/-- What stands before the first occurrence of an element is a prefix of what stands
before any. -/
theorem prefix_of_not_mem {α : Type} {l m pre post : List α} {x : α}
    (h : l ++ m = pre ++ x :: post) (hx : x ∉ l) : l <+: pre := by
  rcases List.append_eq_append_iff.1 h with ⟨as, rfl, -⟩ | ⟨cs, rfl, hcs⟩
  · exact List.prefix_append l as
  · cases cs with
    | nil => simp
    | cons c cs =>
        obtain ⟨rfl, -⟩ := List.cons.inj hcs
        exact absurd (by simp) hx

/-- The elements are set in the part `l` of the log, which does not read them. -/
theorem SetBefore.of_append {a : β} {src : ℕ → List (Access β)} {l m : List (Access β)}
    (hl : ∀ i, .read a i ∉ l) (hm : ∀ i, .read a i ∈ m → src i <:+: l) :
    SetBefore a src (l ++ m) := by
  intro i pre post h
  have hmem : Access.read a i ∈ l ++ m := by
    rw [h]
    simp
  exact (hm i ((List.mem_append.1 hmem).resolve_left (hl i))).trans
    (prefix_of_not_mem h (hl i)).isInfix

/-- An element that is read has been set. -/
theorem SetBefore.mem_log {a : β} {src : ℕ → List (Access β)} {log : List (Access β)} {i : ℕ}
    (h : SetBefore a src log) (hi : .read a i ∈ log) : src i <:+: log := by
  obtain ⟨pre, post, rfl⟩ := List.append_of_mem hi
  exact (h i pre post rfl).trans (List.prefix_append _ _).isInfix

end SetBefore

end Memory
