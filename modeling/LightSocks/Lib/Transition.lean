import Mathlib

/-!
# Labelled transition systems: runs, and how an invariant travels along them

A system is a step relation `step : S → L → S → Prop`; a run is a finite
sequence of labelled steps.  Every safety argument about a state machine is one
fact about a single step carried over a whole run, so that induction is done
here once.

* `Run.invariant` — what one step preserves, a run preserves.
* `Run.simulates`, `Run.refines` — a step-by-step simulation is a simulation of runs.
* `Guarded` — the steps that meet a condition on the state before them and on
  the label; `Run.guarded_or_first` splits a run at the first step that fails
  the condition, `Run.throughout_iff` says when a property holds in every state
  of a run.
* `StepAt`, `Run.everyStep_iff` — the steps of a run, and when all of them have a
  property; `SomeStep` — that one of them has it; `Run.existsUnique_onset` — the only
  step at which a property that no step ends can set in.
* `Interleaved`, `Run.project` — independent copies of one system stepping in
  any order; seen from one copy, their run is a run of that copy.
-/

namespace Transition

variable {S A L : Type*}

/-- `Run step s ls t`: the steps labelled `ls`, in order, lead from `s` to `t`. -/
inductive Run (step : S → L → S → Prop) : S → List L → S → Prop
  | nil (s : S) : Run step s [] s
  | cons {s t u : S} {l : L} {ls : List L} : step s l t → Run step t ls u →
      Run step s (l :: ls) u

namespace Run

variable {step : S → L → S → Prop}

theorem single {s t : S} {l : L} (h : step s l t) : Run step s [l] t := .cons h (.nil t)

theorem append {s t u : S} {ls ms : List L} (h₁ : Run step s ls t) (h₂ : Run step t ms u) :
    Run step s (ls ++ ms) u := by
  induction h₁ with
  | nil s => exact h₂
  | cons hs _ ih => exact .cons hs (ih h₂)

theorem snoc {s t u : S} {ls : List L} {l : L} (h₁ : Run step s ls t) (h₂ : step t l u) :
    Run step s (ls ++ [l]) u := h₁.append (.single h₂)

theorem of_append {s u : S} {ls ms : List L} (h : Run step s (ls ++ ms) u) :
    ∃ t, Run step s ls t ∧ Run step t ms u := by
  induction ls generalizing s with
  | nil => exact ⟨s, .nil s, h⟩
  | cons l ls ih =>
      cases h with
      | cons hs hr =>
          obtain ⟨t, h₁, h₂⟩ := ih hr
          exact ⟨t, .cons hs h₁, h₂⟩

/-- **The invariant rule.**  What every step preserves, every run preserves. -/
theorem invariant {I : S → Prop} (hstep : ∀ s l t, I s → step s l t → I t) {s t : S} {ls : List L}
    (h : Run step s ls t) (hs : I s) : I t := by
  induction h with
  | nil s => exact hs
  | cons h₁ _ ih => exact ih (hstep _ _ _ hs h₁)

/-- The invariant rule for a property that also speaks of the steps taken so far. -/
theorem history {I : List L → S → Prop} {s t : S} {ls : List L} (h : Run step s ls t)
    (hnil : I [] s)
    (hstep : ∀ ls u l v, Run step s ls u → I ls u → step u l v → I (ls ++ [l]) v) : I ls t := by
  induction ls using List.reverseRecOn generalizing t with
  | nil =>
      cases h
      exact hnil
  | append_singleton ls l ih =>
      obtain ⟨u, h₁, h₂⟩ := h.of_append
      cases h₂ with
      | cons hs hr =>
          cases hr
          exact hstep _ _ _ _ h₁ (ih h₁) hs

/-- A relation between the two ends of a step that is reflexive and transitive
relates the two ends of a run whose states satisfy the invariant `I`. -/
theorem relates {I : S → Prop} {R : S → S → Prop} (hrefl : ∀ s, R s s)
    (htrans : ∀ s t u, R s t → R t u → R s u)
    (hstep : ∀ s l t, I s → step s l t → I t ∧ R s t) {s t : S} {ls : List L}
    (h : Run step s ls t) (hs : I s) : R s t := by
  induction h with
  | nil s => exact hrefl s
  | cons h₁ _ ih =>
      obtain ⟨hI, hR⟩ := hstep _ _ _ hs h₁
      exact htrans _ _ _ hR (ih hI)

/-- **The simulation rule.**  If every step from a related pair can be answered
by a move of the abstract side that restores the relation, every run can. -/
theorem simulates {R : S → A → Prop} {move : A → A → Prop}
    (hsim : ∀ s l t a, R s a → step s l t → ∃ b, move a b ∧ R t b) {s t : S} {ls : List L} {a : A}
    (h : Run step s ls t) (hs : R s a) : ∃ b, Relation.ReflTransGen move a b ∧ R t b := by
  induction h generalizing a with
  | nil s => exact ⟨a, .refl, hs⟩
  | cons h₁ _ ih =>
      obtain ⟨b, hab, hb⟩ := hsim _ _ _ _ hs h₁
      obtain ⟨c, hbc, hc⟩ := ih hb
      exact ⟨c, .head hab hbc, hc⟩

/-- **The refinement rule.**  If every step from a related pair can be answered by a run of the
abstract side, which may be empty, every run can. -/
theorem refines {M : Type*} {astep : A → M → A → Prop} {R : S → A → Prop}
    (hsim : ∀ s l t a, R s a → step s l t → ∃ ms b, Run astep a ms b ∧ R t b) {s t : S}
    {ls : List L} {a : A} (h : Run step s ls t) (hs : R s a) :
    ∃ ms b, Run astep a ms b ∧ R t b := by
  induction h generalizing a with
  | nil s => exact ⟨[], a, .nil a, hs⟩
  | cons h₁ _ ih =>
      obtain ⟨ms, b, hab, hb⟩ := hsim _ _ _ _ hs h₁
      obtain ⟨ms', c, hbc, hc⟩ := ih hb
      exact ⟨ms ++ ms', c, hab.append hbc, hc⟩

/-- A functional step relation has functional runs. -/
theorem deterministic (hdet : ∀ s l t u, step s l t → step s l u → t = u) {s t u : S} {ls : List L}
    (h₁ : Run step s ls t) (h₂ : Run step s ls u) : t = u := by
  induction h₁ with
  | nil s => cases h₂; rfl
  | cons hs _ ih =>
      cases h₂ with
      | cons hs' hr' =>
          cases hdet _ _ _ _ hs hs'
          exact ih hr'

end Run

/-! ## Runs whose steps all meet a condition -/

/-- The steps that meet the condition `C` on the state before them and the label. -/
def Guarded (C : S → L → Prop) (step : S → L → S → Prop) (s : S) (l : L) (t : S) : Prop :=
  C s l ∧ step s l t

variable {step : S → L → S → Prop} {C : S → L → Prop}

theorem Run.of_guarded {s t : S} {ls : List L} (h : Run (Guarded C step) s ls t) :
    Run step s ls t := by
  induction h with
  | nil s => exact .nil s
  | cons h₁ _ ih => exact .cons h₁.2 ih

/-- A run either meets the condition at every step, or has a first step that
does not. -/
theorem Run.guarded_or_first {s t : S} {ls : List L} (h : Run step s ls t) :
    Run (Guarded C step) s ls t ∨
      ∃ ls₁ l ls₂ u v, ls = ls₁ ++ l :: ls₂ ∧ Run (Guarded C step) s ls₁ u ∧ ¬ C u l ∧
        step u l v ∧ Run step v ls₂ t := by
  induction h with
  | nil s => exact .inl (.nil s)
  | @cons s t u l ls h₁ h₂ ih =>
      by_cases hC : C s l
      · rcases ih with ih | ⟨ls₁, m, ls₂, v, w, rfl, hg, hn, hm, hr⟩
        · exact .inl (.cons ⟨hC, h₁⟩ ih)
        · exact .inr ⟨l :: ls₁, m, ls₂, v, w, rfl, .cons ⟨hC, h₁⟩ hg, hn, hm, hr⟩
      · exact .inr ⟨[], l, ls, s, t, rfl, .nil s, hC, h₁, h₂⟩

/-- A condition that follows from another one where an invariant holds. -/
theorem Run.reguard {C' : S → L → Prop} {I : S → Prop}
    (hstep : ∀ s l t, I s → C s l → step s l t → C' s l ∧ I t) {s t : S} {ls : List L}
    (h : Run (Guarded C step) s ls t) (hs : I s) : Run (Guarded C' step) s ls t := by
  induction h with
  | nil s => exact .nil s
  | cons h₁ _ ih =>
      obtain ⟨hC', hI⟩ := hstep _ _ _ hs h₁.1 h₁.2
      exact .cons ⟨hC', h₁.2⟩ (ih hI)

/-- Every step meets a condition that the labels alone decide. -/
theorem Run.guarded_of_forall {s t : S} {ls : List L} (h : Run step s ls t)
    (hC : ∀ l ∈ ls, ∀ s, C s l) : Run (Guarded C step) s ls t := by
  induction h with
  | nil s => exact .nil s
  | cons h₁ _ ih =>
      exact .cons ⟨hC _ List.mem_cons_self _, h₁⟩ (ih fun l hl => hC l (List.mem_cons_of_mem _ hl))

/-- `Q` holds in every state on the way along `ls`. -/
def Throughout (step : S → L → S → Prop) (s : S) (ls : List L) (Q : S → Prop) : Prop :=
  ∀ ls₁ u, ls₁ <+: ls → Run step s ls₁ u → Q u

/-- **When a property holds throughout a run.**  If it holds as long as every
step meets the condition and fails as soon as one does not, it holds throughout
exactly the runs whose steps all meet the condition. -/
theorem Run.throughout_iff {Q : S → Prop}
    (hdet : ∀ s l t u, step s l t → step s l u → t = u) {s t : S} {ls : List L}
    (h : Run step s ls t) (hgood : ∀ ls' u, Run (Guarded C step) s ls' u → Q u)
    (hbad : ∀ ls' u l v, Run (Guarded C step) s ls' u → ¬ C u l → step u l v → ¬ Q v) :
    Throughout step s ls Q ↔ Run (Guarded C step) s ls t := by
  constructor
  · intro hQ
    rcases h.guarded_or_first (C := C) with hg | ⟨ls₁, l, ls₂, u, v, rfl, hg, hn, hs, -⟩
    · exact hg
    · have hpre : ls₁ ++ [l] <+: ls₁ ++ l :: ls₂ := ⟨ls₂, by simp⟩
      exact absurd (hQ _ v hpre (hg.of_guarded.snoc hs)) (hbad _ _ _ _ hg hn hs)
  · rintro hg ls₁ u ⟨ls₂, rfl⟩ hu
    obtain ⟨u', hg₁, -⟩ := hg.of_append
    obtain rfl := hu.deterministic hdet hg₁.of_guarded
    exact hgood _ _ hg₁

/-! ## The steps of a run -/

/-- The step number `n` of the run along `ls` from `s` to `t` leads from `u` by `l` to `v`. -/
def StepAt (step : S → L → S → Prop) (s : S) (ls : List L) (t : S) (n : ℕ) (u : S) (l : L)
    (v : S) : Prop :=
  ∃ ls₁ ls₂, ls = ls₁ ++ l :: ls₂ ∧ ls₁.length = n ∧ Run step s ls₁ u ∧ step u l v ∧
    Run step v ls₂ t

/-- **When every step of a run has a property.**  If a step that can be reached has it
exactly when it meets the condition, then every step of a run has it exactly when the run
meets the condition at every step. -/
theorem Run.everyStep_iff {Q : S → L → S → Prop}
    (hdet : ∀ s l t u, step s l t → step s l u → t = u) {s t : S} {ls : List L}
    (hQ : ∀ ls' u l v, Run step s ls' u → step u l v → (Q u l v ↔ C u l))
    (h : Run step s ls t) :
    (∀ n u l v, StepAt step s ls t n u l v → Q u l v) ↔ Run (Guarded C step) s ls t := by
  constructor
  · intro hall
    rcases h.guarded_or_first (C := C) with hg | ⟨ls₁, l, ls₂, u, v, rfl, hg, hn, hs, hr⟩
    · exact hg
    · have hat := hall ls₁.length u l v ⟨ls₁, ls₂, rfl, rfl, hg.of_guarded, hs, hr⟩
      exact absurd ((hQ _ _ _ _ hg.of_guarded hs).1 hat) hn
  · rintro hg n u l v ⟨ls₁, ls₂, rfl, -, hr, hs, -⟩
    obtain ⟨u', hg₁, hg₂⟩ := hg.of_append
    obtain rfl := hr.deterministic hdet hg₁.of_guarded
    cases hg₂ with
    | cons hstep _ => exact (hQ _ _ _ _ hr hs).2 hstep.1

section Snoc

variable {s t t' u v : S} {ls : List L} {l m : L} {n : ℕ}

theorem StepAt.last (hr : Run step s ls t) (hs : step t l t') :
    StepAt step s (ls ++ [l]) t' ls.length t l t' := ⟨ls, [], rfl, rfl, hr, hs, .nil t'⟩

theorem StepAt.snoc (h : StepAt step s ls t n u m v) (hs : step t l t') :
    StepAt step s (ls ++ [l]) t' n u m v := by
  obtain ⟨ls₁, ls₂, rfl, hn, hr, hm, hr'⟩ := h
  exact ⟨ls₁, ls₂ ++ [l], by simp, hn, hr, hm, hr'.snoc hs⟩

/-- A step of a run that has gone on by one is a step of the run before, or the last one. -/
theorem StepAt.snoc_cases (hdet : ∀ s l t u, step s l t → step s l u → t = u)
    (hr : Run step s ls t) (hs : step t l t') (h : StepAt step s (ls ++ [l]) t' n u m v) :
    StepAt step s ls t n u m v ∨ u = t ∧ m = l ∧ v = t' := by
  obtain ⟨ls₁, ls₂, heq, hn, hr₁, hm, hr₂⟩ := h
  rcases List.eq_nil_or_concat ls₂ with rfl | ⟨ls₂, l', rfl⟩
  · obtain ⟨rfl, hlast⟩ := List.append_inj' heq rfl
    cases hlast
    obtain rfl := hr.deterministic hdet hr₁
    exact .inr ⟨rfl, rfl, hdet _ _ _ _ hm hs⟩
  · rw [List.concat_eq_append, ← List.cons_append, ← List.append_assoc] at heq
    obtain ⟨rfl, hlast⟩ := List.append_inj' heq rfl
    cases hlast
    rw [List.concat_eq_append] at hr₂
    obtain ⟨t₂, hr₂, -⟩ := hr₂.of_append
    obtain rfl := hr.deterministic hdet (hr₁.append (.cons hm hr₂))
    exact .inl ⟨ls₁, ls₂, rfl, hn, hr₁, hm, hr₂⟩

end Snoc

/-- Some step of the run has the property, which is about the state before it and its label. -/
def SomeStep (step : S → L → S → Prop) (s : S) (ls : List L) (t : S) (Q : S → L → Prop) : Prop :=
  ∃ n u l v, StepAt step s ls t n u l v ∧ Q u l

namespace SomeStep

variable {Q Q' : S → L → Prop} {s t t' : S} {ls : List L} {l : L}

theorem mono (h : SomeStep step s ls t Q) (hQ : ∀ u l, Q u l → Q' u l) :
    SomeStep step s ls t Q' := by
  obtain ⟨n, u, l, v, hat, hu⟩ := h
  exact ⟨n, u, l, v, hat, hQ u l hu⟩

theorem last (hr : Run step s ls t) (hs : step t l t') (h : Q t l) :
    SomeStep step s (ls ++ [l]) t' Q := ⟨_, t, l, t', .last hr hs, h⟩

theorem snoc (h : SomeStep step s ls t Q) (hs : step t l t') :
    SomeStep step s (ls ++ [l]) t' Q := by
  obtain ⟨n, u, m, v, hat, hu⟩ := h
  exact ⟨n, u, m, v, hat.snoc hs, hu⟩

end SomeStep

/-- A property that does not hold before a run and holds after it sets in at some
step. -/
theorem Run.exists_onset {Q : S → Prop} {s t : S} {ls : List L} (h : Run step s ls t)
    (hs : ¬ Q s) (ht : Q t) : ∃ n u l v, StepAt step s ls t n u l v ∧ ¬ Q u ∧ Q v := by
  induction h with
  | nil s => exact absurd ht hs
  | @cons s t u l ls h₁ h₂ ih =>
      by_cases hQ : Q t
      · exact ⟨0, s, l, t, ⟨[], ls, rfl, rfl, .nil s, h₁, h₂⟩, hs, hQ⟩
      · obtain ⟨n, v, m, w, ⟨ls₁, ls₂, rfl, rfl, hr, hm, hr'⟩, hv, hw⟩ := ih hQ ht
        exact ⟨ls₁.length + 1, v, m, w, ⟨l :: ls₁, ls₂, rfl, rfl, .cons h₁ hr, hm, hr'⟩, hv, hw⟩

/-- Once a property that no step ends has set in, it holds in every later state. -/
theorem StepAt.holds_after {Q : S → Prop} (hdet : ∀ s l t u, step s l t → step s l u → t = u)
    {s t : S} {ls : List L} (hkept : ∀ ls u l v, Run step s ls u → step u l v → Q u → Q v)
    {m n : ℕ} {u v u' v' : S} {l l' : L} (h : StepAt step s ls t m u l v) (hv : Q v)
    (h' : StepAt step s ls t n u' l' v') (hmn : m < n) : Q u' := by
  obtain ⟨ls₁, ls₂, rfl, rfl, hr, hs, -⟩ := h
  obtain ⟨ls₁', ls₂', heq, rfl, hr', -, -⟩ := h'
  obtain ⟨ms, rfl⟩ : ls₁ ++ [l] <+: ls₁' := by
    have hpre : ls₁ ++ [l] <+: ls₁ ++ l :: ls₂ := ⟨ls₂, by simp⟩
    have hpre' : ls₁' <+: ls₁ ++ l :: ls₂ := heq ▸ List.prefix_append _ _
    exact List.prefix_of_prefix_length_le hpre hpre' (by simpa using hmn)
  obtain ⟨w, hw, hrest⟩ := hr'.of_append
  obtain rfl := (hr.snoc hs).deterministic hdet hw
  refine hrest.history (I := fun _ x => Q x) hv ?_
  intro ms x l y hx hQ hxy
  exact hkept _ _ _ _ (hw.append hx) hxy hQ

/-- **Exactly one step.**  A property that no step ends sets in at exactly one step
of a run that it holds at the end of and not at the beginning. -/
theorem Run.existsUnique_onset {Q : S → Prop}
    (hdet : ∀ s l t u, step s l t → step s l u → t = u) {s t : S} {ls : List L}
    (hkept : ∀ ls u l v, Run step s ls u → step u l v → Q u → Q v) (h : Run step s ls t)
    (hs : ¬ Q s) (ht : Q t) : ∃! n, ∃ u l v, StepAt step s ls t n u l v ∧ ¬ Q u ∧ Q v := by
  obtain ⟨n, u, l, v, hat, hu, hv⟩ := h.exists_onset hs ht
  refine ⟨n, ⟨u, l, v, hat, hu, hv⟩, ?_⟩
  rintro m ⟨u', l', v', hat', hu', hv'⟩
  rcases Nat.lt_trichotomy m n with hlt | rfl | hgt
  · exact absurd (hat'.holds_after hdet hkept hv' hat hlt) hu
  · rfl
  · exact absurd (hat.holds_after hdet hkept hv hat' hgt) hu'

/-! ## Independent copies of one system -/

section Interleaved

variable {ι : Type*} [DecidableEq ι]

/-- Copies of one system, one per index, any one of which may take a step. -/
def Interleaved (step : S → L → S → Prop) (f : ι → S) (il : ι × L) (g : ι → S) : Prop :=
  ∃ t, step (f il.1) il.2 t ∧ g = Function.update f il.1 t

/-- **Each copy runs by itself.**  Seen from one index, a run of the copies is a
run of the system. -/
theorem Run.project {step : S → L → S → Prop} {f g : ι → S} {ls : List (ι × L)}
    (h : Run (Interleaved step) f ls g) (i : ι) :
    Run step (f i) (ls.filterMap fun il => if il.1 = i then some il.2 else none) (g i) := by
  induction h with
  | nil f => exact .nil (f i)
  | @cons f g k il ls hstep _ ih =>
      obtain ⟨t, ht, rfl⟩ := hstep
      by_cases hi : il.1 = i
      · subst hi
        rw [List.filterMap_cons_some (by rw [if_pos rfl])]
        apply Run.cons ht
        simpa using ih
      · rw [List.filterMap_cons_none (by rw [if_neg hi])]
        rwa [Function.update_of_ne (Ne.symm hi)] at ih

/-- A run of one copy is a run of the whole. -/
theorem Run.interleave {step : S → L → S → Prop} {s t : S} {ls : List L} (h : Run step s ls t)
    {f : ι → S} {i : ι} (hf : f i = s) :
    Run (Interleaved step) f (ls.map fun l => (i, l)) (Function.update f i t) := by
  induction h generalizing f with
  | nil s => rw [← hf, Function.update_eq_self]; exact .nil f
  | @cons s t u l ls hs _ ih =>
      refine .cons ⟨t, by rwa [hf], rfl⟩ ?_
      have hrest := ih (f := Function.update f i t) (Function.update_self i t f)
      rwa [Function.update_idem] at hrest

end Interleaved

end Transition
