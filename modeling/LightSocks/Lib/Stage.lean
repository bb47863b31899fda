import Mathlib

/-!
# Stages of a pipeline

A stage takes its input in portions, whatever their size, and appends the code of
every element to its output.  Because it does so element by element, the way the
input is cut does not show in the output.

* `Stage` — a step function together with what one portion does, so that a step
  function that drops, repeats or reorders something is no stage.
* `Stage.feed_eq` — any number of portions: the output grows by the code of all
  they carry.
* `Stage.roundTrip` — a second stage that undoes the code of the first, fed any
  cut of what the first has put out, restores what the first was fed.
-/

/-- A stage over states `σ` that takes portions `W` of `α`s and puts out `β`s. -/
structure Stage (ε σ W α β : Type*) where
  /-- Handle one portion. -/
  take : W → σ → Except ε σ
  /-- What a portion carries. -/
  payload : W → List α
  /-- What becomes of one element. -/
  code : α → β
  /-- Everything put out so far. -/
  out : σ → List β
  /-- The states in which a portion can be taken. -/
  Ready : σ → Prop
  /-- The portions that can be taken. -/
  Fits : W → Prop
  /-- A portion is taken, its code put out, and the next one can come. -/
  take_eq : ∀ {s : σ} {w : W}, Ready s → Fits w →
    ∃ t, take w s = .ok t ∧ Ready t ∧ out t = out s ++ (payload w).map code

namespace Stage

variable {ε σ τ W V α β : Type*}

/-- One portion after another. -/
def feed (S : Stage ε σ W α β) : List W → σ → Except ε σ
  | [], s => .ok s
  | w :: ws, s =>
      match S.take w s with
      | .error e => .error e
      | .ok t => S.feed ws t

/-- **The cut does not show.** -/
theorem feed_eq (S : Stage ε σ W α β) {s : σ} {ws : List W} (hs : S.Ready s)
    (hw : ∀ w ∈ ws, S.Fits w) : ∃ t, S.feed ws s = .ok t ∧ S.Ready t ∧
      S.out t = S.out s ++ (ws.flatMap S.payload).map S.code := by
  induction ws generalizing s with
  | nil => exact ⟨s, rfl, hs, by simp⟩
  | cons w ws ih =>
      obtain ⟨t, htake, ht, hout⟩ := S.take_eq hs (hw w List.mem_cons_self)
      obtain ⟨u, hfeed, hu, hout'⟩ := ih ht fun v hv => hw v (List.mem_cons_of_mem _ hv)
      refine ⟨u, ?_, hu, ?_⟩
      · unfold feed
        rw [htake]
        exact hfeed
      · rw [hout', hout, List.flatMap_cons, List.map_append, List.append_assoc]

/-- **The round trip.** -/
theorem roundTrip (S : Stage ε σ W α β) (T : Stage ε τ V β α)
    (hinv : ∀ a, T.code (S.code a) = a) {s s' : σ} {t : τ} {ws : List W} {vs : List V}
    (hs : S.Ready s) (hw : ∀ w ∈ ws, S.Fits w) (hfeed : S.feed ws s = .ok s') (ht : T.Ready t)
    (hv : ∀ v ∈ vs, T.Fits v) (hwire : S.out s' = S.out s ++ vs.flatMap T.payload) :
    ∃ t', T.feed vs t = .ok t' ∧ T.Ready t' ∧ T.out t' = T.out t ++ ws.flatMap S.payload := by
  obtain ⟨s₁, hfeed₁, -, hout₁⟩ := S.feed_eq hs hw
  obtain rfl : s' = s₁ := Except.ok.inj (hfeed.symm.trans hfeed₁)
  have hcode : vs.flatMap T.payload = (ws.flatMap S.payload).map S.code :=
    List.append_cancel_left (hwire.symm.trans hout₁)
  obtain ⟨t', hfeed', ht', hout'⟩ := T.feed_eq ht hv
  refine ⟨t', hfeed', ht', ?_⟩
  calc T.out t' = T.out t ++ (vs.flatMap T.payload).map T.code := hout'
    _ = T.out t ++ ((ws.flatMap S.payload).map S.code).map T.code := by rw [hcode]
    _ = T.out t ++ ws.flatMap S.payload := by
        rw [List.map_map, show T.code ∘ S.code = id from funext hinv, List.map_id]

end Stage
