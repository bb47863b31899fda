import Mathlib

/-!
# Byte queues that remember what went through them

A first-in-first-out queue, kept together with everything that has already left
it.  The contents of the queue are `pending`; `past` is the history; the two
side by side are the `stream` that was ever put in.

* `stream_push` / `stream_pop` — a push extends the stream, a pop moves a prefix
  of the pending part into the past and leaves the stream alone, so no operation
  loses, repeats or reorders an element.
* `Feeds` — one queue is filled with what leaves another one, element by element
  translated and possibly late; `Feeds.trans` chains such hops.
-/

/-- A queue together with everything that has left it. -/
structure Fifo (α : Type*) where
  /-- What has been taken out, oldest first. -/
  past : List α
  /-- What is still queued, oldest first. -/
  pending : List α
  deriving DecidableEq, Repr

namespace Fifo

variable {α : Type*}

/-- The queue nothing has been put in. -/
def empty : Fifo α := ⟨[], []⟩

/-- Everything that was ever put in. -/
def stream (q : Fifo α) : List α := q.past ++ q.pending

def push (q : Fifo α) (xs : List α) : Fifo α := { q with pending := q.pending ++ xs }

/-- Take out at most `n` elements from the head. -/
def pop (q : Fifo α) (n : ℕ) : Fifo α :=
  ⟨q.past ++ q.pending.take n, q.pending.drop n⟩

/-- Take out everything. -/
def drain (q : Fifo α) : Fifo α := ⟨q.stream, []⟩

@[simp] theorem past_empty : (empty : Fifo α).past = [] := rfl

@[simp] theorem pending_empty : (empty : Fifo α).pending = [] := rfl

@[simp] theorem stream_empty : (empty : Fifo α).stream = [] := rfl

@[simp] theorem past_push (q : Fifo α) (xs : List α) : (q.push xs).past = q.past := rfl

@[simp] theorem pending_push (q : Fifo α) (xs : List α) :
    (q.push xs).pending = q.pending ++ xs := rfl

@[simp] theorem stream_push (q : Fifo α) (xs : List α) : (q.push xs).stream = q.stream ++ xs := by
  simp [stream, push]

@[simp] theorem past_pop (q : Fifo α) (n : ℕ) : (q.pop n).past = q.past ++ q.pending.take n := rfl

@[simp] theorem pending_pop (q : Fifo α) (n : ℕ) : (q.pop n).pending = q.pending.drop n := rfl

@[simp] theorem stream_pop (q : Fifo α) (n : ℕ) : (q.pop n).stream = q.stream := by
  simp [stream, pop]

@[simp] theorem past_drain (q : Fifo α) : q.drain.past = q.stream := rfl

@[simp] theorem pending_drain (q : Fifo α) : q.drain.pending = [] := rfl

@[simp] theorem stream_drain (q : Fifo α) : q.drain.stream = q.stream := by
  simp [stream, drain]

@[simp] theorem push_nil (q : Fifo α) : q.push [] = q := by
  simp [push]

theorem push_push (q : Fifo α) (xs ys : List α) : (q.push xs).push ys = q.push (xs ++ ys) := by
  simp [push]

/-- Popping at least as much as there is drains the queue. -/
theorem pop_eq_drain {q : Fifo α} {n : ℕ} (h : q.pending.length ≤ n) : q.pop n = q.drain := by
  simp [pop, drain, stream, List.take_of_length_le h, List.drop_of_length_le h]

theorem drain_eq_self {q : Fifo α} (h : q.pending = []) : q.drain = q := by
  cases q
  simp_all [drain, stream]

theorem past_eq_stream {q : Fifo α} (h : q.pending = []) : q.past = q.stream := by
  simp [stream, h]

/-! ## Hops from one queue to another -/

section Feeds

variable {β γ : Type*} {f : α → β} {g : β → γ} {p p' : Fifo α} {q q' : Fifo β} {r : Fifo γ}

/-- What was ever put into `q` is the beginning of what has left `p`, translated. -/
def Feeds (f : α → β) (p : Fifo α) (q : Fifo β) : Prop := q.stream <+: p.past.map f

theorem Feeds.empty (f : α → β) (p : Fifo α) (h : q.stream = []) : Feeds f p q := by
  rw [Feeds, h]
  exact List.nil_prefix

theorem Feeds.of_eq (h : q.stream = p.past.map f) : Feeds f p q := by
  rw [Feeds, h]

/-- **Hops compose.** -/
theorem Feeds.trans (h₁ : Feeds f p q) (h₂ : Feeds g q r) : Feeds (g ∘ f) p r := by
  have hmid : q.past.map g <+: q.stream.map g := (List.prefix_append _ _).map g
  have hfirst : q.stream.map g <+: (p.past.map f).map g := List.IsPrefix.map g h₁
  rw [List.map_map] at hfirst
  exact List.IsPrefix.trans h₂ (hmid.trans hfirst)

/-- What is still queued at the beginning of a hop comes later. -/
theorem Feeds.prefix_stream (h : Feeds f p q) : q.stream <+: p.stream.map f := by
  have hpast : p.past.map f <+: p.stream.map f := (List.prefix_append _ _).map f
  exact List.IsPrefix.trans h hpast

/-- More may leave the first queue. -/
theorem Feeds.mono (h : Feeds f p q) (hp : p.past <+: p'.past) (hq : q'.stream = q.stream) :
    Feeds f p' q' := by
  rw [Feeds, hq]
  exact List.IsPrefix.trans h (hp.map f)

/-- A wire: what arrives has been sent, and comes in order. -/
theorem Feeds.arrives {q q' : Fifo α} {xs : List α} (h : Feeds id p q)
    (hq : q'.stream = q.stream ++ xs) (hsent : xs ≠ [] → q.stream ++ xs <+: p.past) :
    Feeds id p q' := by
  by_cases hxs : xs = []
  · refine h.mono (List.prefix_refl _) ?_
    rw [hq, hxs, List.append_nil]
  · rw [Feeds, List.map_id, hq]
    exact hsent hxs

/-- A wire that brings all that is left. -/
theorem Feeds.append_drop {q : Fifo α} (h : Feeds id p q) :
    q.stream ++ p.past.drop q.stream.length = p.past := by
  have hprefix : q.stream <+: p.past := by
    rw [← List.map_id p.past]
    exact h
  obtain ⟨rest, hrest⟩ := hprefix
  rw [← hrest, List.drop_left]

end Feeds

end Fifo
