import LightSocks.Client.Drain
import LightSocks.Client.Locality

/-!
# Each connection of the client runs by itself

The connections of the client share a heap and nothing else.  A sequence of events is a run of
the client exactly when, for every connection, the events of that connection are a run of a
client that has no other, and the heap is then made up of what those runs lead to.

* `HasConnection` — a connection of the heap is like one on its own.
* `HasConnection.lift`, `HasConnection.restrict` — one step, in both directions.
* `Ordered`, `eventsOf` — the events of each connection.
* `client_run_iff` — over whole runs.
-/

namespace LightSocks

open Memory Transition

namespace Client

variable {T : Table} {es es₀ : List Event} {e : Event} {h h' l l' : State} {j k : ℕ} {p : BevPtr}
  {re : ℤ}

/-- Where the bufferevents of a connection on its own are when it is the connection `k`. -/
def shift (k p : ℕ) : ℕ := 2 * k + p

theorem shift_div (k : ℕ) {i : ℕ} (hi : i < 2) : shift k i / 2 = k := by
  rw [shift]
  omega

theorem shift_mod (q : ℕ) : shift (q / 2) (q % 2) = q := Nat.div_add_mod q 2

/-- The connection `k` of the heap `h` is like `l`, a connection on its own. -/
structure HasConnection (h : State) (k : ℕ) (l : State) : Prop where
  length : l.length = 2
  cell : ∀ i < 2, h[shift k i]? =
    l[i]?.map (Bufferevent.mapCallbacks (Callbacks.rename (shift k)))

/-- Only the connection `k` has changed. -/
structure OnlyChanges (k : ℕ) (h h' : State) : Prop where
  length : h'.length = h.length
  cell : ∀ q, q / 2 ≠ k → h'[q]? = h[q]?

/-- The others are what they were. -/
theorem HasConnection.elsewhere (hc : HasConnection h j l) (ho : OnlyChanges k h h')
    (hjk : j ≠ k) : HasConnection h' j l := by
  refine ⟨hc.length, fun i hi => ?_⟩
  rw [ho.cell _ (by rwa [shift_div j hi])]
  exact hc.cell i hi

/-! ## One step -/

/-- The addresses of the connection `k`, and those that are not in use. -/
abbrev places (k : ℕ) (h : State) : ℕ → ℕ := place [shift k 0, shift k 1] h.length

theorem places_of_lt {i : ℕ} (hi : i < 2) : places k h i = shift k i := by
  obtain rfl | rfl : i = 0 ∨ i = 1 := by omega
  · exact place_of_getElem? rfl
  · exact place_of_getElem? rfl

/-- A connection of the heap is a window on it. -/
theorem HasConnection.window (hc : HasConnection h k l) :
    HeapWindow (places k h) (Callbacks.rename (shift k)) h l h := by
  refine Window.of_places ?_ hc.length ?_
  · simp [shift]
  · intro i q hi
    have hlt : i < 2 := (List.getElem?_eq_some_iff.1 hi).1
    obtain rfl : shift k i = q :=
      (places_of_lt (h := h) hlt).symm.trans (place_of_getElem? hi)
    have hl : i < l.length := hc.length ▸ hlt
    refine ⟨l[i], List.getElem?_eq_getElem hl, ?_⟩
    rw [hc.cell i hlt, List.getElem?_eq_getElem hl]
    rfl

/-- What has been done through the window has changed this connection only. -/
theorem HasConnection.of_window
    (hw : HeapWindow (places k h) (Callbacks.rename (shift k)) h l h') (hlen : l.length = 2) :
    HasConnection h' k l ∧ OnlyChanges k h h' := by
  have hlength : h'.length = h.length := by
    have hnext : places k h 2 = h'.length := hlen ▸ hw.next_eq
    have hend : places k h 2 = h.length := place_of_le (le_refl 2)
    exact hnext.symm.trans hend
  refine ⟨⟨hlen, fun i hi => ?_⟩, hlength, fun q hq => ?_⟩
  · rw [← places_of_lt (h := h) hi]
    exact hw.inside i
  · rcases lt_or_ge q h.length with hlt | hge
    · refine hw.outside q (place_ne ?_ hlt)
      intro hmem
      simp only [List.mem_cons, List.not_mem_nil, or_false] at hmem
      rcases hmem with rfl | rfl
      · exact hq (shift_div k (by decide))
      · exact hq (shift_div k (by decide))
    · rw [List.getElem?_eq_none (hlength ▸ hge), List.getElem?_eq_none hge]

/-- The argument of a live bufferevent is the other one of the connection, or there is none. -/
theorem Phase.rename_eq {s : Pair} {x : Side} (hp : Phase T 0 re s) (hl : (s x).live = true) :
    (s x).callbacks.rename (shift k) = (s x).callbacks.rename (places k h) := by
  have hother : places k h (x.other.ptr 0) = shift k (x.other.ptr 0) := by
    cases x with
    | localSide => exact places_of_lt (by decide)
    | remoteSide => exact places_of_lt (by decide)
  rcases hp.live_cases hl with ⟨hx, -⟩ | hx
  · rw [hx.callbacks]
    simp only [Side.joinedCallbacks, Callbacks.rename, Option.map_some, hother]
  · rw [hx.callbacks]
    rfl

/-- A client that has accepted one connection, and nothing else. -/
structure Alone (T : Table) (es : List Event) (l : State) : Prop where
  connections : Connections T es l
  one : (connectResults es).length = 1

theorem Alone.length (hl : Alone T es l) : l.length = 2 := by
  rw [hl.connections.length, hl.one]

theorem connectResults_of_bev (hbev : e.bev = some p) : connectResults [e] = [] := by
  cases e with
  | accept re => cases hbev
  | socket q e => rfl
  | readCb q => rfl

/-- Any event of the one connection keeps it the only one. -/
theorem Alone.step (hl : Alone T es l) (hbev : e.bev = some p) (hs : Step T l e l') :
    Alone T (es ++ [e]) l' := by
  refine ⟨(hl.connections.step hs).1, ?_⟩
  rw [connectResults_append, connectResults_of_bev hbev, List.append_nil]
  exact hl.one

theorem Alone.rename_eq (hl : Alone T es l) {b : Bufferevent Callbacks} (hb : l[p]? = some b)
    (hlive : b.live = true) :
    b.callbacks.rename (shift k) = b.callbacks.rename (places k h) := by
  obtain ⟨x, j, rfl⟩ := Side.exists_ptr p
  obtain ⟨re, s, hj, -, hp, rfl⟩ := hl.connections.of_ptr hb
  obtain rfl : j = 0 := by
    have hlt := (List.getElem?_eq_some_iff.1 hj).1
    rw [hl.one] at hlt
    omega
  exact hp.rename_eq hlive

/-- The event is possible for the connection on its own and for the same among the others, or
for neither. -/
theorem HasConnection.fire (hc : HasConnection h k l) (hl : Alone T es l)
    (hbev : e.bev = some p) (hp : p < 2) :
    Option.Rel (Related (HeapWindow (places k h) (Callbacks.rename (shift k)) h))
      (Client.fire T l e) (Client.fire T h (e.rename (shift k))) := by
  have hrename : e.rename (shift k) = e.rename (places k h) := by
    cases e with
    | accept re => rfl
    | socket q e =>
        obtain rfl := Option.some.inj hbev
        rw [Event.rename, Event.rename, places_of_lt hp]
    | readCb q =>
        obtain rfl := Option.some.inj hbev
        rw [Event.rename, Event.rename, places_of_lt hp]
  rw [hrename]
  exact hc.window.fire hbev fun b hb hlive => hl.rename_eq hb hlive

/-- **A step of the connection on its own** can happen among the others. -/
theorem HasConnection.lift (hc : HasConnection h k l) (hl : Alone T es l)
    (hbev : e.bev = some p) (hp : p < 2) (hs : Step T l e l') :
    ∃ h', Step T h (e.rename (shift k)) h' ∧ HasConnection h' k l' ∧ OnlyChanges k h h' := by
  obtain ⟨h', hs', hw⟩ := Related.rel_of_ok (hc.fire hl hbev hp) hs
  exact ⟨h', hs', of_window hw (hl.step hbev hs).length⟩

/-- **A step among the others** can happen to the connection on its own. -/
theorem HasConnection.restrict (hc : HasConnection h k l) (hl : Alone T es l)
    (hbev : e.bev = some p) (hp : p < 2) (hs : Step T h (e.rename (shift k)) h') :
    ∃ l', Step T l e l' ∧ HasConnection h' k l' ∧ OnlyChanges k h h' := by
  obtain ⟨l', hs', hw⟩ := Related.of_rel_ok (hc.fire hl hbev hp) hs
  exact ⟨l', hs', of_window hw (hl.step hbev hs').length⟩

/-! ## The events of a connection -/

/-- The connection an event belongs to. -/
def Event.connection (e : Event) : Option ℕ := e.bev.map (· / 2)

/-- The events of the connection `k`, as they are for a connection on its own. -/
def eventsOf (k : ℕ) (es : List Event) : List Event :=
  (es.filter fun e => e.connection = some k).map (Event.rename (· % 2))

/-- Nothing happens to a connection before it has been accepted. -/
def Ordered (es : List Event) : Prop :=
  ∀ es₁ e es₂ k, es = es₁ ++ e :: es₂ → e.connection = some k → k < (connectResults es₁).length

theorem eventsOf_append (k : ℕ) (es es' : List Event) :
    eventsOf k (es ++ es') = eventsOf k es ++ eventsOf k es' := by
  simp [eventsOf]

theorem eventsOf_self (he : e.connection = some k) : eventsOf k [e] = [e.rename (· % 2)] := by
  simp [eventsOf, he]

theorem eventsOf_other (he : e.connection ≠ some k) : eventsOf k [e] = [] := by
  simp [eventsOf, he]

/-- Seen from the connection and put back in its place. -/
theorem Event.rename_shift (he : e.connection = some k) :
    (e.rename (· % 2)).rename (shift k) = e := by
  cases e with
  | accept re => cases he
  | socket q e =>
      obtain rfl : q / 2 = k := Option.some.inj he
      simp only [Event.rename, shift_mod]
  | readCb q =>
      obtain rfl : q / 2 = k := Option.some.inj he
      simp only [Event.rename, shift_mod]

theorem Event.exists_bev (he : e.connection = some k) :
    ∃ p, (e.rename (· % 2)).bev = some p ∧ p < 2 := by
  cases e with
  | accept re => cases he
  | socket q e => exact ⟨q % 2, rfl, Nat.mod_lt q (by decide)⟩
  | readCb q => exact ⟨q % 2, rfl, Nat.mod_lt q (by decide)⟩

theorem connectResults_eventsOf (k : ℕ) (es : List Event) :
    connectResults (eventsOf k es) = [] := by
  simp only [connectResults, List.filterMap_eq_nil_iff, eventsOf, List.mem_map, List.mem_filter,
    decide_eq_true_eq]
  rintro _ ⟨e, ⟨-, he⟩, rfl⟩
  cases e with
  | accept re => cases he
  | socket q e => rfl
  | readCb q => rfl

theorem Ordered.of_append {es' : List Event} (ho : Ordered (es ++ es')) : Ordered es := by
  intro es₁ e es₂ k heq he
  refine ho es₁ e (es₂ ++ es') k ?_ he
  rw [heq, List.append_assoc, List.cons_append]

theorem Ordered.eventsOf_eq_nil (ho : Ordered es) (hk : (connectResults es).length ≤ k) :
    eventsOf k es = [] := by
  rw [eventsOf, List.map_eq_nil_iff, List.filter_eq_nil_iff]
  intro e he hek
  obtain ⟨es₁, es₂, rfl⟩ := List.append_of_mem he
  have hlt := ho es₁ e es₂ k rfl (of_decide_eq_true hek)
  rw [connectResults_append, List.length_append] at hk
  omega

/-- The connection `k` has been accepted, and has then had its events, on its own. -/
theorem alone_of_run (hr : Run (Step T) [] (.accept re :: eventsOf k es) l) :
    Alone T (.accept re :: eventsOf k es) l := by
  refine ⟨connections_run hr, ?_⟩
  have hone : connectResults (.accept re :: eventsOf k es) = [re] :=
    congrArg (re :: ·) (connectResults_eventsOf k es)
  rw [hone, List.length_singleton]

/-! ## Whole runs -/

/-- What happens, happens to a connection that has been accepted. -/
theorem Step.connection_lt (hs : Step T h e h') (hc : Connections T es h)
    (he : e.connection = some k) : k < (connectResults es).length := by
  have hcell : ∀ q b, h[q]? = some b → q / 2 = k → k < (connectResults es).length := by
    intro q b hb hq
    have hlt := (List.getElem?_eq_some_iff.1 hb).1
    rw [hc.length] at hlt
    omega
  have hfired := hc.fired hs
  generalize Except.ok h' = r at hfired
  cases hfired with
  | accept re => cases he
  | socket hk hs' hp hadmits => exact hcell _ _ (hs' _) (Option.some.inj he)
  | readCb hk hs' hp hdue => exact hcell _ _ (hs' _) (Option.some.inj he)

theorem ordered_run (hr : Run (Step T) [] es h) : Ordered es := by
  rintro es₁ e es₂ k rfl he
  obtain ⟨u, hu, hrest⟩ := hr.of_append
  cases hrest with
  | cons hs _ => exact hs.connection_lt (connections_run hu) he

/-- Every connection of the heap is what it has become on its own. -/
def Projects (T : Table) (es : List Event) (h : State) : Prop :=
  ∀ k re, (connectResults es)[k]? = some re →
    ∃ l, Run (Step T) [] (.accept re :: eventsOf k es) l ∧ HasConnection h k l

/-- A connection that has just been accepted is the same on its own. -/
theorem hasConnection_accepted (re : ℤ) (hlen : h.length = 2 * k) :
    ∃ l, Run (Step T) [] [.accept re] l ∧ HasConnection
      (h ++ [accepted re k .localSide, accepted re k .remoteSide]) k l := by
  refine ⟨_, .single (congrArg some (listenCb_eq re (k := 0) rfl)), rfl, fun i hi => ?_⟩
  rw [shift, ← hlen, List.getElem?_append_right (Nat.le_add_right _ _), Nat.add_sub_cancel_left]
  obtain rfl | rfl : i = 0 ∨ i = 1 := by omega
  · rfl
  · rfl

/-- A new connection joins the others. -/
theorem Projects.accept (hp : Projects T es h) (hc : Connections T es h) (ho : Ordered es)
    (hs : Step T h (.accept re) h') : Projects T (es ++ [.accept re]) h' := by
  obtain rfl : _ = h' := Except.ok.inj ((listenCb_eq re hc.length).symm.trans
    (Option.some.inj hs))
  intro k re' hk
  rw [eventsOf_append, eventsOf_other (by simp [Event.connection, Event.bev]), List.append_nil]
  rw [connectResults_append] at hk
  rcases lt_or_ge k (connectResults es).length with hlt | hge
  · rw [List.getElem?_append_left hlt] at hk
    obtain ⟨l, hl, hold⟩ := hp k re' hk
    refine ⟨l, hl, hold.length, fun i hi => ?_⟩
    rw [List.getElem?_append_left (by rw [hc.length, shift]; omega)]
    exact hold.cell i hi
  · rw [List.getElem?_append_right hge, connectResults_accept, List.getElem?_singleton] at hk
    split at hk
    · obtain rfl := Option.some.inj hk
      obtain rfl : k = (connectResults es).length := by omega
      rw [ho.eventsOf_eq_nil le_rfl]
      exact hasConnection_accepted re hc.length
    · cases hk

/-- An event of one connection happens to it as it would if it were on its own. -/
theorem Projects.event (hp : Projects T es h) (hc : Connections T es h)
    (he : e.connection = some j) (hs : Step T h e h') : Projects T (es ++ [e]) h' := by
  obtain ⟨q, hq, -⟩ := Option.map_eq_some_iff.1 he
  have hj := hs.connection_lt hc he
  obtain ⟨l, hl, hold⟩ := hp j _ (List.getElem?_eq_getElem hj)
  obtain ⟨p, hbev, hlt⟩ := Event.exists_bev he
  rw [← Event.rename_shift he] at hs
  obtain ⟨l', hs', hnew, honly⟩ := hold.restrict (alone_of_run hl) hbev hlt hs
  intro k re hk
  rw [connectResults_append, connectResults_of_bev hq, List.append_nil] at hk
  by_cases hkj : k = j
  · subst hkj
    rw [List.getElem?_eq_getElem hj] at hk
    obtain rfl := Option.some.inj hk
    rw [eventsOf_append, eventsOf_self he]
    exact ⟨l', hl.snoc hs', hnew⟩
  · obtain ⟨m, hm, hother⟩ := hp k re hk
    have hek : e.connection ≠ some k := by
      rw [he]
      exact fun heq => hkj (Option.some.inj heq).symm
    rw [eventsOf_append, eventsOf_other hek, List.append_nil]
    exact ⟨m, hm, hother.elsewhere honly hkj⟩

/-- **The step lemma.** -/
theorem Projects.step (hp : Projects T es h) (hr : Run (Step T) [] es h) (hs : Step T h e h') :
    Projects T (es ++ [e]) h' := by
  have hc := connections_run hr
  cases e with
  | accept re => exact hp.accept hc (ordered_run hr) hs
  | socket q e => exact hp.event hc rfl hs
  | readCb q => exact hp.event hc rfl hs

/-- **The run lemma.** -/
theorem projects_run (hr : Run (Step T) [] es h) : Projects T es h := by
  refine hr.history ?_ fun _ _ _ _ hr' hp hs => hp.step hr' hs
  intro k re hk
  cases hk

/-- Runs of connections on their own can be interleaved in any order. -/
theorem exists_run (ho : Ordered es) (hruns : ∀ k re, (connectResults es)[k]? = some re →
    ∃ l, Run (Step T) [] (.accept re :: eventsOf k es) l) : ∃ h, Run (Step T) [] es h := by
  induction es using List.reverseRecOn with
  | nil => exact ⟨[], .nil []⟩
  | append_singleton es e ih =>
      have hbefore : ∀ k re, (connectResults es)[k]? = some re →
          ∃ l, Run (Step T) [] (.accept re :: eventsOf k es) l := by
        intro k re hk
        have hlt := (List.getElem?_eq_some_iff.1 hk).1
        obtain ⟨l, hl⟩ := hruns k re <| by
          rw [connectResults_append, List.getElem?_append_left hlt]
          exact hk
        rw [eventsOf_append, ← List.cons_append] at hl
        obtain ⟨m, hm, -⟩ := hl.of_append
        exact ⟨m, hm⟩
      obtain ⟨h, hr⟩ := ih ho.of_append hbefore
      cases he : e.connection with
      | none =>
          cases e with
          | accept re =>
              exact ⟨_, hr.snoc (congrArg some (listenCb_eq re (connections_run hr).length))⟩
          | socket q e => cases he
          | readCb q => cases he
      | some k =>
          have hk : k < (connectResults es).length := ho es e [] k rfl he
          obtain ⟨l, hl, hold⟩ := projects_run hr k _ (List.getElem?_eq_getElem hk)
          obtain ⟨l', hl'⟩ := hruns k _ <| by
            rw [connectResults_append, List.getElem?_append_left hk]
            exact List.getElem?_eq_getElem hk
          rw [eventsOf_append, ← List.cons_append, eventsOf_self he] at hl'
          obtain ⟨m, hm, hlast⟩ := hl'.of_append
          obtain rfl := hm.deterministic (step_deterministic T) hl
          cases hlast with
          | cons hs hnil =>
              obtain ⟨p, hbev, hlt⟩ := Event.exists_bev he
              obtain ⟨h', hs', -⟩ := hold.lift (alone_of_run hl) hbev hlt hs
              rw [Event.rename_shift he] at hs'
              exact ⟨h', hr.snoc hs'⟩

/-- **Each connection runs by itself.**  The events `es` lead to the heap `h` exactly when each
connection is accepted before its events, and these lead a client that has no other connection
to what there is of it on the heap. -/
theorem client_run_iff (T : Table) (es : List Event) (h : State) :
    Run (Step T) [] es h ↔ Ordered es ∧ h.length = 2 * (connectResults es).length ∧
      ∀ k re, (connectResults es)[k]? = some re →
        ∃ l, Run (Step T) [] (.accept re :: eventsOf k es) l ∧ HasConnection h k l := by
  constructor
  · intro hr
    exact ⟨ordered_run hr, (connections_run hr).length, projects_run hr⟩
  · rintro ⟨ho, hlen, hconn⟩
    obtain ⟨h', hr⟩ := exists_run ho fun k re hk => (hconn k re hk).imp fun l hl => hl.1
    have hlen' := (connections_run hr).length
    have heq : h' = h := by
      refine List.ext_getElem? fun q => ?_
      rcases lt_or_ge (q / 2) (connectResults es).length with hlt | hge
      · obtain ⟨l, hl, hold⟩ := hconn _ _ (List.getElem?_eq_getElem hlt)
        obtain ⟨l', hl', hold'⟩ := projects_run hr _ _ (List.getElem?_eq_getElem hlt)
        obtain rfl := hl.deterministic (step_deterministic T) hl'
        have hmod : q % 2 < 2 := Nat.mod_lt q (by decide)
        have hcell := (hold'.cell _ hmod).trans (hold.cell _ hmod).symm
        rwa [shift_mod] at hcell
      · rw [List.getElem?_eq_none (by omega), List.getElem?_eq_none (by omega)]
    exact heq ▸ hr

end Client

end LightSocks
