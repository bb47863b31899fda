import LightSocks.Cipher

/-!
# The client's read callbacks

Both read callbacks of the client program take their partner as the callback
argument, move the input buffer through a table into an evbuffer of their own and
add that to the output buffer of the partner.  They differ in the table only.

* `transfer` — the reading loop, at most 1023 bytes at a time; `transfer_eq` says
  that it terminates and takes everything.
* `localReadCb_eq`, `remoteReadCb_eq` — what one call does to two live
  bufferevents.
-/

namespace LightSocks

open Memory Cipher

namespace Client

variable {κ : Type}

theorem inputLength_eq {h : Heap κ} {p : BevPtr} {n : ℕ} (hn : h.inputLength p = .ok n) :
    n = pendingInput h p := by
  unfold Heap.inputLength at hn
  cases hb : h.deref p with
  | error e => rw [hb] at hn; exact absurd hn (by simp)
  | ok b =>
      rw [hb] at hn
      obtain ⟨hp, -⟩ := Heap.deref_ok hb
      simp only [ok_bind, pure_eq_ok, Except.ok.injEq] at hn
      simp [pendingInput, hp, hn]

theorem inputLength_eq_ok {h : Heap κ} {p : BevPtr} {b : Bufferevent κ} (hp : h[p]? = some b)
    (hl : b.live = true) : h.inputLength p = .ok b.input.pending.length := by
  simp [Heap.inputLength, Heap.deref_eq_ok hp hl]

/-- `while (len > 0)`: read up to 1023 bytes, add their translations to `temp`,
take the length of the input buffer again. -/
def transfer (table : Table) (bev : BevPtr) (len : ℕ) (temp : List UInt8) (h : Heap κ) :
    Except Fault (List UInt8 × Heap κ) :=
  if _hlen : len = 0 then .ok (temp, h)
  else
    match _hr : h.read bev 1023 with
    | .error e => .error e
    | .ok (data, h₁) =>
        match substitute table 1024 data with
        | .error e => .error e
        | .ok tempData =>
            match _hn : h₁.inputLength bev with
            | .error e => .error e
            | .ok len₁ => transfer table bev len₁ (temp ++ tempData) h₁
termination_by pendingInput h bev + min len 1
decreasing_by
  -- a call with nothing to read is followed by one with `len = 0`
  obtain ⟨-, hpending⟩ := pendingInput_read _hr
  have hlen₁ := inputLength_eq _hn
  omega

/-- One round of the loop. -/
theorem transfer_of_chunk (table : Table) {h : Heap κ} {p : BevPtr} {b : Bufferevent κ}
    (hp : h[p]? = some b) (hl : b.live = true) (hne : b.input.pending.length ≠ 0)
    (temp : List UInt8) :
    transfer table p b.input.pending.length temp h =
      transfer table p (b.consume 1023).input.pending.length
        (temp ++ (b.input.pending.take 1023).map table.lookup) (h.set p (b.consume 1023)) := by
  have hp₁ : (h.set p (b.consume 1023))[p]? = some (b.consume 1023) :=
    List.getElem?_set_self (List.getElem?_eq_some_iff.1 hp).1
  have hlength := inputLength_eq_ok hp₁ hl
  rw [transfer, dif_neg hne]
  split
  · rename_i e he
    rw [Heap.read_eq_ok hp hl] at he
    cases he
  · rename_i data h₁ he
    rw [Heap.read_eq_ok hp hl] at he
    cases he
    rw [substitute_eq (by simp)]
    dsimp only
    split
    · rename_i e hn
      rw [hlength] at hn
      cases hn
    · rename_i len₁ hn
      rw [hlength] at hn
      cases hn
      rfl

/-- **The loop takes everything there is.** -/
theorem transfer_eq (table : Table) {h : Heap κ} {p : BevPtr} {b : Bufferevent κ}
    (hp : h[p]? = some b) (hl : b.live = true) (temp : List UInt8) :
    transfer table p b.input.pending.length temp h =
      .ok (temp ++ b.input.pending.map table.lookup, h.set p b.drained) := by
  induction hn : b.input.pending.length using Nat.strong_induction_on generalizing h b temp with
  | _ n ih =>
      subst hn
      by_cases hlen : b.input.pending.length = 0
      · have hempty : b.input.pending = [] := List.length_eq_zero_iff.1 hlen
        rw [transfer, dif_pos hlen, hempty, List.map_nil, List.append_nil,
          Bufferevent.drained_eq_self hempty, Heap.set_self hp]
      · -- one chunk is taken: the rest is the induction hypothesis
        have hp₁ : (h.set p (b.consume 1023))[p]? = some (b.consume 1023) :=
          List.getElem?_set_self (List.getElem?_eq_some_iff.1 hp).1
        have hlt : (b.consume 1023).input.pending.length < b.input.pending.length := by
          simp only [Bufferevent.consume, Fifo.pending_pop, List.length_drop]
          omega
        have hrest := ih _ hlt hp₁ hl (temp ++ (b.input.pending.take 1023).map table.lookup) rfl
        rw [transfer_of_chunk table hp hl hlen, hrest, List.set_set, Bufferevent.drained_consume,
          List.append_assoc, ← List.map_append, Bufferevent.consume, Fifo.pending_pop,
          List.take_append_drop]

/-- The body of both callbacks.  With a null `arg` the input buffer is drained
first; the output buffer of `arg` is looked up in any case. -/
def pass (table : Table) (bev : BevPtr) (arg : Option BevPtr) (h : Heap κ) :
    Except Fault (Heap κ) := do
  let len ← h.inputLength bev
  let h ← match arg with
    | none => h.drainInput bev len
    | some _ => .ok h
  let (temp, h) ← transfer table bev len [] h
  let partner ← nonnull arg
  h.write partner temp

/-- `client::local_read_cb`. -/
def localReadCb (password : Table) (bev : BevPtr) (arg : Option BevPtr) (h : Heap κ) :
    Except Fault (Heap κ) := pass password bev arg h

/-- `client::remote_read_cb`. -/
def remoteReadCb (password : Table) (bev : BevPtr) (arg : Option BevPtr) (h : Heap κ) :
    Except Fault (Heap κ) := pass password.inverse bev arg h

section Spec

variable {h : Heap κ} {p q : BevPtr} {b d : Bufferevent κ}

theorem pass_eq (table : Table) (hp : h[p]? = some b) (hq : h[q]? = some d) (hpq : p ≠ q)
    (hb : b.live = true) (hd : d.live = true) : pass table p (some q) h =
      .ok ((h.set p b.drained).set q (d.queue (b.input.pending.map table.lookup))) := by
  have hq₁ : (h.set p b.drained)[q]? = some d := by
    rw [List.getElem?_set_ne hpq, hq]
  simp only [pass, inputLength_eq_ok hp hb, ok_bind, transfer_eq table hp hb, nonnull_some,
    List.nil_append]
  exact Heap.update_eq_ok hq₁ hd _

/-- **`local_read_cb` encrypts all of it to the server.** -/
theorem localReadCb_eq (P : Key) (hp : h[p]? = some b) (hq : h[q]? = some d) (hpq : p ≠ q)
    (hb : b.live = true) (hd : d.live = true) : localReadCb P.table p (some q) h =
      .ok ((h.set p b.drained).set q (d.queue (P.encrypt b.input.pending))) :=
  pass_eq P.table hp hq hpq hb hd

/-- **`remote_read_cb` decrypts all of it to the application.** -/
theorem remoteReadCb_eq (P : Key) (hp : h[p]? = some b) (hq : h[q]? = some d) (hpq : p ≠ q)
    (hb : b.live = true) (hd : d.live = true) : remoteReadCb P.table p (some q) h =
      .ok ((h.set p b.drained).set q (d.queue (P.decrypt b.input.pending))) :=
  pass_eq P.table.inverse hp hq hpq hb hd

end Spec

end Client

end LightSocks
