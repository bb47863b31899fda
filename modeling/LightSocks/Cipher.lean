import LightSocks.Lib.Memory
import LightSocks.Libevent

/-!
# The substitution cipher

Obfuscation is byte substitution through a table of 256 bytes, the password.
This file follows `cipher.cpp`: the inverse table is rebuilt by a scattering
loop each time it is needed, the two bulk functions move bytes from one
bufferevent to another in reads of 2047, and the two handshake functions work in
place through a scratch array of 32 bytes.

* `Key` — a table that is a permutation; `Key.dec_enc` and `Key.enc_dec` say
  that the scattering loop really builds its inverse.
* `translate_eq` / `translate_error` — the in-place functions translate exactly
  the first `len` bytes, and run over their scratch array exactly when `len`
  exceeds 32.
* `decryptBytes_contract` — when `decrypt_bytes` does what its callers expect of it.
* `relay_eq` — **one call of a bulk function moves everything**: whatever the
  input buffer holds, the call terminates, leaves it empty and appends its
  translation, byte for byte and in order, to the other output buffer.
-/

namespace LightSocks

open Memory

/-! ## Tables -/

/-- `unsigned char password[256]`. -/
abbrev Table := Vector UInt8 256

namespace Table

/-- `table[b]`; an `unsigned char` index is never out of range. -/
def lookup (t : Table) (b : UInt8) : UInt8 := t.get ⟨b.toNat, b.toNat_lt⟩

/-- `for (i = 0; i < 256; i++) d_password[password[i]] = i`, over a zeroed
array. -/
def inverse (password : Table) : Table :=
  scatter (fun i => ⟨(password.get i).toNat, (password.get i).toNat_lt⟩)
    (fun i => UInt8.ofNat i.1) (Vector.replicate 256 0)

end Table

/-- A password that is a permutation of the 256 byte values. -/
structure Key where
  table : Table
  injective : Function.Injective table.lookup

namespace Key

variable (P : Key)

/-- Encrypt one byte. -/
def enc (b : UInt8) : UInt8 := P.table.lookup b

/-- Decrypt one byte: look it up in the table `decrypt` and `decrypt_bytes`
build. -/
def dec (b : UInt8) : UInt8 := P.table.inverse.lookup b

/-- **The scattering loop inverts the table.** -/
@[simp] theorem dec_enc (b : UInt8) : P.dec (P.enc b) = b := by
  have hinj : Function.Injective fun i : Fin 256 =>
      (⟨(P.table.get i).toNat, (P.table.get i).toNat_lt⟩ : Fin 256) := by
    intro i j hij
    have hval : (P.table.get i).toNat = (P.table.get j).toNat := congrArg Fin.val hij
    have hbyte : ∀ k : Fin 256, P.table.lookup (UInt8.ofNat k.1) = P.table.get k := by
      intro k
      simp [Table.lookup]
    have hij' : UInt8.ofNat i.1 = UInt8.ofNat j.1 :=
      P.injective (by rw [hbyte, hbyte]; exact UInt8.toNat_inj.1 hval)
    apply Fin.ext
    calc i.1 = (UInt8.ofNat i.1).toNat := (UInt8.toNat_ofNat_of_lt' i.2).symm
      _ = (UInt8.ofNat j.1).toNat := by rw [hij']
      _ = j.1 := UInt8.toNat_ofNat_of_lt' j.2
  have h := scatter_get hinj (fun i => UInt8.ofNat i.1) (Vector.replicate 256 0)
    ⟨b.toNat, b.toNat_lt⟩
  simpa [dec, enc, Table.lookup, Table.inverse] using h

theorem enc_surjective : Function.Surjective P.enc :=
  Finite.surjective_of_injective P.injective

@[simp] theorem enc_dec (b : UInt8) : P.enc (P.dec b) = b := by
  obtain ⟨a, rfl⟩ := P.enc_surjective b
  rw [dec_enc]

/-- Encrypt a message. -/
def encrypt (m : List UInt8) : List UInt8 := m.map P.enc

/-- Decrypt a message. -/
def decrypt (m : List UInt8) : List UInt8 := m.map P.dec

@[simp] theorem decrypt_encrypt (m : List UInt8) : P.decrypt (P.encrypt m) = m := by
  simp [encrypt, decrypt, Function.comp_def]

@[simp] theorem encrypt_decrypt (m : List UInt8) : P.encrypt (P.decrypt m) = m := by
  simp [encrypt, decrypt, Function.comp_def]

@[simp] theorem length_encrypt (m : List UInt8) : (P.encrypt m).length = m.length := by
  simp [encrypt]

@[simp] theorem length_decrypt (m : List UInt8) : (P.decrypt m).length = m.length := by
  simp [decrypt]

@[simp] theorem encrypt_append (m n : List UInt8) :
    P.encrypt (m ++ n) = P.encrypt m ++ P.encrypt n := by
  simp [encrypt]

@[simp] theorem decrypt_append (m n : List UInt8) :
    P.decrypt (m ++ n) = P.decrypt m ++ P.decrypt n := by
  simp [decrypt]

@[simp] theorem encrypt_nil : P.encrypt [] = [] := rfl

@[simp] theorem decrypt_nil : P.decrypt [] = [] := rfl

/-- The identity permutation. -/
def identity : Key where
  table := Vector.ofFn fun i : Fin 256 => UInt8.ofNat i.1
  injective := by
    intro a b h
    simpa [Table.lookup, Vector.get_eq_getElem] using h

end Key

/-! ## Local arrays -/

/-- `unsigned char buf[n]{0}` after a read has put `data` at its head. -/
def scratch (n : ℕ) (data : List UInt8) : Vector UInt8 n :=
  Vector.ofFn fun i : Fin n => data.getD i.1 0

@[simp] theorem get_scratch (n : ℕ) (data : List UInt8) (i : Fin n) :
    (scratch n data).get i = data.getD i.1 0 := by
  simp [scratch, Vector.get_eq_getElem]

theorem fetch_scratch {n i : ℕ} (data : List UInt8) (h : i < n) :
    fetch Fault.outOfBounds (scratch n data) i = .ok (data.getD i 0) := by
  rw [fetch_of_lt _ _ h, get_scratch]

/-- `for (i = 0; i < data_len; i++) temp_data[i] = table[data[i]]`, the two
arrays having `size` elements, and then the first `data_len` bytes of
`temp_data`. -/
def substitute (table : Table) (size : ℕ) (data : List UInt8) : Except Fault (List UInt8) := do
  let temp ← fillLoop .outOfBounds
    (fun i => do return table.lookup (← fetch .outOfBounds (scratch size data) i))
    0 data.length (Vector.replicate size 0)
  return temp.toList.take data.length

theorem substitute_eq {table : Table} {size : ℕ} {data : List UInt8} (h : data.length ≤ size) :
    substitute table size data = .ok (data.map table.lookup) := by
  rw [substitute, fillLoop_eq (fun i => table.lookup (data.getD i 0)) h]
  · simp only [ok_bind, pure_eq_ok, Except.ok.injEq]
    refine List.ext_getElem (by simp [h]) fun i hi hi' => ?_
    have hi : i < data.length := by simpa using hi'
    simp [overwrite, hi]
  · intro j hj
    rw [Nat.zero_add, fetch_scratch data (by omega)]
    rfl

namespace Cipher

/-! ## The handshake functions -/

/-- Stage the first `len` bytes in `t_bytes[32]` and write their translations
back in place. -/
def translate (table : Table) {n : ℕ} (bytes : Vector UInt8 n) (len : ℕ) :
    Except Fault (Vector UInt8 n) := do
  let tBytes ← fillLoop .outOfBounds (fetch .outOfBounds bytes) 0 len
    (Vector.replicate 32 (0 : UInt8))
  fillLoop .outOfBounds (fun i => do return table.lookup (← fetch .outOfBounds tBytes i)) 0 len
    bytes

/-- `Cipher::encrypt_byte`. -/
def encryptByte (password : Table) {n : ℕ} (bytes : Vector UInt8 n) (len : ℕ) :
    Except Fault (Vector UInt8 n) := translate password bytes len

/-- `Cipher::decrypt_bytes`. -/
def decryptBytes (password : Table) {n : ℕ} (bytes : Vector UInt8 n) (len : ℕ) :
    Except Fault (Vector UInt8 n) := translate password.inverse bytes len

/-- **Within the scratch array, exactly the first `len` bytes are translated.** -/
theorem translate_eq {table : Table} {n len : ℕ} {bytes : Vector UInt8 n} (h : len ≤ 32)
    (hn : len ≤ n) : translate table bytes len =
      .ok (Vector.ofFn fun i : Fin n =>
        if i.1 < len then table.lookup (bytes.get i) else bytes.get i) := by
  have hstage : fillLoop Fault.outOfBounds (fetch .outOfBounds bytes) 0 len
      (Vector.replicate 32 (0 : UInt8)) =
        .ok (overwrite (Vector.replicate 32 0) len fun i => bytes.toList.getD i 0) := by
    apply fillLoop_eq _ h
    intro j hj
    rw [Nat.zero_add, fetch_of_lt _ _ (by omega)]
    simp [Vector.get_eq_getElem, show j < n by omega]
  rw [translate, hstage, ok_bind,
    fillLoop_eq (fun i => table.lookup (bytes.toList.getD i 0)) hn]
  · refine congrArg _ (ext_get fun i => ?_)
    rw [get_overwrite]
    simp [Vector.get_eq_getElem]
  · intro j hj
    rw [Nat.zero_add, fetch_of_lt _ _ (by omega), get_overwrite]
    simp [hj]

/-- **Beyond 32 bytes the scratch array overflows.** -/
theorem translate_error {table : Table} {n len : ℕ} {bytes : Vector UInt8 n} (h : 32 < len)
    (hn : len ≤ n) : translate table bytes len = .error .outOfBounds := by
  rw [translate, fillLoop_error h]
  · rfl
  · intro j hj
    exact ⟨_, fetch_of_lt _ _ (by omega)⟩

/-- A message read into a zeroed buffer and translated is the translated message
in a zeroed buffer. -/
theorem translate_scratch {table : Table} {n : ℕ} {data : List UInt8} (h : data.length ≤ 32)
    (hn : data.length ≤ n) :
    translate table (scratch n data) data.length = .ok (scratch n (data.map table.lookup)) := by
  rw [translate_eq h hn]
  refine congrArg _ (ext_get fun i => ?_)
  by_cases hi : i.1 < data.length
  · simp [Vector.get_eq_getElem, scratch, hi]
  · simp [Vector.get_eq_getElem, scratch, hi]

/-! ## The contract of `decrypt_bytes` -/

/-- What `decrypt_bytes` is to make of the first `len` bytes of a buffer: each byte
becomes the one that encrypts to it, so that what encrypting a message has produced
becomes the message again.  The bytes behind them stay as they are. -/
structure Decrypts (P : Key) {n : ℕ} (bytes : Vector UInt8 n) (len : ℕ) (out : Vector UInt8 n) :
    Prop where
  preimage : ∀ i : Fin n, i.1 < len → P.enc (out.get i) = bytes.get i
  inverts : ∀ plain : List UInt8, bytes.toList.take len = P.encrypt plain →
    out.toList.take len = plain
  rest : ∀ i : Fin n, len ≤ i.1 → out.get i = bytes.get i

section Contract

variable {P : Key} {n len : ℕ} {bytes : Vector UInt8 n}

theorem decrypts_of_get {out : Vector UInt8 n}
    (hout : ∀ i : Fin n, out.get i = if i.1 < len then P.dec (bytes.get i) else bytes.get i) :
    Decrypts P bytes len out := by
  have htake : out.toList.take len = P.decrypt (bytes.toList.take len) := by
    apply List.ext_getElem
    · simp
    · intro i hi hi'
      have hlen : i < len ∧ i < n := by simpa using hi
      have h := hout ⟨i, hlen.2⟩
      rw [if_pos hlen.1] at h
      simpa [Key.decrypt, Vector.get_eq_getElem] using h
  constructor
  · intro i hi
    rw [hout, if_pos hi, Key.enc_dec]
  · intro plain hplain
    rw [htake, hplain, Key.decrypt_encrypt]
  · intro i hi
    rw [hout, if_neg (not_lt.2 hi)]

/-- Up to 32 bytes the contract is met. -/
theorem decryptBytes_decrypts (P : Key) (bytes : Vector UInt8 n) (h : len ≤ 32) (hn : len ≤ n) :
    ∃ out, decryptBytes P.table bytes len = .ok out ∧ Decrypts P bytes len out := by
  refine ⟨_, translate_eq h hn, decrypts_of_get ?_⟩
  intro i
  simp [Vector.get_eq_getElem, Key.dec]

/-- Beyond 32 bytes `decrypt_bytes` does not return. -/
theorem decryptBytes_error (P : Key) (bytes : Vector UInt8 n) (h : 32 < len) (hn : len ≤ n) :
    decryptBytes P.table bytes len = .error .outOfBounds := translate_error h hn

/-- **The contract of `decrypt_bytes`.**  For every permutation and every buffer, the
call stays inside its scratch arrays, decrypts the first `len` bytes and keeps the
others exactly when `len` is at most 32. -/
theorem decryptBytes_contract (P : Key) (bytes : Vector UInt8 n) (hn : len ≤ n) :
    (∃ out, decryptBytes P.table bytes len = .ok out ∧ Decrypts P bytes len out) ↔ len ≤ 32 := by
  constructor
  · rintro ⟨out, hout, -⟩
    by_contra h
    rw [decryptBytes_error P bytes (not_le.1 h) hn] at hout
    cases hout
  · intro h
    exact decryptBytes_decrypts P bytes h hn

/-- The greeting, as `handle_first` passes it on. -/
theorem decryptBytes_contract_greeting : ∃ out,
    decryptBytes Key.identity.table (scratch 64 [0x05, 0x01, 0x00]) 3 = .ok out ∧
      Decrypts Key.identity (scratch 64 [0x05, 0x01, 0x00]) 3 out :=
  (decryptBytes_contract Key.identity (scratch 64 [0x05, 0x01, 0x00]) (by decide)).2 (by decide)

/-- A request of 33 bytes, as `handle_second` passes it on, is not decrypted. -/
theorem decryptBytes_overflow : ¬ ∀ (P : Key) (bytes : Vector UInt8 64) (len : ℕ), len ≤ 63 →
    ∃ out, decryptBytes P.table bytes len = .ok out ∧ Decrypts P bytes len out := by
  intro hall
  obtain ⟨out, hout, -⟩ := hall Key.identity (Vector.replicate 64 0) 33 (by decide)
  rw [decryptBytes_error Key.identity _ (by decide) (by decide)] at hout
  cases hout

end Contract

/-! ## The bulk functions -/

variable {κ : Type}

/-- The number of bytes waiting in the input buffer of `p`. -/
def pendingInput (h : Heap κ) (p : BevPtr) : ℕ :=
  ((h[p]?).map fun b => b.input.pending.length).getD 0

/-- What a read takes out of the input buffer. -/
theorem pendingInput_read {h h' : Heap κ} {p : BevPtr} {n : ℕ} {data : List UInt8}
    (hr : h.read p n = .ok (data, h')) : data.length = min n (pendingInput h p) ∧
      pendingInput h' p = pendingInput h p - n := by
  unfold Heap.read at hr
  cases hb : h.deref p with
  | error e => rw [hb] at hr; exact absurd hr (by simp)
  | ok b =>
      rw [hb] at hr
      simp only [ok_bind, pure_eq_ok, Except.ok.injEq, Prod.mk.injEq] at hr
      obtain ⟨rfl, rfl⟩ := hr
      obtain ⟨hp, -⟩ := Heap.deref_ok hb
      have hlt : p < h.length := (List.getElem?_eq_some_iff.1 hp).1
      simp [pendingInput, List.getElem?_set_self hlt, hp, Bufferevent.consume]

/-- Writing to an output buffer leaves the input buffers alone. -/
theorem pendingInput_write {h h' : Heap κ} {p q : BevPtr} {data : List UInt8}
    (hw : h.write q data = .ok h') : pendingInput h' p = pendingInput h p := by
  unfold Heap.write Heap.update at hw
  cases hb : h.deref q with
  | error e => rw [hb] at hw; exact absurd hw (by simp)
  | ok b =>
      rw [hb] at hw
      simp only [ok_bind, pure_eq_ok, Except.ok.injEq] at hw
      obtain ⟨hq, -⟩ := Heap.deref_ok hb
      subst hw
      by_cases hpq : q = p
      · subst hpq
        have hlt : q < h.length := (List.getElem?_eq_some_iff.1 hq).1
        simp [pendingInput, List.getElem?_set_self hlt, hq, Bufferevent.queue]
      · simp [pendingInput, List.getElem?_set_ne hpq]

/-- The loop of `Cipher::decrypt` and `Cipher::encrypt`: read up to 2047 bytes
from `src`, stop when there are none, write their translations to `dst`. -/
def relay (table : Table) (src dst : Option BevPtr) (h : Heap κ) : Except Fault (Heap κ) :=
  match src with
  | none => .error .nullDeref
  | some p =>
      match _hr : h.read p 2047 with
      | .error e => .error e
      | .ok (data, h₁) =>
          if _hd : data = [] then .ok h₁
          else
            match _hw : (do
                let q ← nonnull dst
                h₁.write q (← substitute table 2048 data)) with
            | .error e => .error e
            | .ok h₂ => relay table src dst h₂
termination_by (src.map (pendingInput h)).getD 0
decreasing_by
  have h₁₂ : pendingInput h₂ p = pendingInput h₁ p := by
    cases hq : nonnull dst with
    | error e => rw [hq] at _hw; exact absurd _hw (by simp)
    | ok q =>
        rw [hq, ok_bind] at _hw
        cases hs : substitute table 2048 data with
        | error e => rw [hs] at _hw; exact absurd _hw (by simp)
        | ok t => rw [hs, ok_bind] at _hw; exact pendingInput_write _hw
  obtain ⟨hlen, hpending⟩ := pendingInput_read _hr
  have hpos := List.length_pos_of_ne_nil _hd
  simp only [Option.map_some, Option.getD_some]
  omega

section Relay

variable {h : Heap κ} {p q : BevPtr} {b d : Bufferevent κ}

/-- With nothing to read the loop stops. -/
theorem relay_of_empty (table : Table) (dst : Option BevPtr) (hp : h[p]? = some b)
    (hb : b.live = true) (hempty : b.input.pending = []) :
    relay table (some p) dst h = .ok h := by
  have hread : h.read p 2047 = .ok ([], h) := by
    rw [Heap.read_eq_ok hp hb, hempty, List.take_nil,
      Bufferevent.consume_eq_drained (by simp [hempty]), Bufferevent.drained_eq_self hempty,
      Heap.set_self hp]
  rw [relay]
  split
  · rename_i e he
    rw [hread] at he
    cases he
  · rename_i data h₁ he
    rw [hread] at he
    cases he
    exact dif_pos rfl

/-- Otherwise the loop moves one chunk and goes on. -/
theorem relay_of_chunk (table : Table) (hp : h[p]? = some b) (hq : h[q]? = some d) (hpq : p ≠ q)
    (hb : b.live = true) (hd : d.live = true) (hne : b.input.pending ≠ []) :
    relay table (some p) (some q) h = relay table (some p) (some q)
      ((h.set p (b.consume 2047)).set q
        (d.queue ((b.input.pending.take 2047).map table.lookup))) := by
  have hq₁ : (h.set p (b.consume 2047))[q]? = some d := by
    rw [List.getElem?_set_ne hpq, hq]
  have hchunk : b.input.pending.take 2047 ≠ [] := by simp [hne]
  have hwrite : (do
      let q ← nonnull (some q)
      Heap.write (h.set p (b.consume 2047)) q
        (← substitute table 2048 (b.input.pending.take 2047))) =
        .ok ((h.set p (b.consume 2047)).set q
          (d.queue ((b.input.pending.take 2047).map table.lookup))) := by
    rw [nonnull_some, ok_bind, substitute_eq (by simp), ok_bind]
    exact Heap.update_eq_ok hq₁ hd _
  rw [relay]
  split
  · rename_i e he
    rw [Heap.read_eq_ok hp hb] at he
    cases he
  · rename_i data h₁ he
    rw [Heap.read_eq_ok hp hb] at he
    cases he
    rw [dif_neg hchunk]
    split
    · rename_i e hw
      rw [hwrite] at hw
      cases hw
    · rename_i h₂ hw
      rw [hwrite] at hw
      cases hw
      rfl

/-- **One call moves everything.**  Whatever waits in the input buffer of a live
`src` ends up, translated and in order, in the output buffer of another live
bufferevent, and the input buffer is left empty. -/
theorem relay_eq (table : Table) (hp : h[p]? = some b) (hq : h[q]? = some d) (hpq : p ≠ q)
    (hb : b.live = true) (hd : d.live = true) : relay table (some p) (some q) h =
      .ok ((h.set p b.drained).set q (d.queue (b.input.pending.map table.lookup))) := by
  induction hn : b.input.pending.length using Nat.strong_induction_on generalizing h b d with
  | _ n ih =>
      by_cases hempty : b.input.pending = []
      · rw [relay_of_empty table _ hp hb hempty, hempty, List.map_nil, Bufferevent.queue_nil,
          Bufferevent.drained_eq_self hempty, Heap.set_self hp, Heap.set_self hq]
      · -- one chunk is moved: the rest is the induction hypothesis
        set chunk := (b.input.pending.take 2047).map table.lookup with hchunk
        have hplt : p < h.length := (List.getElem?_eq_some_iff.1 hp).1
        have hqlt : q < h.length := (List.getElem?_eq_some_iff.1 hq).1
        have hp₂ : ((h.set p (b.consume 2047)).set q (d.queue chunk))[p]? =
            some (b.consume 2047) := by
          rw [List.getElem?_set_ne (Ne.symm hpq), List.getElem?_set_self hplt]
        have hq₂ : ((h.set p (b.consume 2047)).set q (d.queue chunk))[q]? =
            some (d.queue chunk) := List.getElem?_set_self (by simpa using hqlt)
        have hlt : (b.consume 2047).input.pending.length < n := by
          have hpos := List.length_pos_of_ne_nil hempty
          simp only [Bufferevent.consume, Fifo.pending_pop, List.length_drop]
          omega
        have hjoin : chunk ++ (b.input.pending.drop 2047).map table.lookup =
            b.input.pending.map table.lookup := by
          rw [hchunk, ← List.map_append, List.take_append_drop]
        rw [relay_of_chunk table hp hq hpq hb hd hempty, ← hchunk, ih _ hlt hp₂ hq₂ hb hd rfl,
          List.set_comm _ _ (Ne.symm hpq), List.set_set, List.set_set,
          Bufferevent.drained_consume, Bufferevent.queue_queue]
        simp only [Bufferevent.consume, Fifo.pending_pop, hjoin]

end Relay

/-- `Cipher::decrypt`. -/
def decrypt (password : Table) (self partner : Option BevPtr) (h : Heap κ) :
    Except Fault (Heap κ) := relay password.inverse self partner h

/-- `Cipher::encrypt`. -/
def encrypt (password : Table) (self partner : Option BevPtr) (h : Heap κ) :
    Except Fault (Heap κ) := relay password partner self h

end Cipher

end LightSocks
