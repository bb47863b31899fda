import Mathlib

/-!
# The base64 library

`lib/base64` as the configuration uses it.  A string is its list of bytes.  Both
loops collect their input in a small array until it is full; here the array is
the list of the bytes that have been stored in it, so that its index is the
length of the list.

* `base64Encode`, `base64Decode` — the two functions, with their tails.
* `base64Decode_base64Encode` — decoding undoes encoding, whatever the length.
-/

namespace LightSocks

/-- `base64_chars`. -/
def base64Chars : List UInt8 :=
  "ABCDEFGHIJKLMNOPQRSTUVWXYZabcdefghijklmnopqrstuvwxyz0123456789+/".toList.map fun c =>
    UInt8.ofNat c.toNat

/-- `base64_chars[v]`. -/
def base64Char (v : UInt8) : UInt8 := base64Chars.getD v.toNat 0

/-- `base64_chars.find(c) & 0xff`; `npos` is all ones. -/
def base64Find (c : UInt8) : UInt8 :=
  match base64Chars.idxOf? c with
  | some v => UInt8.ofNat v
  | none => 0xff

/-- `is_base64`, in the C locale: a letter, a digit, `+` or `/`. -/
def isBase64 (c : UInt8) : Bool :=
  (0x41 ≤ c && c ≤ 0x5a) || (0x61 ≤ c && c ≤ 0x7a) || (0x30 ≤ c && c ≤ 0x39) || c == 0x2b ||
    c == 0x2f

/-- The padding character. -/
def padding : UInt8 := 0x3d

/-! ## Encoding -/

/-- `char_array_4` as computed from `char_array_3`, which the tail fills up with
zeros. -/
def sextets (charArray3 : List UInt8) : List UInt8 :=
  let a := charArray3.getD 0 0
  let b := charArray3.getD 1 0
  let c := charArray3.getD 2 0
  [(a &&& 0xfc) >>> 2, ((a &&& 0x03) <<< 4) + ((b &&& 0xf0) >>> 4),
    ((b &&& 0x0f) <<< 2) + ((c &&& 0xc0) >>> 6), c &&& 0x3f]

/-- What follows the loop: the characters for the bytes that are left over, and
the padding. -/
def encodeTail (charArray3 : List UInt8) : List UInt8 :=
  if charArray3 = [] then []
  else ((sextets charArray3).take (charArray3.length + 1)).map base64Char ++
    List.replicate (3 - charArray3.length) padding

/-- `while (in_len--)`. -/
def encodeLoop : List UInt8 → List UInt8 → List UInt8 → List UInt8
  | [], charArray3, ret => ret ++ encodeTail charArray3
  | byte :: bytes, charArray3, ret =>
      let charArray3 := charArray3 ++ [byte]
      if charArray3.length = 3 then
        encodeLoop bytes [] (ret ++ (sextets charArray3).map base64Char)
      else encodeLoop bytes charArray3 ret

/-- `base64_encode`. -/
def base64Encode (bytesToEncode : List UInt8) : List UInt8 := encodeLoop bytesToEncode [] []

/-! ## Decoding -/

/-- `char_array_3` as computed from `char_array_4`.  The tail computes it from
fewer than four values too; it does not append what depends on the others. -/
def octets (charArray4 : List UInt8) : List UInt8 :=
  let a := charArray4.getD 0 0
  let b := charArray4.getD 1 0
  let c := charArray4.getD 2 0
  let d := charArray4.getD 3 0
  [(a <<< 2) + ((b &&& 0x30) >>> 4), ((b &&& 0x0f) <<< 4) + ((c &&& 0x3c) >>> 2),
    ((c &&& 0x03) <<< 6) + d]

/-- What follows the loop: one byte less than there are characters left over. -/
def decodeTail (charArray4 : List UInt8) : List UInt8 :=
  (octets (charArray4.map base64Find)).take (charArray4.length - 1)

/-- `while (in_len-- && encoded_string[in_] != '=' && is_base64(encoded_string[in_]))`. -/
def decodeLoop : List UInt8 → List UInt8 → List UInt8 → List UInt8
  | [], charArray4, ret => ret ++ decodeTail charArray4
  | c :: cs, charArray4, ret =>
      if c ≠ padding ∧ isBase64 c = true then
        let charArray4 := charArray4 ++ [c]
        if charArray4.length = 4 then
          decodeLoop cs [] (ret ++ octets (charArray4.map base64Find))
        else decodeLoop cs charArray4 ret
      else ret ++ decodeTail charArray4

/-- `base64_decode`. -/
def base64Decode (encodedString : List UInt8) : List UInt8 := decodeLoop encodedString [] []

/-! ## The round trip -/

/-- A property of every byte, from the 256 of them. -/
theorem forall_byte {p : UInt8 → Prop} (h : ∀ i : Fin 256, p (UInt8.ofNat i.1)) (b : UInt8) :
    p b := by
  simpa using h ⟨b.toNat, b.toNat_lt⟩

/-- The alphabet has no character twice, and none of them is the padding. -/
theorem base64Char_spec {v : UInt8} (hv : v.toNat < 64) :
    base64Find (base64Char v) = v ∧ base64Char v ≠ padding ∧ isBase64 (base64Char v) = true := by
  have h : ∀ i : Fin 64, base64Find (base64Char (UInt8.ofNat i.1)) = UInt8.ofNat i.1 ∧
      base64Char (UInt8.ofNat i.1) ≠ padding ∧
      isBase64 (base64Char (UInt8.ofNat i.1)) = true := by decide +kernel
  simpa using h ⟨v.toNat, hv⟩

/-- The masks and shifts of `base64_encode`, as arithmetic. -/
theorem encode_bits (b : UInt8) :
    ((b &&& 0xfc) >>> 2).toNat = b.toNat / 4 ∧ ((b &&& 0x03) <<< 4).toNat = b.toNat % 4 * 16 ∧
      ((b &&& 0xf0) >>> 4).toNat = b.toNat / 16 ∧ ((b &&& 0x0f) <<< 2).toNat = b.toNat % 16 * 4 ∧
      ((b &&& 0xc0) >>> 6).toNat = b.toNat / 64 ∧ (b &&& 0x3f).toNat = b.toNat % 64 := by
  revert b
  apply forall_byte
  decide +kernel

/-- The masks and shifts of `base64_decode`, as arithmetic. -/
theorem decode_bits (b : UInt8) :
    (b <<< 2).toNat = b.toNat * 4 % 256 ∧ ((b &&& 0x30) >>> 4).toNat = b.toNat / 16 % 4 ∧
      ((b &&& 0x0f) <<< 4).toNat = b.toNat % 16 * 16 ∧
      ((b &&& 0x3c) >>> 2).toNat = b.toNat / 4 % 16 ∧
      ((b &&& 0x03) <<< 6).toNat = b.toNat % 4 * 64 := by
  revert b
  apply forall_byte
  decide +kernel

/-- The four values computed from three bytes. -/
theorem sextets_eq (group : List UInt8) : ∃ p q r s : UInt8, sextets group = [p, q, r, s] ∧
    p.toNat = (group.getD 0 0).toNat / 4 ∧
    q.toNat = (group.getD 0 0).toNat % 4 * 16 + (group.getD 1 0).toNat / 16 ∧
    r.toNat = (group.getD 1 0).toNat % 16 * 4 + (group.getD 2 0).toNat / 64 ∧
    s.toNat = (group.getD 2 0).toNat % 64 := by
  obtain ⟨ha, ha', -⟩ := encode_bits (group.getD 0 0)
  obtain ⟨-, -, hb, hb', -⟩ := encode_bits (group.getD 1 0)
  obtain ⟨-, -, -, -, hc, hc'⟩ := encode_bits (group.getD 2 0)
  have hb₁ := (group.getD 1 0).toNat_lt
  have hc₁ := (group.getD 2 0).toNat_lt
  refine ⟨_, _, _, _, rfl, ha, ?_, ?_, hc'⟩
  · rw [UInt8.toNat_add, ha', hb]
    omega
  · rw [UInt8.toNat_add, hb', hc]
    omega

/-- **Three bytes make four values and four values three bytes.** -/
theorem octets_sextets (group : List UInt8) :
    octets (sextets group) = [group.getD 0 0, group.getD 1 0, group.getD 2 0] := by
  obtain ⟨p, q, r, s, hsextets, hp, hq, hr, hs⟩ := sextets_eq group
  obtain ⟨hp₂, -⟩ := decode_bits p
  obtain ⟨-, hq₄, hq₄', -⟩ := decode_bits q
  obtain ⟨-, -, -, hr₂, hr₆⟩ := decode_bits r
  have ha := (group.getD 0 0).toNat_lt
  have hb := (group.getD 1 0).toNat_lt
  have hc := (group.getD 2 0).toNat_lt
  have hfirst : (p <<< 2) + ((q &&& 0x30) >>> 4) = group.getD 0 0 := by
    apply UInt8.toNat_inj.1
    rw [UInt8.toNat_add, hp₂, hq₄]
    omega
  have hsecond : ((q &&& 0x0f) <<< 4) + ((r &&& 0x3c) >>> 2) = group.getD 1 0 := by
    apply UInt8.toNat_inj.1
    rw [UInt8.toNat_add, hq₄', hr₂]
    omega
  have hthird : ((r &&& 0x03) <<< 6) + s = group.getD 2 0 := by
    apply UInt8.toNat_inj.1
    rw [UInt8.toNat_add, hr₆]
    omega
  rw [hsextets]
  exact congrArg₂ _ hfirst (congrArg₂ _ hsecond (congrArg₂ _ hthird rfl))

theorem sextets_lt {group : List UInt8} {v : UInt8} (hv : v ∈ sextets group) : v.toNat < 64 := by
  obtain ⟨p, q, r, s, hsextets, hp, hq, hr, hs⟩ := sextets_eq group
  have ha := (group.getD 0 0).toNat_lt
  have hb := (group.getD 1 0).toNat_lt
  have hc := (group.getD 2 0).toNat_lt
  rw [hsextets] at hv
  simp only [List.mem_cons, List.not_mem_nil, or_false] at hv
  rcases hv with rfl | rfl | rfl | rfl <;> omega

/-- Looking characters up gives back the values they stand for. -/
theorem map_find_char {vs : List UInt8} (h : ∀ v ∈ vs, v.toNat < 64) :
    (vs.map base64Char).map base64Find = vs := by
  rw [List.map_map]
  exact (List.map_congr_left fun v hv => (base64Char_spec (h v hv)).1).trans (List.map_id vs)

/-! ### The loops -/

theorem encodeLoop_ret (bytes group ret : List UInt8) :
    encodeLoop bytes group ret = ret ++ encodeLoop bytes group [] := by
  induction bytes generalizing group ret with
  | nil => simp [encodeLoop]
  | cons byte bytes ih =>
      simp only [encodeLoop]
      split
      · rw [ih, ih [] ([] ++ _), List.nil_append, List.append_assoc]
      · rw [ih]

theorem decodeLoop_ret (cs group ret : List UInt8) :
    decodeLoop cs group ret = ret ++ decodeLoop cs group [] := by
  induction cs generalizing group ret with
  | nil => simp [decodeLoop]
  | cons c cs ih =>
      simp only [decodeLoop]
      split
      · split
        · rw [ih, ih [] ([] ++ _), List.nil_append, List.append_assoc]
        · rw [ih]
      · simp

/-- Three bytes are encoded by themselves. -/
theorem base64Encode_cons (a b c : UInt8) (bytes : List UInt8) :
    base64Encode (a :: b :: c :: bytes) =
      (sextets [a, b, c]).map base64Char ++ base64Encode bytes := by
  rw [base64Encode, base64Encode]
  simp only [encodeLoop, List.nil_append, List.cons_append, List.length_cons, List.length_nil]
  exact encodeLoop_ret _ _ _

/-- Characters of the alphabet are collected up to four. -/
theorem decodeLoop_collect {vs : List UInt8} (hvs : ∀ v ∈ vs, v.toNat < 64)
    {cs group : List UInt8} (hlen : group.length + vs.length < 4) :
    decodeLoop (vs.map base64Char ++ cs) group [] =
      decodeLoop cs (group ++ vs.map base64Char) [] := by
  induction vs generalizing group with
  | nil => simp
  | cons v vs ih =>
      obtain ⟨-, hpad, hchar⟩ := base64Char_spec (hvs v List.mem_cons_self)
      rw [List.length_cons] at hlen
      rw [List.map_cons, List.cons_append, decodeLoop, if_pos ⟨hpad, hchar⟩]
      simp only [List.length_append, List.length_singleton]
      rw [if_neg (by omega), ih (fun v hv => hvs v (List.mem_cons_of_mem _ hv))
        (by rw [List.length_append, List.length_singleton]; omega), List.append_assoc,
        List.singleton_append]

/-- Four characters are decoded by themselves. -/
theorem base64Decode_append {vs cs : List UInt8} (hvs : ∀ v ∈ vs, v.toNat < 64)
    (hlen : vs.length = 4) :
    base64Decode (vs.map base64Char ++ cs) = octets vs ++ base64Decode cs := by
  obtain ⟨v, ws, rfl⟩ : ∃ v ws, vs = ws ++ [v] := by
    refine ⟨vs.getLast (by rintro rfl; cases hlen), vs.dropLast, ?_⟩
    exact (List.dropLast_append_getLast _).symm
  have hws : ws.length = 3 := by simpa using hlen
  obtain ⟨-, hpad, hchar⟩ := base64Char_spec (hvs v (by simp))
  have hfind := map_find_char hvs
  rw [base64Decode, List.map_append, List.append_assoc,
    decodeLoop_collect (fun v hv => hvs v (List.mem_append_left _ hv)) (by simp [hws]),
    List.map_singleton, List.singleton_append, decodeLoop, if_pos ⟨hpad, hchar⟩]
  rw [List.map_append, List.map_singleton] at hfind
  simp only [List.nil_append, List.length_append, List.length_map, hws, List.length_singleton,
    hfind]
  exact decodeLoop_ret _ _ _

/-- What is left over at the end is decoded by the tail, at the first padding
character. -/
theorem base64Decode_tail {vs : List UInt8} (hvs : ∀ v ∈ vs, v.toNat < 64) (hlen : vs.length < 4)
    (cs : List UInt8) :
    base64Decode (vs.map base64Char ++ padding :: cs) = (octets vs).take (vs.length - 1) := by
  rw [base64Decode, decodeLoop_collect hvs (by simpa using hlen), decodeLoop, if_neg (by simp)]
  rw [List.nil_append, List.nil_append, decodeTail, map_find_char hvs, List.length_map]

/-- The tail: what `base64_encode` adds for one or two bytes, `base64_decode` takes
for them. -/
theorem base64Decode_encodeTail (group : List UInt8)
    (hlen : group.length = 1 ∨ group.length = 2) :
    base64Decode (encodeTail group) =
      [group.getD 0 0, group.getD 1 0, group.getD 2 0].take group.length := by
  obtain ⟨p, q, r, s, hsextets, -⟩ := sextets_eq group
  have hocts := octets_sextets group
  have hlt : ∀ v ∈ (sextets group).take (group.length + 1), v.toNat < 64 :=
    fun v hv => sextets_lt (List.mem_of_mem_take hv)
  have hne : group ≠ [] := by
    rintro rfl
    simp at hlen
  rw [← hocts]
  rw [hsextets] at hlt ⊢
  rw [encodeTail, if_neg hne, hsextets]
  rcases hlen with h | h
  · rw [h] at hlt ⊢
    exact base64Decode_tail hlt (by simp) [padding]
  · rw [h] at hlt ⊢
    exact base64Decode_tail hlt (by simp) []

/-- **Decoding undoes encoding.** -/
theorem base64Decode_base64Encode (bytes : List UInt8) :
    base64Decode (base64Encode bytes) = bytes := by
  match bytes with
  | [] => rfl
  | [a] => exact base64Decode_encodeTail [a] (.inl rfl)
  | [a, b] => exact base64Decode_encodeTail [a, b] (.inr rfl)
  | a :: b :: c :: bytes =>
      have ih := base64Decode_base64Encode bytes
      obtain ⟨p, q, r, s, hsextets, -⟩ := sextets_eq [a, b, c]
      rw [base64Encode_cons,
        base64Decode_append (fun v hv => sextets_lt hv) (by rw [hsextets]; rfl),
        octets_sextets, ih]
      rfl

end LightSocks
