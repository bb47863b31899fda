import LightSocks.Base64
import LightSocks.Lib.BitString

/-!
# The texts of a key

`base64_decode` refuses nothing.  This file says what it makes of an arbitrary text, and which
texts it understands as `base64_encode` writes them.

* `base64Decode_reads` — it reads as far as the alphabet goes, and takes the bits of what it
  has read eight at a time, up to the last whole byte.
* `Canonical` — the texts of the format, group by group.
* `base64Encode_base64Decode_iff` — exactly these are written again as they were read.
-/

namespace LightSocks

open BitString

variable {text cs vs : List UInt8} {c : UInt8}

/-! ## How far it reads -/

/-- Every character of the alphabet stands for a value. -/
theorem exists_base64Char (h : isBase64 c = true) :
    ∃ v : UInt8, v.toNat < 64 ∧ base64Char v = c := by
  have hall : ∀ c : UInt8, isBase64 c = true →
      (base64Find c).toNat < 64 ∧ base64Char (base64Find c) = c := by
    apply forall_byte
    decide +kernel
  exact ⟨_, hall c h⟩

theorem not_isBase64_padding : isBase64 padding = false := by decide

theorem exists_values (h : ∀ c ∈ cs, isBase64 c = true) :
    ∃ vs : List UInt8, (∀ v ∈ vs, v.toNat < 64) ∧ vs.map base64Char = cs := by
  induction cs with
  | nil => exact ⟨[], by simp, rfl⟩
  | cons c cs ih =>
      obtain ⟨v, hv, hc⟩ := exists_base64Char (h c List.mem_cons_self)
      obtain ⟨vs, hvs, hcs⟩ := ih fun c hc => h c (List.mem_cons_of_mem _ hc)
      exact ⟨v :: vs, by simpa using ⟨hv, hvs⟩, by rw [List.map_cons, hc, hcs]⟩

theorem decodeLoop_takeWhile (cs group ret : List UInt8) :
    decodeLoop cs group ret = decodeLoop (cs.takeWhile isBase64) group ret := by
  induction cs generalizing group ret with
  | nil => rfl
  | cons c cs ih =>
      by_cases hc : isBase64 c = true
      · have hpad : c ≠ padding := by
          rintro rfl
          rw [not_isBase64_padding] at hc
          cases hc
        have hread : c ≠ padding ∧ isBase64 c = true := ⟨hpad, hc⟩
        rw [List.takeWhile_cons_of_pos hc]
        simp only [decodeLoop, if_pos hread]
        rw [ih, ih (group ++ [c])]
      · have hstop : ¬ (c ≠ padding ∧ isBase64 c = true) := fun h => hc h.2
        rw [List.takeWhile_cons_of_neg hc]
        simp only [decodeLoop, if_neg hstop]

/-- **It reads as far as the alphabet goes.** -/
theorem base64Decode_takeWhile (text : List UInt8) :
    base64Decode text = base64Decode (text.takeWhile isBase64) := decodeLoop_takeWhile _ _ _

/-- The characters of values are read, and what follows them from the first that is none is
not. -/
theorem base64Decode_padding (hvs : ∀ v ∈ vs, v.toNat < 64) (cs : List UInt8) :
    base64Decode (vs.map base64Char ++ padding :: cs) = base64Decode (vs.map base64Char) := by
  have hchars : ∀ c ∈ vs.map base64Char, isBase64 c = true := by
    intro c hc
    obtain ⟨v, hv, rfl⟩ := List.mem_map.1 hc
    exact (base64Char_spec (hvs v hv)).2.2
  rw [base64Decode_takeWhile, List.takeWhile_append_of_pos hchars,
    List.takeWhile_cons_of_neg (by decide), List.append_nil]

/-- The characters that are left over after the groups of four. -/
theorem base64Decode_rest (hvs : ∀ v ∈ vs, v.toNat < 64) (hlen : vs.length < 4) :
    base64Decode (vs.map base64Char) = (octets vs).take (vs.length - 1) := by
  rw [← base64Decode_padding hvs [], base64Decode_tail hvs hlen]

theorem length_octets (vs : List UInt8) : (octets vs).length = 3 := rfl

/-! ## The bits -/

theorem getD_lt (hvs : ∀ v ∈ vs, v.toNat < 64) (i : ℕ) : (vs.getD i 0).toNat < 64 := by
  rw [List.getD_eq_getElem?_getD]
  cases hv : vs[i]? with
  | none => decide
  | some v => exact hvs v (List.mem_of_getElem? hv)

/-- The three bytes computed from four values. -/
theorem octets_eq (hvs : ∀ v ∈ vs, v.toNat < 64) : ∃ x y z : UInt8, octets vs = [x, y, z] ∧
    x.toNat = (vs.getD 0 0).toNat * 4 + (vs.getD 1 0).toNat / 16 ∧
    y.toNat = (vs.getD 1 0).toNat % 16 * 16 + (vs.getD 2 0).toNat / 4 ∧
    z.toNat = (vs.getD 2 0).toNat % 4 * 64 + (vs.getD 3 0).toNat := by
  obtain ⟨ha, -⟩ := decode_bits (vs.getD 0 0)
  obtain ⟨-, hb, hb', -⟩ := decode_bits (vs.getD 1 0)
  obtain ⟨-, -, -, hc, hc'⟩ := decode_bits (vs.getD 2 0)
  have h0 := getD_lt hvs 0
  have h1 := getD_lt hvs 1
  have h2 := getD_lt hvs 2
  have h3 := getD_lt hvs 3
  refine ⟨_, _, _, rfl, ?_, ?_, ?_⟩
  · rw [UInt8.toNat_add, ha, hb]
    omega
  · rw [UInt8.toNat_add, hb', hc]
    omega
  · rw [UInt8.toNat_add, hc']
    omega

/-- The bytes of a list, one after the other, as bits. -/
def byteBits (bytes : List UInt8) : List Bool := digits 8 (bytes.map UInt8.toNat)

/-- The values of a list, six bits each, one after the other. -/
def valueBits (vs : List UInt8) : List Bool := digits 6 (vs.map UInt8.toNat)

theorem byteBits_append (l l' : List UInt8) : byteBits (l ++ l') = byteBits l ++ byteBits l' := by
  rw [byteBits, List.map_append, digits_append]
  rfl

theorem valueBits_append (l l' : List UInt8) :
    valueBits (l ++ l') = valueBits l ++ valueBits l' := by
  rw [valueBits, List.map_append, digits_append]
  rfl

/-- **Three bytes have the bits of the four values** they are computed from. -/
theorem byteBits_octets (hvs : ∀ v ∈ vs, v.toNat < 64) :
    byteBits (octets vs) =
      valueBits [vs.getD 0 0, vs.getD 1 0, vs.getD 2 0, vs.getD 3 0] := by
  obtain ⟨x, y, z, hoctets, hx, hy, hz⟩ := octets_eq hvs
  have h1 := getD_lt hvs 1
  have h2 := getD_lt hvs 2
  have h3 := getD_lt hvs 3
  have hfirst := bits_append (k := 2) (m := (vs.getD 0 0).toNat) 6
    (show (vs.getD 1 0).toNat / 16 < 2 ^ 2 by omega)
  have hsecond := bits_append (k := 4) (m := (vs.getD 1 0).toNat % 16) 4
    (show (vs.getD 2 0).toNat / 4 < 2 ^ 4 by omega)
  have hthird := bits_append (k := 6) (m := (vs.getD 2 0).toNat % 4) 2
    (show (vs.getD 3 0).toNat < 2 ^ 6 by omega)
  -- the second and the third value are cut in two
  have hcut₁ := bits_eq_append 2 4 (vs.getD 1 0).toNat
  have hcut₂ := bits_eq_append 4 2 (vs.getD 2 0).toNat
  simp only [Nat.reduceAdd, Nat.reducePow] at hfirst hsecond hthird hcut₁ hcut₂
  rw [← hx] at hfirst
  rw [← hy] at hsecond
  rw [← hz] at hthird
  simp only [hoctets, byteBits, valueBits, digits, List.map_cons, List.map_nil, List.flatMap_cons,
    List.flatMap_nil, List.append_nil, hfirst, hsecond, hthird, hcut₁, hcut₂, List.append_assoc]

/-- Values that are missing count as zeros. -/
theorem valueBits_fill (hlen : vs.length ≤ 4) :
    valueBits vs <+: valueBits [vs.getD 0 0, vs.getD 1 0, vs.getD 2 0, vs.getD 3 0] := by
  obtain ⟨rest, hrest⟩ : vs <+: [vs.getD 0 0, vs.getD 1 0, vs.getD 2 0, vs.getD 3 0] := by
    match vs, hlen with
    | [], _ => exact List.nil_prefix
    | [a], _ => exact ⟨[0, 0, 0], rfl⟩
    | [a, b], _ => exact ⟨[0, 0], rfl⟩
    | [a, b, c], _ => exact ⟨[0], rfl⟩
    | [a, b, c, d], _ => exact List.prefix_refl _
  rw [← hrest, valueBits_append]
  exact List.prefix_append _ _

/-- Induction over the groups of four, from the rest that is less than a group. -/
@[elab_as_elim]
theorem groups_induction {motive : List UInt8 → Prop}
    (rest : ∀ vs : List UInt8, vs.length < 4 → motive vs)
    (group : ∀ p q r s vs, motive vs → motive ([p, q, r, s] ++ vs)) : ∀ vs, motive vs
  | [] => rest [] (by simp)
  | [p] => rest [p] (by simp)
  | [p, q] => rest [p, q] (by simp)
  | [p, q, r] => rest [p, q, r] (by simp)
  | p :: q :: r :: s :: vs => group p q r s vs (groups_induction rest group vs)

/-- A group is decoded by itself. -/
theorem base64Decode_group {p q r s : UInt8} (hvs : ∀ v ∈ [p, q, r, s] ++ vs, v.toNat < 64) :
    base64Decode (([p, q, r, s] ++ vs).map base64Char) =
      octets [p, q, r, s] ++ base64Decode (vs.map base64Char) := by
  rw [List.map_append]
  exact base64Decode_append (fun v hv => hvs v (List.mem_append_left vs hv)) rfl

theorem length_base64Decode_values (hvs : ∀ v ∈ vs, v.toNat < 64) :
    (base64Decode (vs.map base64Char)).length = vs.length / 4 * 3 + (vs.length % 4 - 1) := by
  induction vs using groups_induction with
  | rest vs hlt =>
      rw [base64Decode_rest hvs hlt, List.length_take, length_octets]
      omega
  | group p q r s vs ih =>
      have hrest := ih fun v hv => hvs v (List.mem_append_right _ hv)
      rw [base64Decode_group hvs, List.length_append, List.length_append, length_octets, hrest,
        show [p, q, r, s].length = 4 from rfl]
      omega

/-- The bytes have the bits of the values, and what does not fill a byte is dropped. -/
theorem byteBits_base64Decode_values (hvs : ∀ v ∈ vs, v.toNat < 64) :
    byteBits (base64Decode (vs.map base64Char)) <+: valueBits vs := by
  induction vs using groups_induction with
  | rest vs hlt =>
      -- both are cut off the bits of a full group
      rw [base64Decode_rest hvs hlt]
      have hbytes : byteBits ((octets vs).take (vs.length - 1)) <+: byteBits (octets vs) :=
        digits_prefix 8 ((List.take_prefix _ _).map _)
      rw [byteBits_octets hvs] at hbytes
      refine List.prefix_of_prefix_length_le hbytes (valueBits_fill hlt.le) ?_
      rw [byteBits, valueBits, length_digits, length_digits, List.length_map, List.length_map,
        List.length_take, length_octets]
      omega
  | group p q r s vs ih =>
      have hgroup : byteBits (octets [p, q, r, s]) = valueBits [p, q, r, s] :=
        byteBits_octets fun v hv => hvs v (List.mem_append_left vs hv)
      rw [base64Decode_group hvs, byteBits_append, valueBits_append, hgroup]
      exact (List.prefix_append_right_inj _).2 (ih fun v hv => hvs v (List.mem_append_right _ hv))

/-- **What becomes of an arbitrary text.**  Only its beginning in the alphabet counts.  Its
characters stand for six bits each, and the bytes are these bits taken eight at a time: three
bytes for each four characters, and for a rest one byte less than it has characters. -/
theorem base64Decode_reads (text : List UInt8) :
    base64Decode text = base64Decode (text.takeWhile isBase64) ∧
      byteBits (base64Decode text) <+: valueBits ((text.takeWhile isBase64).map base64Find) ∧
      (base64Decode text).length = (text.takeWhile isBase64).length / 4 * 3 +
        ((text.takeWhile isBase64).length % 4 - 1) := by
  have hread : ∀ c ∈ text.takeWhile isBase64, isBase64 c = true := fun c hc =>
    List.mem_takeWhile_imp hc
  obtain ⟨vs, hvs, hchars⟩ := exists_values hread
  have hlen : (text.takeWhile isBase64).length = vs.length := by rw [← hchars, List.length_map]
  have hvalues : (text.takeWhile isBase64).map base64Find = vs := by
    rw [← hchars, map_find_char hvs]
  rw [hvalues, hlen, base64Decode_takeWhile, ← hchars]
  exact ⟨rfl, byteBits_base64Decode_values hvs, length_base64Decode_values hvs⟩

/-! ## The texts of the format -/

/-- The texts of the format: groups of four characters, the last of which may be cut short, with
the bits that would belong to missing bytes all zero. -/
inductive Canonical : List UInt8 → Prop where
  | nil : Canonical []
  | one {p q : UInt8} (hvs : ∀ v ∈ [p, q], v.toNat < 64) (hzero : q.toNat % 16 = 0) :
      Canonical ([p, q].map base64Char ++ [padding, padding])
  | two {p q r : UInt8} (hvs : ∀ v ∈ [p, q, r], v.toNat < 64) (hzero : r.toNat % 4 = 0) :
      Canonical ([p, q, r].map base64Char ++ [padding])
  | group {p q r s : UInt8} {cs : List UInt8} (hvs : ∀ v ∈ [p, q, r, s], v.toNat < 64)
      (h : Canonical cs) : Canonical ([p, q, r, s].map base64Char ++ cs)

/-- **Four values make three bytes and three bytes four values.** -/
theorem sextets_octets (hvs : ∀ v ∈ vs, v.toNat < 64) :
    sextets (octets vs) = [vs.getD 0 0, vs.getD 1 0, vs.getD 2 0, vs.getD 3 0] := by
  obtain ⟨x, y, z, hoctets, hx, hy, hz⟩ := octets_eq hvs
  obtain ⟨p, q, r, s, hsextets, hp, hq, hr, hs⟩ := sextets_eq (octets vs)
  have h0 := getD_lt hvs 0
  have h1 := getD_lt hvs 1
  have h2 := getD_lt hvs 2
  have h3 := getD_lt hvs 3
  rw [hoctets] at hp hq hr hs
  simp only [List.getD_cons_zero, List.getD_cons_succ] at hp hq hr hs
  have hp' : p = vs.getD 0 0 := UInt8.toNat_inj.1 (by omega)
  have hq' : q = vs.getD 1 0 := UInt8.toNat_inj.1 (by omega)
  have hr' : r = vs.getD 2 0 := UInt8.toNat_inj.1 (by omega)
  have hs' : s = vs.getD 3 0 := UInt8.toNat_inj.1 (by omega)
  rw [hsextets, hp', hq', hr', hs']

/-- What is encoded is in the format. -/
theorem canonical_base64Encode (bytes : List UInt8) : Canonical (base64Encode bytes) := by
  match bytes with
  | [] => exact .nil
  | [a] =>
      obtain ⟨p, q, r, s, hsextets, hp, hq, -⟩ := sextets_eq [a]
      have hvs : ∀ v ∈ [p, q], v.toNat < 64 := by
        intro v hv
        have hmem : v ∈ sextets [a] := hsextets ▸ List.mem_append_left [r, s] hv
        exact sextets_lt hmem
      have htext : base64Encode [a] = [p, q].map base64Char ++ [padding, padding] := by
        show encodeTail [a] = _
        rw [encodeTail, if_neg (List.cons_ne_nil _ _), hsextets]
        rfl
      rw [htext]
      refine .one hvs ?_
      have hnone : ([a].getD 1 0).toNat = 0 := rfl
      omega
  | [a, b] =>
      obtain ⟨p, q, r, s, hsextets, -, -, hr, -⟩ := sextets_eq [a, b]
      have hvs : ∀ v ∈ [p, q, r], v.toNat < 64 := by
        intro v hv
        have hmem : v ∈ sextets [a, b] := hsextets ▸ List.mem_append_left [s] hv
        exact sextets_lt hmem
      have htext : base64Encode [a, b] = [p, q, r].map base64Char ++ [padding] := by
        show encodeTail [a, b] = _
        rw [encodeTail, if_neg (List.cons_ne_nil _ _), hsextets]
        rfl
      rw [htext]
      refine .two hvs ?_
      have hnone : ([a, b].getD 2 0).toNat = 0 := rfl
      omega
  | a :: b :: c :: bytes =>
      obtain ⟨p, q, r, s, hsextets, -⟩ := sextets_eq [a, b, c]
      rw [base64Encode_cons, hsextets]
      exact .group (hsextets ▸ fun v hv => sextets_lt hv) (canonical_base64Encode bytes)

/-- A text of the format is written again as it was read. -/
theorem Canonical.base64Encode_base64Decode (h : Canonical text) :
    base64Encode (base64Decode text) = text := by
  induction h with
  | nil => rfl
  | @one p q hvs hzero =>
      obtain ⟨x, y, z, hoctets, -, hy, hz⟩ := octets_eq hvs
      have hy₀ : y = 0 := UInt8.toNat_inj.1 (hy.trans (by simpa using hzero))
      have hz₀ : z = 0 := UInt8.toNat_inj.1 (hz.trans (by simp))
      have hvalues := sextets_octets hvs
      rw [hoctets, hy₀, hz₀] at hvalues
      -- the bytes that are missing count as zeros
      have hshort : sextets [x] = [p, q, 0, 0] := hvalues
      have hread := base64Decode_tail hvs (by simp) [padding]
      rw [hoctets] at hread
      refine (congrArg base64Encode hread).trans ?_
      show encodeTail [x] = _
      rw [encodeTail, if_neg (List.cons_ne_nil _ _), hshort]
      rfl
  | @two p q r hvs hzero =>
      obtain ⟨x, y, z, hoctets, -, -, hz⟩ := octets_eq hvs
      have hz₀ : z = 0 := UInt8.toNat_inj.1 (hz.trans (by simpa using hzero))
      have hvalues := sextets_octets hvs
      rw [hoctets, hz₀] at hvalues
      have hshort : sextets [x, y] = [p, q, r, 0] := hvalues
      have hread := base64Decode_tail hvs (by simp) []
      rw [hoctets] at hread
      refine (congrArg base64Encode hread).trans ?_
      show encodeTail [x, y] = _
      rw [encodeTail, if_neg (List.cons_ne_nil _ _), hshort]
      rfl
  | @group p q r s cs hvs h ih =>
      obtain ⟨x, y, z, hoctets, -⟩ := octets_eq hvs
      have hvalues := sextets_octets hvs
      rw [hoctets] at hvalues
      rw [base64Decode_append hvs rfl, hoctets]
      show base64Encode (x :: y :: z :: base64Decode cs) = _
      rw [base64Encode_cons, hvalues, ih]
      rfl

/-- **The texts that are read without loss** are those of the format, which are those that
`base64_encode` writes. -/
theorem base64Encode_base64Decode_iff (text : List UInt8) :
    (base64Encode (base64Decode text) = text ↔ Canonical text) ∧
      (Canonical text ↔ ∃ bytes, base64Encode bytes = text) := by
  have hto : base64Encode (base64Decode text) = text → Canonical text := fun h =>
    h ▸ canonical_base64Encode _
  have hfrom : Canonical text → base64Encode (base64Decode text) = text := fun h =>
    h.base64Encode_base64Decode
  refine ⟨⟨hto, hfrom⟩, fun h => ⟨_, hfrom h⟩, ?_⟩
  rintro ⟨bytes, rfl⟩
  exact canonical_base64Encode bytes

end LightSocks
