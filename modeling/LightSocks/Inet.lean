import LightSocks.Libevent

/-!
# IPv4 addresses and their text

`dns_cb` prints the resolved address with `evutil_inet_ntop`, keeps the text in
the context and parses it back with `evutil_inet_pton` to connect.  Text is a
list of bytes, as in C.

* `inetPton_inetNtop` — printing and parsing back is the identity, so the
  address that is connected to is the address that was resolved.
-/

namespace LightSocks

/-- `struct in_addr`, in network order. -/
structure InAddr where
  a : UInt8
  b : UInt8
  c : UInt8
  d : UInt8
  deriving DecidableEq, Repr

/-- The ASCII digit of a number below ten. -/
def digit (n : ℕ) : UInt8 := UInt8.ofNat (48 + n)

/-- `%d` of a byte. -/
def octetText (b : UInt8) : List UInt8 :=
  let n := b.toNat
  if n < 10 then [digit n]
  else if n < 100 then [digit (n / 10), digit (n % 10)]
  else [digit (n / 100), digit (n / 10 % 10), digit (n % 10)]

/-- The ASCII dot. -/
def dot : UInt8 := 0x2e

/-- `evutil_inet_ntop(AF_INET, …)`: the dotted decimal text. -/
def inetNtop (addr : InAddr) : List UInt8 :=
  [dot].intercalate [octetText addr.a, octetText addr.b, octetText addr.c, octetText addr.d]

def isDigit (c : UInt8) : Bool := 48 ≤ c.toNat && c.toNat ≤ 57

/-- The number a run of digits stands for. -/
def digitsValue (l : List UInt8) : ℕ := l.foldl (fun n c => 10 * n + (c.toNat - 48)) 0

/-- `%u` of an octet: at least one digit, and a value that fits a byte. -/
def parseOctet (l : List UInt8) : Option UInt8 :=
  if l ≠ [] ∧ l.all isDigit ∧ digitsValue l ≤ 255 then some (UInt8.ofNat (digitsValue l))
  else none

/-- `evutil_inet_pton(AF_INET, …)`: four octets separated by dots, or failure. -/
def inetPton (text : List UInt8) : Option InAddr :=
  match text.splitOn dot with
  | [a, b, c, d] => do
      return ⟨← parseOctet a, ← parseOctet b, ← parseOctet c, ← parseOctet d⟩
  | _ => none

theorem octetText_spec (b : UInt8) :
    parseOctet (octetText b) = some b ∧ (octetText b).all isDigit = true ∧
      (octetText b).length ≤ 3 := by
  have h : ∀ i : Fin 256, parseOctet (octetText (UInt8.ofNat i.1)) = some (UInt8.ofNat i.1) ∧
      (octetText (UInt8.ofNat i.1)).all isDigit = true ∧
      (octetText (UInt8.ofNat i.1)).length ≤ 3 := by decide +kernel
  simpa using h ⟨b.toNat, b.toNat_lt⟩

theorem dot_notMem_octetText (b : UInt8) : dot ∉ octetText b := by
  intro hmem
  have hdigit := List.all_eq_true.1 (octetText_spec b).2.1 _ hmem
  exact absurd hdigit (by decide)

/-- **Parsing the text of an address gives the address back.** -/
@[simp] theorem inetPton_inetNtop (addr : InAddr) : inetPton (inetNtop addr) = some addr := by
  have hsplit : (inetNtop addr).splitOn dot =
      [octetText addr.a, octetText addr.b, octetText addr.c, octetText addr.d] := by
    refine List.splitOn_intercalate dot ?_ (by simp)
    intro l hl
    simp only [List.mem_cons, List.not_mem_nil, or_false] at hl
    rcases hl with rfl | rfl | rfl | rfl <;> exact dot_notMem_octetText _
  rw [inetPton, hsplit]
  simp [(octetText_spec addr.a).1, (octetText_spec addr.b).1, (octetText_spec addr.c).1,
    (octetText_spec addr.d).1]

/-- The text of an address is never empty, has at most 15 characters and none of
them is NUL. -/
theorem inetNtop_text (addr : InAddr) :
    inetNtop addr ≠ [] ∧ (inetNtop addr).length ≤ 15 ∧ ∀ c ∈ inetNtop addr, c ≠ 0 := by
  refine ⟨?_, ?_, ?_⟩
  · simp [inetNtop, List.intercalate]
  · have h := fun b => (octetText_spec b).2.2
    have ha := h addr.a
    have hb := h addr.b
    have hc := h addr.c
    have hd := h addr.d
    simp only [inetNtop, List.intercalate, List.intersperse, List.flatten_cons, List.length_append,
      List.length_cons, List.length_nil, List.flatten_nil]
    omega
  · have hdig : ∀ b : UInt8, ∀ c ∈ octetText b, c ≠ 0 := by
      intro b c hc h0
      have := List.all_eq_true.1 (octetText_spec b).2.1 _ hc
      rw [h0] at this
      exact absurd this (by decide)
    intro c hc
    simp only [inetNtop, List.intercalate, List.intersperse, List.flatten_cons, List.mem_append,
      List.mem_singleton, List.flatten_nil, List.append_nil] at hc
    rcases hc with h | rfl | h | rfl | h | rfl | h
    all_goals first | exact hdig _ _ h | decide

end LightSocks
