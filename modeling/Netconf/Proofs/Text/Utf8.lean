import Mathlib.Tactic.IntervalCases
import Mathlib.Tactic.Lemma
import Netconf.Text.Utf8

/-!
# Decoding what was encoded as UTF-8

The decoder reads the bytes of a character back whatever follows them, so it reads back the bytes of
every text (`decodeChars_encodeChars`). A byte below 128 stands for itself (`encodeChar_cases`).
-/

namespace Netconf.Utf8

/-- A byte after the first one of a character carries six bits. -/
lemma toNat_tail {n : Nat} (lt : n < 64) : (UInt8.ofNat (n + 128)).toNat = n + 128 :=
  UInt8.toNat_ofNat_of_lt' (by change n + 128 < 256; omega)

/-- Numbers moved up by 128 or more give bytes from 128 on. -/
lemma toNat_ge {n k : Nat} (ge : 128 ≤ k) (lt : n + k < 256) :
    128 ≤ (UInt8.ofNat (n + k)).toNat := by
  rw [UInt8.toNat_ofNat_of_lt' (by change n + k < 256; omega)]
  omega

/-- A number moved up by 128 or more gives a byte that is no character of its own. -/
lemma lead_ge {n k : Nat} (ge : 128 ≤ k) (lt : n + k < 256) : ¬UInt8.ofNat (n + k) < 0x80 := by
  rw [UInt8.lt_iff_toNat_lt]
  exact Nat.not_lt.mpr (toNat_ge ge lt)

/-! ## First bytes -/

/-- A first byte of 110 and five bits asks for one more byte, unless the bits say that none is
needed. -/
lemma ofLead_two {n : Nat} (ge : 2 ≤ n) (lt : n < 32) :
    Begun.ofLead (UInt8.ofNat (n + 192)) = some ⟨1, 0x80, 0xbf, n, 1⟩ := by
  interval_cases n <;> rfl

/-- The second byte is bounded below so that three are needed, and above so that the code point is
none of a surrogate. -/
lemma ofLead_three {n : Nat} (lt : n < 16) :
    Begun.ofLead (UInt8.ofNat (n + 224)) =
      some ⟨2, if n = 0 then 0xa0 else 0x80, if n = 13 then 0x9f else 0xbf, n, 1⟩ := by
  interval_cases n <;> rfl

/-- The second byte is bounded below so that four are needed, and above so that the code point is
none beyond the last. -/
lemma ofLead_four {n : Nat} (lt : n < 5) :
    Begun.ofLead (UInt8.ofNat (n + 240)) =
      some ⟨3, if n = 0 then 0x90 else 0x80, if n = 4 then 0x8f else 0xbf, n, 1⟩ := by
  interval_cases n <;> rfl

/-! ## Reading on -/

section

variable {done : List Char} {index due value read n : Nat} {low high : UInt8} {rest : Bytes}

/-- A byte below 128 is a character. -/
lemma decodeFrom_ascii (lt : n < 128) :
    decodeFrom done index none (UInt8.ofNat n :: rest) =
      decodeFrom (Char.ofNat n :: done) (index + 1) none rest := by
  have eq : (UInt8.ofNat n).toNat = n := UInt8.toNat_ofNat_of_lt' (by change n < 256; omega)
  have small : UInt8.ofNat n < 0x80 := by
    rw [UInt8.lt_iff_toNat_lt, eq]
    exact lt
  rw [decodeFrom, if_pos small, eq]

/-- From its first byte on a character of several bytes is read as begun. -/
lemma decodeFrom_lead {b : UInt8} {begun : Begun} (eq : Begun.ofLead b = some begun)
    (ge : ¬b < 0x80) :
    decodeFrom done index none (b :: rest) = decodeFrom done index (some begun) rest := by
  rw [decodeFrom, if_neg ge, eq]

/-- A byte within the bounds continues a character. -/
lemma decodeFrom_tail (lt : n < 64) (above : low.toNat ≤ n + 128) (below : n + 128 ≤ high.toNat) :
    decodeFrom done index (some ⟨due, low, high, value, read⟩) (UInt8.ofNat (n + 128) :: rest) =
      if due ≤ 1 then
        decodeFrom (Char.ofNat (value * 64 + n) :: done) (index + (read + 1)) none rest
      else decodeFrom done index (some ⟨due - 1, 0x80, 0xbf, value * 64 + n, read + 1⟩) rest := by
  have eq := toNat_tail lt
  have within : low ≤ UInt8.ofNat (n + 128) ∧ UInt8.ofNat (n + 128) ≤ high := by
    rw [UInt8.le_iff_toNat_le, UInt8.le_iff_toNat_le, eq]
    exact ⟨above, below⟩
  rw [decodeFrom, if_pos within, eq, Nat.add_sub_cancel]

/-- From the third byte on the bounds are those of every byte that continues a character. -/
lemma decodeFrom_next (lt : n < 64) :
    decodeFrom done index (some ⟨due, 0x80, 0xbf, value, read⟩) (UInt8.ofNat (n + 128) :: rest) =
      if due ≤ 1 then
        decodeFrom (Char.ofNat (value * 64 + n) :: done) (index + (read + 1)) none rest
      else decodeFrom done index (some ⟨due - 1, 0x80, 0xbf, value * 64 + n, read + 1⟩) rest :=
  decodeFrom_tail lt (by change 128 ≤ _; omega) (by change _ ≤ 191; omega)

/-! ## Sequences -/

variable {a b c d : Nat}

/-- Two bytes are read as the character with their eleven bits. -/
lemma decodeFrom_two (ge : 2 ≤ a) (lt : a < 32) (ltb : b < 64) :
    decodeFrom done index none (UInt8.ofNat (a + 192) :: UInt8.ofNat (b + 128) :: rest) =
      decodeFrom (Char.ofNat (a * 64 + b) :: done) (index + 2) none rest := by
  rw [decodeFrom_lead (ofLead_two ge lt) (lead_ge (by decide) (by omega)), decodeFrom_next ltb]
  rfl

/-- Three bytes are read as the character with their sixteen bits, if three are needed and it is no
surrogate. -/
lemma decodeFrom_three (lt : a < 16) (ltb : b < 64) (ltc : c < 64) (needed : a = 0 → 32 ≤ b)
    (scalar : a = 13 → b < 32) :
    decodeFrom done index none
        (UInt8.ofNat (a + 224) :: UInt8.ofNat (b + 128) :: UInt8.ofNat (c + 128) :: rest) =
      decodeFrom (Char.ofNat ((a * 64 + b) * 64 + c) :: done) (index + 3) none rest := by
  have above : (if a = 0 then 0xa0 else 0x80 : UInt8).toNat ≤ b + 128 := by
    split
    · next first =>
      have bound := needed first
      change 160 ≤ _
      omega
    · change 128 ≤ _
      omega
  have below : b + 128 ≤ (if a = 13 then 0x9f else 0xbf : UInt8).toNat := by
    split
    · next last =>
      have bound := scalar last
      change _ ≤ 159
      omega
    · change _ ≤ 191
      omega
  rw [decodeFrom_lead (ofLead_three lt) (lead_ge (by decide) (by omega)),
    decodeFrom_tail ltb above below, if_neg (by decide), decodeFrom_next ltc]
  rfl

/-- Four bytes are read as the character with their twenty-one bits, if four are needed and it is
not beyond the last. -/
lemma decodeFrom_four (lt : a < 5) (ltb : b < 64) (ltc : c < 64) (ltd : d < 64)
    (needed : a = 0 → 16 ≤ b) (scalar : a = 4 → b < 16) :
    decodeFrom done index none (UInt8.ofNat (a + 240) :: UInt8.ofNat (b + 128) ::
        UInt8.ofNat (c + 128) :: UInt8.ofNat (d + 128) :: rest) =
      decodeFrom (Char.ofNat (((a * 64 + b) * 64 + c) * 64 + d) :: done) (index + 4) none rest := by
  have above : (if a = 0 then 0x90 else 0x80 : UInt8).toNat ≤ b + 128 := by
    split
    · next first =>
      have bound := needed first
      change 144 ≤ _
      omega
    · change 128 ≤ _
      omega
  have below : b + 128 ≤ (if a = 4 then 0x8f else 0xbf : UInt8).toNat := by
    split
    · next last =>
      have bound := scalar last
      change _ ≤ 143
      omega
    · change _ ≤ 191
      omega
  rw [decodeFrom_lead (ofLead_four lt) (lead_ge (by decide) (by omega)),
    decodeFrom_tail ltb above below, if_neg (by decide), decodeFrom_next ltc, if_neg (by decide),
    decodeFrom_next ltd]
  rfl

end

/-! ## Characters -/

/-- The bytes of a character are read back, whatever follows them. -/
lemma decodeFrom_encodeChar (done : List Char) (index : Nat) (c : Char) (rest : Bytes) :
    ∃ next, decodeFrom done index none (String.utf8EncodeChar c ++ rest) =
      decodeFrom (c :: done) next none rest := by
  have back : Char.ofNat c.val.toNat = c := Char.ofNat_toNat c
  have valid : c.val.toNat < 0xd800 ∨ 0xdfff < c.val.toNat ∧ c.val.toNat < 0x110000 := c.valid
  simp only [String.utf8EncodeChar]
  generalize c.val.toNat = v at back valid ⊢
  -- One case for each number of bytes. That the code point is valid bounds the second byte.
  split
  · refine ⟨index + 1, ?_⟩
    rw [List.singleton_append, decodeFrom_ascii (by omega), back]
  split
  · have sum : v / 64 % 32 * 64 + v % 64 = v := by omega
    refine ⟨index + 2, ?_⟩
    simp only [List.cons_append, List.nil_append]
    rw [decodeFrom_two (by omega) (by omega) (by omega), sum, back]
  split
  · have sum : (v / 4096 % 16 * 64 + v / 64 % 64) * 64 + v % 64 = v := by omega
    refine ⟨index + 3, ?_⟩
    simp only [List.cons_append, List.nil_append]
    rw [decodeFrom_three (by omega) (by omega) (by omega) (by omega) (by omega), sum, back]
  · have sum : ((v / 262144 % 8 * 64 + v / 4096 % 64) * 64 + v / 64 % 64) * 64 + v % 64 = v := by
      omega
    refine ⟨index + 4, ?_⟩
    simp only [List.cons_append, List.nil_append]
    rw [decodeFrom_four (by omega) (by omega) (by omega) (by omega) (by omega) (by omega), sum,
      back]

/-- The bytes of characters are read on as these. -/
lemma decodeFrom_encodeChars (done : List Char) (index : Nat) (cs : List Char) :
    decodeFrom done index none (encodeChars cs) = .ok (done.reverse ++ cs) := by
  induction cs generalizing done index with
  | nil => rw [encodeChars, List.flatMap_nil, decodeFrom, List.append_nil]
  | cons c cs ih =>
    obtain ⟨next, eq⟩ := decodeFrom_encodeChar done index c (encodeChars cs)
    rw [encodeChars, List.flatMap_cons]
    rw [← encodeChars, eq, ih, List.reverse_cons, List.append_assoc]
    rfl

/-- The bytes of characters are decoded as these. -/
lemma decodeChars_encodeChars (cs : List Char) : decodeChars (encodeChars cs) = .ok cs := by
  rw [decodeChars, decodeFrom_encodeChars]
  rfl

/-- The bytes of a character are the character itself, or none of them is below 128. -/
lemma encodeChar_cases (c : Char) :
    (c.toNat < 128 ∧ String.utf8EncodeChar c = [UInt8.ofNat c.toNat]) ∨
      ∀ b ∈ String.utf8EncodeChar c, 128 ≤ b.toNat := by
  simp only [String.utf8EncodeChar, Char.toNat]
  generalize c.val.toNat = v
  split
  · exact .inl ⟨by omega, rfl⟩
  refine .inr ?_
  split
  · simp only [List.forall_mem_cons]
    exact ⟨toNat_ge (by decide) (by omega), toNat_ge (by decide) (by omega),
      List.forall_mem_nil _⟩
  split
  · simp only [List.forall_mem_cons]
    exact ⟨toNat_ge (by decide) (by omega), toNat_ge (by decide) (by omega),
      toNat_ge (by decide) (by omega), List.forall_mem_nil _⟩
  · simp only [List.forall_mem_cons]
    exact ⟨toNat_ge (by decide) (by omega), toNat_ge (by decide) (by omega),
      toNat_ge (by decide) (by omega), toNat_ge (by decide) (by omega),
      List.forall_mem_nil _⟩

/-- A byte below 128 is that of a character with its number. -/
lemma toNat_eq_of_mem {c : Char} {b : UInt8} (mem : b ∈ String.utf8EncodeChar c)
    (ascii : b.toNat < 128) : c.toNat = b.toNat := by
  rcases encodeChar_cases c with ⟨lt, eq⟩ | high
  · rw [eq, List.mem_singleton] at mem
    rw [mem, UInt8.toNat_ofNat_of_lt' (by change c.toNat < 256; omega)]
  · exact absurd ascii (Nat.not_lt.mpr (high b mem))

end Netconf.Utf8
