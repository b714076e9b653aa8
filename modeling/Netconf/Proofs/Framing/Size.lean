import Mathlib.Data.List.Induction
import Mathlib.Tactic.Lemma
import Netconf.Framing.Decoder

/-!
# Sizes of chunks

The size of a chunk is written in decimal digits, in the shortest form. Writing a size and reading
it give each other back, so each size has one such form (`decimal_eq_iff`). Bytes that are cut into
pieces of a given size give the same bytes again.
-/

namespace Netconf.Framing

/-! ## Sizes in decimal -/

/-- A number in its shortest form is that of its tens, followed by the last digit. -/
lemma decimal_eq (n : Nat) :
    decimal n = (if n < 10 then [] else decimal (n / 10)) ++ [.ofNat (0x30 + n % 10)] := by
  have digit : ∀ m < 10, UInt8.ofNat (Nat.digitChar m).toNat = .ofNat (0x30 + m) := by decide
  unfold decimal
  rw [Nat.toDigits_eq_if (by omega)]
  split
  · next small =>
    rw [Nat.mod_eq_of_lt small]
    simp [digit n small]
  · simp [digit (n % 10) (Nat.mod_lt n (by omega))]

/-- The byte of a digit stands as far behind that of zero as the digit says. -/
lemma toNat_digit {m : Nat} (small : m < 10) : (UInt8.ofNat (0x30 + m)).toNat = 0x30 + m := by
  rw [UInt8.toNat_ofNat']
  omega

/-- A byte is a digit if it is between those of zero and nine. -/
lemma isDigit_iff {b : UInt8} : isDigit b = true ↔ 0x30 ≤ b.toNat ∧ b.toNat ≤ 0x39 := by
  simp only [isDigit, Bool.and_eq_true, decide_eq_true_eq, UInt8.le_iff_toNat_le]
  rfl

/-- A further digit multiplies the value by ten and is added to it. -/
lemma value_concat (digits : Bytes) (b : UInt8) :
    value (digits ++ [b]) = value digits * 10 + (b.toNat - 0x30) := by
  simp [value]

/-- Every number is written with some digit. -/
lemma decimal_ne_nil (n : Nat) : decimal n ≠ [] := by
  rw [decimal_eq]
  simp

/-- A number is written with digits only. -/
lemma isDigit_of_mem_decimal {n : Nat} {b : UInt8} (mem : b ∈ decimal n) : isDigit b = true := by
  induction n using Nat.strongRecOn generalizing b with
  | ind n ih =>
    rw [decimal_eq, List.mem_append, List.mem_singleton] at mem
    rcases mem with front | rfl
    · split at front
      · cases front
      · exact ih (n / 10) (by omega) front
    · rw [isDigit_iff, toNat_digit (Nat.mod_lt n (by omega))]
      omega

/-- A written number has its own value. -/
lemma value_decimal (n : Nat) : value (decimal n) = n := by
  induction n using Nat.strongRecOn with
  | ind n ih =>
    rw [decimal_eq, value_concat, toNat_digit (Nat.mod_lt n (by omega))]
    split
    · simp only [value, List.foldl_nil]
      omega
    · rw [ih (n / 10) (by omega)]
      omega

/-- Only zero is written with a zero in front. -/
lemma head?_decimal {n : Nat} (pos : 0 < n) : (decimal n).head? ≠ some 0x30 := by
  induction n using Nat.strongRecOn with
  | ind n ih =>
    rw [decimal_eq]
    split
    · next small =>
      intro zero
      have eq := congrArg UInt8.toNat (Option.some.inj zero)
      rw [toNat_digit (Nat.mod_lt n (by omega))] at eq
      simp at eq
      omega
    · have := ih (n / 10) (by omega) (by omega)
      rwa [List.head?_append, Option.or_of_isSome (by simpa using decimal_ne_nil (n / 10))]

/-- Digits that do not begin with a zero are the shortest form of their value. -/
lemma decimal_value {field : Bytes} (digits : ∀ b ∈ field, isDigit b = true) (ne : field ≠ [])
    (front : field.head? ≠ some 0x30) : 0 < value field ∧ decimal (value field) = field := by
  induction field using List.reverseRecOn with
  | nil => exact absurd rfl ne
  | append_singleton ds b ih =>
    obtain ⟨low, high⟩ := isDigit_iff.mp (digits b (by simp))
    have last (n : Nat) : UInt8.ofNat (0x30 + (n * 10 + (b.toNat - 0x30)) % 10) = b := by
      rw [show 0x30 + (n * 10 + (b.toNat - 0x30)) % 10 = b.toNat by omega, UInt8.ofNat_toNat]
    rw [value_concat]
    cases ds with
    | nil =>
      have nonzero : b.toNat ≠ 0x30 := by
        intro eq
        apply front
        rw [List.nil_append, List.head?_cons, ← UInt8.ofNat_toNat (x := b), eq]
        rfl
      refine ⟨by omega, ?_⟩
      rw [decimal_eq, last, if_pos (by simp only [value, List.foldl_nil]; omega)]
    | cons c ds =>
      -- The digits before the last one have a positive value, so they are written too.
      obtain ⟨pos, eq⟩ := ih (fun x mem => digits x (List.mem_append_left _ mem)) (by simp)
        (by simpa using front)
      refine ⟨by omega, ?_⟩
      rw [decimal_eq, last, if_neg (by omega)]
      rw [show (value (c :: ds) * 10 + (b.toNat - 0x30)) / 10 = value (c :: ds) by omega, eq]

/-- What the shortest form of a positive number is. -/
lemma decimal_eq_iff {n : Nat} {field : Bytes} (pos : 0 < n) :
    decimal n = field ↔
      field ≠ [] ∧ (∀ b ∈ field, isDigit b = true) ∧ field.head? ≠ some 0x30 ∧
        value field = n := by
  constructor
  · rintro rfl
    exact ⟨decimal_ne_nil n, fun _ => isDigit_of_mem_decimal, head?_decimal pos, value_decimal n⟩
  · rintro ⟨ne, digits, front, rfl⟩
    exact (decimal_value digits ne front).2

/-- No size of a chunk takes more than ten digits. -/
lemma length_decimal_le {n : Nat} (small : n ≤ absoluteMaxChunkSize) :
    (decimal n).length ≤ maxChunkSizeDigits := by
  have bound : absoluteMaxChunkSize < 10 ^ maxChunkSizeDigits := by decide
  rw [decimal, List.length_map, Nat.length_toDigits_le_iff (by omega) (by decide)]
  omega

/-- There is no line feed in a number. -/
lemma lf_notMem_decimal (n : Nat) : lf ∉ decimal n := by
  intro mem
  exact absurd (isDigit_of_mem_decimal mem) (by decide)

/-! ## Pieces of a given size -/

/-- The pieces of a list make up the list. -/
lemma flatten_pieces (size : Nat) (bytes : Bytes) : (pieces size bytes).flatten = bytes := by
  fun_induction pieces size bytes with
  | case1 => rfl
  | case2 b rest ih => rw [List.flatten_cons, ih, List.take_append_drop]

/-- A piece has some bytes, at most as many as the size and as the list has. -/
lemma of_mem_pieces {size : Nat} {bytes piece : Bytes} (mem : piece ∈ pieces size bytes) :
    piece ≠ [] ∧ piece.length ≤ min (max size 1) bytes.length := by
  fun_induction pieces size bytes with
  | case1 => cases mem
  | case2 b rest ih =>
    rcases List.mem_cons.mp mem with rfl | mem
    · refine ⟨?_, Nat.le_of_eq List.length_take⟩
      rw [← List.length_pos_iff, List.length_take, List.length_cons]
      omega
    · obtain ⟨ne, le⟩ := ih mem
      rw [List.length_drop] at le
      exact ⟨ne, by omega⟩

/-- The first piece of a list is as long as the size, and the rest is cut in the same way. -/
lemma pieces_of_ne_nil {size : Nat} {bytes : Bytes} (ne : bytes ≠ []) :
    pieces size bytes = bytes.take (max size 1) :: pieces size (bytes.drop (max size 1)) := by
  cases bytes with
  | nil => exact absurd rfl ne
  | cons b rest => rw [pieces]

end Netconf.Framing
