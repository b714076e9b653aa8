import Netconf.Text.Number

/-!
# Reading JSON

Readers for the parts of a JSON text. Each takes the text from where its part begins, behind blank
characters, and leaves what follows. A text is read once from left to right, so that of several
faults the first one counts.
-/

namespace Netconf.Json

/-- What is wrong with a JSON text. -/
inductive Fault where
  /-- It is no JSON. -/
  | malformed
  /-- It is JSON but not what is asked for. -/
  | unfit
  /-- It ends too early. -/
  | truncated
  deriving DecidableEq, Repr

/-- The text from its first character that is not blank on. -/
def skipBlank (cs : List Char) : List Char :=
  cs.dropWhile fun c => c == ' ' || c == '\n' || c == '\t' || c == '\r'

/-- Reads a given word. -/
def word : List Char → List Char → Except Fault (List Char)
  | [], cs => .ok cs
  | _ :: _, [] => .error .truncated
  | w :: ws, c :: cs => if w = c then word ws cs else .error .malformed

/-! ## Strings -/

/-- Reads four hexadecimal digits. Less than four bytes before the end are too few. -/
def hexUnit (cs : List Char) : Except Fault (Nat × List Char) :=
  match cs with
  | a :: b :: c :: d :: rest =>
    match Text.hexDigit? a, Text.hexDigit? b, Text.hexDigit? c, Text.hexDigit? d with
    | some a, some b, some c, some d => .ok (((a * 16 + b) * 16 + c) * 16 + d, rest)
    | _, _, _, _ => .error .malformed
  | cs =>
    if (String.ofList cs).utf8ByteSize < 4 then .error .truncated else .error .malformed

/-- Reads the low half of a character whose high half is `high`. -/
def lowHalf (high : Nat) (cs : List Char) : Except Fault (Char × List Char) :=
  match word ['\\', 'u'] cs with
  | .error e => .error e
  | .ok rest =>
    match hexUnit rest with
    | .error e => .error e
    | .ok (low, rest) =>
      if 0xdc00 ≤ low ∧ low ≤ 0xdfff then
        .ok (.ofNat (0x10000 + (high - 0xd800) * 0x400 + (low - 0xdc00)), rest)
      else .error .malformed

/-- Reads what follows the backslash of an escape. -/
def escape (cs : List Char) : Except Fault (Char × List Char) :=
  match cs with
  | [] => .error .truncated
  | 'u' :: rest =>
    match hexUnit rest with
    | .error e => .error e
    | .ok (unit, rest) =>
      if 0xdc00 ≤ unit ∧ unit ≤ 0xdfff then .error .malformed
      else if 0xd800 ≤ unit ∧ unit ≤ 0xdbff then lowHalf unit rest
      else .ok (.ofNat unit, rest)
  | 'b' :: rest => .ok ('\x08', rest)
  | 'f' :: rest => .ok ('\x0c', rest)
  | 'n' :: rest => .ok ('\n', rest)
  | 'r' :: rest => .ok ('\r', rest)
  | 't' :: rest => .ok ('\t', rest)
  | c :: rest => if c = '\x22' ∨ c = '\\' ∨ c = '/' then .ok (c, rest) else .error .malformed

/-- After a word there is no more input than before it. -/
theorem length_le_of_word {ws cs rest : List Char} (h : word ws cs = .ok rest) :
    rest.length ≤ cs.length := by
  induction ws generalizing cs with
  | nil =>
    simp only [word, Except.ok.injEq] at h
    simp [h]
  | cons w ws ih =>
    cases cs with
    | nil => simp [word] at h
    | cons c cs =>
      simp only [word] at h
      split at h
      · have := ih h
        simp only [List.length_cons]
        omega
      · contradiction

/-- After four hexadecimal digits there is no more input than before them. -/
theorem length_le_of_hexUnit {cs rest : List Char} {n : Nat} (h : hexUnit cs = .ok (n, rest)) :
    rest.length ≤ cs.length := by
  unfold hexUnit at h
  split at h
  · split at h
    · simp only [Except.ok.injEq, Prod.mk.injEq] at h
      simp only [← h.2, List.length_cons]
      omega
    · contradiction
  · split at h <;> contradiction

/-- After an escape there is no more input than before it. -/
theorem length_le_of_escape {cs rest : List Char} {c : Char} (h : escape cs = .ok (c, rest)) :
    rest.length ≤ cs.length := by
  unfold escape at h
  split at h
  · contradiction
  · split at h
    · contradiction
    · next hunit =>
      have := length_le_of_hexUnit hunit
      split at h
      · contradiction
      split at h
      · unfold lowHalf at h
        split at h
        · contradiction
        next hword =>
        have := length_le_of_word hword
        split at h
        · contradiction
        next hlow =>
        have := length_le_of_hexUnit hlow
        split at h
        · simp only [Except.ok.injEq, Prod.mk.injEq] at h
          simp only [← h.2, List.length_cons]
          omega
        · contradiction
      · simp only [Except.ok.injEq, Prod.mk.injEq] at h
        simp only [← h.2, List.length_cons]
        omega
  -- The five letters that stand for control characters.
  iterate 5
    · simp only [Except.ok.injEq, Prod.mk.injEq] at h
      simp [← h.2]
  · split at h
    · simp only [Except.ok.injEq, Prod.mk.injEq] at h
      simp [← h.2]
    · contradiction

/-- Reads what follows the opening quote of a string; `done` holds its characters so far, the last
one first. -/
def textFrom (done : List Char) (cs : List Char) : Except Fault (List Char × List Char) :=
  match cs with
  | [] => .error .truncated
  | '\x22' :: rest => .ok (done.reverse, rest)
  | '\\' :: rest =>
    match h : escape rest with
    | .error e => .error e
    | .ok (c, rest') =>
      have := length_le_of_escape h
      textFrom (c :: done) rest'
  | c :: rest => if c.toNat < 0x20 then .error .malformed else textFrom (c :: done) rest
termination_by cs.length

/-! ## Numbers -/

/-- A number: a natural one of at most 64 bits, or any other. -/
inductive Number where
  | natural (n : Nat)
  | other
  deriving DecidableEq, Repr

/-- A number rounded to 53 significant bits, a half to the even neighbour. -/
def rounded (n : Nat) : Nat :=
  let excess := n.log2 + 1 - 53
  let unit := 1 <<< excess
  let (q, r) := (n / unit, n % unit)
  if unit < 2 * r ∨ (unit = 2 * r ∧ q % 2 = 1) then (q + 1) * unit else q * unit

/-- Whether a significand times a power of ten stays below the 1024th power of two when both and
their product are rounded. -/
def isFinite (significand : Nat) (exponent : Int) : Bool :=
  significand == 0 || exponent < 0 ||
    exponent ≤ 308 &&
      rounded (rounded significand * rounded (Nat.pow 10 exponent.toNat)) < 1 <<< 1024

/-- A significand with further digits, as far as it stays in 64 bits, and the number of digits that
are left out. -/
def absorb (significand : Nat) : List Char → Nat × Nat
  | [] => (significand, 0)
  | d :: ds =>
    let next := significand * 10 + (d.toNat - 48)
    if next < UInt64.size then absorb next ds else (significand, (d :: ds).length)

/-- Digits at the head of a text, of which there has to be one, and the rest. -/
def digits (cs : List Char) : Except Fault (List Char × List Char) :=
  match cs with
  | [] => .error .truncated
  | c :: _ =>
    if c.isDigit then .ok (cs.takeWhile Char.isDigit, cs.dropWhile Char.isDigit)
    else .error .malformed

/-- A number that is not natural; one that is too large for any use is refused. -/
def scaled (significand : Nat) (exponent : Int) (rest : List Char) :
    Except Fault (Number × List Char) :=
  if isFinite significand exponent then .ok (.other, rest) else .error .malformed

/-- The exponent that digits write. One that has more than 32 bits is beyond all others. -/
def exponentOf (ds : List Char) : Nat :=
  (Text.digits? 10 UInt32.size Text.digit? ds).getD UInt32.size

/-- Reads what follows the `e` of a number. -/
def exponentPart (significand : Nat) (shift : Int) (cs : List Char) :
    Except Fault (Number × List Char) := do
  let (negative, cs) := match cs with
    | '+' :: rest => (false, rest)
    | '-' :: rest => (true, rest)
    | cs => (false, cs)
  let (ds, rest) ← digits cs
  let exponent : Int := exponentOf ds
  scaled significand (if negative then shift - exponent else shift + exponent) rest

/-- Reads what follows the point of a number. -/
def fraction (significand : Nat) (shift : Int) (cs : List Char) :
    Except Fault (Number × List Char) := do
  let (ds, rest) ← digits cs
  let (significand, dropped) := absorb significand ds
  let shift := shift - (ds.length - dropped : Nat)
  match rest with
  | 'e' :: rest | 'E' :: rest => exponentPart significand shift rest
  | rest => scaled significand shift rest

/-- Reads a number. -/
def number (cs : List Char) : Except Fault (Number × List Char) := do
  let (negative, cs) := match cs with
    | '-' :: rest => (true, rest)
    | cs => (false, cs)
  let (ds, rest) ← digits cs
  match ds with
  | '0' :: _ :: _ => .error .malformed
  | ds =>
    let (significand, dropped) := absorb 0 ds
    match rest with
    | '.' :: rest => fraction significand dropped rest
    | 'e' :: rest | 'E' :: rest => exponentPart significand dropped rest
    | rest =>
      if negative = false ∧ dropped = 0 then .ok (.natural significand, rest)
      else scaled significand dropped rest

/-! ## Values -/

/-- The fault of a value that is not of the kind asked for. Arrays and objects are judged by their
first character, other values are read to their end before. -/
def misfit (cs : List Char) : Fault :=
  let fault {α : Type} : Except Fault α → Fault
    | .error e => e
    | .ok _ => .unfit
  match cs with
  | [] => .truncated
  | 'n' :: rest => fault (word ['u', 'l', 'l'] rest)
  | 't' :: rest => fault (word ['r', 'u', 'e'] rest)
  | 'f' :: rest => fault (word ['a', 'l', 's', 'e'] rest)
  | '\x22' :: rest => fault (textFrom [] rest)
  | c :: rest =>
    if c = '[' ∨ c = '\x7b' then .unfit
    else if c = '-' ∨ c.isDigit then fault (number (c :: rest))
    else .malformed

/-- Reads a natural number below a bound. -/
def natural (bound : Nat) (cs : List Char) : Except Fault (Nat × List Char) :=
  match skipBlank cs with
  | [] => .error .truncated
  | c :: rest =>
    if c = '-' ∨ c.isDigit then
      match number (c :: rest) with
      | .ok (.natural n, rest) => if n < bound then .ok (n, rest) else .error .unfit
      | .ok (.other, _) => .error .unfit
      | .error e => .error e
    else .error (misfit (c :: rest))

/-- What comes next in an array or an object. -/
inductive Next (α : Type) where
  /-- Nothing; the closing bracket was read. -/
  | closed (rest : List Char)
  | item (a : α) (rest : List Char)

/-- Reads up to the next element of an array, of which none was read yet if `first` says so. -/
def nextElement (first : Bool) (cs : List Char) : Except Fault (Next Unit) :=
  match skipBlank cs with
  | [] => .error .truncated
  | ']' :: rest => .ok (.closed rest)
  | c :: rest =>
    if first then .ok (.item () (c :: rest))
    else if c = ',' then
      match skipBlank rest with
      | [] => .error .truncated
      | ']' :: _ => .error .malformed
      | rest => .ok (.item () rest)
    else .error .malformed

/-- Reads the closing bracket of an array that can have no more elements. -/
def closeArray (cs : List Char) : Except Fault (List Char) :=
  match skipBlank cs with
  | [] => .error .truncated
  | ']' :: rest => .ok rest
  | _ => .error .malformed

/-- Reads the next name in an object, of which none was read yet if `first` says so. -/
def nextName (first : Bool) (cs : List Char) : Except Fault (Next (List Char)) :=
  let name (cs : List Char) : Except Fault (Next (List Char)) :=
    match cs with
    | [] => .error .truncated
    | '\x22' :: rest => (textFrom [] rest).map fun (name, rest) => .item name rest
    | _ => .error .malformed
  match skipBlank cs with
  | [] => .error .truncated
  | '\x7d' :: rest => .ok (.closed rest)
  | c :: rest =>
    if first then name (c :: rest)
    else if c = ',' then name (skipBlank rest)
    else .error .malformed

/-- Reads the colon after a name. -/
def colon (cs : List Char) : Except Fault (List Char) :=
  word [':'] (skipBlank cs)

/-- Passes a text whose value has been read, if nothing follows it. -/
def finish (cs : List Char) : Except Fault Unit :=
  if (skipBlank cs).isEmpty then .ok () else .error .malformed

end Netconf.Json
