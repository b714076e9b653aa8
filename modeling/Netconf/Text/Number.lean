/-!
# Digits and numbers

The values of digits, and unsigned numbers of a given width in decimal, read with an optional plus
sign and any leading zeros.
-/

namespace Netconf.Text

/-- The value of a hexadecimal digit. -/
def hexDigit? (c : Char) : Option Nat :=
  if c.isDigit then some (c.toNat - 48)
  else if 'a' ≤ c ∧ c ≤ 'f' then some (c.toNat - 87)
  else if 'A' ≤ c ∧ c ≤ 'F' then some (c.toNat - 55)
  else none

/-- The value of a decimal digit. -/
def digit? (c : Char) : Option Nat :=
  if c.isDigit then some (c.toNat - 48) else none

/-- The number below `bound` that digits of a base write, of which there has to be at least one. As a
number only grows with further digits, the first digit that goes beyond the bound decides. -/
def digits? (base bound : Nat) (value? : Char → Option Nat) : List Char → Option Nat
  | [] => none
  | c :: cs =>
    (c :: cs).foldlM (fun n c => do
      let n := n * base + (← value? c)
      if n < bound then some n else none) 0

/-- The number below `bound` that a text writes. -/
def number? (bound : Nat) (s : String) : Option Nat :=
  match s.toList with
  | '+' :: cs => digits? 10 bound digit? cs
  | cs => digits? 10 bound digit? cs

end Netconf.Text
