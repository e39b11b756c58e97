/-!
# Numerals

Reading whole numbers from their digits.  A numeral has at least one digit; how it may be signed
and how large it may be depends on where it stands.
-/

namespace TokenNet.Text

/-- The value of a digit in a base of at most sixteen. -/
def digit? (base : Nat) (c : Char) : Option Nat :=
  let n := c.toNat
  let value :=
    if '0' ≤ c ∧ c ≤ '9' then some (n - '0'.toNat)
    else if 'a' ≤ c ∧ c ≤ 'f' then some (n - 'a'.toNat + 10)
    else if 'A' ≤ c ∧ c ≤ 'F' then some (n - 'A'.toNat + 10)
    else none
  value.filter fun v => decide (v < base)

/-- The number written by a list of digits, most significant first. -/
def natural? (base : Nat) (digits : List Char) : Option Nat :=
  if digits.isEmpty then none
  else (digits.mapM (digit? base)).map fun values =>
    values.foldl (fun number value => number * base + value) 0

/-- A decimal numeral that may have a sign. -/
def signed? (text : List Char) : Option Int :=
  match text with
  | '-' :: digits => (natural? 10 digits).map fun n => -(n : Int)
  | '+' :: digits => (natural? 10 digits).map Int.ofNat
  | digits => (natural? 10 digits).map Int.ofNat

/-- A decimal numeral that may have a plus sign. -/
def unsigned? (text : List Char) : Option Nat :=
  match text with
  | '+' :: digits => natural? 10 digits
  | digits => natural? 10 digits

/-- A signed numeral that fits into 64 bits. -/
def int64? (text : String) : Option Int64 :=
  (signed? text.toList).bind fun n =>
    if Int64.minValue.toInt ≤ n ∧ n ≤ Int64.maxValue.toInt then some (Int64.ofInt n) else none

/-- An unsigned numeral that fits into 64 bits. -/
def word64? (text : String) : Option Nat :=
  (unsigned? text.toList).filter fun n => decide (n < UInt64.size)

end TokenNet.Text
