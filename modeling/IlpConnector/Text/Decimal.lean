/-!
# Whole numbers in text

An unsigned number is decimal digits, at least one, after an optional plus sign, and below a
limit; leading zeros are allowed, blanks and separators are not.
-/

namespace IlpConnector.Text

/-- The number that decimal digits stand for. -/
def digitsValue (cs : List Char) : Nat :=
  cs.foldl (fun n c => n * 10 + (c.toNat - 48)) 0

/-- The number that decimal digits stand for, at least one, and nothing else. -/
def digitsValue? (cs : List Char) : Option Nat :=
  if !cs.isEmpty && cs.all Char.isDigit then some (digitsValue cs) else none

/-- The unsigned number below `limit` that a text stands for. -/
def natBelow? (limit : Nat) (s : String) : Option Nat :=
  let digits :=
    match s.toList with
    | '+' :: rest => rest
    | cs => cs
  (digitsValue? digits).filter (· < limit)

/-- The number between `low` and `high` that a text stands for, with an optional sign. -/
def intBetween? (low high : Int) (s : String) : Option Int :=
  let value : Option Int :=
    match s.toList with
    | '-' :: rest => (digitsValue? rest).map fun n => -(n : Int)
    | '+' :: rest => (digitsValue? rest).map Int.ofNat
    | cs => (digitsValue? cs).map Int.ofNat
  value.filter fun n => low ≤ n && n ≤ high

end IlpConnector.Text
