/-!
# The shortest decimal of a real number

A real number of the machine is `m · 2 ^ q`, and all reals closer to it than to its neighbours are
rounded to it.  Of the decimals among them, `Decimal.shortest?` takes one with the fewest digits, and
of those the nearest: for 1, 2, … 17 digits in turn it tests the two decimals next to the number.

`Decimal.text` writes the digits without an exponent, and a whole number without a point.
-/

namespace IlpConnector.Decimal

/-- A finite number that is not zero: `mantissa · 2 ^ exponent`, and whether the numbers below it are
twice as dense. -/
structure Binary where
  mantissa : Nat
  exponent : Int
  denseBelow : Bool

/-- The absolute value of a finite number other than zero. -/
def Binary.ofFloat? (x : Float) : Option Binary :=
  let bits : Nat := x.toBits.toNat % Nat.pow 2 63
  let biased : Nat := bits / Nat.pow 2 52
  let fraction : Nat := bits % Nat.pow 2 52
  if biased = 2047 ∨ bits = 0 then none
  else if biased = 0 then some ⟨fraction, -1074, false⟩
  else some ⟨Nat.pow 2 52 + fraction, Int.ofNat biased - 1075, fraction = 0 ∧ 1 < biased⟩

/-- `a · 10 ^ k` and `b · 2 ^ e` in a common unit. -/
def inUnit (a : Nat) (k : Int) (b : Nat) (e : Int) : Nat × Nat :=
  (a * Nat.pow 10 k.toNat * Nat.pow 2 (-e).toNat, b * Nat.pow 2 e.toNat * Nat.pow 10 (-k).toNat)

/-- `d · 10 ^ k` is rounded to the number; an end of the interval belongs to it if the mantissa is
even. -/
def readsBack (b : Binary) (d : Nat) (k : Int) : Bool :=
  let below (n : Nat) : Bool :=
    let (x, y) := inUnit d k n (b.exponent - 2)
    if b.mantissa % 2 = 0 then x ≤ y else x < y
  let above (n : Nat) : Bool :=
    let (x, y) := inUnit d k n (b.exponent - 2)
    if b.mantissa % 2 = 0 then y ≤ x else y < x
  below (4 * b.mantissa + 2) && above (4 * b.mantissa - if b.denseBelow then 1 else 2)

/-- The least `k` with the number below `10 ^ k`, found near the given one. -/
def magnitude (b : Binary) : (steps : Nat) → Int → Int
  | 0, k => k
  | n + 1, k =>
    let (x, y) := inUnit 1 k b.mantissa b.exponent
    if y < x then k else magnitude b n (k + 1)

/-- A decimal with the given number of digits that is rounded to the number. -/
def withDigits? (b : Binary) (top : Int) (digits : Nat) : Option (Nat × Int) :=
  let k := top - digits
  let (unit, value) := inUnit 1 k b.mantissa b.exponent
  let d := value / unit
  let lower := readsBack b d k
  let upper := readsBack b (d + 1) k
  if lower && upper then
    if 2 * (value % unit) ≤ unit then some (d, k) else some (d + 1, k)
  else if lower then some (d, k)
  else if upper then some (d + 1, k)
  else none

/-- The shortest decimal of a number: digits and the power of ten after them. -/
def shortest? (b : Binary) : Option (Nat × Int) :=
  let guess : Int := ((Nat.log2 b.mantissa : Int) + b.exponent) * 30103 / 100000
  let top := magnitude b 4 (guess - 1)
  (List.range 17).findSome? fun n => withDigits? b top (n + 1)

/-- Digits and a power of ten after them, without an exponent. -/
def positional (digits : Nat) (power : Int) : String :=
  let cs := (toString digits).toList
  if 0 ≤ power then String.ofList (cs ++ List.replicate power.toNat '0')
  else
    let places := power.natAbs
    let cs := List.replicate (places + 1 - cs.length) '0' ++ cs
    let whole := cs.take (cs.length - places)
    let fraction := ((cs.drop (cs.length - places)).reverse.dropWhile (· = '0')).reverse
    String.ofList (if fraction.isEmpty then whole else whole ++ '.' :: fraction)

/-- A real number in text. -/
def text (x : Float) : String :=
  if x.isNaN then "NaN"
  else
    let sign := if Nat.pow 2 63 ≤ x.toBits.toNat then "-" else ""
    if x.isInf then sign ++ "inf"
    else
      match (Binary.ofFloat? x).bind shortest? with
      | some (digits, power) => sign ++ positional digits power
      | none => sign ++ "0"

end IlpConnector.Decimal
