/-!
# Shortest decimal text of a floating-point number

A finite double is `m * 2 ^ e` for whole numbers `m` and `e`, and it stands for every real that
rounds to it. Among the decimals in that interval the one with the fewest digits is written, and
among those the nearest; reading it back gives the number again.

The search runs over the number of digits. On the grid of decimals with `n` digits only the two
neighbours of the number can be the nearest, so two candidates are tested for each `n`, in exact
arithmetic on whole numbers.

## Main definitions

* `Shortest.Double` — sign, mantissa and exponent of a finite double
* `Shortest.digits` — the shortest digits and the power of ten of the last of them
* `Shortest.text` — the number as it is written: plainly between `1e-5` and `1e16`, otherwise with
  an exponent
-/

namespace SignIn.Shortest

/-- A finite double: `(-1) ^ negative * mantissa * 2 ^ exponent`. -/
structure Double where
  negative : Bool
  mantissa : Nat
  exponent : Int
  deriving DecidableEq, Repr

/-- The parts of a double's 64 bits. -/
def Double.ofBits (bits : UInt64) : Double :=
  let n := bits.toNat
  let biased : Nat := (n >>> 52) % 2048
  let fraction : Nat := n % (1 <<< 52)
  if biased = 0 then ⟨n >>> 63 = 1, fraction, -1074⟩
  else ⟨n >>> 63 = 1, fraction + 1 <<< 52, (biased : Int) - 1075⟩

/-- `num * 2 ^ e2 * 10 ^ e10` compared with `num' * 2 ^ e2' * 10 ^ e10'`, cross-multiplied so that
all exponents are natural numbers. -/
def scaledLE (num : Nat) (e2 e10 : Int) (num' : Nat) (e2' e10' : Int) : Bool :=
  let side (n : Nat) (a b a' b' : Int) :=
    (n <<< (a - min a a').toNat) * Nat.pow 10 (b - min b b').toNat
  side num e2 e10 e2' e10' ≤ side num' e2' e10' e2 e10

/-- Whether `digits * 10 ^ power` rounds to the positive double `d`. The interval of `d` reaches
half way to its neighbours, and its ends belong to it when the mantissa is even. Below a power of
two the lower neighbour is only half as far away. -/
def Double.holds (d : Double) (digits : Nat) (power : Int) : Bool :=
  let narrow := d.mantissa = 1 <<< 52 ∧ d.exponent ≠ -1074
  let low := if narrow then 4 * d.mantissa - 1 else 4 * d.mantissa - 2
  let high := 4 * d.mantissa + 2
  let e := d.exponent - 2
  if d.mantissa % 2 = 0 then
    scaledLE low e 0 digits 0 power && scaledLE digits 0 power high e 0
  else
    !scaledLE digits 0 power low e 0 && !scaledLE high e 0 digits 0 power

/-- The largest whole number `q` with `q * 10 ^ power ≤ mantissa * 2 ^ exponent`. -/
def Double.floorAt (d : Double) (power : Int) : Nat :=
  ((d.mantissa <<< d.exponent.toNat) * Nat.pow 10 (-power).toNat) /
    (Nat.pow 10 power.toNat <<< (-d.exponent).toNat)

/-- Whether the upper of the two neighbours `q` and `q + 1` on the grid of `power` is the nearer
one; a tie goes to the even one. -/
def Double.upperNearer (d : Double) (q : Nat) (power : Int) : Bool :=
  let middle := 2 * q + 1
  if scaledLE (2 * d.mantissa) d.exponent 0 middle 0 power then
    scaledLE middle 0 power (2 * d.mantissa) d.exponent 0 && q % 2 = 1
  else true

/-- The candidate on the grid of `power`, if one of the two neighbours rounds to `d`. -/
def Double.candidate (d : Double) (power : Int) : Option Nat :=
  let q := d.floorAt power
  let low := d.holds q power
  let high := d.holds (q + 1) power
  if low && high then some (if d.upperNearer q power then q + 1 else q)
  else if low then some q
  else if high then some (q + 1)
  else none

/-- Tries ever finer grids, from the one of `power` on. -/
def searchGrid (d : Double) : Nat → Int → Nat × Int
  | 0, power => (d.floorAt power, power)
  | fuel + 1, power =>
    match d.candidate power with
    | some q => (q, power)
    | none => searchGrid d fuel (power - 1)

/-- Moves the zeros at the end of the digits into the power of ten. -/
def dropZeros : Nat → Nat → Int → Nat × Int
  | 0, q, power => (q, power)
  | fuel + 1, q, power =>
    if q ≠ 0 ∧ q % 10 = 0 then dropZeros fuel (q / 10) (power + 1) else (q, power)

/-- The shortest digits of a positive double and the power of ten of the last of them. No double
reaches `10 ^ 309` and none needs more than 17 digits, whatever its size. -/
def digits (d : Double) : Nat × Int :=
  let (q, power) := searchGrid d 640 309
  dropZeros 400 q power

/-- How a number is written whose digits end at `10 ^ power`. -/
def layout (digits : List Char) (power : Int) : String :=
  let count := digits.length
  let point := (count : Int) + power
  if 0 ≤ power ∧ point ≤ 16 then
    String.ofList (digits ++ List.replicate power.toNat '0') ++ ".0"
  else if 0 < point ∧ point ≤ 16 then
    String.ofList (digits.take point.toNat) ++ "." ++ String.ofList (digits.drop point.toNat)
  else if -5 < point ∧ point ≤ 0 then
    "0." ++ String.ofList (List.replicate (-point).toNat '0' ++ digits)
  else
    let exponent := toString (point - 1)
    match digits with
    | [d] => s!"{d}e{exponent}"
    | d :: others => s!"{d}.{String.ofList others}e{exponent}"
    | [] => ""

/-- The text of a finite double, given by its bits. -/
def text (bits : UInt64) : String :=
  let d := Double.ofBits bits
  let sign := if d.negative then "-" else ""
  if d.mantissa = 0 then sign ++ "0.0"
  else
    let (q, power) := digits d
    sign ++ layout (Nat.toDigits 10 q) power

end SignIn.Shortest
