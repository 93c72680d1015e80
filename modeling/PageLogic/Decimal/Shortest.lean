/-!
Binary fractions in decimal digits. A double is a whole number of units, the unit being a power of
two; among the decimal numbers that round to it `shortest` finds the one with the fewest digits, and
of those the nearest.
-/
namespace PageLogic

/-- A number `digits * 10 ^ exponent`. -/
structure Decimal where
  digits : Nat
  exponent : Int
  deriving DecidableEq, Repr

namespace Decimal

/-- A double without its sign: `count * 2 ^ scale`. -/
structure Magnitude where
  count : Nat
  scale : Int
  /-- Whether the next smaller double is only half as far away as the next larger. -/
  narrowBelow : Bool
  deriving DecidableEq, Repr

/-- The magnitude that the bits of a double stand for; nothing for infinities and for what is no
number. -/
def Magnitude.ofBits? (bits : UInt64) : Option Magnitude :=
  let fraction := bits.toNat % Nat.pow 2 52
  let exponent : Nat := bits.toNat / Nat.pow 2 52 % Nat.pow 2 11
  if exponent = 2047 then none
  else if exponent = 0 then some ⟨fraction, -1074, false⟩
  else some ⟨Nat.pow 2 52 + fraction, (exponent : Int) - 1075, fraction == 0 && exponent > 1⟩

/-- Whether `a * 2 ^ k ≤ b * 10 ^ e`. -/
def binaryLe (a : Nat) (k : Int) (b : Nat) (e : Int) : Bool :=
  a * Nat.pow 2 k.toNat * Nat.pow 10 (-e).toNat ≤ b * Nat.pow 10 e.toNat * Nat.pow 2 (-k).toNat

/-- Whether `b * 10 ^ e ≤ a * 2 ^ k`. -/
def decimalLe (b : Nat) (e : Int) (a : Nat) (k : Int) : Bool :=
  b * Nat.pow 10 e.toNat * Nat.pow 2 (-k).toNat ≤ a * Nat.pow 2 k.toNat * Nat.pow 10 (-e).toNat

/-- Moves zeros at the end of the digits into the exponent. -/
def stripped : (rounds : Nat) → Decimal → Decimal
  | 0, d => d
  | rounds + 1, d =>
    if d.digits ≠ 0 && d.digits % 10 = 0 then stripped rounds ⟨d.digits / 10, d.exponent + 1⟩ else d

namespace Magnitude

/-- How often the power of ten fits into the magnitude. -/
def quotient (m : Magnitude) (e : Int) : Nat :=
  m.count * Nat.pow 2 m.scale.toNat * Nat.pow 10 (-e).toNat /
    (Nat.pow 10 e.toNat * Nat.pow 2 (-m.scale).toNat)

/-- The exponent of the first decimal digit of a magnitude that is not zero. -/
def leading (m : Magnitude) : Int :=
  let guess : Int := ((m.count.log2 : Int) + m.scale) * 30103 / 100000 - 1
  let step (e : Int) : Int := if decimalLe 1 (e + 1) m.count m.scale then e + 1 else e
  step (step (step guess))

/-- Whether a decimal number rounds to this magnitude and to no other. The ends of the interval
belong to it if the count is even. -/
def admits (m : Magnitude) (d : Decimal) : Bool :=
  let low := if m.narrowBelow then 4 * m.count - 1 else 4 * m.count - 2
  let high := 4 * m.count + 2
  let k := m.scale - 2
  if m.count % 2 = 0 then
    binaryLe low k d.digits d.exponent && decimalLe d.digits d.exponent high k
  else
    !decimalLe d.digits d.exponent low k && !binaryLe high k d.digits d.exponent

/-- Of two neighbours on a decimal grid, the lower given, whichever is nearer; of two at equal
distance the even one. -/
def nearer (m : Magnitude) (lower : Decimal) : Decimal :=
  let upper : Decimal := ⟨lower.digits + 1, lower.exponent⟩
  let middle := 2 * lower.digits + 1
  let above := binaryLe (2 * m.count) m.scale middle lower.exponent
  let below := decimalLe middle lower.exponent (2 * m.count) m.scale
  if above && below then (if lower.digits % 2 = 0 then lower else upper)
  else if above then lower else upper

/-- The decimal number of at most that many digits that rounds to the magnitude, if there is
one. -/
def withDigits? (m : Magnitude) (n : Nat) : Option Decimal :=
  let e := m.leading - n + 1
  let lower : Decimal := ⟨m.quotient e, e⟩
  let upper : Decimal := ⟨lower.digits + 1, e⟩
  match m.admits lower, m.admits upper with
  | true, true => some (m.nearer lower)
  | true, false => some lower
  | false, true => some upper
  | false, false => none

/-- The decimal number with the fewest digits that rounds to the magnitude. Seventeen digits always
suffice. -/
def shortest (m : Magnitude) : Decimal :=
  if m.count = 0 then ⟨0, 0⟩
  else
    let found := (List.range' 1 17).findSome? m.withDigits?
    (found.getD ⟨m.quotient (m.leading - 16), m.leading - 16⟩).stripped 20

/-- The nearest whole number; a half goes away from zero. -/
def rounded (m : Magnitude) : Nat :=
  if m.scale ≥ 0 then m.count * Nat.pow 2 m.scale.toNat
  else (2 * m.count + Nat.pow 2 (-m.scale).toNat) / (2 * Nat.pow 2 (-m.scale).toNat)

end Magnitude

end Decimal

end PageLogic
