/-!
The shortest decimal that reads back as a given double. A positive double is a number of units
`m · 2 ^ q`; the decimals nearer to it than to either neighbour form an interval, whose ends belong
to it when `m` is even. The shortest decimal is sought on the grids of 1, 2, … 17 digits.
-/
namespace FlowScope.Decimal

/-- A positive double in units of a quarter of its last place: the value, the two ends of the
interval that rounds to it, and whether the ends belong to it. -/
structure Rounding where
  low : Nat
  value : Nat
  high : Nat
  closed : Bool
  scale : Int
deriving Repr

/-- The interval of the double with the given fields of its binary form. -/
def Rounding.ofFields (exponent mantissa : Nat) : Rounding :=
  let m := if exponent = 0 then mantissa else mantissa + Nat.pow 2 52
  let q : Int := (max exponent 1 : Nat) - 1075
  let narrow := mantissa == 0 && decide (1 < exponent)
  { low := 4 * m - (if narrow then 1 else 2)
    value := 4 * m
    high := 4 * m + 2
    closed := m % 2 == 0
    scale := q - 2 }

/-- The double `n · 2 ^ scale` over a power of ten, as a fraction. -/
def overPower (n : Nat) (scale ten : Int) : Nat × Nat :=
  (n * Nat.pow 2 scale.toNat * Nat.pow 10 (-ten).toNat,
    Nat.pow 2 (-scale).toNat * Nat.pow 10 ten.toNat)

/-- Does `d · 10 ^ ten` round to the double? -/
def Rounding.holds (r : Rounding) (d : Nat) (ten : Int) : Bool :=
  let (lo, loDen) := overPower r.low r.scale ten
  let (hi, hiDen) := overPower r.high r.scale ten
  if r.closed then lo ≤ d * loDen && d * hiDen ≤ hi
  else lo < d * loDen && d * hiDen < hi

/-- The grid point next to the double on the grid of multiples of `10 ^ ten`, if one of the two
neighbours rounds to the double. -/
def Rounding.onGrid (r : Rounding) (ten : Int) : Option Nat :=
  let (v, den) := overPower r.value r.scale ten
  let below := v / den
  let above := below + 1
  let nearBelow := 2 * (v % den) < den || (2 * (v % den) == den && below % 2 == 0)
  match r.holds below ten && below != 0, r.holds above ten with
  | true, true => some (if nearBelow then below else above)
  | true, false => some below
  | false, true => some above
  | false, false => none

/-- The largest power of ten that is not above the double, searched downwards. -/
def Rounding.leadingPower (r : Rounding) : Nat → Int → Int
  | 0, ten => ten
  | fuel + 1, ten =>
      let (v, den) := overPower r.value r.scale ten
      if den ≤ v then ten else r.leadingPower fuel (ten - 1)

/-- Try the grids from the coarsest to the finest. -/
def Rounding.search (r : Rounding) (lead : Int) : List Nat → Nat × Int
  | [] => (0, 0)
  | n :: rest =>
      match r.onGrid (lead - n) with
      | some d => (d, lead - n)
      | none => r.search lead rest

/-- Move zeros at the end of the digits into the power of ten. -/
def stripZeros : Nat → Nat × Int → Nat × Int
  | 0, d => d
  | fuel + 1, (d, ten) =>
      if d ≠ 0 && d % 10 == 0 then stripZeros fuel (d / 10, ten + 1) else (d, ten)

/-- Digits and power of ten of the shortest decimal for the double with these fields. -/
def shortest (exponent mantissa : Nat) : Nat × Int :=
  let r := Rounding.ofFields exponent mantissa
  stripZeros 20 (r.search (r.leadingPower 700 309) (List.range 17))

end FlowScope.Decimal
