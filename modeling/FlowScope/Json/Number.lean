import FlowScope.Json.Value
import FlowScope.Decimal.Shortest
/-!
What a number literal denotes: a whole number of 64 bits where it fits, and a double otherwise.
-/
namespace FlowScope.Json.Number

/-- The whole number a literal denotes: no point, no exponent, at least `-2 ^ 63`, below `2 ^ 64`
and not minus zero. -/
def integer? (n : Number) : Option Int :=
  match n.fraction, n.exponent with
  | none, none =>
      if n.negative then
        if n.whole = 0 || Nat.pow 2 63 < n.whole then none else some (-(n.whole : Int))
      else if n.whole < Nat.pow 2 64 then some n.whole
      else none
  | _, _ => none

/-- Does one more digit still fit into 64 bits? -/
def fits (significand digit : Nat) : Bool :=
  decide (significand * 10 + digit < Nat.pow 2 64)

/-- Take up digits before the point while they fit; the others count as a power of ten. -/
def takeWhole : List Nat → Nat → Nat × Int
  | [], s => (s, 0)
  | d :: ds, s => if fits s d then takeWhole ds (s * 10 + d) else (s, (ds.length + 1 : Nat))

/-- Take up digits after the point while they fit; the others are dropped. -/
def takeFraction : List Nat → Nat × Int → Nat × Int
  | [], r => r
  | d :: ds, (s, e) => if fits s d then takeFraction ds (s * 10 + d, e - 1) else (s, e)

/-- The digits of a natural number, most significant first. -/
def digits (n : Nat) : List Nat :=
  (Nat.toDigits 10 n).map fun c => c.toNat - '0'.toNat

/-- Scale by a power of ten, at most `10 ^ 308` at a time; nothing when the result is too large. -/
def scaled : Nat → Float → Int → Option Float
  | 0, f, _ => some f
  | fuel + 1, f, e =>
      if e.natAbs ≤ 308 then
        let power := Float.ofScientific 1 false e.natAbs
        if 0 ≤ e then
          let g := f * power
          if g.isInf then none else some g
        else some (f / power)
      else if f == 0.0 then some f
      else if 0 ≤ e then none
      else scaled fuel (f / Float.ofScientific 1 false 308) (e + 308)

/-- The double a literal denotes, if it is in range. -/
def real? (n : Number) : Option Float :=
  let (s, e) := takeFraction (n.fraction.getD []) (takeWhole (digits n.whole) 0)
  (scaled 8 (UInt64.ofNat s).toFloat (e + n.exponent.getD 0)).map fun f =>
    if n.negative then -f else f

/-- Neither a whole number of 64 bits nor a double in range. -/
def outOfRange (n : Number) : Bool :=
  n.integer?.isNone && n.real?.isNone

/-- Digits with a point after the first `n` of them. -/
def pointAfter (n : Nat) (digits : String) : String :=
  String.ofList (digits.toList.take n) ++ "." ++ String.ofList (digits.toList.drop n)

def zeros (n : Nat) : String := String.ofList (List.replicate n '0')

/-- Decimal digits and a power of ten: positional from `10 ^ -5` to below `10 ^ 16`, with at least
one digit on both sides of the point, and with an exponent elsewhere. -/
def showDecimal (d : Nat) (ten : Int) : String :=
  let ds := toString d
  let point : Int := ds.length + ten
  if 0 ≤ ten && point ≤ 16 then ds ++ zeros ten.toNat ++ ".0"
  else if 0 < point && point ≤ 16 then pointAfter point.toNat ds
  else if -5 < point && point ≤ 0 then "0." ++ zeros (-point).toNat ++ ds
  else
    let mantissa := if ds.length = 1 then ds else pointAfter 1 ds
    mantissa ++ "e" ++ toString (point - 1)

/-- The shortest text of a finite double. -/
def showReal (f : Float) : String :=
  let bits := f.toBits.toNat
  let exponent := bits / Nat.pow 2 52 % Nat.pow 2 11
  let mantissa := bits % Nat.pow 2 52
  let sign := if bits / Nat.pow 2 63 = 1 then "-" else ""
  if exponent = 0 && mantissa = 0 then sign ++ "0.0"
  else
    let (d, ten) := Decimal.shortest exponent mantissa
    sign ++ showDecimal d ten

/-- The kind and the value of a number, for a message. -/
def describe (n : Number) : String :=
  match n.integer? with
  | some i => "integer `" ++ toString i ++ "`"
  | none => "floating point `" ++ showReal (n.real?.getD 0.0) ++ "`"

end FlowScope.Json.Number
