import FlowScope.Text.Hex
/-!
Numbers, truth values, dates and times, as they are spelled. Whole numbers have 64 bits, and a number
must not be above the largest double.
-/
namespace FlowScope.Toml

/-- A character of a number, a word, a date or a time. -/
def isScalarChar (c : Char) : Bool :=
  c.isAlphanum || c == '_' || c == '+' || c == '-' || c == '.' || c == ':'

/-- The digits of a number, if there is at least one, every one is of the right kind, and every low
line stands between two digits. -/
def grouped? (isDigit : Char → Bool) (cs : List Char) : Option (List Char) :=
  let groups := cs.splitOn '_'
  if groups.all fun group => !group.isEmpty && group.all isDigit then some groups.flatten else none

/-- Take off a sign: whether it is a minus, and the rest. -/
def signed : List Char → Bool × List Char
  | '+' :: rest => (false, rest)
  | '-' :: rest => (true, rest)
  | rest => (false, rest)

/-- The number that decimal digits stand for. -/
def ofDecimal (cs : List Char) : Nat := cs.foldl (fun n c => n * 10 + (c.toNat - '0'.toNat)) 0

/-- The digits of a whole number. A zero at the start stands alone. -/
def whole? (cs : List Char) : Option (List Char) :=
  match grouped? Char.isDigit cs with
  | some ('0' :: _ :: _) => none
  | digits => digits

/-- A number in another base than ten, which has no sign. -/
def isBased (base : Nat) (cs : List Char) : Bool :=
  let isDigit := fun c => match Text.hexDigit? c with
    | some d => decide (d < base)
    | none => false
  match grouped? isDigit cs with
  | none => false
  | some digits =>
      (digits.foldl (fun n c => n * base + (Text.hexDigit? c).getD 0) 0) < Nat.pow 2 63

/-- A whole number of 64 bits. -/
def isInteger : List Char → Bool
  | '0' :: 'x' :: rest => isBased 16 rest
  | '0' :: 'o' :: rest => isBased 8 rest
  | '0' :: 'b' :: rest => isBased 2 rest
  | cs =>
      let (negative, rest) := signed cs
      match whole? rest with
      | none => false
      | some digits => ofDecimal digits < Nat.pow 2 63 + (if negative then 1 else 0)

/-- Is a decimal number, given by its digits and a power of ten, so large that it rounds to no finite
double? -/
def overflows (digits : List Char) (ten : Int) : Bool :=
  let n := ofDecimal digits
  let limit := Nat.pow 2 1024 - Nat.pow 2 970
  if n = 0 || digits.length + ten ≤ 308 then false
  else if 309 < (Nat.toDigits 10 n).length + ten then true
  else if 0 ≤ ten then limit ≤ n * Nat.pow 10 ten.toNat
  else limit * Nat.pow 10 (-ten).toNat ≤ n

/-- The power of ten after the letter in a number; nothing is none. -/
def exponent? : List Char → Option Int
  | [] => some 0
  | e :: rest =>
      if e = 'e' || e = 'E' then
        let (negative, rest) := signed rest
        (grouped? Char.isDigit rest).map fun digits =>
          if negative then -(ofDecimal digits : Int) else ofDecimal digits
      else none

/-- A number with a point or a power of ten. -/
def isReal (cs : List Char) : Bool :=
  let (negative, rest) := signed cs
  let isMantissa := fun c => c != 'e' && c != 'E'
  let mantissa := rest.takeWhile isMantissa
  let power := rest.dropWhile isMantissa
  let isFront := fun c => c != '.'
  let digits? := match whole? (mantissa.takeWhile isFront), mantissa.dropWhile isFront with
    | none, _ => none
    | some digits, [] => if power.isEmpty then none else some (digits, 0)
    | some digits, _ :: fraction =>
        (grouped? Char.isDigit fraction).map fun more => (digits ++ more, more.length)
  match digits?, exponent? power with
  | some (digits, places), some ten => negative || !overflows digits (ten - (places : Nat))
  | _, _ => false

/-- Infinity, or no number at all. -/
def isSpecial (cs : List Char) : Bool :=
  let rest := (signed cs).2
  rest == ['i', 'n', 'f'] || rest == ['n', 'a', 'n']

/-- The number of two digits. -/
def pair? (a b : Char) : Option Nat :=
  if a.isDigit && b.isDigit then some (ofDecimal [a, b]) else none

/-- Two digits within bounds. -/
def isPair (low high : Nat) (a b : Char) : Bool :=
  match pair? a b with
  | some n => decide (low ≤ n) && decide (n ≤ high)
  | none => false

def daysIn (year month : Nat) : Nat :=
  if month = 2 then if year % 4 = 0 && (year % 100 != 0 || year % 400 = 0) then 29 else 28
  else if [4, 6, 9, 11].contains month then 30
  else 31

def afterDate? : List Char → Option (List Char)
  | y1 :: y2 :: y3 :: y4 :: '-' :: m1 :: m2 :: '-' :: d1 :: d2 :: rest =>
      if [y1, y2, y3, y4].all Char.isDigit && isPair 1 12 m1 m2 &&
          isPair 1 (daysIn (ofDecimal [y1, y2, y3, y4]) (ofDecimal [m1, m2])) d1 d2 then
        some rest
      else none
  | _ => none

/-- The text after a time of the day. A minute may have a second with the number 60. -/
def afterTime? : List Char → Option (List Char)
  | h1 :: h2 :: ':' :: m1 :: m2 :: ':' :: s1 :: s2 :: rest =>
      if isPair 0 23 h1 h2 && isPair 0 59 m1 m2 && isPair 0 60 s1 s2 then
        match rest with
        | '.' :: d :: more => if d.isDigit then some (more.dropWhile Char.isDigit) else none
        | _ => some rest
      else none
  | _ => none

/-- The distance from universal time, or nothing. -/
def isOffset : List Char → Bool
  | [] | ['Z'] | ['z'] => true
  | [sign, h1, h2, ':', m1, m2] =>
      (sign == '+' || sign == '-') && isPair 0 23 h1 h2 && isPair 0 59 m1 m2
  | _ => false

/-- A time of the day, with its distance from universal time or without. -/
def isTimeWithOffset (cs : List Char) : Bool := ((afterTime? cs).map isOffset).getD false

/-- A date, a time, or both. -/
def isMoment (cs : List Char) : Bool :=
  match afterDate? cs with
  | some [] => true
  | some (t :: rest) => (t == 'T' || t == 't' || t == ' ') && isTimeWithOffset rest
  | none => afterTime? cs == some []

/-- Is this the spelling of a number, a truth value, a date or a time? -/
def isScalar (cs : List Char) : Bool :=
  cs == ['t', 'r', 'u', 'e'] || cs == ['f', 'a', 'l', 's', 'e'] || isSpecial cs || isInteger cs ||
    isReal cs || isMoment cs

/-- The longest spelling at the start of a text. A date may be followed by a blank and a time. -/
def spelling (cs : List Char) : List Char :=
  let word := cs.takeWhile isScalarChar
  match afterDate? word, cs.dropWhile isScalarChar with
  | some [], ' ' :: rest =>
      let time := rest.takeWhile isScalarChar
      if isTimeWithOffset time then word ++ ' ' :: time else word
  | _, _ => word

/-- The scalar at the start of a text, and what follows. -/
def scalar? (cs : List Char) : Option (String × List Char) :=
  let found := spelling cs
  if isScalar found then some (String.ofList found, cs.drop found.length) else none

end FlowScope.Toml
