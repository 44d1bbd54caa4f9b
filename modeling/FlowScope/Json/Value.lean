/-!
JSON values, as far as a text yields them. Reading a text never fails outright: where the text
stops being JSON, the value read so far holds the fault at that place. A consumer that walks a
value in the order of the text therefore meets the first problem first, whether the text is broken
there or the value is not of the kind it wants.
-/
namespace FlowScope

/-- The way in which a text stops being JSON. A text may end where a value should begin
(`endInValue`) or within a word or a number (`endInWord`). -/
inductive Json.Fault where
  | endInValue | endInWord | endInList | endInObject | endInString
  | expectedColon | expectedListEnd | expectedObjectEnd | expectedIdent | expectedValue
  | invalidEscape | invalidNumber | numberOutOfRange | controlCharacter | keyNotString
  | loneSurrogate | trailingComma | trailingText | unpairedEscape | tooDeep
deriving DecidableEq, Repr

namespace Json.Fault

/-- Does the text merely end too early? -/
def isEnd : Fault → Bool
  | endInValue | endInWord | endInList | endInObject | endInString => true
  | _ => false

def message : Fault → String
  | endInValue | endInWord => "EOF while parsing a value"
  | endInList => "EOF while parsing a list"
  | endInObject => "EOF while parsing an object"
  | endInString => "EOF while parsing a string"
  | expectedColon => "expected `:`"
  | expectedListEnd => "expected `,` or `]`"
  | expectedObjectEnd => "expected `,` or `\x7d`"
  | expectedIdent => "expected ident"
  | expectedValue => "expected value"
  | invalidEscape => "invalid escape"
  | invalidNumber => "invalid number"
  | numberOutOfRange => "number out of range"
  | controlCharacter => "control character (\\u0000-\\u001F) found while parsing a string"
  | keyNotString => "key must be a string"
  | loneSurrogate => "lone leading surrogate in hex escape"
  | trailingComma => "trailing comma"
  | trailingText => "trailing characters"
  | unpairedEscape => "unexpected end of hex escape"
  | tooDeep => "recursion limit exceeded"

end Json.Fault

/-- A number as it is written: digits before the point, digits after it, power of ten. -/
structure Json.Number where
  negative : Bool := false
  whole : Nat
  fraction : Option (List Nat) := none
  exponent : Option Int := none
deriving DecidableEq, Repr

/-- A text in quotes, or what is wrong with it: the fault that one who reads it runs into, and the
fault, if any, that stops one who skips it. The two differ where an escape stands for half a
character only, which is no matter to one who skips. -/
inductive Json.Quoted where
  | text (s : String)
  | faulty (read : Json.Fault) (skipped : Option Json.Fault)
deriving DecidableEq, Repr

/-- What a text yields. Arrays and objects carry the fault after their last element, if there
is one; `broken` stands where no value can be read, with the fault for one who reads and the fault
for one who skips. -/
inductive Json where
  | null
  | bool (value : Bool)
  | num (literal : Json.Number)
  | str (quoted : Json.Quoted)
  | arr (items : List Json) (stop : Option Json.Fault)
  | obj (members : List (Json.Quoted × Json)) (stop : Option Json.Fault)
  | broken (read skipped : Json.Fault)
deriving Repr, Inhabited

namespace Json

def text (s : String) : Json := .str (.text s)

/-- A natural number. -/
def nat (n : Nat) : Json := .num ⟨false, n, none, none⟩

def array (items : List Json) : Json := .arr items none

def object (members : List (String × Json)) : Json :=
  .obj (members.map fun (key, value) => (.text key, value)) none

/-- A value or nothing. -/
def orNull {α : Type} (write : α → Json) : Option α → Json
  | none => .null
  | some a => write a

/-- A list, value by value. -/
def list {α : Type} (write : α → Json) (as : List α) : Json :=
  array (as.map write)

mutual

/-- The first fault met by one who skips a value: half characters, large numbers and deep nesting
pass. -/
def skipFault? : Json → Option Fault
  | .str (.faulty _ skipped) => skipped
  | .arr items stop => (skipItems? items).or stop
  | .obj members stop => (skipMembers? members).or stop
  | .broken _ skipped => some skipped
  | _ => none

def skipItems? : List Json → Option Fault
  | [] => none
  | item :: rest => (skipFault? item).or (skipItems? rest)

def skipMembers? : List (Quoted × Json) → Option Fault
  | [] => none
  | (.text _, value) :: rest => (skipFault? value).or (skipMembers? rest)
  | (.faulty _ skipped, value) :: rest =>
      skipped.or ((skipFault? value).or (skipMembers? rest))

end

mutual

/-- How many arrays and objects are open at the deepest place of a value. -/
def depth : Json → Nat
  | .arr items _ => depthItems items + 1
  | .obj members _ => depthMembers members + 1
  | _ => 0

def depthItems : List Json → Nat
  | [] => 0
  | item :: rest => max (depth item) (depthItems rest)

def depthMembers : List (Quoted × Json) → Nat
  | [] => 0
  | (_, value) :: rest => max (depth value) (depthMembers rest)

end

end Json

end FlowScope
