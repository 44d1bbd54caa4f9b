import FlowScope.Json.Value
import FlowScope.Text.Hex
/-!
Reading a JSON text. Every text yields a document: its root value, which holds the fault at the
place where the text stops being JSON, and what is wrong with the text after the root.
-/
namespace FlowScope.Json

/-- What has been read, and the text after it; after a fault there is none. -/
abbrev Reading (α : Type) := α × Option (List Char)

/-- The four blanks that JSON allows between its parts. -/
def isSpace (c : Char) : Bool :=
  c == ' ' || c == '\n' || c == '\t' || c == '\r'

/-- The text from the first character that is no blank. -/
def skipSpace (cs : List Char) : List Char :=
  cs.dropWhile isSpace

/-- A place where no value can be read. -/
def fault (f : Fault) : Reading Json :=
  (.broken f f, none)

/-- The value of four hexadecimal digits. -/
def hex4? (a b c d : Char) : Option Nat := Text.ofHex? [a, b, c, d]

/-- The first half of a character outside the basic plane. -/
def isLeadingHalf (n : Nat) : Bool := decide (0xD800 ≤ n) && decide (n ≤ 0xDBFF)

/-- The second half of such a character. -/
def isTrailingHalf (n : Nat) : Bool := decide (0xDC00 ≤ n) && decide (n ≤ 0xDFFF)

/-- The character of two halves. -/
def joinHalves (lead trail : Nat) : Char :=
  Char.ofNat (0x10000 + (lead - 0xD800) * 0x400 + (trail - 0xDC00))

/-- The character that a backslash makes of the one after it. -/
def escaped? : Char → Option Char
  | '"' => some '"'
  | '\\' => some '\\'
  | '/' => some '/'
  | 'b' => some '\x08'
  | 'f' => some '\x0c'
  | 'n' => some '\n'
  | 'r' => some '\r'
  | 't' => some '\t'
  | _ => none

/-- The fault of an escape with fewer than four characters left: it is an early end unless four
bytes are left all the same. -/
def shortEscape (rest : List Char) : Fault :=
  if (String.ofList rest).utf8ByteSize < 4 then .endInString else .invalidEscape

/-- A text that cannot be read to its end, where `half` is the fault met before, if any. -/
def quotedFault (half : Option Fault) (f : Fault) : Reading Quoted :=
  (.faulty (half.getD f) (some f), none)

/-- The fault of a first half that no second half follows. -/
def unpaired (half : Option Fault) (lead : Option Nat) : Option Fault :=
  half.or (lead.map fun _ => .unpairedEscape)

/-- The text up to the closing quote. `half` is the first fault that only a reader minds, `lead` the
first half just read, `acc` the characters so far, last one first. -/
def quoted (half : Option Fault) (lead : Option Nat) (acc : List Char) :
    List Char → Reading Quoted
  | [] => quotedFault half .endInString
  | '"' :: rest =>
      match unpaired half lead with
      | none => (.text (String.ofList acc.reverse), some rest)
      | some f => (.faulty f none, some rest)
  | '\\' :: 'u' :: a :: b :: c :: d :: rest =>
      match hex4? a b c d, half, lead with
      | none, _, _ => quotedFault half .invalidEscape
      | some _, some f, _ => quoted (some f) none acc rest
      | some n, none, some l =>
          if isTrailingHalf n then quoted none none (joinHalves l n :: acc) rest
          else quoted (some .loneSurrogate) none acc rest
      | some n, none, none =>
          if isTrailingHalf n then quoted (some .loneSurrogate) none acc rest
          else if isLeadingHalf n then quoted none (some n) acc rest
          else quoted none none (Char.ofNat n :: acc) rest
  | '\\' :: 'u' :: short => quotedFault half (shortEscape short)
  | ['\\'] => quotedFault half .endInString
  | '\\' :: c :: rest =>
      match escaped? c with
      | none => quotedFault (unpaired half lead) .invalidEscape
      | some e => quoted (unpaired half lead) none (e :: acc) rest
  | c :: rest =>
      if c.toNat < 0x20 then quotedFault (unpaired half lead) .controlCharacter
      else quoted (unpaired half lead) none (c :: acc) rest

/-- The digits at the start of a text, and the text after them. -/
def takeDigits (cs : List Char) : List Nat × List Char :=
  ((cs.takeWhile Char.isDigit).map fun c => c.toNat - '0'.toNat, cs.dropWhile Char.isDigit)

/-- The natural number with these digits. -/
def ofDigits (ds : List Nat) : Nat :=
  ds.foldl (fun n d => n * 10 + d) 0

/-- A place where digits are missing: for one who reads, a text that ends there ends too early. -/
def missingDigits (rest : List Char) : Reading Json :=
  (.broken (if rest.isEmpty then .endInWord else .invalidNumber) .invalidNumber, none)

/-- A number after its sign, its digits and its fraction. -/
def exponentPart (n : Number) : List Char → Reading Json
  | 'e' :: rest | 'E' :: rest =>
      let (minus, rest) :=
        match rest with
        | '-' :: rest => (true, rest)
        | '+' :: rest => (false, rest)
        | rest => (false, rest)
      match takeDigits rest with
      | ([], rest) => missingDigits rest
      | (ds, rest) =>
          let e : Int := ofDigits ds
          (.num { n with exponent := some (if minus then -e else e) }, some rest)
  | rest => (.num n, some rest)

/-- A number after its sign and its digits. -/
def fractionPart (n : Number) : List Char → Reading Json
  | '.' :: rest =>
      match takeDigits rest with
      | ([], rest) => missingDigits rest
      | (ds, rest) => exponentPart { n with fraction := some ds } rest
  | rest => exponentPart n rest

/-- A number after its sign. A zero at the start stands alone. -/
def number (negative : Bool) (cs : List Char) : Reading Json :=
  match takeDigits cs with
  | ([], rest) => missingDigits rest
  | (0 :: _ :: _, _) => fault .invalidNumber
  | (ds, rest) => fractionPart { negative, whole := ofDigits ds } rest

/-- The rest of one of the three words. -/
def word (value : Json) : List Char → List Char → Reading Json
  | [], rest => (value, some rest)
  | _ :: _, [] => fault .endInWord
  | w :: ws, c :: cs => if w = c then word value ws cs else fault .expectedIdent

mutual

/-- One value, blanks before it skipped. -/
def value : Nat → List Char → Reading Json
  | 0, _ => fault .endInValue
  | fuel + 1, cs =>
      match skipSpace cs with
      | [] => fault .endInValue
      | 'n' :: rest => word .null ['u', 'l', 'l'] rest
      | 't' :: rest => word (.bool true) ['r', 'u', 'e'] rest
      | 'f' :: rest => word (.bool false) ['a', 'l', 's', 'e'] rest
      | '-' :: rest => number true rest
      | '"' :: rest =>
          let (q, rest) := quoted none none [] rest
          (.str q, rest)
      | '[' :: rest =>
          match skipSpace rest with
          | [] => (.arr [] (some .endInList), none)
          | ']' :: rest => (.arr [] none, some rest)
          | rest =>
              let ((found, stop), rest) := items fuel rest
              (.arr found stop, rest)
      | '\x7b' :: rest =>
          match skipSpace rest with
          | [] => (.obj [] (some .endInObject), none)
          | '\x7d' :: rest => (.obj [] none, some rest)
          | rest =>
              let ((found, stop), rest) := members fuel rest
              (.obj found stop, rest)
      | c :: rest => if c.isDigit then number false (c :: rest) else fault .expectedValue

/-- The values of an array from one value on. -/
def items : Nat → List Char → Reading (List Json × Option Fault)
  | 0, _ => (([], some .endInList), none)
  | fuel + 1, cs =>
      match value fuel cs with
      | (item, none) => (([item], none), none)
      | (item, some rest) =>
          match skipSpace rest with
          | [] => (([item], some .endInList), none)
          | ']' :: rest => (([item], none), some rest)
          | ',' :: rest =>
              match skipSpace rest with
              | ']' :: _ => (([item], some .trailingComma), none)
              | rest =>
                  let ((found, stop), rest) := items fuel rest
                  ((item :: found, stop), rest)
          | _ => (([item], some .expectedListEnd), none)

/-- The members of an object from one key on. -/
def members : Nat → List Char → Reading (List (Quoted × Json) × Option Fault)
  | 0, _ => (([], some .endInObject), none)
  | fuel + 1, '"' :: cs =>
      match quoted none none [] cs with
      | (key, none) => (([(key, .broken .endInObject .endInObject)], none), none)
      | (key, some rest) =>
          match skipSpace rest with
          | [] => (([(key, .broken .endInObject .endInObject)], none), none)
          | ':' :: rest =>
              match value fuel rest with
              | (item, none) => (([(key, item)], none), none)
              | (item, some rest) =>
                  match skipSpace rest with
                  | [] => (([(key, item)], some .endInObject), none)
                  | '\x7d' :: rest => (([(key, item)], none), some rest)
                  | ',' :: rest =>
                      match skipSpace rest with
                      | [] => (([(key, item)], some .endInValue), none)
                      | '\x7d' :: _ => (([(key, item)], some .trailingComma), none)
                      | rest =>
                          let ((found, stop), rest) := members fuel rest
                          (((key, item) :: found, stop), rest)
                  | _ => (([(key, item)], some .expectedObjectEnd), none)
          | _ => (([(key, .broken .expectedColon .expectedColon)], none), none)
  | _ + 1, _ => (([], some .keyNotString), none)

end

/-- A whole text: its root value, and the fault of a text that goes on after it. -/
structure Document where
  root : Json
  trailing : Option Fault
deriving Repr, Inhabited

/-- A value as a document with nothing after it. -/
def Document.ofJson (j : Json) : Document := ⟨j, none⟩

def Document.ofText (s : String) : Document :=
  let cs := s.toList
  match value (2 * cs.length + 2) cs with
  | (root, none) => ⟨root, none⟩
  | (root, some rest) =>
      ⟨root, if (skipSpace rest).isEmpty then none else some .trailingText⟩

end FlowScope.Json
