import FlowScope.Json.Value
/-!
Writing JSON values: on one line, or over several lines with two blanks for every level.
-/
namespace FlowScope.Json

/-- A hexadecimal digit in lower case. -/
def hexChar (n : Nat) : Char :=
  if n < 10 then Char.ofNat ('0'.toNat + n) else Char.ofNat ('a'.toNat + (n - 10))

/-- One character inside quotes. Only the quote, the backslash and control characters are escaped. -/
def escapeChar (c : Char) : List Char :=
  if c = '"' then ['\\', '"']
  else if c = '\\' then ['\\', '\\']
  else if c = '\n' then ['\\', 'n']
  else if c = '\r' then ['\\', 'r']
  else if c = '\t' then ['\\', 't']
  else if c = '\x08' then ['\\', 'b']
  else if c = '\x0c' then ['\\', 'f']
  else if c.toNat < 0x20 then ['\\', 'u', '0', '0', hexChar (c.toNat / 16), hexChar (c.toNat % 16)]
  else [c]

def writeText (s : String) : String :=
  String.ofList ('"' :: s.toList.flatMap escapeChar ++ ['"'])

/-- A key or a text; one that could not be read has no written form. -/
def writeQuoted : Quoted → String
  | .text s => writeText s
  | .faulty _ _ => "\"\""

/-- A number as it was written. -/
def writeNumber (n : Number) : String :=
  (if n.negative then "-" else "") ++ toString n.whole ++
    (match n.fraction with
      | none => ""
      | some ds => "." ++ String.join (ds.map toString)) ++
    (match n.exponent with
      | none => ""
      | some e => "e" ++ toString e)

mutual

/-- A value on one line. -/
def compact : Json → String
  | .null => "null"
  | .bool true => "true"
  | .bool false => "false"
  | .num n => writeNumber n
  | .str q => writeQuoted q
  | .arr items _ => "[" ++ String.intercalate "," (compactItems items) ++ "]"
  | .obj members _ => "\x7b" ++ String.intercalate "," (compactMembers members) ++ "\x7d"
  | .broken _ _ => "null"

def compactItems : List Json → List String
  | [] => []
  | item :: rest => compact item :: compactItems rest

def compactMembers : List (Quoted × Json) → List String
  | [] => []
  | (key, value) :: rest => (writeQuoted key ++ ":" ++ compact value) :: compactMembers rest

end

/-- The start of a line at a level. -/
def indent (level : Nat) : String :=
  "\n" ++ String.ofList (List.replicate (2 * level) ' ')

mutual

/-- A value over several lines, one for each element; an empty array or object stays on one. -/
def prettyAt (level : Nat) : Json → String
  | .arr [] _ => "[]"
  | .obj [] _ => "\x7b\x7d"
  | .arr items _ =>
      "[" ++ String.intercalate "," (prettyItems (level + 1) items) ++ indent level ++ "]"
  | .obj members _ =>
      "\x7b" ++ String.intercalate "," (prettyMembers (level + 1) members) ++ indent level ++ "\x7d"
  | .null => "null"
  | .bool true => "true"
  | .bool false => "false"
  | .num n => writeNumber n
  | .str q => writeQuoted q
  | .broken _ _ => "null"

def prettyItems (level : Nat) : List Json → List String
  | [] => []
  | item :: rest => (indent level ++ prettyAt level item) :: prettyItems level rest

def prettyMembers (level : Nat) : List (Quoted × Json) → List String
  | [] => []
  | (key, value) :: rest =>
      (indent level ++ writeQuoted key ++ ": " ++ prettyAt level value) :: prettyMembers level rest

end

/-- A value over several lines. -/
def pretty (j : Json) : String := prettyAt 0 j

/-- The key of a member, for sorting. -/
def keyText : Quoted → String
  | .text s => s
  | .faulty _ _ => ""

mutual

/-- The value with the members of every object in the order of their keys. -/
def sorted : Json → Json
  | .arr items stop => .arr (sortedItems items) stop
  | .obj members stop =>
      .obj ((sortedMembers members).mergeSort fun a b => !decide (keyText b.1 < keyText a.1)) stop
  | j => j

def sortedItems : List Json → List Json
  | [] => []
  | item :: rest => sorted item :: sortedItems rest

def sortedMembers : List (Quoted × Json) → List (Quoted × Json)
  | [] => []
  | (key, value) :: rest => (key, sorted value) :: sortedMembers rest

end

end FlowScope.Json
