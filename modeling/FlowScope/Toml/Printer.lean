import FlowScope.Toml.Quoted
/-!
Writing settings: texts in the plainest quotes that hold them, and lists of texts.
-/
namespace FlowScope.Toml

/-- The ways to quote a text. -/
inductive Quotation where
  | double
  | single
  | tripleDouble
  | tripleSingle
deriving DecidableEq, Repr

namespace Quotation

/-- What opens and closes a quoted text. -/
def delimiter : Quotation → List Char
  | double => ['"']
  | single => ['\x27']
  | tripleDouble => ['"', '"', '"']
  | tripleSingle => ['\x27', '\x27', '\x27']

/-- Does the text go over several lines? -/
def isTriple : Quotation → Bool
  | tripleDouble | tripleSingle => true
  | _ => false

/-- Are there escapes within the quotes? -/
def hasEscapes : Quotation → Bool
  | double | tripleDouble => true
  | _ => false

/-- The length of the longest run of a character; `here` is the length of the run so far. -/
def longestRun (q : Char) : Nat → List Char → Nat
  | here, [] => here
  | here, c :: cs =>
      if c = q then longestRun q (here + 1) cs else max here (longestRun q 0 cs)

/-- A control character that needs an escape in every way of quoting. -/
def isControl (c : Char) : Bool := !isPrintable c && c != '\n'

/-- The plainest way to quote a text: within a line rather than over several, and without escapes;
double quotes rather than single ones. -/
def plainest (cs : List Char) : Quotation :=
  let control := cs.any isControl
  let backslash := cs.contains '\\'
  let lines := cs.contains '\n'
  let doubles := longestRun '"' 0 cs
  let singles := longestRun '\x27' 0 cs
  if !control && !backslash && doubles = 0 && !lines then double
  else if !control && singles = 0 && !lines then single
  else if !control && !backslash && doubles ≤ 2 then tripleDouble
  else if !control && singles ≤ 2 then tripleSingle
  else if lines then tripleDouble
  else double

/-- The escape for a character, if it needs one. -/
def escape? (q : Quotation) (c : Char) : Option (List Char) :=
  if c = '\x08' then some ['\\', 'b']
  else if c = '\t' then some ['\\', 't']
  else if c = '\n' then if q.isTriple then none else some ['\\', 'n']
  else if c = '\x0c' then some ['\\', 'f']
  else if c = '\r' then some ['\\', 'r']
  else if c = '\\' then some ['\\', '\\']
  else if isPrintable c then none
  else some ['\\', 'u', '0', '0', Text.upperHex (c.toNat / 16), Text.upperHex (c.toNat % 16)]

/-- The characters of a text with escapes where they are needed. `run` is the number of double quotes
just written without one; more than two would close a text over several lines. -/
def escaped (q : Quotation) : Nat → List Char → List Char
  | _, [] => []
  | run, c :: cs =>
      if c = '"' then
        if (if q.isTriple then 2 else 0) ≤ run then '\\' :: '"' :: escaped q 0 cs
        else '"' :: escaped q (run + 1) cs
      else
        match q.escape? c with
        | some e => e ++ escaped q 0 cs
        | none => c :: escaped q 0 cs

/-- A text in quotes. One over several lines begins on a line of its own. -/
def write (q : Quotation) (cs : List Char) : List Char :=
  let start := if q.isTriple && cs.contains '\n' then ['\n'] else []
  q.delimiter ++ start ++ (if q.hasEscapes then q.escaped 0 cs else cs) ++ q.delimiter

end Quotation

/-- A text in the plainest quotes. -/
def writeText (s : String) : String :=
  String.ofList ((Quotation.plainest s.toList).write s.toList)

/-- A list of texts. One with more than one element has a line for every element. -/
def writeList : List String → String
  | [] => "[]"
  | [s] => "[" ++ writeText s ++ "]"
  | items => "[\n" ++ String.join (items.map fun s => "    " ++ writeText s ++ ",\n") ++ "]"

/-- A setting on a line of its own. -/
def writeEntry (key value : String) : String := key ++ " = " ++ value ++ "\n"

/-- The settings of a table, without its header. -/
def writeEntries (es : List (String × String)) : String :=
  String.join (es.map fun (key, value) => writeEntry key value)

end FlowScope.Toml
