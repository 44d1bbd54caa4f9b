import FlowScope.Toml.Quoted
import FlowScope.Toml.Scalar
import FlowScope.Toml.Value
/-!
Reading a TOML text: first its statements one by one, then the tables that they add up to.
-/
namespace FlowScope.Toml

/-- How deep lists and tables in braces may nest, and how many parts a key may have, counting the first
number that is too much. -/
def depthLimit : Nat := 80

/-- The text without the blanks at its start. -/
def skipBlanks (cs : List Char) : List Char := cs.dropWhile isBlank

/-- The text without the blanks, ends of lines and comments at its start. -/
def skipLines (inComment : Bool) : List Char → List Char
  | [] => []
  | '\n' :: rest => skipLines false rest
  | '\r' :: '\n' :: rest => skipLines false rest
  | c :: rest =>
      if inComment && isPrintable c then skipLines true rest
      else if inComment then c :: rest
      else if isBlank c then skipLines false rest
      else if c = '#' then skipLines true rest
      else c :: rest

/-- The text after a line of which only blanks and a comment are left. -/
def endLine? (cs : List Char) : Option (List Char) :=
  let rest := match skipBlanks cs with
    | '#' :: comment => comment.dropWhile isPrintable
    | rest => rest
  if rest.isEmpty then some [] else afterBreak? rest

/-- A character of a key without quotes. -/
def isKeyChar (c : Char) : Bool := c.isAlphanum || c == '_' || c == '-'

/-- One part of a key, and what follows. -/
def keyPart? (cs : List Char) : Option (String × List Char) :=
  match quotedInLine? cs with
  | some found => some found
  | none =>
      match cs.takeWhile isKeyChar with
      | [] => none
      | name => some (String.ofList name, cs.dropWhile isKeyChar)

/-- The parts of a key between its dots, with blanks around them, and what follows. Every part takes up
a unit of the first argument. -/
def keyParts? : Nat → List Char → Option (List String × List Char)
  | 0, _ => none
  | fuel + 1, cs => do
      let (part, rest) ← keyPart? (skipBlanks cs)
      match skipBlanks rest with
      | '.' :: rest =>
          let (parts, rest) ← keyParts? fuel rest
          return (part :: parts, rest)
      | rest => return ([part], rest)

/-- A key, and what follows. -/
def key? (cs : List Char) : Option (List String × List Char) := keyParts? (depthLimit - 1) cs

mutual

/-- A value, and what follows. `depth` lists and tables may still be opened. -/
def value? : Nat → Nat → List Char → Option (Toml × List Char)
  | 0, _, _ => none
  | fuel + 1, depth, cs =>
      match cs with
      | '[' :: rest =>
          if depth = 0 then none
          else (items? fuel (depth - 1) (skipLines false rest)).map fun (found, rest) =>
            (.array found, rest)
      | '\x7b' :: rest =>
          if depth = 0 then none
          else
            match skipBlanks rest with
            | '\x7d' :: rest => some (.braces [], rest)
            | rest => (members? fuel (depth - 1) [] rest).map fun (found, rest) =>
                (.braces found, rest)
      | c :: _ =>
          if c = '"' || c = '\x27' then (quoted? cs).map fun (s, rest) => (.text s, rest)
          else (scalar? cs).map fun (s, rest) => (.plain s, rest)
      | [] => none

/-- The values of a list up to its end, and what follows. A comma after the last one is allowed. -/
def items? : Nat → Nat → List Char → Option (List Toml × List Char)
  | 0, _, _ => none
  | _ + 1, _, ']' :: rest => some ([], rest)
  | fuel + 1, depth, cs => do
      let (item, rest) ← value? fuel depth cs
      match skipLines false rest with
      | ']' :: rest => return ([item], rest)
      | ',' :: rest =>
          let (found, rest) ← items? fuel depth (skipLines false rest)
          return (item :: found, rest)
      | _ => none

/-- The entries of a table in braces up to its end, after those that are given, and what follows. -/
def members? : Nat → Nat → Entries → List Char → Option (Entries × List Char)
  | 0, _, _, _ => none
  | fuel + 1, depth, es, cs => do
      let (path, rest) ← key? cs
      match rest with
      | '=' :: rest =>
          let (value, rest) ← value? fuel depth (skipBlanks rest)
          let es ← es.insert path value
          match skipBlanks rest with
          | '\x7d' :: rest => return (es, rest)
          | ',' :: rest => members? fuel depth es rest
          | _ => none
      | _ => none

end

/-- A statement of a text. -/
inductive Statement where
  | table (path : List String)
  | tables (path : List String)
  | entry (path : List String) (value : Toml)
deriving Repr

/-- The statement at the start of a text, and what follows its line. -/
def statement? (cs : List Char) : Option (Statement × List Char) :=
  match cs with
  | '[' :: '[' :: rest => do
      match ← key? rest with
      | (path, ']' :: ']' :: rest) => return (.tables path, ← endLine? rest)
      | _ => none
  | '[' :: rest => do
      match ← key? rest with
      | (path, ']' :: rest) => return (.table path, ← endLine? rest)
      | _ => none
  | _ => do
      match ← key? cs with
      | (path, '=' :: rest) =>
          let (value, rest) ← value? (rest.length + 1) (depthLimit - 1) (skipBlanks rest)
          return (.entry path value, ← endLine? rest)
      | _ => none

/-- The statements of a text, each of which takes up a unit of the first argument. -/
def statements? : Nat → List Char → Option (List Statement)
  | 0, _ => none
  | fuel + 1, cs =>
      match skipLines false cs with
      | [] => some []
      | cs => do
          let (statement, rest) ← statement? cs
          return statement :: (← statements? fuel rest)

/-- The tables that statements add up to, given those so far and the path of the current one. -/
def build? : List String → Entries → List Statement → Option Entries
  | _, es, [] => some es
  | current, es, .entry path value :: rest => do
      let es ← es.change .path (fun _ inner => inner.insert path value) .header current
      build? current es rest
  | _, es, .table path :: rest => do
      build? path (← es.below path Entries.openTable) rest
  | _, es, .tables path :: rest => do
      build? path (← es.below path Entries.openNext) rest

/-- The entries of a text. A mark of the byte order at its start does not count. -/
def ofText? (s : String) : Option Entries := do
  let cs := match s.toList with
    | '\ufeff' :: rest => rest
    | cs => cs
  build? [] [] (← statements? (cs.length + 1) cs)

end FlowScope.Toml
