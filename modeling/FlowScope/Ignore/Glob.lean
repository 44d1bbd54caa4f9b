/-!
Globs over the bytes of paths. Apart from the signs for whole folders, nothing but a set of bytes
in brackets matches a slash.
-/
namespace FlowScope

/-- A piece of a glob. -/
inductive Glob.Token where
  | byte (b : Nat)
  /-- Any byte but a slash. -/
  | any
  /-- Any bytes but slashes. -/
  | many
  /-- Any folders before a name. -/
  | foldersBefore
  /-- All that is in a folder. -/
  | allWithin
  /-- A slash, with any folders between it and another. -/
  | foldersBetween
  | set (negated : Bool) (ranges : List (Nat × Nat))
  | choice (options : List (List Glob.Token))
deriving Repr, Inhabited

/-- A pattern for paths. -/
abbrev Glob := List Glob.Token

namespace Glob

def slash : Nat := 47

def bytesOf (cs : List Char) : List Nat :=
  (String.ofList cs).toUTF8.toList.map UInt8.toNat

/-- What may be left of a path after any bytes but slashes. -/
def afterMany : List Nat → List (List Nat)
  | [] => [[]]
  | b :: rest => (b :: rest) :: (if b = slash then [] else afterMany rest)

/-- What may be left after any bytes. -/
def suffixes : List Nat → List (List Nat)
  | [] => [[]]
  | b :: rest => (b :: rest) :: suffixes rest

def afterSlashes : List Nat → List (List Nat)
  | [] => []
  | b :: rest => if b = slash then rest :: afterSlashes rest else afterSlashes rest

mutual

/-- What may be left of a path after a piece of a glob has matched its start. -/
def Token.rests : Glob.Token → List Nat → List (List Nat)
  | .byte b, path =>
      match path with
      | c :: rest => if c = b then [rest] else []
      | [] => []
  | .any, path =>
      match path with
      | c :: rest => if c = slash then [] else [rest]
      | [] => []
  | .many, path => afterMany path
  | .foldersBefore, path => path :: afterSlashes path
  | .allWithin, path =>
      match path with
      | c :: rest => if c = slash then suffixes rest else []
      | [] => []
  | .foldersBetween, path =>
      match path with
      | c :: rest => if c = slash then rest :: afterSlashes rest else []
      | [] => []
  | .set negated ranges, path =>
      match path with
      | c :: rest =>
          if (ranges.any fun (low, high) => low ≤ c && c ≤ high) != negated then [rest] else []
      | [] => []
  | .choice options, path => choiceRests options path

/-- What may be left after one of several globs. Empty ones do not count, unless there are no
others. -/
def choiceRests : List (List Glob.Token) → List Nat → List (List Nat)
  | [], _ => []
  | option :: rest, path =>
      (if option.isEmpty then [] else seqRests option [path]) ++ choiceRests rest path

/-- What may be left after pieces one after the other, from each of several starts. -/
def seqRests : List Glob.Token → List (List Nat) → List (List Nat)
  | [], paths => paths
  | token :: rest, paths => seqRests rest (paths.flatMap fun path => token.rests path).eraseDups

end

def isMatch (g : Glob) (path : List Char) : Bool :=
  (seqRests g [bytesOf path]).contains []

/-- The ranges of a set in brackets as ranges of bytes. -/
def byteRanges (low high : Char) : List (Nat × Nat) :=
  let single (b : Nat) : Nat × Nat := (b, b)
  if low = high then (bytesOf [low]).map single
  else
    match (bytesOf [low]).reverse, bytesOf [high] with
    | last :: before, first :: after =>
        before.reverse.map single ++ [(last, first)] ++ after.map single
    | _, _ => []

/-- The inside of brackets after its sign of negation: ranges, the last one first, and the text after
the closing bracket. `first` tells that nothing has been read yet, `open_` that a dash waits for the
end of its range. Brackets that are not closed and ranges that run backwards make no set. -/
def setRanges (first open_ : Bool) (ranges : List (Char × Char)) :
    List Char → Option (List (Char × Char) × List Char)
  | [] => none
  | c :: rest =>
      if c = ']' && !first then
        some (if open_ then ('-', '-') :: ranges else ranges, rest)
      else if c = '-' && !first && !open_ then setRanges false true ranges rest
      else if open_ then
        match ranges with
        | (low, _) :: others =>
            if c < low then none else setRanges false false ((low, c) :: others) rest
        | [] => none
      else setRanges false false ((c, c) :: ranges) rest

/-- A set in brackets, after the opening one. -/
def readSet (cs : List Char) : Option (Glob.Token × List Char) :=
  let (negated, cs) :=
    match cs with
    | '!' :: rest => (true, rest)
    | '^' :: rest => (true, rest)
    | _ => (false, cs)
  (setRanges true false [] cs).map fun (ranges, rest) =>
    (.set negated (ranges.reverse.flatMap fun (low, high) => byteRanges low high), rest)

/-- A part of a glob that is being read: for every brace that is open, the options before the present
one, and the pieces of the present one, the last one first. -/
structure Draft where
  outer : List (List (List Glob.Token) × List Glob.Token) := []
  options : List (List Glob.Token) := []
  tokens : List Glob.Token := []
deriving Inhabited

namespace Draft

/-- One more piece. -/
def push (d : Draft) (t : Glob.Token) : Draft := { d with tokens := t :: d.tokens }

/-- The bytes of a character. -/
def pushChar (d : Draft) (c : Char) : Draft :=
  { d with tokens := (bytesOf [c]).reverse.map .byte ++ d.tokens }

/-- Is a brace open? -/
def nested (d : Draft) : Bool := !d.outer.isEmpty

def openBrace (d : Draft) : Draft := ⟨(d.options, d.tokens) :: d.outer, [], []⟩

/-- Close a brace, if one is open. -/
def closeBrace (d : Draft) : Option Draft :=
  match d.outer with
  | [] => none
  | (options, tokens) :: outer =>
      some ⟨outer, options, .choice (d.tokens.reverse :: d.options).reverse :: tokens⟩

def nextOption (d : Draft) : Draft := { d with options := d.tokens.reverse :: d.options, tokens := [] }

/-- Put a sign for whole folders in the place of the slash before it. A sign that is there already
stands for this one too. -/
def replaceSlash (d : Draft) (t : Glob.Token) : Draft :=
  match d.tokens with
  | .foldersBefore :: _ => d
  | .allWithin :: _ => d
  | _ :: rest => { d with tokens := t :: rest }
  | [] => { d with tokens := [t] }

end Draft

/-- Two stars, given the character before them and the text after them: a sign for whole folders where
they stand alone between slashes, and two signs for any bytes elsewhere. The result is the text that
remains. -/
def doubleStar (d : Draft) (before : Option Char) (rest : List Char) : Draft × List Char :=
  let plain := ((d.push .many).push .many, rest)
  if d.tokens.isEmpty then
    match rest with
    | [] => (d.push .foldersBefore, [])
    | '/' :: rest => (d.push .foldersBefore, rest)
    | _ => plain
  else if before != some '/' && !(d.nested && (before == some ',' || before == some '\x7b')) then
    plain
  else
    match rest with
    | [] => (d.replaceSlash .allWithin, [])
    | '/' :: rest => (d.replaceSlash .foldersBetween, rest)
    | ',' :: _ | '\x7d' :: _ => if d.nested then (d.replaceSlash .allWithin, rest) else plain
    | _ => plain

/-- Read a glob, given the character before. Braces and brackets have to be closed, and a backslash
needs a character after it. -/
def readFrom : Nat → Draft → Option Char → List Char → Option Glob
  | 0, _, _, _ => none
  | fuel + 1, d, before, cs =>
      match cs with
      | [] => if d.nested then none else some d.tokens.reverse
      | '\\' :: c :: rest => readFrom fuel (d.pushChar c) (some c) rest
      | ['\\'] => none
      | '?' :: rest => readFrom fuel (d.push .any) (some '?') rest
      | '*' :: '*' :: rest =>
          let (d, rest') := doubleStar d before rest
          readFrom fuel d (some (if rest'.length < rest.length then '/' else '*')) rest'
      | '*' :: rest => readFrom fuel (d.push .many) (some '*') rest
      | '[' :: rest =>
          match readSet rest with
          | none => none
          | some (t, rest) => readFrom fuel (d.push t) (some ']') rest
      | '\x7b' :: rest => readFrom fuel d.openBrace (some '\x7b') rest
      | '\x7d' :: rest =>
          match d.closeBrace with
          | none => none
          | some d => readFrom fuel d (some '\x7d') rest
      | ',' :: rest =>
          readFrom fuel (if d.nested then d.nextOption else d.pushChar ',') (some ',') rest
      | c :: rest => readFrom fuel (d.pushChar c) (some c) rest

/-- The glob that a text stands for, if it is one. -/
def ofChars? (cs : List Char) : Option Glob := readFrom (cs.length + 1) {} none cs

end Glob

end FlowScope
