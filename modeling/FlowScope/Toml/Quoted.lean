import FlowScope.Text.Hex
/-!
Texts in quotes. Two quotes are in use, alone for a text within a line and three in a row for a text
over several lines. Within double quotes a backslash escapes what follows; within single quotes
everything stands for itself.
-/
namespace FlowScope.Toml

/-- May the character stand within quotes, or in a comment? Of the control characters only the tab
may. -/
def isPrintable (c : Char) : Bool := c == '\t' || (0x20 ≤ c.toNat && c.toNat != 0x7f)

/-- A blank within a line. -/
def isBlank (c : Char) : Bool := c == ' ' || c == '\t'

/-- The text after the end of a line. -/
def afterBreak? : List Char → Option (List Char)
  | '\n' :: rest => some rest
  | '\r' :: '\n' :: rest => some rest
  | _ => none

/-- How many blanks and ends of lines there are at the start of a text. -/
def gapLength : List Char → Nat
  | '\r' :: '\n' :: rest => gapLength rest + 2
  | c :: rest => if isBlank c || c = '\n' then gapLength rest + 1 else 0
  | [] => 0

/-- The character with a number. -/
def ofCodePoint? (n : Nat) : Option Char :=
  if n.isValidChar then some (Char.ofNat n) else none

/-- The character of so many hexadecimal digits, which take up one place more than there are. -/
def numberEscape? (digits : Nat) (cs : List Char) : Option (Char × Nat) :=
  if cs.length < digits then none
  else do return (← ofCodePoint? (← Text.ofHex? (cs.take digits)), digits + 1)

/-- The character that a backslash makes of the text after it, and how long that text is. -/
def escape? : List Char → Option (Char × Nat)
  | 'b' :: _ => some ('\x08', 1)
  | 't' :: _ => some ('\t', 1)
  | 'n' :: _ => some ('\n', 1)
  | 'f' :: _ => some ('\x0c', 1)
  | 'r' :: _ => some ('\r', 1)
  | '"' :: _ => some ('"', 1)
  | '\\' :: _ => some ('\\', 1)
  | 'u' :: rest => numberEscape? 4 rest
  | 'U' :: rest => numberEscape? 8 rest
  | _ => none

/-- The length of a gap with an end of line in its first line, which a backslash takes away. -/
def joint? (cs : List Char) : Option Nat :=
  (afterBreak? (cs.dropWhile isBlank)).map fun _ => gapLength cs

/-- The text up to a closing quote, and what follows. The first `skip` characters belong to an
escape; `acc` holds the characters so far, last one first. -/
def withinLine (quote : Char) : Nat → List Char → List Char → Option (String × List Char)
  | _, _, [] => none
  | skip + 1, acc, _ :: cs => withinLine quote skip acc cs
  | 0, acc, c :: cs =>
      if c = quote then some (String.ofList acc.reverse, cs)
      else if quote = '"' && c = '\\' then
        match escape? cs with
        | none => none
        | some (e, length) => withinLine quote length (e :: acc) cs
      else if isPrintable c then withinLine quote 0 (c :: acc) cs
      else none

/-- How many quotes at the start of a text belong to a text that ends there: of four or five quotes in
a row the last three close it. -/
def closing? (quote : Char) (cs : List Char) : Option Nat :=
  let run := (cs.takeWhile (· == quote)).length
  if run < 3 then none else some (min (run - 3) 2)

/-- The text up to three closing quotes, and what follows. The first `skip` characters belong to an
escape; `acc` holds the characters so far, last one first. -/
def overLines (quote : Char) : Nat → List Char → List Char → Option (String × List Char)
  | _, _, [] => none
  | skip + 1, acc, _ :: cs => overLines quote skip acc cs
  | 0, acc, c :: cs =>
      match closing? quote (c :: cs) with
      | some more =>
          some (String.ofList (List.replicate more quote ++ acc).reverse, cs.drop (more + 2))
      | none =>
          if quote = '"' && c = '\\' then
            match joint? cs with
            | some length => overLines quote length acc cs
            | none =>
                match escape? cs with
                | none => none
                | some (e, length) => overLines quote length (e :: acc) cs
          else if c = '\r' then
            match cs with
            | '\n' :: _ => overLines quote 0 acc cs
            | _ => none
          else if c = '\n' || isPrintable c then overLines quote 0 (c :: acc) cs
          else none

/-- A text within a line, quotes included, and what follows. -/
def quotedInLine? : List Char → Option (String × List Char)
  | '"' :: rest => withinLine '"' 0 [] rest
  | '\'' :: rest => withinLine '\'' 0 [] rest
  | _ => none

/-- A text in quotes of any kind, and what follows. An end of line right after three opening quotes
does not count. -/
def quoted? : List Char → Option (String × List Char)
  | '"' :: '"' :: '"' :: rest => overLines '"' 0 [] ((afterBreak? rest).getD rest)
  | '\'' :: '\'' :: '\'' :: rest => overLines '\'' 0 [] ((afterBreak? rest).getD rest)
  | cs => quotedInLine? cs

end FlowScope.Toml
