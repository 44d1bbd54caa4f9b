import FlowScope.Text.Blank
/-!
Free texts with tokens in double braces. A placeholder is two opening braces, at least one
character that is no closing brace, and two closing braces; placeholders are sought from left to
right and do not overlap.
-/
namespace FlowScope.Template

/-- Is the character no closing brace? -/
def isInner (c : Char) : Bool := c != '\x7d'

/-- The inside of a placeholder that begins at the start of a text, and the text after it. -/
def placeholder? : List Char → Option (List Char × List Char)
  | '\x7b' :: '\x7b' :: rest =>
      let inner := rest.takeWhile isInner
      match inner, rest.dropWhile isInner with
      | _ :: _, '\x7d' :: '\x7d' :: after => some (inner, after)
      | _, _ => none
  | _ => none

/-- The insides of the placeholders of a text, of which the first `skip` characters belong to a
placeholder that has been found already. -/
def insides : Nat → List Char → List (List Char)
  | _, [] => []
  | skip + 1, _ :: cs => insides skip cs
  | 0, c :: cs =>
      match placeholder? (c :: cs) with
      | none => insides 0 cs
      | some (inner, _) => inner :: insides (inner.length + 3) cs

/-- The tokens of a text in their order, without the blanks around them; blank ones are left out. -/
def tokens (s : String) : List String :=
  ((insides 0 s.toList).map Text.trimChars).filterMap fun cs =>
    if cs.isEmpty then none else some (String.ofList cs)

end FlowScope.Template
