import FlowScope.Text.Ranges
import FlowScope.Text.Extending
import FlowScope.Text.Wide
import FlowScope.Text.Emoji
/-!
How many columns of a terminal a text takes. Most characters take one, wide ones two, and
characters that attach to others or stay invisible none. A picture made of several characters takes
two columns.
-/
namespace FlowScope.Text

/-- Characters that are never shown, vowels and finals that join a syllable block, and marks that
enclose what follows them. -/
def invisibleRanges : List (Nat × Nat) := [
  (0xAD, 0xAD), (0x605, 0x605), (0x61C, 0x61C), (0x70F, 0x70F), (0x890, 0x891), (0x8E2, 0x8E2),
  (0x1160, 0x11FF), (0x180E, 0x180E), (0x200B, 0x200B), (0x200D, 0x200F), (0x202A, 0x202E),
  (0x2060, 0x206F), (0x3164, 0x3164), (0xA8FA, 0xA8FA), (0xD7B0, 0xD7C6), (0xD7CB, 0xD7FB),
  (0xFEFF, 0xFEFF), (0xFFA0, 0xFFA0), (0xFFF0, 0xFFF8), (0x1BCA0, 0x1BCA3), (0x1D173, 0x1D17A),
  (0xE0000, 0xE001F), (0xE0080, 0xE00FF), (0xE01F0, 0xE0FFF)]

/-- The columns of a character on its own. Control characters take none. -/
def charWidth (c : Char) : Nat :=
  if c.toNat < 0x80 then (if 0x20 ≤ c.toNat && c.toNat < 0x7F then 1 else 0)
  else if c.toNat < 0xA0 then 0
  else if inRanges invisibleRanges c || inRanges extendingRanges c then 0
  else if inRanges wideRanges c then 2
  else 1

/-- A character that may be shown as a picture. -/
def isEmoji (c : Char) : Bool := inRanges emojiRanges c

/-- A character that the picture selector turns into a picture. -/
def isPictureBase (c : Char) : Bool :=
  isEmoji c || c.isDigit || c == '#' || c == '*'

/-- A character that sets the skin tone of the picture before it. -/
def isTone (c : Char) : Bool := decide (0x1F3FB ≤ c.toNat) && decide (c.toNat ≤ 0x1F3FF)

/-- The columns of the rest of a text, after the character `last` (selectors not counted) and,
where `joined`, after the character that joins pictures. -/
def columnsFrom (last : Option Char) (joined : Bool) : List Char → Nat
  | [] => 0
  | c :: rest =>
      let own :=
        if joined && isEmoji c then 0
        else if isTone c && last.any (inRanges tonedRanges) then 0
        else if rest.head? == some '\uFE0F' && isPictureBase c then 2
        else if rest.head? == some '\uFE0E' && isEmoji c then 1
        else charWidth c
      let last' := if c == '\uFE0F' then last else some c
      own + columnsFrom last' (c == '\u200D' && last.any isEmoji) rest

/-- The columns of one line of text. -/
def columns (cs : List Char) : Nat := columnsFrom none false cs

end FlowScope.Text
