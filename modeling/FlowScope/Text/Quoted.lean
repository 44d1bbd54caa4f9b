import FlowScope.Text.Ranges
import FlowScope.Text.Unprintable
import FlowScope.Text.Extending
/-!
A text in quotes for a message: whatever could not be seen, or would not be seen as a character of
its own, is written as an escape.
-/
namespace FlowScope.Text

/-- Hexadecimal digits of a code point, without zeros in front. -/
def hexDigits (n : Nat) : List Char :=
  Nat.toDigits 16 n

/-- Can the character be seen as it is? -/
def isPrintable (c : Char) : Bool :=
  if c.toNat < 0x80 then decide (0x20 ≤ c.toNat) && decide (c.toNat < 0x7F)
  else !inRanges unprintableRanges c && !inRanges extendingRanges c

/-- One character between the quotes. -/
def quoteChar (c : Char) : List Char :=
  if c = '"' then ['\\', '"']
  else if c = '\\' then ['\\', '\\']
  else if c = '\n' then ['\\', 'n']
  else if c = '\r' then ['\\', 'r']
  else if c = '\t' then ['\\', 't']
  else if c = '\x00' then ['\\', '0']
  else if isPrintable c then [c]
  else ['\\', 'u', '\x7b'] ++ hexDigits c.toNat ++ ['\x7d']

def quoted (s : String) : String :=
  String.ofList ('"' :: s.toList.flatMap quoteChar ++ ['"'])

end FlowScope.Text
