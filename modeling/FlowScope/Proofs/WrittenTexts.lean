import FlowScope.Json.Printer
import FlowScope.Json.Reader
import Mathlib.Data.List.Basic
/-!
Texts in JSON, there and back: what is written for a text is read as a document that is this text and
nothing else, whatever has to be escaped in it.
-/
namespace FlowScope.Json

/-- The four digits that are written for a control character are those of its number. -/
theorem hex4?_hexChar {n : Nat} (h : n < 0x20) :
    hex4? '0' '0' (hexChar (n / 16)) (hexChar (n % 16)) = some n := by
  have hall : ∀ k < 0x20, hex4? '0' '0' (hexChar (k / 16)) (hexChar (k % 16)) = some k := by decide
  exact hall n h

/-- A character is read from what is written for it. -/
theorem quoted_escapeChar (c : Char) (acc rest : List Char) :
    quoted none none acc (escapeChar c ++ rest) = quoted none none (c :: acc) rest := by
  rw [escapeChar]
  split_ifs with hquote hslash hline hreturn htab hback hform hcontrol
  · subst hquote; rfl
  · subst hslash; rfl
  · subst hline; rfl
  · subst hreturn; rfl
  · subst htab; rfl
  · subst hback; rfl
  · subst hform; rfl
  · have htrail : isTrailingHalf c.toNat = false := by simp [isTrailingHalf]; omega
    have hlead : isLeadingHalf c.toNat = false := by simp [isLeadingHalf]; omega
    simp [quoted, hex4?_hexChar hcontrol, htrail, hlead]
  · rw [List.singleton_append, quoted]
    · simp [hcontrol, unpaired]
    all_goals simp_all

/-- All of a text is read from what is written for it, up to the closing quote. -/
theorem quoted_written (cs acc rest : List Char) :
    quoted none none acc (cs.flatMap escapeChar ++ '"' :: rest) =
      (.text (String.ofList (acc.reverse ++ cs)), some rest) := by
  induction cs generalizing acc with
  | nil => simp [quoted, unpaired]
  | cons c cs ih =>
      rw [List.flatMap_cons, List.append_assoc, quoted_escapeChar, ih, List.reverse_cons,
        List.append_assoc, List.singleton_append]

/-- A text is the whole of the document that is written for it. -/
theorem ofText_compact_text (s : String) :
    Document.ofText (compact (text s)) = Document.ofJson (text s) := by
  have hchars : (compact (text s)).toList = '"' :: (s.toList.flatMap escapeChar ++ ['"']) := by
    rw [text, compact, writeQuoted, writeText, String.toList_ofList]
    rfl
  have hvalue : ∀ fuel, value (fuel + 1) (compact (text s)).toList = (text s, some []) := by
    intro fuel
    rw [hchars, value]
    simp [skipSpace, isSpace, quoted_written, text]
  rw [Document.ofText, hvalue]
  rfl

end FlowScope.Json
