import FlowScope.Proofs.TokenPieces
import FlowScope.Proofs.WrittenTexts
/-!
Tokens and their texts. The dots of a text cut it in one way only, so a token can be told from the text that
is written for it as long as none of its pieces is empty or has a dot, and as long as there is no blank to
trim. The texts that are read as such a token are its own text with blanks around it.
-/
namespace FlowScope.Token

/-- A text is cut at every dot into these pieces. -/
structure CutAtDots (s : String) (ps : List String) : Prop where
  nonempty : ps ≠ []
  dotless : ∀ piece ∈ ps, '.' ∉ piece.toList
  joined_eq : joined ps = s

/-- There is one way to cut a text at every dot. -/
theorem cutAtDots_iff {s : String} {ps : List String} : CutAtDots s ps ↔ ps = pieces s := by
  constructor
  · rintro ⟨hne, hdotless, rfl⟩
    have hsplit : (joined ps).toList.splitOn '.' = ps.map String.toList := by
      rw [joined, String.toList_intercalate]
      refine List.splitOn_intercalate '.' (fun cs hcs => ?_) (by simpa using hne)
      obtain ⟨piece, hpiece, rfl⟩ := List.mem_map.mp hcs
      exact hdotless piece hpiece
    rw [pieces, hsplit, List.map_map]
    simp [Function.comp_def]
  · rintro rfl
    have hne : pieces s ≠ [] := by simp [pieces, List.splitOn_ne_nil]
    exact ⟨hne, fun piece hpiece => dotless_of_mem_pieces hpiece, joined_pieces s⟩

theorem text_eq_joined (t : Token) : t.text = joined (t.node.text :: t.path) := by
  simp [text, pathText, path, joined]

/-- A token that can be told from its text: no piece is empty or has a dot, and there is nothing to trim. -/
structure Sound (t : Token) : Prop where
  full : ∀ piece ∈ t.node.text :: t.path, piece ≠ ""
  dotless : ∀ piece ∈ t.node.text :: t.path, '.' ∉ piece.toList
  trimmed : Text.trim t.text = t.text

theorem parse_eq_ok_iff_pieces {s : String} {t : Token} : parse s = .ok t ↔
    pieces (Text.trim s) = t.node.text :: t.path ∧ "" ∉ t.node.text :: t.path := by
  rw [← parse?_eq_some_iff, parse?]
  cases parse s <;> simp [Except.toOption]

/-- What is read as a token is the text of that token, trimmed, and the token is a sound one. -/
theorem parse_eq_ok_iff {s : String} {t : Token} : parse s = .ok t ↔ t.Sound ∧ Text.trim s = t.text := by
  rw [parse_eq_ok_iff_pieces, eq_comm, ← cutAtDots_iff]
  constructor
  · rintro ⟨⟨-, hdotless, htext⟩, hfull⟩
    rw [← text_eq_joined] at htext
    have htrimmed : Text.trim t.text = t.text := by rw [htext, Text.trim_trim]
    exact ⟨⟨fun piece hpiece hempty => hfull (hempty ▸ hpiece), hdotless, htrimmed⟩, htext.symm⟩
  · rintro ⟨hsound, htext⟩
    rw [text_eq_joined] at htext
    exact ⟨⟨List.cons_ne_nil _ _, hsound.dotless, htext.symm⟩, fun hempty => hsound.full _ hempty rfl⟩

/-- Around the text of a sound token there may be blanks, and nothing else. -/
theorem parse_eq_ok_iff_blanks {s : String} {t : Token} : parse s = .ok t ↔
    t.Sound ∧ ∃ before after : String, Text.isAllBlank before = true ∧ Text.isAllBlank after = true ∧
      s = before ++ t.text ++ after := by
  rw [parse_eq_ok_iff, Text.trim_eq_iff]
  exact and_congr_right fun hsound => and_iff_right hsound.trimmed

theorem Sound.parse_text {t : Token} (h : t.Sound) : parse t.text = .ok t :=
  parse_eq_ok_iff.mpr ⟨h, h.trimmed⟩

theorem exists_parse_iff {s : String} : (∃ t, parse s = .ok t) ↔
    2 ≤ (pieces (Text.trim s)).length ∧ "" ∉ pieces (Text.trim s) := by
  constructor
  · rintro ⟨t, ht⟩
    obtain ⟨hpieces, hfull⟩ := parse_eq_ok_iff_pieces.mp ht
    rw [hpieces]
    exact ⟨by simp [path], hfull⟩
  · rintro ⟨hlength, hfull⟩
    rcases hpieces : pieces (Text.trim s) with _ | ⟨node, _ | ⟨argument, fields⟩⟩
    · simp [hpieces] at hlength
    · simp [hpieces] at hlength
    · exact ⟨⟨⟨node⟩, argument, fields⟩, parse_eq_ok_iff_pieces.mpr ⟨hpieces, hpieces ▸ hfull⟩⟩

theorem parse_eq_error {s : String} {reason : Malformed} (h : parse s = .error reason) :
    reason = .token (Text.trim s) := by
  rw [parse] at h
  split at h
  · split at h
    · exact (Except.error.inj h).symm
    · cases h
  · exact (Except.error.inj h).symm

/-- A sound token is made of the value that is written for it, and of the written document. -/
theorem Sound.read_toJson {t : Token} (h : t.Sound) (depth : Nat) : read depth t.toJson = .ok t := by
  simp only [read, toJson, Json.text, Json.readText, h.parse_text, bind, Except.bind]
  rfl

theorem Sound.decode_compact {t : Token} (h : t.Sound) :
    (Json.Document.ofText (Json.compact t.toJson)).decode read = .ok t := by
  rw [toJson, Json.ofText_compact_text, ← toJson, Json.Document.decode, Json.Document.ofJson,
    h.read_toJson]
  rfl

/-- Tokens and texts. A trimmed text is cut at its dots in one way, and it is read as a token exactly when
these are at least two pieces and none is empty; otherwise it is refused as it is when trimmed. The first
piece is the identifier of the node, and the others are the path. The text of the token is the trimmed text,
it is read as the same token, and so is the document that is written for the token. -/
theorem parse_agrees_with_text (s : String) : ∃ ps : List String,
    (∀ cut, CutAtDots (Text.trim s) cut ↔ cut = ps) ∧
      ((∃ t, parse s = .ok t) ↔ 2 ≤ ps.length ∧ "" ∉ ps) ∧
      (∀ reason, parse s = .error reason ↔
        ¬ (2 ≤ ps.length ∧ "" ∉ ps) ∧ reason = .token (Text.trim s)) ∧
      ∀ t, parse s = .ok t →
        t.node.text :: t.path = ps ∧ t.text = Text.trim s ∧ parse t.text = .ok t ∧
          (∀ depth, read depth t.toJson = .ok t) ∧
          (Json.Document.ofText (Json.compact t.toJson)).decode read = .ok t := by
  refine ⟨pieces (Text.trim s), fun cut => cutAtDots_iff, exists_parse_iff, fun reason => ?_,
    fun t ht => ?_⟩
  · rw [← exists_parse_iff]
    constructor
    · intro h
      refine ⟨?_, parse_eq_error h⟩
      rintro ⟨t, ht⟩
      cases h.symm.trans ht
    · rintro ⟨hnone, rfl⟩
      cases hparse : parse s with
      | ok t => exact absurd ⟨t, hparse⟩ hnone
      | error reason => rw [parse_eq_error hparse]
  · obtain ⟨hsound, htext⟩ := parse_eq_ok_iff.mp ht
    exact ⟨(parse_eq_ok_iff_pieces.mp ht).1.symm, htext.symm, hsound.parse_text, hsound.read_toJson,
      hsound.decode_compact⟩

example : parse " 12..field" = .error (.token "12..field") := by rfl

end FlowScope.Token

namespace FlowScope.TokenTextsWitness

/-- A token with blanks inside it and at the ends of its pieces. -/
def token : Token := ⟨⟨"12"⟩, " line items", ["unit price ", " amount"]⟩

/-- Around the text there are two kinds of blanks, which are trimmed. -/
theorem parse_agrees_with_text_blanks :
    Token.parse "\u200312. line items.unit price . amount\n" = .ok token ∧
      token.text = "12. line items.unit price . amount" ∧ Token.parse token.text = .ok token ∧
      (Json.Document.ofText (Json.compact token.toJson)).decode Token.read = .ok token := by
  have hread : Token.parse "\u200312. line items.unit price . amount\n" = .ok token := by rfl
  obtain ⟨ps, -, -, -, hagrees⟩ := Token.parse_agrees_with_text
    "\u200312. line items.unit price . amount\n"
  obtain ⟨-, htext, hagain, -, hdocument⟩ := hagrees token hread
  exact ⟨hread, htext, hagain, hdocument⟩

end FlowScope.TokenTextsWitness
