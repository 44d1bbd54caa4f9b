import FlowScope.DataType
import Mathlib.Data.List.Basic
/-!
The tags of data types. Every `Array_` at the front of a text stands for an array, so a text is a number of
them and a piece that does not begin with another. The piece decides whether the text is a tag and of what.
Where the piece is missing, an object is meant: such a text is not the tag that is written for its type.
-/
namespace FlowScope

namespace ScalarKind

theorem ofTag?_tag (kind : ScalarKind) : ofTag? kind.tag = some kind := by
  cases kind with
  | file k => cases k <;> rfl
  | _ => rfl

theorem ofTag?_eq_some_iff {s : String} {kind : ScalarKind} : ofTag? s = some kind ↔ s = kind.tag := by
  constructor
  · intro h
    have hfound := List.find?_some h
    exact (beq_iff_eq.mp hfound).symm
  · rintro rfl
    exact ofTag?_tag kind

end ScalarKind

namespace DataType

/-- A piece with a number of `Array_` in front of it. -/
def inArrays : Nat → String → String
  | 0, piece => piece
  | n + 1, piece => "Array_" ++ inArrays n piece

/-- A text that begins with the name for arrays. -/
def BeginsArray (s : String) : Prop := "Array_".toList <+: s.toList

instance (s : String) : Decidable (BeginsArray s) :=
  inferInstanceAs (Decidable ("Array_".toList <+: s.toList))

/-- Nothing but at least one `Array_`. -/
def Bare (s : String) : Prop := ∃ n, s = inArrays (n + 1) ""

/-- The texts that stand for a type: an object or a scalar in a number of arrays, or arrays of what is
left open. -/
inductive Tagged (s : String) : Prop where
  | object (n : Nat) (h : s = inArrays n "Object")
  | scalar (n : Nat) (kind : ScalarKind) (h : s = inArrays n kind.tag)
  | bare (h : Bare s)

theorem tag_nested (type : DataType) (n : Nat) : (type.nested n).tag = inArrays n type.tag := by
  induction n with
  | zero => rfl
  | succ n ih => rw [nested, tag, ih, inArrays]

/-- A text is a number of `Array_` and a piece that begins with no other. -/
theorem exists_eq_inArrays (s : String) : ∃ n piece, s = inArrays n piece ∧ ¬ BeginsArray piece := by
  induction hlength : s.length using Nat.strongRecOn generalizing s with
  | ind length ih =>
      by_cases h : BeginsArray s
      · obtain ⟨rest, hrest⟩ := h
        have hs : s = "Array_" ++ String.ofList rest := by
          rw [← String.ofList_toList (s := s), ← hrest, String.ofList_append, String.ofList_toList]
        have hshorter : (String.ofList rest).length < length := by
          rw [← hlength, hs, String.length_append]
          exact Nat.lt_add_of_pos_left (by decide)
        obtain ⟨n, piece, hpiece, hend⟩ := ih _ hshorter (String.ofList rest) rfl
        exact ⟨n + 1, piece, by rw [inArrays, ← hpiece, hs], hend⟩
      · exact ⟨0, s, rfl, h⟩

/-- Reading takes off one `Array_`. -/
theorem ofTag_array (s : String) :
    ofTag ("Array_" ++ s) = if s = "" then .ok (array object) else (ofTag s).map array := by
  have hchars : ("Array_" ++ s).toList = 'A' :: 'r' :: 'r' :: 'a' :: 'y' :: '_' :: s.toList := by
    rw [String.toList_append]
    rfl
  rw [ofTag, hchars, ofTagChars]
  simp only [String.toList_eq_nil_iff, ofTag]

/-- Without an `Array_` in front, only the name of objects and the tags of scalars are read. -/
theorem ofTag_piece {piece : String} (h : ¬ BeginsArray piece) :
    ofTag piece = if piece = "Object" then .ok object else (ScalarKind.ofTag piece).map scalar := by
  have hchars : ∀ rest, piece.toList ≠ 'A' :: 'r' :: 'r' :: 'a' :: 'y' :: '_' :: rest :=
    fun rest hrest => h ⟨rest, hrest.symm⟩
  rw [ofTag, ofTagChars]
  · simp only [String.toList_inj, String.ofList_toList]
  · exact hchars

theorem ofTag_tag_scalar (kind : ScalarKind) : ofTag kind.tag = .ok (scalar kind) := by
  have hall : ∀ kind ∈ ScalarKind.all, ¬ BeginsArray kind.tag ∧ kind.tag ≠ "Object" := by decide
  obtain ⟨hend, hobject⟩ := hall kind (ScalarKind.mem_all kind)
  rw [ofTag_piece hend, if_neg hobject, ScalarKind.ofTag, ScalarKind.ofTag?_tag]
  rfl

theorem tag_ne_empty (type : DataType) : type.tag ≠ "" := by
  cases type with
  | scalar kind =>
      have hall : ∀ kind ∈ ScalarKind.all, kind.tag ≠ "" := by decide
      exact hall kind (ScalarKind.mem_all kind)
  | array element => simp [tag]
  | object => decide

/-- A type is what its tag stands for. -/
theorem ofTag_tag (type : DataType) : ofTag type.tag = .ok type := by
  induction type with
  | scalar kind => exact ofTag_tag_scalar kind
  | array element ih =>
      rw [tag, ofTag_array, if_neg (tag_ne_empty element), ih]
      rfl
  | object => rfl

theorem tag_injective : Function.Injective tag := by
  intro type other h
  have hread := ofTag_tag type
  rw [h, ofTag_tag other] at hread
  exact (Except.ok.inj hread).symm

/-- As many arrays are put around what the piece stands for as there are names of them in front of it. -/
theorem ofTag_inArrays {piece : String} (h : piece ≠ "") (n : Nat) :
    ofTag (inArrays n piece) = (ofTag piece).map (·.nested n) := by
  induction n with
  | zero => cases hpiece : ofTag piece <;> simp [inArrays, hpiece, Except.map, nested]
  | succ n ih =>
      have hne : inArrays n piece ≠ "" := by
        cases n with
        | zero => exact h
        | succ n => simp [inArrays]
      rw [inArrays, ofTag_array, if_neg hne, ih]
      cases ofTag piece <;> rfl

/-- What is left open is an object. -/
theorem ofTag_bare (n : Nat) : ofTag (inArrays (n + 1) "") = .ok (object.nested (n + 1)) := by
  induction n with
  | zero => rfl
  | succ n ih =>
      have hne : inArrays (n + 1) "" ≠ "" := by simp [inArrays]
      rw [inArrays, ofTag_array, if_neg hne, ih]
      rfl

theorem inArrays_append (n : Nat) (piece more : String) :
    inArrays n piece ++ more = inArrays n (piece ++ more) := by
  induction n with
  | zero => rfl
  | succ n ih => rw [inArrays, inArrays, String.append_assoc, ih]

/-- A piece that is no tag by itself is what a text with it is refused for. -/
theorem ofTag_inArrays_eq_error {n : Nat} {piece : String} (hend : ¬ BeginsArray piece)
    (h : ¬ Tagged (inArrays n piece)) : ofTag (inArrays n piece) = .error (.dataType piece) := by
  have hobject : piece ≠ "Object" := fun heq => h (.object n (heq ▸ rfl))
  have hscalar : ScalarKind.ofTag? piece = none := by
    rw [Option.eq_none_iff_forall_ne_some]
    intro kind hkind
    exact h (.scalar n kind (ScalarKind.ofTag?_eq_some_iff.mp hkind ▸ rfl))
  have hpiece : ofTag piece = .error (.dataType piece) := by
    rw [ofTag_piece hend, if_neg hobject, ScalarKind.ofTag, hscalar]
    rfl
  by_cases hempty : piece = ""
  · subst hempty
    cases n with
    | zero => exact hpiece
    | succ n => exact absurd (.bare ⟨n, rfl⟩) h
  · rw [ofTag_inArrays hempty, hpiece]
    rfl

theorem tagged_iff {s : String} : Tagged s ↔ ∃ type, ofTag s = .ok type := by
  constructor
  · intro h
    cases h with
    | object n h => exact ⟨object.nested n, by rw [h, ← tag, ← tag_nested, ofTag_tag]⟩
    | scalar n kind h => exact ⟨(scalar kind).nested n, by rw [h, ← tag, ← tag_nested, ofTag_tag]⟩
    | bare h =>
        obtain ⟨n, rfl⟩ := h
        exact ⟨_, ofTag_bare n⟩
  · rintro ⟨type, htype⟩
    by_contra h
    obtain ⟨n, piece, rfl, hend⟩ := exists_eq_inArrays s
    rw [ofTag_inArrays_eq_error hend h] at htype
    cases htype

/-- What is written for a type leaves nothing open. -/
theorem not_bare_tag (type : DataType) : ¬ Bare type.tag := by
  rintro ⟨n, h⟩
  have hread := ofTag_tag type
  rw [h, ofTag_bare] at hread
  have htag : type.tag = inArrays (n + 1) "" ++ "Object" := by
    rw [← Except.ok.inj hread, tag_nested, inArrays_append]
    rfl
  have hlength := congrArg String.length (h.symm.trans htag)
  simp at hlength

/-- A text that is read is the tag of its type, or that without the name of objects at the end. -/
theorem ofTag_eq_ok_iff {s : String} {type : DataType} : ofTag s = .ok type ↔
    ¬ Bare s ∧ type.tag = s ∨ Bare s ∧ type.tag = s ++ "Object" := by
  constructor
  · intro h
    -- Only a bare text is read as a type that is not written like that.
    by_cases hbare : Bare s
    · obtain ⟨n, rfl⟩ := hbare
      rw [ofTag_bare, Except.ok.injEq] at h
      refine Or.inr ⟨⟨n, rfl⟩, ?_⟩
      rw [← h, tag_nested, inArrays_append]
      rfl
    · have hwritten : ∃ other : DataType, other.tag = s := by
        cases tagged_iff.mpr ⟨type, h⟩ with
        | object n hs => exact ⟨object.nested n, by rw [hs, tag_nested, tag]⟩
        | scalar n kind hs => exact ⟨(scalar kind).nested n, by rw [hs, tag_nested, tag]⟩
        | bare hs => exact absurd hs hbare
      obtain ⟨other, rfl⟩ := hwritten
      rw [ofTag_tag, Except.ok.injEq] at h
      exact Or.inl ⟨hbare, congrArg tag h.symm⟩
  · rintro (⟨-, rfl⟩ | ⟨⟨n, rfl⟩, h⟩)
    · exact ofTag_tag type
    · have hobject : (object.nested (n + 1)).tag = type.tag := by
        rw [h, tag_nested, inArrays_append]
        rfl
      rw [ofTag_bare, tag_injective hobject]

theorem ofTag_eq_error_iff {s : String} {reason : Malformed} : ofTag s = .error reason ↔
    ¬ Tagged s ∧ ∃ n piece, s = inArrays n piece ∧ ¬ BeginsArray piece ∧ reason = .dataType piece := by
  constructor
  · intro h
    have hnone : ¬ Tagged s := by
      rw [tagged_iff, h]
      rintro ⟨type, hok⟩
      cases hok
    obtain ⟨n, piece, rfl, hend⟩ := exists_eq_inArrays s
    rw [ofTag_inArrays_eq_error hend hnone, Except.error.injEq] at h
    exact ⟨hnone, n, piece, rfl, hend, h.symm⟩
  · rintro ⟨hnone, n, piece, rfl, hend, rfl⟩
    exact ofTag_inArrays_eq_error hend hnone

/-- Tags and types. The tag of a type is read as that type. A text is read exactly when it is tagged; then
it is the tag of what it is read as, but for the name of objects that a bare text leaves out. A text that is
not read is refused for what remains of it when every `Array_` at its front is taken off. -/
theorem ofTag_agrees_with_tag :
    (∀ type : DataType, ofTag type.tag = .ok type) ∧
      ∀ s : String,
        ((∃ type, ofTag s = .ok type) ↔ Tagged s) ∧
        (∀ type, ofTag s = .ok type ↔
          ¬ Bare s ∧ type.tag = s ∨ Bare s ∧ type.tag = s ++ "Object") ∧
        ∀ reason, ofTag s = .error reason ↔ ¬ Tagged s ∧
          ∃ n piece, s = inArrays n piece ∧ ¬ BeginsArray piece ∧ reason = .dataType piece :=
  ⟨ofTag_tag, fun _ => ⟨tagged_iff.symm, fun _ => ofTag_eq_ok_iff, fun _ => ofTag_eq_error_iff⟩⟩

example : ofTag "Array_Array_" = .ok (.array (.array .object)) := by rfl

example : ofTag "Array_Array_File_" = .error (.dataType "File_") := by rfl

end DataType

end FlowScope
