import FlowScope.Proofs.Trimming
import FlowScope.Token
import Mathlib.Data.List.Basic
/-!
How tokens and the keys of arguments are cut into pieces. A key is put together from an identifier and
the name of an argument with a dot between them, and nothing keeps further dots, blanks or empty
texts out of either; a token that is read has an identifier and a name without dots. So the key that a
token leads to can be cut in one way only, while the key of an argument need not be read as a token
for it.
-/
namespace FlowScope

namespace Token

theorem notMem_of_mem_splitOn {dot : Char} {cs piece : List Char} (h : piece ∈ cs.splitOn dot) :
    dot ∉ piece := by
  induction cs generalizing piece with
  | nil =>
      obtain rfl : piece = [] := by simpa [List.splitOn_nil] using h
      exact List.not_mem_nil
  | cons c rest ih =>
      rw [List.splitOn_cons_eq_if_modifyHead] at h
      split at h
      · rcases List.mem_cons.mp h with rfl | h
        · exact List.not_mem_nil
        · exact ih h
      · next hc =>
          obtain ⟨first, others, hsplit⟩ := List.exists_cons_of_ne_nil (List.splitOn_ne_nil dot rest)
          rw [hsplit, List.modifyHead_cons] at h
          rcases List.mem_cons.mp h with rfl | h
          · have hfirst : dot ∉ first := ih (by simp [hsplit])
            have hne : dot ≠ c := fun heq => hc (by simp [heq])
            simp [hne, hfirst]
          · exact ih (by simp [hsplit, h])

/-- A text without dots is one piece. -/
theorem pieces_eq_singleton {s : String} (h : '.' ∉ s.toList) : pieces s = [s] := by
  rw [pieces, List.splitOn_eq_singleton h, List.map_singleton, String.ofList_toList]

theorem dotless_of_mem_pieces {s piece : String} (h : piece ∈ pieces s) : '.' ∉ piece.toList := by
  obtain ⟨cs, hcs, rfl⟩ := List.mem_map.mp h
  rw [String.toList_ofList]
  exact notMem_of_mem_splitOn hcs

theorem joined_pieces (s : String) : joined (pieces s) = s := by
  have hmap : (pieces s).map String.toList = s.toList.splitOn '.' := by
    simp [pieces, Function.comp_def]
  rw [← String.toList_inj, joined, String.toList_intercalate, hmap]
  exact List.intercalate_splitOn '.'

theorem pieces_key (node : NodeId) (argument : String) :
    pieces (key node argument) = pieces node.text ++ pieces argument := by
  have hchars : (key node argument).toList = node.text.toList ++ '.' :: argument.toList := by
    simp [key, String.toList_append]
  rw [pieces, hchars, List.splitOn_append_cons_self, List.map_append]
  rfl

theorem parse?_eq_some_iff {s : String} {t : Token} :
    parse? s = some t ↔ pieces (Text.trim s) = t.node.text :: t.path ∧ "" ∉ t.node.text :: t.path := by
  obtain ⟨⟨node⟩, argument, fields⟩ := t
  rw [parse?, parse, path]
  split
  · next node' argument' fields' hpieces =>
      rw [hpieces]
      by_cases hempty : "" ∈ node' :: argument' :: fields'
      · rw [if_pos (by simpa using hempty)]
        constructor
        · intro h
          simp [Except.toOption] at h
        · rintro ⟨heq, hnone⟩
          exact absurd (heq ▸ hempty) hnone
      · rw [if_neg (by simpa using hempty)]
        constructor
        · intro h
          obtain ⟨rfl, rfl, rfl⟩ : node' = node ∧ argument' = argument ∧ fields' = fields := by
            simpa [Except.toOption] using h
          exact ⟨rfl, hempty⟩
        · rintro ⟨heq, -⟩
          obtain ⟨rfl, rfl, rfl⟩ : node' = node ∧ argument' = argument ∧ fields' = fields := by
            simpa using heq
          rfl
  · next hshort =>
      constructor
      · intro h
        simp [Except.toOption] at h
      · rintro ⟨heq, -⟩
        exact absurd heq (hshort _ _ _)

/-- The key that a token leads to is that of its own node and argument, and of no others. -/
theorem key_eq_root_iff {s : String} {t : Token} (h : parse? s = some t) {node : NodeId}
    {argument : String} : key node argument = t.root ↔ node = t.node ∧ argument = t.argument := by
  constructor
  · intro heq
    have hpieces := (parse?_eq_some_iff.mp h).1
    have hnode : pieces t.node.text = [t.node.text] :=
      pieces_eq_singleton (dotless_of_mem_pieces (s := Text.trim s) (by simp [hpieces]))
    have hargument : pieces t.argument = [t.argument] :=
      pieces_eq_singleton (dotless_of_mem_pieces (s := Text.trim s) (by simp [hpieces, path]))
    have hboth : pieces node.text ++ pieces argument = [t.node.text] ++ [t.argument] := by
      rw [← pieces_key, heq, root, pieces_key, hnode, hargument]
    have hfirst : pieces node.text ≠ [] := by simp [pieces, List.splitOn_ne_nil]
    have hsecond : pieces argument ≠ [] := by simp [pieces, List.splitOn_ne_nil]
    have hlengths := congrArg List.length hboth
    have hone : (pieces node.text).length = [t.node.text].length := by
      have := List.length_pos_iff.mpr hfirst
      have := List.length_pos_iff.mpr hsecond
      simp only [List.length_append, List.length_singleton] at hlengths ⊢
      omega
    obtain ⟨hnode', hargument'⟩ := List.append_inj hboth hone
    have htext : node.text = t.node.text := by
      rw [← joined_pieces node.text, hnode', ← hnode, joined_pieces]
    have hname : argument = t.argument := by
      rw [← joined_pieces argument, hargument', ← hargument, joined_pieces]
    exact ⟨congrArg NodeId.mk htext, hname⟩
  · rintro ⟨rfl, rfl⟩
    rfl

/-- A key has no blanks to trim when its identifier does not begin with one and its name does not end
with one. -/
theorem trim_key_eq_self_iff {node : NodeId} {argument : String} (hnode : node.text ≠ "")
    (hargument : argument ≠ "") : Text.trim (key node argument) = key node argument ↔
      (∀ c ∈ node.text.toList.head?, Text.isBlank c = false) ∧
        ∀ c ∈ argument.toList.getLast?, Text.isBlank c = false := by
  have hchars : (key node argument).toList = node.text.toList ++ '.' :: argument.toList := by
    simp [key, String.toList_append]
  have hhead : (key node argument).toList.head? = node.text.toList.head? := by
    rw [hchars, List.head?_append_of_ne_nil _ (by simpa using hnode)]
  have hlast : (key node argument).toList.getLast? = argument.toList.getLast? := by
    rw [hchars, List.getLast?_append_of_ne_nil _ (by simp),
      List.getLast?_cons_of_ne_nil (by simpa using hargument)]
  rw [Text.trim_eq_self_iff, Text.trimChars_eq_self_iff, hhead, hlast]

/-- The identifier of a node and the name of one of its arguments that a token can tell: neither is
empty or has a dot, and there is no blank where the key of the argument begins or ends. -/
structure Legible (node : NodeId) (argument : String) : Prop where
  node_ne : node.text ≠ ""
  argument_ne : argument ≠ ""
  node_dotless : '.' ∉ node.text.toList
  argument_dotless : '.' ∉ argument.toList
  begins : ∀ c ∈ node.text.toList.head?, Text.isBlank c = false
  ends : ∀ c ∈ argument.toList.getLast?, Text.isBlank c = false

/-- The key of an argument is read as the token for it exactly when that is legible. -/
theorem legible_iff {node : NodeId} {argument : String} :
    Legible node argument ↔ parse? (key node argument) = some ⟨node, argument, []⟩ := by
  rw [parse?_eq_some_iff]
  constructor
  · intro h
    have htrim := (trim_key_eq_self_iff h.node_ne h.argument_ne).mpr ⟨h.begins, h.ends⟩
    rw [htrim, pieces_key, pieces_eq_singleton h.node_dotless, pieces_eq_singleton h.argument_dotless]
    refine ⟨rfl, ?_⟩
    simp only [path, List.mem_cons, List.not_mem_nil, or_false, not_or]
    exact ⟨h.node_ne.symm, h.argument_ne.symm⟩
  · rintro ⟨hpieces, hfull⟩
    simp only [path, List.mem_cons, List.not_mem_nil, or_false, not_or] at hfull
    have hjoined : Text.trim (key node argument) = key node argument := by
      rw [← joined_pieces (Text.trim _), hpieces]
      simp [joined, path, key]
    have hblanks := (trim_key_eq_self_iff (Ne.symm hfull.1) (Ne.symm hfull.2)).mp hjoined
    have hdotless : ∀ piece ∈ [node.text, argument], '.' ∉ piece.toList := by
      intro piece hpiece
      exact dotless_of_mem_pieces (hpieces ▸ hpiece)
    exact ⟨Ne.symm hfull.1, Ne.symm hfull.2, hdotless _ (by simp), hdotless _ (by simp), hblanks.1,
      hblanks.2⟩

end Token

end FlowScope
