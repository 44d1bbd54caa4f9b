import FlowScope.Text.Blank
import Mathlib.Data.List.Basic
import Mathlib.Data.List.TakeWhile
/-!
What trimming leaves of a text: the one part of it that has no blank at either end and nothing but blanks
around it.
-/
namespace FlowScope.Text

/-- Nothing is dropped when the first one stays. -/
theorem dropWhile_eq_self_iff_head? {p : Char → Bool} {cs : List Char} :
    cs.dropWhile p = cs ↔ ∀ c ∈ cs.head?, p c = false := by
  rw [List.dropWhile_eq_self_iff]
  cases cs <;> simp

/-- A text is left as it is when there is no blank at either end. -/
theorem trimChars_eq_self_iff {cs : List Char} :
    trimChars cs = cs ↔
      (∀ c ∈ cs.head?, isBlank c = false) ∧ ∀ c ∈ cs.getLast?, isBlank c = false := by
  have hend : ∀ ds, trimEnd ds = ds ↔ ∀ c ∈ ds.getLast?, isBlank c = false := by
    intro ds
    rw [trimEnd, List.reverse_eq_iff, dropWhile_eq_self_iff_head?, List.head?_reverse]
  constructor
  · intro h
    have hshort : (trimChars cs).length ≤ (cs.dropWhile isBlank).length := by
      rw [trimChars, trimEnd, List.length_reverse]
      simpa using (List.dropWhile_sublist isBlank (l := (cs.dropWhile isBlank).reverse)).length_le
    have hstart : cs.dropWhile isBlank = cs :=
      (List.dropWhile_sublist isBlank).eq_of_length_le (by rwa [h] at hshort)
    refine ⟨dropWhile_eq_self_iff_head?.mp hstart, (hend cs).mp ?_⟩
    rwa [trimChars, hstart] at h
  · rintro ⟨hhead, hlast⟩
    rw [trimChars, dropWhile_eq_self_iff_head?.mpr hhead]
    exact (hend cs).mpr hlast

theorem trim_eq_self_iff {s : String} : trim s = s ↔ trimChars s.toList = s.toList := by
  rw [trim, ← String.toList_inj, String.toList_ofList]

theorem trimEnd_prefix (cs : List Char) : trimEnd cs <+: cs := by
  rw [trimEnd, ← List.reverse_suffix, List.reverse_reverse]
  exact List.dropWhile_suffix isBlank

theorem not_isBlank_of_mem_head?_dropWhile {cs : List Char} {c : Char}
    (h : c ∈ (cs.dropWhile isBlank).head?) : isBlank c = false := by
  have hhead := List.head?_dropWhile_not isBlank cs
  rw [Option.mem_def.mp h] at hhead
  exact hhead

/-- There is nothing more to trim of what has been trimmed. -/
theorem trim_trim (s : String) : trim (trim s) = trim s := by
  rw [trim_eq_self_iff, trim, String.toList_ofList, trimChars_eq_self_iff]
  constructor
  · intro c hc
    obtain ⟨more, hmore⟩ := trimEnd_prefix (s.toList.dropWhile isBlank)
    rw [trimChars] at hc
    have hhead : c ∈ (s.toList.dropWhile isBlank).head? := by
      rw [← hmore, List.head?_append, Option.mem_def.mp hc]
      rfl
    exact not_isBlank_of_mem_head?_dropWhile hhead
  · intro c hc
    rw [trimChars, trimEnd, List.getLast?_reverse] at hc
    exact not_isBlank_of_mem_head?_dropWhile hc

/-- A text without blanks is trimmed. -/
theorem trim_eq_self_of_forall {s : String} (h : ∀ c ∈ s.toList, isBlank c = false) : trim s = s := by
  rw [trim_eq_self_iff, trimChars_eq_self_iff]
  exact ⟨fun c hc => h c (List.mem_of_head? hc), fun c hc => h c (List.mem_of_getLast? hc)⟩

/-- The blanks at the end, and what is before them. -/
theorem exists_trimEnd_append (cs : List Char) :
    ∃ after, (∀ c ∈ after, isBlank c = true) ∧ cs = trimEnd cs ++ after := by
  refine ⟨(cs.reverse.takeWhile isBlank).reverse, fun c hc => ?_, ?_⟩
  · exact List.mem_takeWhile_imp (List.mem_reverse.mp hc)
  · rw [trimEnd, ← List.reverse_append, List.takeWhile_append_dropWhile, List.reverse_reverse]

theorem trimEnd_append {cs after : List Char} (h : ∀ c ∈ after, isBlank c = true) :
    trimEnd (cs ++ after) = trimEnd cs := by
  rw [trimEnd, List.reverse_append, List.dropWhile_append_of_pos (by simpa using h), trimEnd]

theorem trimChars_append {before cs after : List Char} (hbefore : ∀ c ∈ before, isBlank c = true)
    (hafter : ∀ c ∈ after, isBlank c = true) (hcs : trimChars cs = cs) :
    trimChars (before ++ (cs ++ after)) = cs := by
  rw [trimChars, List.dropWhile_append_of_pos hbefore]
  cases cs with
  | nil =>
      rw [List.nil_append, List.dropWhile_eq_nil_iff.mpr hafter]
      rfl
  | cons c rest =>
      have hstart : ∀ d ∈ (c :: rest).head?, isBlank d = false := (trimChars_eq_self_iff.mp hcs).1
      rw [dropWhile_eq_self_iff_head?.mpr (by simpa using hstart), trimEnd_append hafter]
      rwa [trimChars, dropWhile_eq_self_iff_head?.mpr hstart] at hcs

/-- Only blanks are trimmed off, and all of them. -/
theorem trim_eq_iff {s u : String} : trim s = u ↔ trim u = u ∧ ∃ before after : String,
    isAllBlank before = true ∧ isAllBlank after = true ∧ s = before ++ u ++ after := by
  simp only [isAllBlank, List.all_eq_true]
  constructor
  · rintro rfl
    obtain ⟨after, hafter, hsplit⟩ := exists_trimEnd_append (s.toList.dropWhile isBlank)
    refine ⟨trim_trim s, String.ofList (s.toList.takeWhile isBlank), String.ofList after, ?_, ?_, ?_⟩
    · intro c hc
      rw [String.toList_ofList] at hc
      exact List.mem_takeWhile_imp hc
    · rwa [String.toList_ofList]
    · rw [trim, ← String.ofList_append, ← String.ofList_append, List.append_assoc, trimChars, ← hsplit,
        List.takeWhile_append_dropWhile, String.ofList_toList]
  · rintro ⟨hu, before, after, hbefore, hafter, rfl⟩
    rw [trim, String.toList_append, String.toList_append, List.append_assoc,
      trimChars_append hbefore hafter (trim_eq_self_iff.mp hu), String.ofList_toList]

/-- Nothing is left of blanks only. -/
theorem trim_eq_empty_iff {s : String} : trim s = "" ↔ isAllBlank s = true := by
  rw [trim_eq_iff]
  constructor
  · rintro ⟨-, before, after, hbefore, hafter, rfl⟩
    simp only [isAllBlank] at hbefore hafter ⊢
    simp [hbefore, hafter]
  · intro h
    exact ⟨rfl, s, "", h, rfl, by simp⟩

end FlowScope.Text
