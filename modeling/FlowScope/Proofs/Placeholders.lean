import FlowScope.Proofs.Trimming
import FlowScope.Template
import Mathlib.Data.List.Basic
/-!
Placeholders in free texts. That they are sought from left to right and do not overlap is said without the
search: each one begins at the first place, from the end of the one before it on, where one can begin. The
search finds these and no others. So a text that is put together from placeholders and from texts without
opening braces gives back what was put in.
-/
namespace FlowScope.Template

/-- A placeholder with this inside stands at the beginning of a text, and there is this text after it. -/
structure Opens (cs inner after : List Char) : Prop where
  split : cs = '\x7b' :: '\x7b' :: (inner ++ '\x7d' :: '\x7d' :: after)
  full : inner ≠ []
  unclosed : '\x7d' ∉ inner

/-- A placeholder stands at the beginning of a text. -/
def Begins (cs : List Char) : Prop := ∃ inner after, Opens cs inner after

/-- The insides of the placeholders of a text: the first one begins where none begins earlier, and the others
are those of the text after it. -/
inductive Leftmost : List Char → List (List Char) → Prop where
  | nil {cs : List Char} (hnone : ∀ here, here <:+ cs → ¬ Begins here) : Leftmost cs []
  | cons {cs here inner after : List Char} {found : List (List Char)} (hhere : here <:+ cs)
      (hopens : Opens here inner after)
      (hfirst : ∀ earlier, earlier <:+ cs → here.length < earlier.length → ¬ Begins earlier)
      (hrest : Leftmost after found) : Leftmost cs (inner :: found)

theorem isInner_iff {c : Char} : isInner c = true ↔ c ≠ '\x7d' := by simp [isInner]

theorem Opens.placeholder?_eq {cs inner after : List Char} (h : Opens cs inner after) :
    placeholder? cs = some (inner, after) := by
  obtain ⟨rfl, hfull, hunclosed⟩ := h
  have hall : ∀ c ∈ inner, isInner c = true :=
    fun c hc => isInner_iff.mpr fun heq => hunclosed (heq ▸ hc)
  have htake : (inner ++ '\x7d' :: '\x7d' :: after).takeWhile isInner = inner := by
    rw [List.takeWhile_append_of_pos hall]
    simp [isInner]
  have hdrop : (inner ++ '\x7d' :: '\x7d' :: after).dropWhile isInner = '\x7d' :: '\x7d' :: after := by
    rw [List.dropWhile_append_of_pos hall]
    simp [isInner]
  obtain ⟨first, rest, rfl⟩ := List.exists_cons_of_ne_nil hfull
  simp only [placeholder?, htake, hdrop]

theorem opens_of_placeholder? {cs inner after : List Char}
    (h : placeholder? cs = some (inner, after)) : Opens cs inner after := by
  unfold placeholder? at h
  split at h
  · next rest =>
      have hrest := List.takeWhile_append_dropWhile (p := isInner) (l := rest)
      simp only at h
      split at h
      · next first more after' htake hdrop =>
          obtain ⟨rfl, rfl⟩ : rest.takeWhile isInner = inner ∧ after' = after := by simpa using h
          rw [hdrop] at hrest
          refine ⟨by rw [hrest], by simp [htake], fun hmem => ?_⟩
          exact isInner_iff.mp (List.mem_takeWhile_imp hmem) rfl
      · simp at h
  · simp at h

theorem placeholder?_eq_none {cs : List Char} (h : ¬ Begins cs) : placeholder? cs = none := by
  rw [Option.eq_none_iff_forall_ne_some]
  rintro ⟨inner, after⟩ hfound
  exact h ⟨inner, after, opens_of_placeholder? hfound⟩

/-- Characters that belong to a placeholder are passed over. -/
theorem insides_skip (front cs : List Char) : insides front.length (front ++ cs) = insides 0 cs := by
  induction front with
  | nil => rfl
  | cons c rest ih => rw [List.length_cons, List.cons_append, insides, ih]

theorem Opens.insides_eq {cs inner after : List Char} (h : Opens cs inner after) :
    insides 0 cs = inner :: insides 0 after := by
  have hfound := h.placeholder?_eq
  obtain ⟨rfl, -, -⟩ := h
  have hfront : ('\x7b' :: (inner ++ ['\x7d', '\x7d'])).length = inner.length + 3 := by simp
  have htail : '\x7b' :: (inner ++ '\x7d' :: '\x7d' :: after) =
      '\x7b' :: (inner ++ ['\x7d', '\x7d']) ++ after := by simp
  rw [insides, hfound]
  simp only
  rw [← hfront, htail, insides_skip]

theorem insides_of_not_begins {c : Char} {cs : List Char} (h : ¬ Begins (c :: cs)) :
    insides 0 (c :: cs) = insides 0 cs := by
  rw [insides, placeholder?_eq_none h]

theorem not_begins_nil : ¬ Begins [] := by
  rintro ⟨inner, after, h⟩
  exact List.cons_ne_nil _ _ h.split.symm

/-- What stands before the first place where a placeholder begins does not matter. -/
theorem insides_append {before here : List Char}
    (h : ∀ earlier, earlier <:+ before ++ here → here.length < earlier.length → ¬ Begins earlier) :
    insides 0 (before ++ here) = insides 0 here := by
  induction before with
  | nil => rfl
  | cons c rest ih =>
      have hnot : ¬ Begins (c :: (rest ++ here)) :=
        h _ (List.suffix_refl _) (by simp only [List.length_cons, List.length_append]; omega)
      rw [List.cons_append, insides_of_not_begins hnot]
      exact ih fun earlier hearlier => h earlier (hearlier.trans (List.suffix_cons _ _))

theorem Leftmost.skip {c : Char} {cs : List Char} {found : List (List Char)} (h : Leftmost cs found)
    (hnot : ¬ Begins (c :: cs)) : Leftmost (c :: cs) found := by
  cases h with
  | nil hnone =>
      refine .nil fun here hhere => ?_
      rcases List.suffix_cons_iff.mp hhere with rfl | hhere
      · exact hnot
      · exact hnone here hhere
  | cons hhere hopens hfirst hrest =>
      refine .cons (hhere.trans (List.suffix_cons _ _)) hopens (fun earlier hearlier hlonger => ?_) hrest
      rcases List.suffix_cons_iff.mp hearlier with rfl | hearlier
      · exact hnot
      · exact hfirst earlier hearlier hlonger

/-- The search finds the placeholders from left to right. -/
theorem leftmost_insides (cs : List Char) : Leftmost cs (insides 0 cs) := by
  -- After a placeholder the search goes on far behind the next character, so the length decides.
  induction hlength : cs.length using Nat.strongRecOn generalizing cs with
  | ind length ih =>
      cases cs with
      | nil => exact .nil fun here hhere => List.suffix_nil.mp hhere ▸ not_begins_nil
      | cons c rest =>
          by_cases h : Begins (c :: rest)
          · obtain ⟨inner, after, hopens⟩ := h
            have hshorter : after.length < length := by
              rw [← hlength, hopens.split]
              simp only [List.length_cons, List.length_append]
              omega
            rw [hopens.insides_eq]
            refine .cons (List.suffix_refl _) hopens (fun earlier hearlier hlonger => ?_)
              (ih _ hshorter after rfl)
            exact absurd hearlier.length_le (Nat.not_le.mpr hlonger)
          · rw [insides_of_not_begins h]
            exact (ih rest.length (by rw [← hlength]; exact Nat.lt_succ_self _) rest rfl).skip h

/-- There is only one way to seek placeholders from left to right. -/
theorem Leftmost.eq_insides {cs : List Char} {found : List (List Char)} (h : Leftmost cs found) :
    found = insides 0 cs := by
  induction h with
  | @nil cs hnone =>
      induction cs with
      | nil => rfl
      | cons c rest ih =>
          rw [insides_of_not_begins (hnone _ (List.suffix_refl _))]
          exact ih fun here hhere => hnone here (hhere.trans (List.suffix_cons _ _))
  | cons hhere hopens hfirst _ ih =>
      obtain ⟨before, rfl⟩ := hhere
      rw [insides_append hfirst, hopens.insides_eq, ih]

theorem leftmost_iff {cs : List Char} {found : List (List Char)} :
    Leftmost cs found ↔ found = insides 0 cs :=
  ⟨Leftmost.eq_insides, fun h => h ▸ leftmost_insides cs⟩

/-- The tokens of a text are what its placeholders hold, trimmed, without those that are blank. -/
theorem tokens_of_leftmost {s : String} {inners : List String}
    (h : Leftmost s.toList (inners.map String.toList)) :
    tokens s = (inners.filter fun inner => !Text.isAllBlank inner).map Text.trim := by
  rw [tokens, ← h.eq_insides]
  clear h
  induction inners with
  | nil => rfl
  | cons inner rest ih =>
      have hempty : (Text.trimChars inner.toList).isEmpty = Text.isAllBlank inner := by
        rw [Bool.eq_iff_iff, ← Text.trim_eq_empty_iff, Text.trim, List.isEmpty_iff,
          String.ofList_eq_empty_iff]
      simp only [List.map_cons, List.filterMap_cons, hempty, List.filter_cons, ih]
      cases Text.isAllBlank inner <;> simp [Text.trim]

/-- A text with placeholders: the text before the first one, and for each one its inside and the text
after it. -/
def filled : String → List (String × String) → String
  | first, [] => first
  | first, (inner, next) :: rest => first ++ "\x7b\x7b" ++ inner ++ "\x7d\x7d" ++ filled next rest

/-- No text between the placeholders has an opening brace, and no inside is empty or has a closing one. -/
structure Fillable (first : String) (parts : List (String × String)) : Prop where
  first_plain : '\x7b' ∉ first.toList
  inner_full : ∀ part ∈ parts, part.1 ≠ ""
  inner_unclosed : ∀ part ∈ parts, '\x7d' ∉ part.1.toList
  next_plain : ∀ part ∈ parts, '\x7b' ∉ part.2.toList

theorem Begins.mem {cs : List Char} (h : Begins cs) : ∃ rest, cs = '\x7b' :: rest := by
  obtain ⟨inner, after, hopens⟩ := h
  exact ⟨_, hopens.split⟩

/-- In a text without opening braces no placeholder begins. -/
theorem not_begins_of_suffix {plain earlier here : List Char} (hplain : '\x7b' ∉ plain)
    (hsuffix : earlier <:+ plain ++ here) (hlonger : here.length < earlier.length) : ¬ Begins earlier := by
  intro hbegins
  obtain ⟨rest, rfl⟩ := hbegins.mem
  obtain ⟨front, hfront⟩ := hsuffix
  -- The earlier place lies in the plain text, or it is not earlier.
  rcases List.append_eq_append_iff.mp hfront with ⟨more, hmore, hrest⟩ | ⟨more, hmore, hrest⟩
  · cases more with
    | nil => exact absurd (congrArg List.length hrest) (by simpa using Nat.ne_of_gt hlonger)
    | cons c more =>
        obtain rfl : '\x7b' = c := (List.cons.inj hrest).1
        exact hplain (by simp [hmore])
  · have hlength := congrArg List.length hrest
    rw [List.length_append] at hlength
    omega

theorem toList_filled_cons (first inner next : String) (rest : List (String × String)) :
    (filled first ((inner, next) :: rest)).toList = first.toList ++
      '\x7b' :: '\x7b' :: (inner.toList ++ '\x7d' :: '\x7d' :: (filled next rest).toList) := by
  simp [filled, String.toList_append]

theorem Fillable.tail {first inner next : String} {rest : List (String × String)}
    (h : Fillable first ((inner, next) :: rest)) : Fillable next rest where
  first_plain := h.next_plain _ List.mem_cons_self
  inner_full := fun part hpart => h.inner_full part (List.mem_cons_of_mem _ hpart)
  inner_unclosed := fun part hpart => h.inner_unclosed part (List.mem_cons_of_mem _ hpart)
  next_plain := fun part hpart => h.next_plain part (List.mem_cons_of_mem _ hpart)

/-- The placeholders from left to right are those that were put in. -/
theorem Fillable.leftmost_filled {first : String} {parts : List (String × String)}
    (h : Fillable first parts) :
    Leftmost (filled first parts).toList ((parts.map (·.1)).map String.toList) := by
  induction parts generalizing first with
  | nil =>
      refine .nil fun here hhere hbegins => ?_
      obtain ⟨rest, rfl⟩ := hbegins.mem
      exact h.first_plain (hhere.subset List.mem_cons_self)
  | cons part rest ih =>
      obtain ⟨inner, next⟩ := part
      have hopens : Opens
          ('\x7b' :: '\x7b' :: (inner.toList ++ '\x7d' :: '\x7d' :: (filled next rest).toList))
          inner.toList (filled next rest).toList :=
        ⟨rfl, by simpa using h.inner_full _ List.mem_cons_self, h.inner_unclosed _ List.mem_cons_self⟩
      rw [toList_filled_cons]
      exact .cons (List.suffix_append _ _) hopens
        (fun _ => not_begins_of_suffix h.first_plain) (ih h.tail)

/-- A text that is put together gives back what was put in. If the texts between the placeholders have no
opening braces, and the insides are not empty and have no closing braces, then seeking placeholders from
left to right can find these insides only; the tokens of the text are those of them that are not blank,
trimmed, in their order and as often as they stand there. -/
theorem tokens_filled {first : String} {parts : List (String × String)} (h : Fillable first parts) :
    (∀ found, Leftmost (filled first parts).toList found ↔ found = parts.map (·.1.toList)) ∧
      tokens (filled first parts) =
        ((parts.map (·.1)).filter fun inner => !Text.isAllBlank inner).map Text.trim := by
  have hleftmost := h.leftmost_filled
  refine ⟨fun found => ?_, tokens_of_leftmost hleftmost⟩
  rw [leftmost_iff, ← hleftmost.eq_insides, List.map_map]
  rfl

end FlowScope.Template

namespace FlowScope.PlaceholdersWitness

/-- Placeholders side by side, closing braces between them, opening braces and a line break inside them, a
blank one, and one that stands there twice. -/
def parts : List (String × String) :=
  [("1.name", ""), (" \x7b\x7b2.doc\n", "\x7d\x7d and "), ("\u3000", "\x7d"), ("1.name", "")]

theorem tokens_filled_twice :
    Template.Fillable "See \x7d" parts ∧
      Template.tokens ("See \x7d\x7b\x7b1.name\x7d\x7d\x7b\x7b \x7b\x7b2.doc\n\x7d\x7d\x7d\x7d and " ++
        "\x7b\x7b\u3000\x7d\x7d\x7d\x7b\x7b1.name\x7d\x7d") = ["1.name", "\x7b\x7b2.doc", "1.name"] := by
  have hfillable : Template.Fillable "See \x7d" parts :=
    ⟨by decide, by decide, by decide, by decide⟩
  exact ⟨hfillable, (Template.tokens_filled hfillable).2⟩

end FlowScope.PlaceholdersWitness
