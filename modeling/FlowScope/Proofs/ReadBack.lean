import FlowScope.Json.Printer
import FlowScope.Json.Record
import Mathlib.Data.List.Perm.Basic
import Mathlib.Data.List.Nodup
/-!
Values that are read back from what is written for them. The members of an object have no order that
counts: a document is as good as any other that is the same once the members are sorted. A record is
read back when every field that is written is, and when those that are left out have the value which
stands for a field that is missing.
-/
namespace FlowScope.Json

theorem sortedItems_eq_map (items : List Json) : sortedItems items = items.map sorted := by
  induction items with
  | nil => rfl
  | cons item rest ih => rw [sortedItems, ih, List.map_cons]

theorem sortedMembers_eq_map (members : List (Quoted × Json)) :
    sortedMembers members = members.map fun m => (m.1, m.2.sorted) := by
  induction members with
  | nil => rfl
  | cons m rest ih => rw [sortedMembers, ih, List.map_cons]

/-- A value that is the same as a text but for the order of members is that text. -/
theorem eq_text_of_sorted_eq {j : Json} {s : String} (h : j.sorted = (text s).sorted) :
    j = text s := by
  cases j <;> simp_all [sorted, text]

theorem eq_bool_of_sorted_eq {j : Json} {b : Bool} (h : j.sorted = (bool b).sorted) : j = bool b := by
  cases j <;> simp_all [sorted]

theorem eq_null_of_sorted_eq {j : Json} (h : j.sorted = null.sorted) : j = null := by
  cases j <;> simp_all [sorted]

/-- A value that is the same as an array but for the order of members is an array of such values. -/
theorem exists_of_sorted_eq_array {j : Json} {items : List Json}
    (h : j.sorted = (array items).sorted) :
    ∃ items', j = array items' ∧ items'.map sorted = items.map sorted := by
  cases j with
  | arr items' stop =>
      simp only [sorted, array, sortedItems_eq_map, Json.arr.injEq] at h
      exact ⟨items', by rw [h.2, array], h.1⟩
  | _ => simp [sorted, array] at h

/-- A value that is the same as an object but for the order of members has such members in some
order. -/
theorem exists_of_sorted_eq_object {j : Json} {members : List (String × Json)}
    (h : j.sorted = (object members).sorted) :
    ∃ members', j = .obj members' none ∧
      (members'.map fun m => (m.1, m.2.sorted)).Perm
        (members.map fun m => (Quoted.text m.1, m.2.sorted)) := by
  cases j with
  | obj members' stop =>
      simp only [sorted, object, sortedMembers_eq_map, Json.obj.injEq, List.map_map] at h
      refine ⟨members', by rw [h.2], ?_⟩
      have hperm := (List.mergeSort_perm (members'.map fun m => (m.1, m.2.sorted)) fun a b =>
        !decide (keyText b.1 < keyText a.1)).symm
      rw [h.1] at hperm
      exact hperm.trans (List.mergeSort_perm _ _)
  | _ => simp [sorted, object] at h

/-- A value is not nested less deeply than what it is made of. -/
theorem depth_lt_array {item : Json} {items : List Json} (h : item ∈ items) :
    item.depth < (array items).depth := by
  rw [array, depth, Nat.lt_succ_iff]
  induction items with
  | nil => exact absurd h List.not_mem_nil
  | cons first rest ih =>
      rw [depthItems]
      rcases List.mem_cons.mp h with rfl | h
      · exact Nat.le_max_left _ _
      · exact Nat.le_trans (ih h) (Nat.le_max_right _ _)

theorem depth_lt_object {m : String × Json} {members : List (String × Json)} (h : m ∈ members) :
    m.2.depth < (object members).depth := by
  rw [object, depth, Nat.lt_succ_iff]
  induction members with
  | nil => exact absurd h List.not_mem_nil
  | cons first rest ih =>
      rw [List.map_cons, depthMembers]
      rcases List.mem_cons.mp h with rfl | h
      · exact Nat.le_max_left _ _
      · exact Nat.le_trans (ih h) (Nat.le_max_right _ _)

theorem Layout.depth_lt_write {F : Type} {l : Layout F} {value? : F → Option Json} {f : F}
    (hf : f ∈ l.fields) {j : Json} (hj : value? f = some j) : j.depth < (l.write value?).depth := by
  have hmem : (l.key f, j) ∈ l.fields.filterMap fun f => (value? f).map fun j => (l.key f, j) :=
    List.mem_filterMap.mpr ⟨f, hf, by rw [hj, Option.map_some]⟩
  exact depth_lt_object hmem

theorem inside_of_lt {k depth : Nat} (h : k + 1 < depth) :
    ∃ below, inside depth = .ok below ∧ k + 1 ≤ below := by
  obtain ⟨d, rfl⟩ := Nat.exists_eq_add_of_lt h
  exact ⟨k + d + 1, by simp [inside, Nat.add_right_comm _ 1], by omega⟩

/-- The decoder makes a certain value of a document, whatever the order of the members is, if it may
enter all the arrays and objects of the document. -/
def ReadsBack {α : Type} (read : Decoder α) (j : Json) (a : α) : Prop :=
  ∀ (depth : Nat) (j' : Json), j'.sorted = j.sorted → j.depth < depth → read depth j' = .ok a

/-- A field is read back from what is written for it; where nothing is, it has the value of a missing
one. -/
def Restored {α : Type} (read : Decoder α) (empty : α) (written : Option Json) (a : α) : Prop :=
  match written with
  | some j => ReadsBack read j a
  | none => a = empty

section Decoders

variable {α : Type} {read : Decoder α}

theorem readsBack_text {s : String} {a : α} (h : ∀ depth, read depth (text s) = .ok a) :
    ReadsBack read (text s) a := by
  intro depth j' hj' _
  rw [eq_text_of_sorted_eq hj']
  exact h depth

theorem readsBack_bool (b : Bool) : ReadsBack readBool (.bool b) b := by
  intro depth j' hj' _
  rw [eq_bool_of_sorted_eq hj']
  rfl

/-- One of a closed set of names is read back from its name. -/
theorem readsBack_variant {ofName? : String → Option α} {known : List String} {name : String} {a : α}
    (h : ofName? name = some a) : ReadsBack (readVariant ofName? known) (text name) a :=
  readsBack_text fun depth => by simp [readVariant, text, variant, h]

/-- What is not `null` is read as it is where `null` would be allowed too. -/
theorem ReadsBack.orElse {j : Json} {a : α} (h : ReadsBack read j a) (hnull : j ≠ .null) (ifNull : α) :
    ReadsBack (orElse ifNull read) j a := by
  intro depth j' hj' hdepth
  have hread := h depth j' hj' hdepth
  cases j' with
  | null => exact absurd (eq_null_of_sorted_eq hj'.symm) hnull
  | _ => exact hread

theorem ReadsBack.map {β : Type} {j : Json} {a : α} (h : ReadsBack read j a) (f : α → β) :
    ReadsBack (fun depth j => (read depth j).map f) j (f a) := by
  intro depth j' hj' hdepth
  simp only [h depth j' hj' hdepth, Except.map]

theorem ReadsBack.option {j : Json} {a : α} (h : ReadsBack read j a) (hnull : j ≠ .null) :
    ReadsBack (readOption read) j (some a) :=
  (h.map some).orElse hnull none

theorem readsBack_orNull {write : α → Json} {a? : Option α} (hnull : ∀ a, write a ≠ .null)
    (h : ∀ a ∈ a?, ReadsBack read (write a) a) : ReadsBack (readOption read) (orNull write a?) a? := by
  cases a? with
  | none =>
      intro depth j' hj' _
      rw [eq_null_of_sorted_eq hj']
      rfl
  | some a => exact (h a rfl).option (hnull a)

theorem mapM_eq_ok {write : α → Json} {as : List α} {items : List Json} {depth : Nat}
    (hsame : items.map sorted = (as.map write).map sorted)
    (h : ∀ a ∈ as, ReadsBack read (write a) a ∧ (write a).depth < depth) :
    items.mapM (read depth) = .ok as := by
  induction as generalizing items with
  | nil =>
      obtain rfl : items = [] := by simpa using hsame
      rfl
  | cons a rest ih =>
      cases items with
      | nil => simp at hsame
      | cons j items =>
          rw [List.map_cons, List.map_cons, List.map_cons, List.cons.injEq] at hsame
          obtain ⟨hback, hdepth⟩ := h a List.mem_cons_self
          rw [List.mapM_cons, hback depth j hsame.1 hdepth,
            ih hsame.2 fun b hb => h b (List.mem_cons_of_mem a hb)]
          rfl

/-- A list is read back when every value in it is. -/
theorem readsBack_list {write : α → Json} {as : List α} (h : ∀ a ∈ as, ReadsBack read (write a) a) :
    ReadsBack (readList read) (list write as) as := by
  intro depth j' hj' hdepth
  obtain ⟨items, rfl, hsame⟩ := exists_of_sorted_eq_array hj'
  obtain ⟨below, hinside, hle⟩ := inside_of_lt hdepth
  have hread : items.mapM (read below) = .ok as := mapM_eq_ok hsame fun a ha =>
    ⟨h a ha, Nat.lt_of_lt_of_le (depth_lt_array (List.mem_map_of_mem ha)) hle⟩
  simp [readList, array, hinside, hread, ended, bind, Except.bind, pure, Except.pure]

theorem restored_map {write : α → Json} {a? : Option α} (hnull : ∀ a, write a ≠ .null)
    (h : ∀ a ∈ a?, ReadsBack read (write a) a) :
    Restored (readOption read) none (a?.map write) a? := by
  cases a? with
  | none => rfl
  | some a => exact (h a rfl).option (hnull a)

end Decoders

/-- The fields of a record are all of its fields, and each has a key of its own. -/
structure Layout.Lawful {F : Type} (l : Layout F) : Prop where
  nodup : l.fields.Nodup
  mem_fields : ∀ f, f ∈ l.fields
  field?_key : ∀ f, l.field? (l.key f) = some f

theorem Layout.Lawful.key_injective {F : Type} {l : Layout F} (hl : l.Lawful) :
    Function.Injective l.key := by
  intro f g hkey
  have hfield := hl.field?_key f
  rw [hkey, hl.field?_key g] at hfield
  exact (Option.some.inj hfield).symm

namespace Schema

variable {F : Type} [DecidableEq F] {V : F → Type} {s : Schema F V} {v : (f : F) → V f}

/-- A member of an object that is a field with the right value, or that is passed over. -/
def Admits (s : Schema F V) (v : (f : F) → V f) (depth : Nat) (m : Quoted × Json) : Prop :=
  (∃ f, m.1 = .text (s.key f) ∧ s.read f depth m.2 = .ok (v f)) ∨
    ∃ key, m.1 = .text key ∧ s.field? key = none ∧ m.2.skipFault? = none

/-- Reading members with different keys, in any order, puts the fields among them into the draft. -/
theorem exists_readMembers_eq_ok (hl : s.Lawful) {depth : Nat} {members : List (Quoted × Json)}
    (hmembers : ∀ m ∈ members, s.Admits v depth m) (hnodup : (members.map Prod.fst).Nodup)
    {d : Draft V} (hd : ∀ f, .text (s.key f) ∈ members.map Prod.fst → d f = none) :
    ∃ d', s.readMembers depth members d = .ok d' ∧
      (∀ f, .text (s.key f) ∈ members.map Prod.fst → d' f = some (v f)) ∧
      ∀ f, .text (s.key f) ∉ members.map Prod.fst → d' f = d f := by
  induction members generalizing d with
  | nil => exact ⟨d, rfl, by simp, by simp⟩
  | cons m rest ih =>
      have hrest : ∀ m' ∈ rest, s.Admits v depth m' := fun m' hm' =>
        hmembers m' (List.mem_cons_of_mem m hm')
      rw [List.map_cons, List.nodup_cons] at hnodup
      obtain ⟨q, j⟩ := m
      rcases hmembers (q, j) List.mem_cons_self with ⟨f, rfl, hread⟩ | ⟨key, rfl, hunknown, hskip⟩
      · have hfirst : (d f).isSome = false := by
          simp [hd f (by simp)]
        have hother : ∀ g, .text (s.key g) ∈ rest.map Prod.fst → g ≠ f := by
          rintro g hg rfl
          exact hnodup.1 hg
        obtain ⟨d', hd', hread', hkept⟩ := ih hrest hnodup.2 (d := put d f (v f)) fun g hg => by
          rw [put_of_ne d (v f) (hother g hg)]
          exact hd g (by simp [hg])
        refine ⟨d', ?_, fun g hg => ?_, fun g hg => ?_⟩
        · rw [readMembers, hl.field?_key f]
          simp only [hfirst, hread, hd', Bool.false_eq_true, ↓reduceIte]
        · by_cases hgf : g = f
          · subst hgf
            rw [hkept g hnodup.1, put_self]
          · refine hread' g ?_
            rw [List.map_cons, List.mem_cons, Quoted.text.injEq] at hg
            exact hg.resolve_left fun hkey => hgf (hl.key_injective hkey)
        · rw [List.map_cons, List.mem_cons, not_or] at hg
          rw [hkept g hg.2, put_of_ne d (v f) (by rintro rfl; exact hg.1 rfl)]
      · obtain ⟨d', hd', hread', hkept⟩ := ih hrest hnodup.2 (d := d) fun g hg => hd g (by simp [hg])
        have hne : ∀ g, s.key g ≠ key := by
          rintro g rfl
          simp [hl.field?_key g] at hunknown
        refine ⟨d', ?_, fun g hg => hread' g ?_, fun g hg => hkept g ?_⟩
        · rw [readMembers, hunknown]
          simp only [hskip, hd']
        · simpa [hne g] using hg
        · simpa [hne g] using hg

/-- A record is read back from an object in which every member is a field that is read back, or a text
under another key, and in which no field is missing but such as have the value for that. -/
theorem readsBack_object (hl : s.Lawful) {members : List (String × Json)}
    (hnodup : (members.map Prod.fst).Nodup)
    (hmembers : ∀ m ∈ members, (∃ f, m.1 = s.key f ∧ ReadsBack (s.read f) m.2 (v f)) ∨
      (s.field? m.1 = none ∧ ∃ t, m.2 = text t))
    (hmissing : ∀ f, s.key f ∉ members.map Prod.fst → v f = s.empty f ∧ s.neededInObject f = false) :
    ReadsBack s.readFields (object members) v := by
  intro depth j' hj' hdepth
  obtain ⟨members', rfl, hperm⟩ := exists_of_sorted_eq_object hj'
  obtain ⟨below, hinside, hle⟩ := inside_of_lt hdepth
  have hkeys : (members'.map Prod.fst).Perm ((members.map Prod.fst).map Quoted.text) := by
    simpa [Function.comp_def] using hperm.map Prod.fst
  have hadmits : ∀ m' ∈ members', s.Admits v below m' := by
    rintro ⟨q, j⟩ hm'
    have hmem := hperm.mem_iff.mp (List.mem_map_of_mem hm')
    obtain ⟨m, hm, heq⟩ := List.mem_map.mp hmem
    obtain ⟨rfl, hsame⟩ := Prod.mk.inj heq
    have hlow : m.2.depth < below := Nat.lt_of_lt_of_le (depth_lt_object hm) hle
    rcases hmembers m hm with ⟨f, hkey, hread⟩ | ⟨hunknown, t, htext⟩
    · exact Or.inl ⟨f, congrArg _ hkey, hread below j hsame.symm hlow⟩
    · refine Or.inr ⟨m.1, rfl, hunknown, ?_⟩
      rw [htext] at hsame
      rw [show j = text t from eq_text_of_sorted_eq hsame.symm]
      rfl
  have hmem_iff : ∀ f, Quoted.text (s.key f) ∈ members'.map Prod.fst ↔
      s.key f ∈ members.map Prod.fst := by
    intro f
    rw [hkeys.mem_iff]
    simp
  have hnodup' : (members'.map Prod.fst).Nodup := by
    rw [hkeys.nodup_iff]
    exact hnodup.map fun a b h => Quoted.text.inj h
  obtain ⟨d, hd, hread, hkept⟩ := exists_readMembers_eq_ok hl hadmits hnodup' (d := fun _ => none)
    fun _ _ => rfl
  have hcomplete : s.fields.find? (fun f => (d f).isNone && s.neededInObject f) = none := by
    rw [List.find?_eq_none]
    intro f _
    by_cases hf : s.key f ∈ members.map Prod.fst
    · simp [hread f ((hmem_iff f).mpr hf)]
    · simp [(hmissing f hf).2]
  have hvalues : (fun f => (d f).getD (s.empty f)) = v := by
    funext f
    by_cases hf : s.key f ∈ members.map Prod.fst
    · rw [hread f ((hmem_iff f).mpr hf), Option.getD_some]
    · rw [hkept f (mt (hmem_iff f).mp hf), (hmissing f hf).1, Option.getD_none]
  simp only [readFields, hinside, hd, ended, hcomplete, hvalues, bind, Except.bind, pure, Except.pure]

/-- A record is read back from the object that is written for it when all of its fields are. -/
theorem readsBack_write (hl : s.Lawful) {value? : F → Option Json}
    (hfields : ∀ f, Restored (s.read f) (s.empty f) (value? f) (v f))
    (hneeded : ∀ f, s.neededInObject f = true → (value? f).isSome = true) :
    ReadsBack s.readFields (s.write value?) v := by
  have hmem_iff : ∀ m : String × Json, m ∈ s.fields.filterMap (fun f => (value? f).map (s.key f, ·)) ↔
      ∃ f, value? f = some m.2 ∧ m.1 = s.key f := by
    rintro ⟨key, j⟩
    simp only [List.mem_filterMap, hl.mem_fields, true_and, Option.map_eq_some_iff, Prod.mk.injEq]
    constructor
    · rintro ⟨f, _, hvalue, rfl, rfl⟩
      exact ⟨f, hvalue, rfl⟩
    · rintro ⟨f, hvalue, rfl⟩
      exact ⟨f, j, hvalue, rfl, rfl⟩
  refine readsBack_object hl ?_ ?_ ?_
  · rw [List.map_filterMap]
    refine hl.nodup.filterMap fun f g key hf hg => hl.key_injective ?_
    simp only [Option.mem_def, Option.map_map, Option.map_eq_some_iff, Function.comp_apply] at hf hg
    obtain ⟨_, -, rfl⟩ := hf
    obtain ⟨_, -, hkey⟩ := hg
    exact hkey.symm
  · intro m hm
    obtain ⟨f, hvalue, hkey⟩ := (hmem_iff m).mp hm
    have hfield := hfields f
    rw [hvalue] at hfield
    exact Or.inl ⟨f, hkey, hfield⟩
  · intro f hf
    have hnone : value? f = none := by
      by_contra hsome
      obtain ⟨j, hj⟩ := Option.ne_none_iff_exists'.mp hsome
      exact hf (List.mem_map.mpr ⟨(s.key f, j), (hmem_iff _).mpr ⟨f, hj, rfl⟩, rfl⟩)
    have hfield := hfields f
    rw [hnone] at hfield
    refine ⟨hfield, ?_⟩
    by_contra htrue
    have hsome := hneeded f (by simpa using htrue)
    simp [hnone] at hsome

/-- The same for what is made of the fields. -/
theorem readsBack_write_map {α : Type} {of : ((f : F) → V f) → α} {a : α} (hl : s.Lawful)
    (v : (f : F) → V f) (hof : of v = a) {value? : F → Option Json}
    (hfields : ∀ f, Restored (s.read f) (s.empty f) (value? f) (v f))
    (hneeded : ∀ f, s.neededInObject f = true → (value? f).isSome = true) :
    ReadsBack (fun depth j => (s.readFields depth j).map of) (s.write value?) a :=
  hof ▸ (readsBack_write hl hfields hneeded).map of

end Schema

end FlowScope.Json
