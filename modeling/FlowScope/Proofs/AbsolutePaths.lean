import FlowScope.Files.Tree
import FlowScope.Proofs.TokenPieces
/-!
Paths from the root, made of proper names. Such a path is taken apart into these names again, a path
below a folder is one of them, and in a tree of files each leads to where its names lead.
-/
namespace FlowScope

namespace Path

/-- A name that a file or folder can have. -/
structure ProperName (name : String) : Prop where
  ne_empty : name ≠ ""
  ne_here : name ≠ "."
  ne_up : name ≠ ".."
  slashless : '/' ∉ name.toList

/-- Names that files and folders can have. -/
def Proper (names : List String) : Prop := ∀ name ∈ names, ProperName name

/-- The path from the root to a place. -/
def absolute (names : List String) : String := "/" ++ ofNames names

theorem toList_absolute (names : List String) :
    (absolute names).toList = '/' :: (ofNames names).toList := by
  rw [absolute, String.toList_append]
  rfl

theorem Proper.left {first rest : List String} (h : Proper (first ++ rest)) : Proper first :=
  fun name hname => h name (List.mem_append_left _ hname)

theorem Proper.right {first rest : List String} (h : Proper (first ++ rest)) : Proper rest :=
  fun name hname => h name (List.mem_append_right _ hname)

theorem splitOn_ofNames {names : List String} (h : Proper names) (hne : names ≠ []) :
    (ofNames names).toList.splitOn '/' = names.map String.toList := by
  rw [ofNames, String.toList_intercalate]
  refine List.splitOn_intercalate '/' (fun piece hpiece => ?_) (by simpa using hne)
  obtain ⟨name, hname, rfl⟩ := List.mem_map.mp hpiece
  exact (h name hname).slashless

theorem ofNames_ne_empty {names : List String} (h : Proper names) (hne : names ≠ []) :
    ofNames names ≠ "" := by
  intro hempty
  have hpieces := splitOn_ofNames h hne
  obtain ⟨name, rest, rfl⟩ := List.exists_cons_of_ne_nil hne
  rw [hempty, List.map_cons] at hpieces
  have hname : name.toList = [] := (List.cons.inj hpieces).1.symm
  exact (h name List.mem_cons_self).ne_empty (String.toList_eq_nil_iff.mp hname)

/-- Different names make different paths. -/
theorem absolute_inj {names others : List String} (h : Proper names) (hothers : Proper others)
    (heq : absolute names = absolute others) : names = others := by
  have htext : ofNames names = ofNames others := by
    rw [← String.toList_inj, toList_absolute, toList_absolute] at heq
    exact String.toList_inj.mp (List.cons.inj heq).2
  by_cases hne : names = []
  · subst hne
    by_contra hother
    exact ofNames_ne_empty hothers (Ne.symm hother) htext.symm
  · have hne' : others ≠ [] := by
      rintro rfl
      exact ofNames_ne_empty h hne htext
    have hmap : names.map String.toList = others.map String.toList := by
      rw [← splitOn_ofNames h hne, ← splitOn_ofNames hothers hne', htext]
    exact List.map_injective_iff.mpr (fun a b => String.toList_inj.mp) hmap

theorem partOf?_toList {name : String} (h : ProperName name) :
    partOf? name.toList = some (.name name) := by
  have hempty : name.toList ≠ [] := fun heq => h.ne_empty (String.toList_eq_nil_iff.mp heq)
  have hhere : name.toList ≠ ['.'] := fun heq => h.ne_here (String.toList_inj.mp heq)
  have hup : name.toList ≠ ['.', '.'] := fun heq => h.ne_up (String.toList_inj.mp heq)
  simp [partOf?, hempty, hhere, hup]

/-- The parts of a path from the root are the root and the names. -/
theorem parts_absolute {names : List String} (h : Proper names) :
    parts (absolute names) = .root :: names.map .name := by
  have hpieces : (absolute names).toList.splitOn '/' = [] :: (ofNames names).toList.splitOn '/' := by
    rw [toList_absolute]
    exact List.splitOn_append_cons_self [] _
  obtain ⟨piece, more, hmore⟩ := List.exists_cons_of_ne_nil
    (List.splitOn_ne_nil '/' (ofNames names).toList)
  have hnames : ((ofNames names).toList.splitOn '/').filterMap partOf? = names.map .name := by
    by_cases hne : names = []
    · subst hne
      rfl
    · rw [splitOn_ofNames h hne, List.filterMap_map]
      refine (List.filterMap_congr fun name hname => partOf?_toList (h name hname)).trans ?_
      exact congrFun List.filterMap_eq_map names
  rw [parts, hpieces, List.filterMap_cons_none (by rfl), hnames, hmore]
  rfl

theorem toList_ofNames_append {first rest : List String} (hfirst : first ≠ []) (hrest : rest ≠ []) :
    (ofNames (first ++ rest)).toList = (ofNames first).toList ++ '/' :: (ofNames rest).toList := by
  obtain ⟨name, rest, rfl⟩ := List.exists_cons_of_ne_nil hrest
  induction first with
  | nil => exact absurd rfl hfirst
  | cons a others ih =>
      cases others with
      | nil => simp [ofNames, String.toList_intercalate]
      | cons b others =>
          have hmore := ih (by simp)
          simp only [ofNames, String.toList_intercalate, List.cons_append, List.map_cons] at hmore ⊢
          rw [List.intercalate_cons_cons, hmore, List.intercalate_cons_cons]
          simp

/-- There is no slash at either end of proper names. -/
theorem nil_notMem_splitOn_ofNames {names : List String} (h : Proper names) (hne : names ≠ []) :
    [] ∉ (ofNames names).toList.splitOn '/' := by
  rw [splitOn_ofNames h hne, List.mem_map]
  rintro ⟨name, hname, hempty⟩
  exact (h name hname).ne_empty (String.toList_eq_nil_iff.mp hempty)

theorem startsWith_ofNames {names : List String} (h : Proper names) (hne : names ≠ []) :
    (ofNames names).startsWith "/" = false := by
  rw [String.startsWith_string_eq_false_iff]
  rintro ⟨rest, hrest⟩
  apply nil_notMem_splitOn_ofNames h hne
  rw [← hrest]
  exact List.mem_of_mem_head? (by simp [List.splitOn_cons_eq_if_modifyHead])

theorem endsWith_absolute {names : List String} (h : Proper names) :
    (absolute names).endsWith "/" = names.isEmpty := by
  rw [String.endsWith_eq_endsWith_toSlice, Bool.eq_iff_iff, String.Slice.endsWith_string_iff,
    String.copy_toSlice, toList_absolute, List.isEmpty_iff]
  constructor
  · intro hslash
    by_contra hne
    rcases List.suffix_cons_iff.mp hslash with heq | ⟨front, hfront⟩
    · have hnil : (ofNames names).toList = [] := (List.cons.inj heq).2.symm
      exact ofNames_ne_empty h hne (String.toList_eq_nil_iff.mp hnil)
    · apply nil_notMem_splitOn_ofNames h hne
      rw [← hfront]
      exact (List.splitOn_append_cons_self front []).symm ▸ List.mem_append_right _ (by simp)
  · rintro rfl
    exact List.suffix_rfl

theorem isEmpty_absolute (names : List String) : (absolute names).isEmpty = false := by
  rw [Bool.eq_false_iff, ne_eq, String.isEmpty_iff, ← String.toList_eq_nil_iff, toList_absolute]
  exact List.cons_ne_nil _ _

/-- An absolute path does not insist on a folder, unless it is the root. -/
theorem wantsFolder_absolute {names : List String} (h : Proper names) (hne : names ≠ []) :
    FileTree.wantsFolder (absolute names) = false := by
  have hdot : (absolute names).endsWith "/." = false := by
    rw [String.endsWith_eq_endsWith_toSlice, Bool.eq_false_iff, ne_eq,
      String.Slice.endsWith_string_iff, String.copy_toSlice, toList_absolute]
    intro hsuffix
    obtain ⟨front, hfront⟩ := hsuffix
    have hpieces : ['.'] ∈ ('/' :: (ofNames names).toList).splitOn '/' := by
      rw [← hfront]
      exact (List.splitOn_append_cons_self front ['.']).symm ▸ List.mem_append_right _ (by decide)
    have hcons : ('/' :: (ofNames names).toList).splitOn '/' =
        [] :: (ofNames names).toList.splitOn '/' := List.splitOn_append_cons_self [] _
    rw [hcons, splitOn_ofNames h hne, List.mem_cons, List.mem_map] at hpieces
    rcases hpieces with hempty | ⟨name, hname, hdot⟩
    · cases hempty
    · exact (h name hname).ne_here (String.toList_inj.mp hdot)
  rw [FileTree.wantsFolder, endsWith_absolute h, hdot, Bool.or_false]
  exact List.isEmpty_eq_false_iff.mpr hne

theorem startsWith_absolute (names : List String) : (absolute names).startsWith "/" = true := by
  rw [String.startsWith_string_iff, toList_absolute]
  exact ⟨_, rfl⟩

theorem fileName?_eq_some_iff {path name : String} :
    fileName? path = some name ↔ (parts path).getLast? = some (.name name) := by
  rw [fileName?]
  split
  · next s h => rw [h, Option.some.injEq, Option.some.injEq, PathPart.name.injEq]
  · next h =>
      constructor
      · intro hsome
        cases hsome
      · intro hlast
        exact absurd hlast (h name)

/-- The path of a place below a folder. -/
theorem join_absolute {start names : List String} (hproper : Proper (start ++ names))
    (hne : names ≠ []) : join (absolute start) (ofNames names) = absolute (start ++ names) := by
  rw [join, startsWith_ofNames hproper.right hne, isEmpty_absolute, endsWith_absolute hproper.left]
  cases start with
  | nil => rfl
  | cons a others =>
      rw [← String.toList_inj, toList_absolute,
        toList_ofNames_append (List.cons_ne_nil a others) hne]
      simp [toList_absolute]

end Path

namespace FileTree

/-- A tree in which all names are proper and nothing is below a file. -/
structure Sound (t : FileTree) : Prop where
  proper : ∀ {way : List String} {content : String}, (way, content) ∈ t.files → Path.Proper way
  below : ∀ {way more : List String} {content other : String}, (way, content) ∈ t.files →
    (way ++ more, other) ∈ t.files → more = []

variable {t : FileTree} {start names : List String} {content : String}

/-- Whether a tree is sound shows in its files. -/
theorem sound_of_files
    (hnames : ∀ f ∈ t.files, ∀ name ∈ f.1, name ≠ "" ∧ name ≠ "." ∧ name ≠ ".." ∧ '/' ∉ name.toList)
    (hleaf : ∀ f ∈ t.files, ∀ g ∈ t.files, f.1 <+: g.1 → f.1 = g.1) : t.Sound := by
  constructor
  · intro way content hfile name hname
    obtain ⟨hempty, hhere, hup, hslash⟩ := hnames _ hfile name hname
    exact ⟨hempty, hhere, hup, hslash⟩
  · intro way more content other hfile hmore
    simpa using hleaf _ hfile _ hmore (List.prefix_append way more)

theorem hasFolder_of_mem (hfile : (start ++ names, content) ∈ t.files) (hne : names ≠ []) :
    t.hasFolder start = true := by
  have hother : start ≠ start ++ names := by simpa using hne
  have hany : (t.files.any fun f => start.isPrefixOf f.1 && start != f.1) = true :=
    List.any_eq_true.mpr ⟨_, hfile, by simp [hother]⟩
  rw [hasFolder, Bool.or_eq_true]
  exact Or.inr hany

theorem hasFile_iff {place : List String} :
    t.hasFile place = true ↔ ∃ content, (place, content) ∈ t.files := by
  rw [hasFile, content?, Option.isSome_map, List.find?_isSome]
  constructor
  · intro h
    obtain ⟨⟨way, content⟩, hmem, heq⟩ := h
    obtain rfl : way = place := by simpa using heq
    exact ⟨content, hmem⟩
  · intro h
    obtain ⟨content, hmem⟩ := h
    exact ⟨_, hmem, by simp⟩

/-- On the way to a folder there are folders. -/
theorem hasFolder_above {place : List String} (hsub : start <+: place)
    (h : t.hasFolder place = true) : t.hasFolder start = true := by
  simp only [hasFolder, Bool.or_eq_true, List.any_eq_true, List.isPrefixOf_iff_prefix,
    List.isEmpty_iff, Bool.and_eq_true, bne_iff_ne] at h ⊢
  rcases h with ((hempty | ⟨folder, hfolder, hbelow⟩) | hcurrent) | ⟨⟨file, content⟩, hfile, hbelow, hne⟩
  · rw [hempty, List.prefix_nil] at hsub
    exact Or.inl (Or.inl (Or.inl hsub))
  · exact Or.inl (Or.inl (Or.inr ⟨folder, hfolder, hsub.trans hbelow⟩))
  · exact Or.inl (Or.inr (hsub.trans hcurrent))
  · refine Or.inr ⟨⟨file, content⟩, hfile, hsub.trans hbelow, ?_⟩
    intro heq
    subst heq
    exact hne (hbelow.eq_of_length (Nat.le_antisymm hbelow.length_le hsub.length_le))

/-- On the way to anything there are folders. -/
theorem hasFolder_of_hasAny (h : t.hasAny (start ++ names) = true) (hne : names ≠ []) :
    t.hasFolder start = true := by
  rw [hasAny, Bool.or_eq_true] at h
  rcases h with hfile | hfolder
  · obtain ⟨content, hfile⟩ := hasFile_iff.mp hfile
    exact hasFolder_of_mem hfile hne
  · exact hasFolder_above (List.prefix_append start names) hfolder

/-- The names on the way to anything lead there. -/
theorem follow_names (h : t.hasAny (start ++ names) = true) :
    t.follow (names.map .name) start = .ok (start ++ names) := by
  induction names generalizing start with
  | nil =>
      rw [List.append_nil]
      rfl
  | cons name rest ih =>
      have hfolder : t.hasFolder start = true := hasFolder_of_hasAny h (by simp)
      rw [List.append_cons] at h
      have hthere : t.hasAny (start ++ [name]) = true := by
        by_cases hrest : rest = []
        · rw [hrest, List.append_nil] at h
          exact h
        · rw [hasAny, hasFolder_of_hasAny h hrest, Bool.or_true]
      rw [List.map_cons, follow]
      simp only [hfolder, hthere, Bool.not_true, Bool.false_eq_true, ↓reduceIte]
      rw [List.append_cons start name rest]
      exact ih h

/-- The absolute path of anything leads there. -/
theorem locate_absolute_of_hasAny (hproper : Path.Proper start) (h : t.hasAny start = true) :
    t.locate (Path.absolute start) = .ok start := by
  have hcurrent : t.hasFolder t.current = true := by simp [hasFolder]
  have hfollow : t.follow (Path.parts (Path.absolute start)) t.current = .ok start := by
    rw [Path.parts_absolute hproper, follow]
    simp only [hcurrent, Bool.not_true, Bool.false_eq_true, ↓reduceIte]
    exact follow_names h
  have hwants : (wantsFolder (Path.absolute start) && !t.hasFolder start) = false := by
    by_cases hne : start = []
    · simp [hne, hasFolder]
    · rw [Path.wantsFolder_absolute hproper hne, Bool.false_and]
  simp only [locate, Path.isEmpty_absolute, hfollow, hwants, Bool.false_eq_true, ↓reduceIte]

/-- The path to a folder with a file in it leads to that folder. -/
theorem locate_absolute (hproper : Path.Proper start) (hfile : (start ++ names, content) ∈ t.files)
    (hne : names ≠ []) : t.locate (Path.absolute start) = .ok start := by
  apply locate_absolute_of_hasAny hproper
  rw [hasAny, hasFolder_of_mem hfile hne, Bool.or_true]

theorem Sound.hasFile_eq_false (ht : t.Sound) (hfile : (start ++ names, content) ∈ t.files)
    (hne : names ≠ []) : t.hasFile start = false := by
  rw [hasFile, content?, Option.isSome_map, Option.isSome_eq_false_iff, Option.isNone_iff_eq_none,
    List.find?_eq_none]
  rintro ⟨way, other⟩ hway heq
  obtain rfl : way = start := by simpa using heq
  exact hne (ht.below hway hfile)

theorem Sound.isFile_absolute (ht : t.Sound) (hfile : (start ++ names, content) ∈ t.files)
    (hne : names ≠ []) : t.isFile (Path.absolute start) = false := by
  rw [isFile, locate_absolute (ht.proper hfile).left hfile hne]
  exact ht.hasFile_eq_false hfile hne

end FileTree

end FlowScope
