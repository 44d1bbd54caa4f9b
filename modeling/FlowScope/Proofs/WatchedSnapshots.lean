import FlowScope.Proofs.AbsolutePaths
import FlowScope.Watch
/-!
What is found in a folder and what is watched there. Both look for the same names and use the same
filter, that of the folder itself. But only what the walk comes to is found: hidden names, and what the
ignore files of further folders say, count for the walk and not for a watcher.
-/
namespace FlowScope

namespace FileTree

variable {t : FileTree} {start names : List String} {content : String}

/-- The walk comes to a file when it leaves out no place on the way there. -/
theorem reachesFile_iff : t.reachesFile start names = true ↔ ∀ first name rest,
    names = first ++ name :: rest → t.skips (start ++ first ++ [name]) (!rest.isEmpty) = false := by
  induction names generalizing start with
  | nil => simp [reachesFile]
  | cons name rest ih =>
      rw [reachesFile, Bool.and_eq_true, Bool.not_eq_true', ih]
      constructor
      · rintro ⟨hhead, htail⟩ first next more heq
        cases first with
        | nil =>
            obtain ⟨rfl, rfl⟩ := List.cons.inj heq
            simpa using hhead
        | cons a others =>
            obtain ⟨rfl, hrest⟩ := List.cons.inj heq
            simpa using htail others next more hrest
      · intro h
        refine ⟨by simpa using h [] name rest rfl, fun first next more heq => ?_⟩
        simpa using h (name :: first) next more (by rw [heq, List.cons_append])

/-- There are no files that say what to ignore. -/
def Unruled (t : FileTree) : Prop :=
  ∀ folder, ∀ file ∈ [[".ignore"], [".gitignore"], [".git", "info", "exclude"]],
    t.content? (folder ++ file) = none

theorem Unruled.verdictOf (h : t.Unruled) {file : List String}
    (hfile : file ∈ [[".ignore"], [".gitignore"], [".git", "info", "exclude"]])
    (way : List (List String × List String)) (isFolder : Bool) :
    t.verdictOf file way isFolder = .none := by
  induction way with
  | nil => rfl
  | cons entry rest ih =>
      obtain ⟨folder, below⟩ := entry
      have hempty : t.patternsIn folder file = [] := by
        rw [patternsIn, h folder file hfile]
      rw [FileTree.verdictOf] at ih ⊢
      rw [List.foldr_cons, ih]
      simp only [hempty]
      rfl

/-- Without such files the walk leaves out hidden names only. -/
theorem Unruled.skips (h : t.Unruled) (place : List String) (name : String) (isFolder : Bool) :
    t.skips (place ++ [name]) isFolder = name.startsWith "." := by
  rw [FileTree.skips, h.verdictOf (by simp), h.verdictOf (by simp), h.verdictOf (by simp),
    List.getLast?_concat]
  rfl

theorem Unruled.reachesFile_iff (h : t.Unruled) :
    t.reachesFile start names = true ↔ ∀ name ∈ names, name.startsWith "." = false := by
  rw [FileTree.reachesFile_iff]
  simp only [h.skips]
  constructor
  · intro hall name hname
    obtain ⟨first, rest, rfl⟩ := List.append_of_mem hname
    exact hall first name rest rfl
  · rintro hall first name rest rfl
    exact hall name (by simp)

/-- A snapshot is found in a folder if the walk comes to it and the filter of the folder lets it
pass. -/
theorem mem_findSnapshots_iff (ht : t.Sound) (exclude : List String)
    (hfile : (start ++ names, content) ∈ t.files) (hne : names ≠ []) :
    Path.absolute (start ++ names) ∈ findSnapshots t (Path.absolute start) exclude ↔
      t.reachesFile start names = true ∧ Path.isSnapshot (Path.absolute (start ++ names)) = true ∧
        (IgnoreFilter.make t (Path.absolute start) exclude).ignores
          (Path.absolute (start ++ names)) false = false := by
  have hproper := ht.proper hfile
  have hlocate := locate_absolute hproper.left hfile hne
  have hjoin := Path.join_absolute hproper hne
  rw [findSnapshots, ht.isFile_absolute hfile hne, hlocate]
  simp only [Bool.false_eq_true, ↓reduceIte, List.mem_map, List.mem_mergeSort, List.mem_filter,
    List.mem_filterMap, Bool.and_eq_true, Bool.not_eq_true']
  constructor
  · rintro ⟨others, ⟨⟨⟨way, other⟩, hway, hbelow⟩, ⟨hreached, hsnapshot⟩, hpasses⟩, heq⟩
    obtain ⟨hbegins, hdrop⟩ := Option.ite_none_right_eq_some.mp hbelow
    obtain ⟨rest, rfl⟩ := List.isPrefixOf_iff_prefix.mp hbegins
    obtain rfl : rest = others := by simpa using hdrop
    have hrest : rest ≠ [] := by
      rintro rfl
      rw [List.append_nil] at hway
      exact hne (ht.below hway hfile)
    rw [Path.join_absolute (ht.proper hway) hrest] at heq hsnapshot hpasses
    obtain rfl : rest = names :=
      List.append_cancel_left (Path.absolute_inj (ht.proper hway) hproper heq)
    exact ⟨hreached, hsnapshot, hpasses⟩
  · rintro ⟨hreached, hsnapshot, hpasses⟩
    refine ⟨names, ⟨⟨(start ++ names, content), hfile, ?_⟩, ⟨hreached, ?_⟩, ?_⟩, hjoin⟩
    · simp
    · rwa [hjoin]
    · rwa [hjoin]

end FileTree

namespace Watcher

variable {t : FileTree} {start names : List String} {content : String}

/-- A watcher of a folder cares for the snapshots that the filter of the folder lets pass. -/
theorem watches_iff (ht : t.Sound) (exclude : List String)
    (hfile : (start ++ names, content) ∈ t.files) (hne : names ≠ []) (path : String) :
    (make t (Path.absolute start) exclude).watches t path = true ↔ Path.isSnapshot path = true ∧
      (IgnoreFilter.make t (Path.absolute start) exclude).ignores path false = false := by
  have hlocate := FileTree.locate_absolute (ht.proper hfile).left hfile hne
  have hfolder := ht.isFile_absolute hfile hne
  have hroot : rootOf t (Path.absolute start) = Path.absolute start := by
    rw [rootOf, hfolder]
    simp only [Bool.false_eq_true, ↓reduceIte, hlocate]
    rfl
  have hthere : t.exists? (Path.absolute start) = true := by
    rw [FileTree.exists?, hlocate]
    rfl
  rw [watches, make, hroot]
  simp [hfolder, hthere]

/-- A file below a folder is found there exactly when a watcher of the folder cares for it and the walk
comes to it. Where no files say what to ignore, the walk comes to it unless a name on the way is
hidden: so what is found is watched, and of what is watched only files with a hidden name on the way
are not found. -/
theorem mem_findSnapshots_iff_watches (ht : t.Sound) (exclude : List String)
    (hfile : (start ++ names, content) ∈ t.files) (hne : names ≠ []) :
    (Path.absolute (start ++ names) ∈ findSnapshots t (Path.absolute start) exclude ↔
      (make t (Path.absolute start) exclude).watches t (Path.absolute (start ++ names)) = true ∧
        ∀ first name rest, names = first ++ name :: rest →
          t.skips (start ++ first ++ [name]) (!rest.isEmpty) = false) ∧
    (t.Unruled →
      (Path.absolute (start ++ names) ∈ findSnapshots t (Path.absolute start) exclude ↔
        (make t (Path.absolute start) exclude).watches t (Path.absolute (start ++ names)) = true ∧
          ∀ name ∈ names, name.startsWith "." = false)) := by
  have hfound : Path.absolute (start ++ names) ∈ findSnapshots t (Path.absolute start) exclude ↔
      (make t (Path.absolute start) exclude).watches t (Path.absolute (start ++ names)) = true ∧
        t.reachesFile start names = true := by
    rw [FileTree.mem_findSnapshots_iff ht exclude hfile hne, watches_iff ht exclude hfile hne,
      and_comm]
  refine ⟨?_, fun hunruled => ?_⟩
  · rw [hfound, FileTree.reachesFile_iff]
  · rw [hfound, hunruled.reachesFile_iff]

end Watcher

namespace WatchedSnapshotsWitness

/-- A folder with a snapshot, and in it another folder with an ignore file of its own. -/
def tree : FileTree where
  files := [
    (["d", "a.json"], "\x7b\x7d"),
    (["d", "s", ".ignore"], "b.json"),
    (["d", "s", "b.json"], "\x7b\x7d")]

theorem sound_tree : tree.Sound := FileTree.sound_of_files (by decide) (by decide)

theorem a_found :
    (["d"] ++ ["a.json"], "\x7b\x7d") ∈ tree.files ∧ ["a.json"] ≠ ([] : List String) ∧
      Path.absolute ["d", "a.json"] ∈ findSnapshots tree (Path.absolute ["d"]) [] := by
  have hfile : (["d"] ++ ["a.json"], "\x7b\x7d") ∈ tree.files := by decide
  have hne : ["a.json"] ≠ ([] : List String) := by decide
  have hwatched : (Watcher.make tree (Path.absolute ["d"]) []).watches tree
      (Path.absolute ["d", "a.json"]) = true := by decide +kernel
  have hreached : tree.reachesFile ["d"] ["a.json"] = true := by decide +kernel
  exact ⟨hfile, hne, (Watcher.mem_findSnapshots_iff_watches sound_tree [] hfile hne).1.mpr
    ⟨hwatched, FileTree.reachesFile_iff.mp hreached⟩⟩

/-- What is watched is not always what is found: a watcher does not see the ignore file of a folder
inside the one that it watches. -/
theorem not_mem_findSnapshots_iff_watches :
    ¬ ∀ (t : FileTree) (exclude start names : List String) (content : String), t.Sound →
      (start ++ names, content) ∈ t.files → names ≠ [] →
        (Path.absolute (start ++ names) ∈ findSnapshots t (Path.absolute start) exclude ↔
          (Watcher.make t (Path.absolute start) exclude).watches t
            (Path.absolute (start ++ names)) = true) := by
  intro h
  have hfile : (["d"] ++ ["s", "b.json"], "\x7b\x7d") ∈ tree.files := by decide
  have hne : ["s", "b.json"] ≠ ([] : List String) := by decide
  have hwatched : (Watcher.make tree (Path.absolute ["d"]) []).watches tree
      (Path.absolute (["d"] ++ ["s", "b.json"])) = true := by decide +kernel
  have hfound := (h tree [] ["d"] ["s", "b.json"] _ sound_tree hfile hne).mpr hwatched
  have hreached := ((FileTree.mem_findSnapshots_iff sound_tree [] hfile hne).mp hfound).1
  have hmissed : tree.reachesFile ["d"] ["s", "b.json"] = false := by decide +kernel
  rw [hmissed] at hreached
  exact Bool.false_ne_true hreached

end WatchedSnapshotsWitness

end FlowScope
