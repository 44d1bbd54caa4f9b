import FlowScope.Proofs.AbsolutePaths
import FlowScope.Proofs.WatchHistory
/-!
What a watcher of one file tells. It cares for every file that has the name of its own, wherever that
is below the watched folder. So while its file stays in place, it tells of nothing else exactly when
there is no other file of that name below the folder.
-/
namespace FlowScope

namespace FileTree

variable {t : FileTree} {file path root : String} {way place : List String}

/-- The parts of a path are followed one after the other. -/
theorem follow_append (first rest : List PathPart) (place : List String) :
    t.follow (first ++ rest) place = (t.follow first place).bind (t.follow rest) := by
  induction first generalizing place with
  | nil => rfl
  | cons part first ih =>
      rw [List.cons_append]
      simp only [follow]
      split
      · rfl
      · cases part with
        | root => exact ih []
        | here => exact ih place
        | up => exact ih place.dropLast
        | name s =>
            by_cases hthere : t.hasAny (place ++ [s]) = true
            · simp only [hthere, ↓reduceIte]
              exact ih (place ++ [s])
            · simp only [hthere]
              rfl

theorem follow_of_locate (h : t.locate path = .ok place) :
    t.follow (Path.parts path) t.current = .ok place := by
  rw [locate] at h
  split at h
  · cases h
  · split at h
    · cases h
    · next hfollow =>
        split at h
        · cases h
        · cases h
          exact hfollow

/-- A single part leads to a folder, or it is the name of what it leads to. -/
theorem follow_singleton {part : PathPart} {start : List String}
    (h : t.follow [part] start = .ok place) :
    t.hasFolder place = true ∨ ∃ name, part = .name name ∧ place.getLast? = some name := by
  simp only [follow] at h
  split at h
  · cases h
  · next hstart =>
      have hfolder : t.hasFolder start = true := by simpa using hstart
      cases part with
      | root =>
          cases h
          exact Or.inl (hasFolder_above List.nil_prefix hfolder)
      | here =>
          cases h
          exact Or.inl hfolder
      | up =>
          cases h
          exact Or.inl (hasFolder_above (List.dropLast_prefix start) hfolder)
      | name s =>
          simp only at h
          split at h
          · cases h
            exact Or.inr ⟨s, rfl, List.getLast?_concat⟩
          · cases h

/-- A path that leads to anything but a folder ends with its name. -/
theorem fileName?_of_locate (h : t.locate path = .ok place) (hplace : t.hasFolder place = false) :
    Path.fileName? path = place.getLast? := by
  have hfollow := follow_of_locate h
  rcases List.eq_nil_or_concat' (Path.parts path) with hnil | ⟨first, last, hconcat⟩
  · -- Without any parts the path would lead to the folder where it begins.
    have hcurrent : t.hasFolder t.current = true := by simp [hasFolder]
    rw [hnil, follow] at hfollow
    cases hfollow
    rw [hcurrent] at hplace
    exact Bool.noConfusion hplace
  · rw [hconcat, follow_append] at hfollow
    cases hstart : t.follow first t.current with
    | error e =>
        rw [hstart] at hfollow
        cases hfollow
    | ok start =>
        rw [hstart] at hfollow
        rcases follow_singleton hfollow with hfolder | ⟨name, rfl, hname⟩
        · rw [hfolder] at hplace
          exact Bool.noConfusion hplace
        · rw [hname, Path.fileName?_eq_some_iff, hconcat, List.getLast?_concat]

/-- A sound tree in which nothing is both a file and a folder. -/
structure Settled (t : FileTree) : Prop extends t.Sound where
  apart : ∀ {place : List String}, t.hasFile place = true → t.hasFolder place = false

/-- A path leads to a file. -/
structure InPlace (t : FileTree) (file : String) (way : List String) : Prop where
  settled : t.Settled
  leads : t.locate file = .ok way
  isFile : t.hasFile way = true

/-- A path from the root leads to nothing that is not below a folder. -/
def Below (t : FileTree) (root path : String) : Prop :=
  path.startsWith "/" = true ∧ ∃ start, t.locate root = .ok start ∧
    ∀ place, t.locate path = .ok place → start <+: place

/-- Below a folder there is no other file with the name of a file. -/
def NamedOnce (t : FileTree) (root : String) (way : List String) : Prop :=
  ∀ start, t.locate root = .ok start → ∀ place, start <+: place → t.hasFile place = true →
    place.getLast? = way.getLast? → place = way

/-- A path that leads to a file ends with its name. -/
theorem Settled.fileName?_eq (h : t.Settled) (hlocate : t.locate path = .ok place)
    (hfile : t.hasFile place = true) : Path.fileName? path = place.getLast? :=
  fileName?_of_locate hlocate (h.apart hfile)

theorem Settled.inPlace_absolute (h : t.Settled) (hfile : t.hasFile place = true) :
    t.InPlace (Path.absolute place) place := by
  refine ⟨h, ?_, hfile⟩
  obtain ⟨content, hmem⟩ := hasFile_iff.mp hfile
  apply locate_absolute_of_hasAny (h.proper hmem)
  rw [hasAny, hfile, Bool.true_or]

theorem InPlace.isFile_path (h : t.InPlace file way) : t.isFile file = true := by
  rw [FileTree.isFile, h.leads]
  exact h.isFile

theorem InPlace.below (h : t.InPlace (Path.absolute place) place) {start : List String}
    (hroot : t.locate root = .ok start) (hbelow : start <+: place) :
    t.Below root (Path.absolute place) := by
  refine ⟨Path.startsWith_absolute place, start, hroot, ?_⟩
  intro other hother
  obtain rfl : place = other := Except.ok.inj (h.leads.symm.trans hother)
  exact hbelow

end FileTree

namespace Watcher

variable {w : Watcher} {t t₀ : FileTree} {file path root : String} {way place exclude : List String}

/-- A watcher of a file in place cares for a path exactly when it ends with the name of the file. -/
theorem watches_iff_of_inPlace (h : t.InPlace w.path way) :
    w.watches t path = true ↔ Path.fileName? path = way.getLast? := by
  rw [watches, h.isFile_path, Bool.true_or, if_pos rfl, Bool.or_eq_true, beq_iff_eq, beq_iff_eq,
    ← h.settled.fileName?_eq h.leads h.isFile]
  constructor
  · intro hsame
    rcases hsame with hparts | hname
    · rw [Path.fileName?, Path.fileName?, hparts]
    · exact hname
  · exact Or.inr

/-- What is found comes from something written at a file that the watcher cares for. -/
structure FoundAt (w : Watcher) (h : Happening) (e : Told) : Prop where
  tree_eq : e.tree = h.tree
  written : h.kind.isWritten = true
  mem_paths : e.event.path ∈ h.paths
  isFile : h.tree.isFile e.event.path = true
  watches : w.watches h.tree e.event.path = true

/-- What the log has found so far, it has found for the watcher that it began with. -/
structure Traced (start : Watcher) (past : List Happening) (log : List Told) (w : Watcher) : Prop where
  path_eq : w.path = start.path
  filter_eq : w.filter = start.filter
  found : ∀ e ∈ log, e.event.isFound = true → ∃ h ∈ past, start.FoundAt h e

theorem Traced.watches_eq {past : List Happening} {log : List Told} {start : Watcher}
    (h : Traced start past log w) (t : FileTree) (path : String) :
    w.watches t path = start.watches t path := by
  rw [watches, watches, h.path_eq, h.filter_eq]

theorem Traced.append {past : List Happening} {log more : List Told} {start w' : Watcher}
    (h : Traced start past log w) (hpath : w'.path = w.path) (hfilter : w'.filter = w.filter)
    (hmore : ∀ e ∈ more, e.event.isFound = true → ∃ h ∈ past, start.FoundAt h e) :
    Traced start past (log ++ more) w' := by
  refine ⟨hpath.trans h.path_eq, hfilter.trans h.filter_eq, ?_⟩
  intro e he hfound
  rcases List.mem_append.mp he with hlog | hnew
  · exact h.found e hlog hfound
  · exact hmore e hnew hfound

/-- What comes of a path is traced to what has happened to it. -/
theorem Traced.outcome {past : List Happening} {log : List Told} {start w' : Watcher} {h : Happening}
    {events : List WatchEvent} (htraced : Traced start past log w) (hmem : h ∈ past)
    (hpath : path ∈ h.paths) (hout : Outcome w h.tree h.kind path events w') :
    Traced start past (log ++ events.map (Told.mk h.tree)) w' := by
  cases hout with
  | silent hpath_eq hfilter_eq _ _ _ =>
      apply htraced.append hpath_eq hfilter_eq
      simp
  | found hwritten hfile hwatches _ _ _ hevent =>
      refine htraced.append (by rfl) (by rfl) ?_
      simp only [List.map_singleton, List.mem_singleton, forall_eq]
      intro _
      rw [htraced.watches_eq] at hwatches
      exact ⟨h, hmem, rfl, hwritten, hevent ▸ hpath, hevent ▸ hfile, hevent ▸ hwatches⟩
  | removed _ _ =>
      refine htraced.append (by rfl) (by rfl) ?_
      simp only [List.map_singleton, List.mem_singleton, forall_eq]
      intro hfound
      exact Bool.noConfusion hfound

/-- All that is found in the course of time is traced. -/
theorem traced_log (w : Watcher) (past : List Happening) :
    Traced w past (w.log past) (w.after past) := by
  have hstart : Traced w past [] w := ⟨rfl, rfl, by simp⟩
  rw [← List.nil_append (w.log past)]
  apply log_keeps_of_step (I := Traced w past) _ hstart
  intro h hmem path hpath told v hv
  exact hv.outcome hmem hpath outcome_step

/-- Every file of the name that the watcher cares for is found when nothing has been seen yet. -/
theorem found_of_getLast? (h : t.InPlace w.path way) (hseen : w.seen = [])
    (hplace : t.hasFile place = true) (hname : place.getLast? = way.getLast?) :
    ∃ e ∈ w.log [⟨t, .created, [Path.absolute place]⟩],
      e.event.isFound = true ∧ e.tree.locate e.event.path = .ok place := by
  have hin := h.settled.inPlace_absolute hplace
  have hwatches : w.watches t (Path.absolute place) = true := by
    rw [watches_iff_of_inPlace h, h.settled.fileName?_eq hin.leads hplace]
    exact hname
  obtain ⟨content, hcontent⟩ := Option.isSome_iff_exists.mp hplace
  have hread : t.read (Path.absolute place) = .ok content := by
    simp only [FileTree.read, hin.leads, hcontent]
  rw [log_singleton]
  rcases hstep : w.step t .created (Path.absolute place) with ⟨events, w'⟩
  cases outcome_of_step_eq hstep with
  | silent _ _ _ hknown _ =>
      have hlast := hknown rfl hin.isFile_path hwatches content hread
      rw [last?, hseen] at hlast
      cases hlast
  | @found e _ _ _ _ _ _ hfound hpath =>
      refine ⟨⟨t, e⟩, List.mem_singleton_self _, hfound, ?_⟩
      rw [hpath]
      exact hin.leads
  | removed hkind _ => cases hkind

/-- What is found is a file with the name that the watcher cares for. -/
theorem FoundAt.exists_place {h : Happening} {e : Told} (hat : w.FoundAt h e)
    (hin : h.tree.InPlace w.path way) : ∃ place, e.tree.locate e.event.path = .ok place ∧
      h.tree.hasFile place = true ∧ place.getLast? = way.getLast? := by
  have hfile := hat.isFile
  rw [FileTree.isFile] at hfile
  rw [hat.tree_eq]
  cases hlocate : h.tree.locate e.event.path with
  | error cause =>
      rw [hlocate] at hfile
      exact Bool.noConfusion hfile
  | ok place =>
      rw [hlocate] at hfile
      refine ⟨place, rfl, hfile, ?_⟩
      rw [← hin.settled.fileName?_eq hlocate hfile]
      exact (watches_iff_of_inPlace hin).mp hat.watches

/-- The watcher of a file tells of nothing else while that stays in place, whatever is written below
the watched folder, exactly when there is never another file of its name below the folder. -/
theorem found_only_file_iff (possible : FileTree → Prop)
    (hplace : ∀ t, possible t → t.InPlace file way) (t₀ : FileTree) (exclude : List String) :
    (∀ past : List Happening,
      (∀ h ∈ past, possible h.tree ∧ h.kind.isWritten = true ∧
        ∀ path ∈ h.paths, h.tree.Below (rootOf t₀ file) path) →
      ∀ e ∈ (make t₀ file exclude).log past, e.event.isFound = true →
        e.tree.locate e.event.path = .ok way) ↔
      ∀ t, possible t → t.NamedOnce (rootOf t₀ file) way := by
  constructor
  · -- Another file of the name is told of when it is the first one that is written.
    intro hclaim t ht start hroot place hbelow hfile hname
    obtain ⟨e, hlog, hfound, hthere⟩ :=
      found_of_getLast? (w := make t₀ file exclude) (hplace t ht) rfl hfile hname
    have hleads : e.tree.locate e.event.path = .ok way := by
      refine hclaim _ ?_ e hlog hfound
      simp only [List.mem_singleton, forall_eq]
      exact ⟨ht, rfl, ((hplace t ht).settled.inPlace_absolute hfile).below hroot hbelow⟩
    exact Except.ok.inj (hthere.symm.trans hleads)
  · -- What is found is traced to a file of the name, and there is only one of them.
    intro honce past hpast e hlog hfound
    obtain ⟨h, hmem, hat⟩ := (traced_log _ past).found e hlog hfound
    obtain ⟨hpossible, -, hpaths⟩ := hpast h hmem
    obtain ⟨-, start, hroot, hstart⟩ := hpaths _ hat.mem_paths
    obtain ⟨place, hlocate, hfile, hname⟩ := hat.exists_place (hplace _ hpossible)
    have hbelow : start <+: place := hstart place (hat.tree_eq ▸ hlocate)
    rw [hlocate, honce _ hpossible start hroot place hbelow hfile hname]

end Watcher

namespace WatchedFileWitness

def snapshot : String := "\x7b\"nodes\":[]\x7d"

/-- A folder with a snapshot, and in it another folder with a snapshot. -/
def treeWith (other : String) : FileTree where
  files := [(["d", "a.json"], snapshot), (["d", "s", other], snapshot)]

def lone : FileTree := treeWith "b.json"

def namesakes : FileTree := treeWith "a.json"

/-- The path of the snapshot that is watched. -/
def file : String := Path.absolute ["d", "a.json"]

theorem settled_of_files {t : FileTree} (hsound : t.Sound)
    (hapart : ∀ f ∈ t.files, t.hasFolder f.1 = false) : t.Settled := by
  refine ⟨hsound, ?_⟩
  intro place hplace
  obtain ⟨content, hmem⟩ := FileTree.hasFile_iff.mp hplace
  exact hapart _ hmem

theorem settled_lone : lone.Settled :=
  settled_of_files (FileTree.sound_of_files (by decide) (by decide)) (by decide)

theorem settled_namesakes : namesakes.Settled :=
  settled_of_files (FileTree.sound_of_files (by decide) (by decide)) (by decide)

theorem inPlace_lone : lone.InPlace file ["d", "a.json"] :=
  settled_lone.inPlace_absolute (by decide)

theorem inPlace_namesakes : namesakes.InPlace file ["d", "a.json"] :=
  settled_namesakes.inPlace_absolute (by decide)

/-- What is watched is the folder of the snapshot. -/
theorem locate_rootOf {other : String} (h : (treeWith other).InPlace file ["d", "a.json"]) :
    (treeWith other).locate (Watcher.rootOf (treeWith other) file) = .ok ["d"] := by
  have hfolder : Watcher.folderOf file = Path.absolute ["d"] := by decide +kernel
  have hmem : (["d"] ++ ["a.json"], snapshot) ∈ (treeWith other).files := List.mem_cons_self
  have hproper : Path.Proper ["d"] := (h.settled.proper hmem).left
  have hlocate : (treeWith other).locate (Path.absolute ["d"]) = .ok ["d"] :=
    FileTree.locate_absolute hproper hmem (by decide)
  simp only [Watcher.rootOf, h.isFile_path, ↓reduceIte, hfolder, hlocate]
  exact hlocate

theorem found_only_file_lone :
    (∀ t, t = lone → t.InPlace file ["d", "a.json"]) ∧
      ∃ e ∈ (Watcher.make lone file []).log [⟨lone, .created, [file]⟩],
        e.event.isFound = true ∧ e.tree.locate e.event.path = .ok ["d", "a.json"] := by
  have hplace : ∀ t, t = lone → t.InPlace file ["d", "a.json"] := by
    intro t ht
    rw [ht]
    exact inPlace_lone
  have honce : ∀ t, t = lone → t.NamedOnce (Watcher.rootOf lone file) ["d", "a.json"] := by
    have hfiles : ∀ f ∈ lone.files, f.1.getLast? = ["d", "a.json"].getLast? →
        f.1 = ["d", "a.json"] := by decide
    intro t ht start _ place _ hfile hname
    rw [ht] at hfile
    obtain ⟨content, hmem⟩ := FileTree.hasFile_iff.mp hfile
    exact hfiles _ hmem hname
  obtain ⟨e, hlog, hfound, -⟩ := Watcher.found_of_getLast? (w := Watcher.make lone file [])
    inPlace_lone rfl inPlace_lone.isFile rfl
  refine ⟨hplace, e, hlog, hfound, ?_⟩
  refine (Watcher.found_only_file_iff (· = lone) hplace lone []).mpr honce _ ?_ e hlog hfound
  simp only [List.mem_singleton, forall_eq]
  exact ⟨trivial, rfl, inPlace_lone.below (locate_rootOf inPlace_lone) (by decide)⟩

/-- Another file of the name is told of, though the watcher has been made for a single file. -/
theorem not_found_only_file :
    ¬ ∀ (t₀ : FileTree) (file : String) (way exclude : List String) (past : List Happening),
      t₀.InPlace file way →
      (∀ h ∈ past, h.tree.InPlace file way ∧ h.kind.isWritten = true ∧
        ∀ path ∈ h.paths, h.tree.Below (Watcher.rootOf t₀ file) path) →
      ∀ e ∈ (Watcher.make t₀ file exclude).log past, e.event.isFound = true →
        e.tree.locate e.event.path = .ok way := by
  intro hclaim
  have hother : namesakes.hasFile ["d", "s", "a.json"] = true := by decide
  obtain ⟨e, hlog, hfound, hthere⟩ := Watcher.found_of_getLast? (w := Watcher.make namesakes file [])
    inPlace_namesakes rfl hother rfl
  have hleads : e.tree.locate e.event.path = .ok ["d", "a.json"] := by
    refine hclaim namesakes file _ [] _ inPlace_namesakes ?_ e hlog hfound
    simp only [List.mem_singleton, forall_eq]
    exact ⟨inPlace_namesakes, rfl, (settled_namesakes.inPlace_absolute hother).below
      (locate_rootOf inPlace_namesakes) (by decide)⟩
  exact absurd (Except.ok.inj (hthere.symm.trans hleads)) (by decide)

end WatchedFileWitness

end FlowScope
