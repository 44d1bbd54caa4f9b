import FlowScope.Watch
/-!
What a watcher tells in the course of time. Files and folders may be anything each time that something
happens; what is told is kept together with the files and folders as they were then. For every path
of what happens there are three outcomes: nothing is told, a snapshot is found, or one is removed.
-/
namespace FlowScope

/-- Something that happens to paths, with the files and folders as they are at that time. -/
structure Happening where
  tree : FileTree
  kind : ChangeKind
  paths : List String

/-- Something that is told, with the files and folders as they were at that time. -/
structure Told where
  tree : FileTree
  event : WatchEvent

/-- Has there been something written? -/
def ChangeKind.isWritten : ChangeKind → Bool
  | created | modified => true
  | removed | other => false

namespace WatchEvent

def path : WatchEvent → String
  | updated path _ | invalid path _ | removed path => path

/-- Has a snapshot been found, be it in order or not? -/
def isFound : WatchEvent → Bool
  | updated .. | invalid .. => true
  | removed _ => false

end WatchEvent

namespace Watcher

variable {w : Watcher} {t : FileTree} {kind : ChangeKind} {path : String}

/-- What there is to tell about one path. -/
def step (w : Watcher) (t : FileTree) (kind : ChangeKind) (path : String) :
    List WatchEvent × Watcher :=
  match kind with
  | .created | .modified => w.changed t path
  | .removed => w.gone path
  | .other => ([], w)

/-- The watcher after all that has happened. -/
def after (w : Watcher) : List Happening → Watcher
  | [] => w
  | h :: rest => (w.handle h.tree h.kind h.paths).2.after rest

/-- All that is told about what has happened. -/
def log (w : Watcher) : List Happening → List Told
  | [] => []
  | h :: rest =>
      let (events, w) := w.handle h.tree h.kind h.paths
      events.map (Told.mk h.tree) ++ w.log rest

theorem handle_cons (rest : List String) : w.handle t kind (path :: rest) =
    ((w.step t kind path).1 ++ ((w.step t kind path).2.handle t kind rest).1,
      ((w.step t kind path).2.handle t kind rest).2) := by
  cases kind <;> rfl

theorem handle_singleton : w.handle t kind [path] = w.step t kind path := by
  rw [handle_cons, handle, List.append_nil]

theorem log_singleton :
    w.log [⟨t, kind, [path]⟩] = (w.step t kind path).1.map (Told.mk t) := by
  simp only [log, handle_singleton, List.append_nil]

/-- What can come of one path. -/
inductive Outcome (w : Watcher) (t : FileTree) (kind : ChangeKind) (path : String) :
    List WatchEvent → Watcher → Prop
  /-- Nothing is told: there is no snapshot to care for, or nothing new in it, or none to forget. -/
  | silent {w' : Watcher} (hpath : w'.path = w.path) (hfilter : w'.filter = w.filter)
      (hlast : ∀ key, w'.last? key = w.last? key)
      (hseen : kind.isWritten = true → t.isFile path = true → w.watches t path = true →
        ∀ content, t.read path = .ok content → w.last? (canonical t path) = some content)
      (hunknown : kind = .removed → w.last? (Path.parts path) = none) :
      Outcome w t kind path [] w'
  /-- There is new content in a snapshot. -/
  | found {e : WatchEvent} {content : String} (hwritten : kind.isWritten = true)
      (hfile : t.isFile path = true) (hwatches : w.watches t path = true)
      (hread : t.read path = .ok content) (hnew : w.last? (canonical t path) ≠ some content)
      (hfound : e.isFound = true) (hpath : e.path = path) :
      Outcome w t kind path [e] (w.note (canonical t path) content)
  /-- A snapshot that is known is gone. -/
  | removed (hkind : kind = .removed) (hknown : (w.last? (Path.parts path)).isSome = true) :
      Outcome w t kind path [.removed path] (w.forget (Path.parts path)).2

theorem outcome_changed (hwritten : kind.isWritten = true) :
    Outcome w t kind path (w.changed t path).1 (w.changed t path).2 := by
  have hkind : kind ≠ .removed := by
    intro heq
    subst heq
    exact Bool.noConfusion hwritten
  by_cases hcares : t.isFile path = true ∧ w.watches t path = true
  · obtain ⟨hfile, hwatches⟩ := hcares
    simp only [changed, hfile, hwatches, Bool.not_true, Bool.or_false, Bool.false_eq_true,
      ↓reduceIte, reload]
    cases hread : t.read path with
    | error e =>
        refine .silent rfl rfl (fun _ => rfl) ?_ (fun h => absurd h hkind)
        intro _ _ _ content hcontent
        rw [hread] at hcontent
        cases hcontent
    | ok content =>
        by_cases hlast : w.last? (canonical t path) = some content
        · simp only [shouldReload, if_pos hlast]
          refine .silent rfl rfl (fun _ => rfl) ?_ (fun h => absurd h hkind)
          intro _ _ _ other hother
          rw [hread] at hother
          cases hother
          exact hlast
        · simp only [shouldReload, if_neg hlast]
          cases Workflow.ofText content with
          | ok workflow => exact .found hwritten hfile hwatches hread hlast rfl rfl
          | error cause => exact .found hwritten hfile hwatches hread hlast rfl rfl
  · have hchanged : w.changed t path = ([], w) := by
      rw [changed]
      apply if_pos
      cases hfile : t.isFile path with
      | false => rfl
      | true =>
          cases hwatches : w.watches t path with
          | false => rfl
          | true => exact absurd ⟨hfile, hwatches⟩ hcares
    rw [hchanged]
    refine .silent rfl rfl (fun _ => rfl) ?_ (fun h => absurd h hkind)
    intro _ hfile hwatches
    exact absurd ⟨hfile, hwatches⟩ hcares

theorem outcome_gone : Outcome w t .removed path (w.gone path).1 (w.gone path).2 := by
  cases hlast : w.last? (Path.parts path) with
  | none =>
      have hgone : w.gone path = ([], (w.forget (Path.parts path)).2) := by
        simp [gone, forget, hlast]
      rw [hgone]
      refine .silent rfl rfl ?_ (fun h => Bool.noConfusion h) (fun _ => hlast)
      intro key
      by_cases hkey : key = Path.parts path
      · rw [hkey, last?_forget_self, hlast]
      · exact last?_forget_of_ne w hkey
  | some content =>
      have hgone : w.gone path = ([.removed path], (w.forget (Path.parts path)).2) := by
        simp [gone, forget, hlast]
      rw [hgone]
      exact .removed rfl (by simp [hlast])

theorem outcome_step :
    Outcome w t kind path (w.step t kind path).1 (w.step t kind path).2 := by
  cases kind with
  | created => exact outcome_changed rfl
  | modified => exact outcome_changed rfl
  | removed => exact outcome_gone
  | other => exact .silent rfl rfl (fun _ => rfl) (fun h => Bool.noConfusion h) (fun h => by cases h)

theorem outcome_of_step_eq {events : List WatchEvent} {w' : Watcher}
    (h : w.step t kind path = (events, w')) : Outcome w t kind path events w' := by
  have hout : Outcome w t kind path (w.step t kind path).1 (w.step t kind path).2 := outcome_step
  rw [h] at hout
  exact hout

variable {I : List Told → Watcher → Prop} {told : List Told}

/-- What every path keeps of the log and the watcher is kept by all paths of one happening. -/
theorem keeps_of_step {paths : List String}
    (hstep : ∀ path ∈ paths, ∀ told w, I told w →
      I (told ++ (w.step t kind path).1.map (Told.mk t)) (w.step t kind path).2)
    (hstart : I told w) :
    I (told ++ (w.handle t kind paths).1.map (Told.mk t)) (w.handle t kind paths).2 := by
  induction paths generalizing told w with
  | nil =>
      rw [handle, List.map_nil, List.append_nil]
      exact hstart
  | cons path rest ih =>
      rw [handle_cons, List.map_append, ← List.append_assoc]
      apply ih
      · intro p hp
        exact hstep p (List.mem_cons_of_mem path hp)
      · exact hstep path List.mem_cons_self told w hstart

/-- What is kept by every path that something happens to holds after all that has happened. -/
theorem log_keeps_of_step {past : List Happening}
    (hstep : ∀ h ∈ past, ∀ path ∈ h.paths, ∀ told w, I told w →
      I (told ++ (w.step h.tree h.kind path).1.map (Told.mk h.tree)) (w.step h.tree h.kind path).2)
    (hstart : I told w) : I (told ++ w.log past) (w.after past) := by
  induction past generalizing told w with
  | nil =>
      rw [log, List.append_nil]
      exact hstart
  | cons h rest ih =>
      -- What has been told so far goes to the log that the rest begins with.
      rw [log, after, ← List.append_assoc]
      apply ih
      · intro g hg
        exact hstep g (List.mem_cons_of_mem h hg)
      · exact keeps_of_step (hstep h List.mem_cons_self) hstart

end Watcher

end FlowScope
