import FlowScope.Proofs.WatchHistory
import Mathlib.Data.List.Induction
/-!
What a watcher remembers in the course of time. All that changes it comes to two calls, each of which
is about one key: is this content new, and forget what has been seen. What has been seen for a key is
the content of the most recent call for it; no call touches another key. Reading a snapshot is one
such call, or none where it cannot be read; so it is parsed exactly when the most recent call for its
place was not one with the same content, whether that content was in order or not.
-/
namespace FlowScope

namespace Watcher

/-- One of the two calls that a watcher remembers. -/
inductive Call where
  | shouldReload (key : List PathPart) (content : String)
  | forget (key : List PathPart)
deriving DecidableEq

namespace Call

def key : Call → List PathPart
  | shouldReload key _ | forget key => key

/-- What has been seen for the key after a call. -/
def content? : Call → Option String
  | shouldReload _ content => some content
  | forget _ => none

/-- The most recent call for a key. -/
def latest? (key : List PathPart) (past : List Call) : Option Call :=
  (past.filter (·.key = key)).getLast?

theorem latest?_concat (key : List PathPart) (past : List Call) (c : Call) :
    latest? key (past ++ [c]) = if c.key = key then some c else latest? key past := by
  rw [latest?, List.filter_append]
  split
  · next hkey =>
      rw [List.filter_cons_of_pos (by simpa using hkey), List.filter_nil, List.getLast?_concat]
  · next hkey =>
      rw [List.filter_cons_of_neg (by simpa using hkey), List.filter_nil, List.append_nil, latest?]

theorem key_of_latest? {key : List PathPart} {past : List Call} {c : Call}
    (h : latest? key past = some c) : c.key = key := by
  have hc : c ∈ past.filter (·.key = key) := List.mem_of_getLast? h
  simpa using (List.mem_filter.mp hc).2

/-- The most recent call for a key has left a content exactly when it was one with that content. -/
theorem latest?_bind_content?_eq_some {key : List PathPart} {past : List Call} {content : String} :
    (latest? key past).bind content? = some content ↔
      latest? key past = some (.shouldReload key content) := by
  constructor
  · intro h
    obtain ⟨c, hc, hcontent⟩ := Option.bind_eq_some_iff.mp h
    have hkey := key_of_latest? hc
    cases c with
    | shouldReload other text =>
        cases hkey
        cases hcontent
        exact hc
    | forget other => cases hcontent
  · intro h
    rw [h]
    rfl

end Call

variable {w : Watcher} {t : FileTree} {key : List PathPart}

/-- What a watcher answers to a call. -/
def call (w : Watcher) : Call → Bool × Watcher
  | .shouldReload key content => w.shouldReload key content
  | .forget key => w.forget key

/-- The watcher after some calls. -/
def afterCalls (w : Watcher) (past : List Call) : Watcher :=
  past.foldl (fun w c => (w.call c).2) w

theorem afterCalls_append (past more : List Call) :
    w.afterCalls (past ++ more) = (w.afterCalls past).afterCalls more :=
  List.foldl_append

theorem last?_call_self (c : Call) : (w.call c).2.last? c.key = c.content? := by
  cases c with
  | shouldReload key content =>
      rw [call, shouldReload]
      split
      · next hseen => exact hseen
      · exact last?_note_self w key content
  | forget key => exact last?_forget_self w key

/-- A call does not touch what has been seen for another key. -/
theorem last?_call_of_ne {c : Call} (h : key ≠ c.key) : (w.call c).2.last? key = w.last? key := by
  cases c with
  | shouldReload other content =>
      rw [call, shouldReload]
      split
      · rfl
      · exact last?_note_of_ne w h content
  | forget other => exact last?_forget_of_ne w h

/-- What has been seen for a key is what the most recent call for it has left. -/
theorem last?_afterCalls (past : List Call) :
    (w.afterCalls past).last? key = (Call.latest? key past).elim (w.last? key) Call.content? := by
  induction past using List.reverseRecOn with
  | nil => rfl
  | append_singleton past c ih =>
      rw [afterCalls_append, Call.latest?_concat]
      change ((w.afterCalls past).call c).2.last? key = _
      split
      · next hkey => rw [← hkey, last?_call_self, Option.elim_some]
      · next hkey => rw [last?_call_of_ne (Ne.symm hkey), ih]

theorem call_path (c : Call) : (w.call c).2.path = w.path := by
  cases c with
  | shouldReload key content =>
      rw [call, shouldReload]
      split <;> rfl
  | forget key => rfl

theorem call_filter (c : Call) : (w.call c).2.filter = w.filter := by
  cases c with
  | shouldReload key content =>
      rw [call, shouldReload]
      split <;> rfl
  | forget key => rfl

/-- No call changes what a watcher cares for. -/
theorem watches_afterCalls (past : List Call) (path : String) :
    (w.afterCalls past).watches t path = w.watches t path := by
  induction past generalizing w with
  | nil => rfl
  | cons c rest ih =>
      change ((w.call c).2.afterCalls rest).watches t path = _
      rw [ih, watches, watches, call_path, call_filter]

/-! Reading snapshots and what happens to paths, as calls. -/

/-- The call for a snapshot that is read. -/
def readCalls (t : FileTree) (path : String) : List Call :=
  match t.read path with
  | .ok content => [.shouldReload (canonical t path) content]
  | .error _ => []

/-- The call for one path that something happens to. -/
def stepCalls (w : Watcher) (t : FileTree) (kind : ChangeKind) (path : String) : List Call :=
  match kind with
  | .created | .modified => if t.isFile path && w.watches t path then readCalls t path else []
  | .removed => [.forget (Path.parts path)]
  | .other => []

/-- What is asked of a watcher. Files and folders may be anything each time. -/
inductive Request where
  | call (call : Call)
  | reload (tree : FileTree) (path : String)
  | handle (happening : Happening)

/-- The watcher after one request. -/
def perform (w : Watcher) : Request → Watcher
  | .call c => (w.call c).2
  | .reload tree path => (w.reload tree path).2
  | .handle h => (w.handle h.tree h.kind h.paths).2

/-- The watcher after some requests. -/
def afterRequests (w : Watcher) (past : List Request) : Watcher :=
  past.foldl perform w

/-- The calls that a request comes to. -/
def calls (w : Watcher) : Request → List Call
  | .call c => [c]
  | .reload tree path => readCalls tree path
  | .handle h => h.paths.flatMap (w.stepCalls h.tree h.kind)

theorem reload_snd (path : String) : (w.reload t path).2 = w.afterCalls (readCalls t path) := by
  rw [reload, readCalls]
  cases t.read path with
  | error e => rfl
  | ok content =>
      change _ = (w.shouldReload (canonical t path) content).2
      dsimp only
      split <;> next h => rw [h]

theorem changed_snd (path : String) : (w.changed t path).2 =
    w.afterCalls (if t.isFile path && w.watches t path then readCalls t path else []) := by
  rw [changed]
  cases hcares : t.isFile path && w.watches t path with
  | false =>
      rw [if_pos (by rw [← Bool.not_and, hcares, Bool.not_false])]
      rfl
  | true =>
      rw [if_neg (by rw [← Bool.not_and, hcares]; exact Bool.false_ne_true)]
      rw [if_pos rfl, ← reload_snd]
      split <;> next h => rw [h]

theorem step_snd (kind : ChangeKind) (path : String) :
    (w.step t kind path).2 = w.afterCalls (w.stepCalls t kind path) := by
  cases kind with
  | created => exact changed_snd path
  | modified => exact changed_snd path
  | removed =>
      change (w.gone path).2 = (w.forget (Path.parts path)).2
      rw [gone]
      split <;> next h => rw [h]
  | other => rfl

/-- The calls of a request do not depend on those that were made before. -/
theorem calls_afterCalls (past : List Call) (r : Request) :
    (w.afterCalls past).calls r = w.calls r := by
  cases r with
  | call c => rfl
  | reload tree path => rfl
  | handle h =>
      have hsteps : (w.afterCalls past).stepCalls h.tree h.kind = w.stepCalls h.tree h.kind := by
        funext path
        simp only [stepCalls, watches_afterCalls]
      rw [calls, calls, hsteps]

/-- A request does what its calls do. -/
theorem perform_eq (r : Request) : w.perform r = w.afterCalls (w.calls r) := by
  cases r with
  | call c => rfl
  | reload tree path => exact reload_snd path
  | handle h =>
      obtain ⟨tree, kind, paths⟩ := h
      change (w.handle tree kind paths).2 = w.afterCalls (paths.flatMap (w.stepCalls tree kind))
      induction paths generalizing w with
      | nil => rfl
      | cons path rest ih =>
          have hrest := calls_afterCalls (w := w) (w.stepCalls tree kind path)
            (.handle ⟨tree, kind, rest⟩)
          change rest.flatMap _ = rest.flatMap _ at hrest
          rw [handle_cons, step_snd, ih, hrest, List.flatMap_cons, afterCalls_append]

/-- Some requests do what their calls do. -/
theorem afterRequests_eq (past : List Request) :
    w.afterRequests past = w.afterCalls (past.flatMap w.calls) := by
  induction past generalizing w with
  | nil => rfl
  | cons r rest ih =>
      have hrest : (w.afterCalls (w.calls r)).calls = w.calls := by
        funext next
        exact calls_afterCalls (w.calls r) next
      change (w.perform r).afterRequests rest = _
      rw [perform_eq, ih, hrest, List.flatMap_cons, afterCalls_append]

/-! The answers. -/

theorem shouldReload_eq_false_iff {content : String} :
    (w.shouldReload key content).1 = false ↔ w.last? key = some content := by
  rw [shouldReload]
  split
  · next hseen => exact iff_of_true rfl hseen
  · next hnew => exact iff_of_false Bool.noConfusion hnew

/-- A snapshot is parsed when it can be read and has a new content. -/
theorem reload_eq_some_iff {path : String} {parsed : Except Json.Error Workflow} :
    (w.reload t path).1 = some parsed ↔ ∃ content, t.read path = .ok content ∧
      w.last? (canonical t path) ≠ some content ∧ parsed = Workflow.ofText content := by
  rw [reload]
  cases hread : t.read path with
  | error e =>
      simp
  | ok content =>
      simp only [Except.ok.injEq, exists_eq_left', shouldReload]
      by_cases hseen : w.last? (canonical t path) = some content
      · simp [hseen]
      · simp [hseen, eq_comm]

/-- A new watcher knows what the most recent calls have left. -/
theorem last?_afterCalls_make (path : String) (exclude : List String) (past : List Call) :
    ((make t path exclude).afterCalls past).last? key =
      (Call.latest? key past).bind Call.content? := by
  rw [last?_afterCalls]
  cases Call.latest? key past <;> rfl

/-- A content is not new exactly when the most recent call for its key was one with that content, and
there is something to forget exactly when it was one with any content. After any requests, with any
changes of the files in between, a snapshot is parsed exactly when it can be read and the most recent
call for the place that its path leads to was not one with its content. -/
theorem answers_of_latest_call (t : FileTree) (path : String) (exclude : List String) :
    (∀ past key,
      (∀ content, (((make t path exclude).afterCalls past).shouldReload key content).1 = false ↔
        Call.latest? key past = some (.shouldReload key content)) ∧
      ((((make t path exclude).afterCalls past).forget key).1 = true ↔
        ∃ content, Call.latest? key past = some (.shouldReload key content))) ∧
    ∀ past tree file parsed,
      (((make t path exclude).afterRequests past).reload tree file).1 = some parsed ↔
        ∃ content, tree.read file = .ok content ∧
          Call.latest? (canonical tree file) (past.flatMap (make t path exclude).calls) ≠
            some (.shouldReload (canonical tree file) content) ∧
          parsed = Workflow.ofText content := by
  refine ⟨fun past key => ⟨fun content => ?_, ?_⟩, fun past tree file parsed => ?_⟩
  · rw [shouldReload_eq_false_iff, last?_afterCalls_make, Call.latest?_bind_content?_eq_some]
  · change (((make t path exclude).afterCalls past).last? key).isSome = true ↔ _
    simp only [Option.isSome_iff_exists, last?_afterCalls_make, Call.latest?_bind_content?_eq_some]
  · simp only [reload_eq_some_iff, afterRequests_eq, last?_afterCalls_make, ne_eq,
      Call.latest?_bind_content?_eq_some]

end Watcher

namespace WatchCallsWitness

/-- A folder with a snapshot that is not in order. -/
def tree : FileTree where
  files := [(["d", "a.json"], "[")]

def watcher : Watcher := Watcher.make tree "/d" []

/-- Content that is not in order is parsed once, and again when it has been forgotten. -/
theorem answers_of_latest_call_invalid :
    ((watcher.afterRequests [.reload tree "/d/a.json"]).reload tree "/d/a.json").1 = none ∧
    ((watcher.afterRequests [.reload tree "/d/a.json",
      .call (.forget (Path.parts "/d/a.json"))]).reload tree "/d/a.json").1 =
        some (Workflow.ofText "[") := by
  have hread : tree.read "/d/a.json" = .ok "[" := by decide +kernel
  obtain ⟨-, hreload⟩ := Watcher.answers_of_latest_call tree "/d" []
  constructor
  · have hlatest : Watcher.Call.latest? (Watcher.canonical tree "/d/a.json")
        ([Watcher.Request.reload tree "/d/a.json"].flatMap watcher.calls) =
          some (.shouldReload (Watcher.canonical tree "/d/a.json") "[") := by decide +kernel
    refine Option.eq_none_iff_forall_ne_some.mpr fun parsed hparsed => ?_
    obtain ⟨content, hcontent, hnew, -⟩ := (hreload _ _ _ _).mp hparsed
    cases hread.symm.trans hcontent
    exact hnew hlatest
  · refine (hreload _ _ _ _).mpr ⟨"[", hread, ?_, rfl⟩
    decide +kernel

end WatchCallsWitness

end FlowScope
