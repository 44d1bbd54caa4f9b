import FlowScope.Proofs.WatchHistory
import Mathlib.Data.List.Basic
/-!
When the removal of a snapshot is told. What is found is remembered by the place that its path leads to,
and forgotten by the path as it is spelled. So a removal is told exactly when something has been found
at the place that is spelled like the path, and no removal of it has been told since. Where a snapshot
is found under another spelling of its place, its removal under that spelling is not told.
-/
namespace FlowScope

variable {log : List Told} {key : List PathPart}

namespace Told

/-- A snapshot has been found at a place. -/
def Records (e : Told) (key : List PathPart) : Prop :=
  e.event.isFound = true ∧ Watcher.canonical e.tree e.event.path = key

/-- A snapshot has been found under a path with these parts. -/
def Finds (e : Told) (key : List PathPart) : Prop :=
  e.event.isFound = true ∧ Path.parts e.event.path = key

/-- A snapshot has been removed under a path with these parts. -/
def Removes (e : Told) (key : List PathPart) : Prop :=
  e.event.isFound = false ∧ Path.parts e.event.path = key

instance (e : Told) (key : List PathPart) : Decidable (e.Records key) :=
  inferInstanceAs (Decidable (_ ∧ _))

instance (e : Told) (key : List PathPart) : Decidable (e.Finds key) :=
  inferInstanceAs (Decidable (_ ∧ _))

instance (e : Told) (key : List PathPart) : Decidable (e.Removes key) :=
  inferInstanceAs (Decidable (_ ∧ _))

end Told

/-- Something of a kind has been told, and no removal since. -/
def Since (R : Told → Prop) (key : List PathPart) (log : List Told) : Prop :=
  ∃ before e after, log = before ++ e :: after ∧ R e ∧ ∀ later ∈ after, ¬later.Removes key

/-- A log with one more entry is cut at that entry or before it. -/
theorem concat_eq_append_cons {before rest : List Told} {d e : Told}
    (h : log ++ [e] = before ++ d :: rest) :
    (before = log ∧ d = e ∧ rest = []) ∨ ∃ more, rest = more ++ [e] ∧ log = before ++ d :: more := by
  rcases List.eq_nil_or_concat' rest with hnil | ⟨more, last, hconcat⟩
  · subst hnil
    obtain ⟨hlog, heq⟩ := List.append_inj' h rfl
    exact Or.inl ⟨hlog.symm, (List.cons.inj heq).1.symm, rfl⟩
  · subst hconcat
    rw [← List.cons_append, ← List.append_assoc] at h
    obtain ⟨hlog, heq⟩ := List.append_inj' h rfl
    obtain rfl : e = last := (List.cons.inj heq).1
    exact Or.inr ⟨more, rfl, hlog⟩

theorem since_concat_iff {R : Told → Prop} {e : Told} :
    Since R key (log ++ [e]) ↔ R e ∨ (Since R key log ∧ ¬e.Removes key) := by
  constructor
  · intro h
    obtain ⟨before, d, after, hlog, hd, hafter⟩ := h
    rcases concat_eq_append_cons hlog with ⟨-, rfl, -⟩ | ⟨more, rfl, hmore⟩
    · exact Or.inl hd
    · refine Or.inr ⟨⟨before, d, more, hmore, hd, ?_⟩, hafter e (by simp)⟩
      intro later hlater
      exact hafter later (List.mem_append_left _ hlater)
  · intro h
    rcases h with he | ⟨⟨before, d, after, rfl, hd, hafter⟩, he⟩
    · exact ⟨log, e, [], rfl, he, by simp⟩
    · refine ⟨before, d, after ++ [e], by simp, hd, ?_⟩
      intro later hlater
      rcases List.mem_append.mp hlater with hlater | hlater
      · exact hafter later hlater
      · rw [List.mem_singleton.mp hlater]
        exact he

theorem Since.imp {R S : Told → Prop} (h : Since R key log) (himp : ∀ e ∈ log, R e → S e) :
    Since S key log := by
  obtain ⟨before, e, after, rfl, he, hafter⟩ := h
  exact ⟨before, e, after, rfl, himp e (by simp) he, hafter⟩

namespace Watcher

/-- A watcher knows of a snapshot at a place: one has been found there, or was known from the start,
and no removal has been told since. -/
def Remembers (w : Watcher) (key : List PathPart) (log : List Told) : Prop :=
  Since (·.Records key) key log ∨ ((w.last? key).isSome = true ∧ ∀ e ∈ log, ¬e.Removes key)

/-- The log accounts for what a watcher knows, and every removal in it is that of a snapshot that was
known before. -/
structure Accounts (start : Watcher) (log : List Told) (w : Watcher) : Prop where
  last_iff : ∀ key, (w.last? key).isSome = true ↔ start.Remembers key log
  removed : ∀ before e rest, log = before ++ e :: rest → ∀ key, e.Removes key →
    start.Remembers key before

variable {start w w' : Watcher} {t : FileTree} {kind : ChangeKind} {path : String}

theorem remembers_concat_iff {e : Told} : w.Remembers key (log ++ [e]) ↔
    e.Records key ∨ (w.Remembers key log ∧ ¬e.Removes key) := by
  simp only [Remembers, since_concat_iff, List.mem_append, List.mem_singleton, or_imp, forall_and,
    forall_eq]
  tauto

/-- One more entry is accounted for by what is known before it. -/
theorem Accounts.concat {e : Told} (h : Accounts start log w)
    (hlast : ∀ key, (w'.last? key).isSome = true ↔
      e.Records key ∨ ((w.last? key).isSome = true ∧ ¬e.Removes key))
    (hremoved : ∀ key, e.Removes key → (w.last? key).isSome = true) :
    Accounts start (log ++ [e]) w' := by
  constructor
  · intro key
    rw [remembers_concat_iff, ← h.last_iff key]
    exact hlast key
  · intro before d rest hlog key hd
    rcases concat_eq_append_cons hlog with ⟨rfl, rfl, -⟩ | ⟨more, -, hmore⟩
    · exact (h.last_iff key).mp (hremoved key hd)
    · exact h.removed before d more hmore key hd

/-- What comes of a path is accounted for. -/
theorem Accounts.outcome {events : List WatchEvent} (h : Accounts start log w)
    (hout : Outcome w t kind path events w') : Accounts start (log ++ events.map (Told.mk t)) w' := by
  cases hout with
  | silent _ _ hlast _ _ =>
      rw [List.map_nil, List.append_nil]
      refine ⟨?_, h.removed⟩
      intro key
      rw [hlast key]
      exact h.last_iff key
  | @found e content _ _ _ _ _ hfound hpath =>
      have hrecords : ∀ key, (Told.mk t e).Records key ↔ canonical t path = key := by
        intro key
        rw [Told.Records, hfound, hpath]
        exact and_iff_right rfl
      have hnot : ∀ key, ¬(Told.mk t e).Removes key := by
        intro key hremoves
        rw [Told.Removes, hfound] at hremoves
        exact Bool.noConfusion hremoves.1
      apply h.concat
      · intro key
        by_cases hkey : canonical t path = key
        · subst hkey
          simp [last?_note_self, hrecords]
        · simp [last?_note_of_ne w (Ne.symm hkey), hrecords, hnot, hkey]
      · intro key hremoves
        exact absurd hremoves (hnot key)
  | removed _ hknown =>
      have hremoves : ∀ key, (Told.mk t (.removed path)).Removes key ↔ Path.parts path = key :=
        fun key => and_iff_right rfl
      have hnot : ∀ key, ¬(Told.mk t (.removed path)).Records key := fun key hrecords =>
        Bool.noConfusion hrecords.1
      apply h.concat
      · intro key
        by_cases hkey : Path.parts path = key
        · subst hkey
          simp [last?_forget_self, hremoves, hnot]
        · simp [last?_forget_of_ne w (Ne.symm hkey), hremoves, hnot, hkey]
      · intro key hkey
        rw [← (hremoves key).mp hkey]
        exact hknown

/-- A watcher knows what its log tells. -/
theorem accounts_log (w : Watcher) (past : List Happening) :
    Accounts w (w.log past) (w.after past) := by
  have hstart : Accounts w [] w := by
    refine ⟨?_, ?_⟩
    · intro key
      simp [Remembers, Since]
    · intro before e rest hnil
      simp at hnil
  rw [← List.nil_append (w.log past)]
  apply log_keeps_of_step (I := Accounts w) _ hstart
  intro h _ path _ told v hv
  exact hv.outcome outcome_step

/-- Whether a watcher tells of a removal depends on what it has seen at the place spelled so. -/
theorem removed_mem_handle_iff : .removed path ∈ (w.handle t .removed [path]).1 ↔
    (w.last? (Path.parts path)).isSome = true := by
  rw [handle_singleton]
  rcases hstep : w.step t .removed path with ⟨events, w'⟩
  cases outcome_of_step_eq hstep with
  | silent _ _ _ _ hunknown => simp [hunknown rfl]
  | found hwritten => exact Bool.noConfusion hwritten
  | removed _ hknown => simp [hknown]

/-- A removal is told exactly when something has been found at the place that is spelled like the
path, or was known there from the start, and no removal of it has been told since. So where snapshots
are found there under this spelling only, and nowhere else under it, every removal of what has been
found is told, and no other. -/
theorem removal_told_iff (w : Watcher) (past : List Happening) (path : String) :
    (∀ t, .removed path ∈ ((w.after past).handle t .removed [path]).1 ↔
      w.Remembers (Path.parts path) (w.log past)) ∧
    (∀ before e rest, w.log past = before ++ e :: rest → e.Removes (Path.parts path) →
      w.Remembers (Path.parts path) before) ∧
    ((∀ e ∈ w.log past, e.Records (Path.parts path) ↔ e.Finds (Path.parts path)) →
      (Since (·.Finds (Path.parts path)) (Path.parts path) (w.log past) →
        ∀ t, .removed path ∈ ((w.after past).handle t .removed [path]).1) ∧
      (w.last? (Path.parts path) = none → ∀ before e rest, w.log past = before ++ e :: rest →
        e.Removes (Path.parts path) →
          Since (·.Finds (Path.parts path)) (Path.parts path) before)) := by
  have haccounts := accounts_log w past
  have htold : ∀ t, .removed path ∈ ((w.after past).handle t .removed [path]).1 ↔
      w.Remembers (Path.parts path) (w.log past) := by
    intro t
    rw [removed_mem_handle_iff]
    exact haccounts.last_iff _
  refine ⟨htold, ?_, ?_⟩
  · intro before e rest hlog he
    exact haccounts.removed before e rest hlog _ he
  · -- Recorded and found are now the same, so one can take the place of the other in `Since`.
    intro hspelled
    constructor
    · intro hsince t
      exact (htold t).mpr (Or.inl (hsince.imp fun e he => (hspelled e he).mpr))
    · intro hfresh before e rest hlog he
      rcases haccounts.removed before e rest hlog _ he with hsince | ⟨hknown, -⟩
      · apply hsince.imp
        intro d hd
        exact (hspelled d (hlog ▸ List.mem_append_left _ hd)).mp
      · rw [hfresh] at hknown
        exact Bool.noConfusion hknown

end Watcher

namespace RemovedSnapshotsWitness

/-- A folder with a snapshot, and in it another folder. -/
def tree : FileTree where
  files := [(["d", "a.json"], "\x7b\"nodes\":[]\x7d"), (["d", "s", "b.txt"], "")]

/-- The tree when the snapshot is gone. -/
def emptied : FileTree := tree.remove ["d", "a.json"]

def watcher : Watcher := Watcher.make tree "/d" []

theorem removal_told_as_found :
    (∀ e ∈ watcher.log [⟨tree, .modified, ["/d/a.json"]⟩],
      e.Records (Path.parts "/d/a.json") ↔ e.Finds (Path.parts "/d/a.json")) ∧
    .removed "/d/a.json" ∈
      ((watcher.after [⟨tree, .modified, ["/d/a.json"]⟩]).handle emptied .removed ["/d/a.json"]).1 := by
  have hspelled : ∀ e ∈ watcher.log [⟨tree, .modified, ["/d/a.json"]⟩],
      e.Records (Path.parts "/d/a.json") ↔ e.Finds (Path.parts "/d/a.json") := by decide +kernel
  have hfound : ((watcher.log [⟨tree, .modified, ["/d/a.json"]⟩]).map fun e =>
      decide (e.Finds (Path.parts "/d/a.json"))) = [true] := by decide +kernel
  obtain ⟨e, hlog, he⟩ := List.map_eq_singleton_iff.mp hfound
  obtain ⟨-, -, hplain⟩ := watcher.removal_told_iff [⟨tree, .modified, ["/d/a.json"]⟩] "/d/a.json"
  refine ⟨hspelled, (hplain hspelled).1 ?_ emptied⟩
  exact ⟨[], e, [], hlog, of_decide_eq_true he, by simp⟩

/-- A snapshot found by a way through another folder: its removal is not told by that way, and its
removal by its place is told, though it has not been found so. -/
theorem not_removal_told_as_found :
    (¬ ∀ (w : Watcher) (past : List Happening) (t : FileTree) (path : String),
      Since (·.Finds (Path.parts path)) (Path.parts path) (w.log past) →
        .removed path ∈ ((w.after past).handle t .removed [path]).1) ∧
    ¬ ∀ (w : Watcher) (past : List Happening) (path : String) (before : List Told) (e : Told)
      (rest : List Told), w.seen = [] → w.log past = before ++ e :: rest →
        e.Removes (Path.parts path) →
          Since (·.Finds (Path.parts path)) (Path.parts path) before := by
  constructor
  · intro hclaim
    have hfound : ((watcher.log [⟨tree, .created, ["/d/s/../a.json"]⟩]).map fun e =>
        decide (e.Finds (Path.parts "/d/s/../a.json"))) = [true] := by decide +kernel
    obtain ⟨e, hlog, he⟩ := List.map_eq_singleton_iff.mp hfound
    have hsilent : ((watcher.after [⟨tree, .created, ["/d/s/../a.json"]⟩]).handle emptied .removed
        ["/d/s/../a.json"]).1.isEmpty = true := by decide +kernel
    have htold := hclaim watcher [⟨tree, .created, ["/d/s/../a.json"]⟩] emptied "/d/s/../a.json"
      ⟨[], e, [], hlog, of_decide_eq_true he, by simp⟩
    rw [List.isEmpty_iff.mp hsilent] at htold
    exact List.not_mem_nil htold
  · intro hclaim
    have htold : ((watcher.log [⟨tree, .created, ["/d/s/../a.json"]⟩,
        ⟨emptied, .removed, ["/d/a.json"]⟩]).map fun e =>
        (decide (e.Finds (Path.parts "/d/a.json")), decide (e.Removes (Path.parts "/d/a.json")))) =
        [(false, false), (false, true)] := by decide +kernel
    obtain ⟨d, rest, hlog, hd, hrest⟩ := List.map_eq_cons_iff.mp htold
    obtain ⟨e, rfl, he⟩ := List.map_eq_singleton_iff.mp hrest
    have hremoves := of_decide_eq_true (Prod.mk.inj he).2
    obtain ⟨before, f, after, hsplit, hf, -⟩ := hclaim watcher _ "/d/a.json" [d] e [] rfl hlog hremoves
    have hmem : f ∈ [d] := hsplit ▸ by simp
    rw [List.mem_singleton.mp hmem] at hf
    exact of_decide_eq_false (Prod.mk.inj hd).1 hf

end RemovedSnapshotsWitness

end FlowScope
