import FlowScope.Check
import FlowScope.Scope.Picker
import Mathlib.Data.List.Basic
import Mathlib.Data.List.Induction
/-!
The keys of a scope. The arguments of a scope are found under the keys that its nodes expose, and under
no others; these are also the keys that are offered as a choice. Where several arguments are exposed
under one key, the last of them is found.
-/
namespace FlowScope

namespace ArgumentMap

variable {m : ArgumentMap} {k : String}

theorem contains_insert_iff {key : String} {a : Argument} :
    (m.insert key a).contains k = true ↔ k = key ∨ m.contains k = true := by
  rw [contains, contains]
  by_cases h : k = key
  · subst h
    simp [get?_insert_self]
  · simp [get?_insert_of_ne m h, h]

theorem contains_insertNode_iff {node : NodeId} {args : List Argument} :
    (m.insertNode node args).contains k = true ↔
      m.contains k = true ∨ ∃ a ∈ args, k = Token.key node a.name := by
  rw [insertNode]
  induction args generalizing m with
  | nil => simp
  | cons a rest ih =>
      rw [List.foldl_cons, ih, contains_insert_iff]
      rw [List.exists_mem_cons_iff, or_comm (a := k = _), or_assoc]

theorem mem_keys_iff : k ∈ m.keys ↔ m.contains k = true := by
  rw [keys, contains, get?]
  induction m.entries with
  | nil => simp [lookup?]
  | cons e rest ih =>
      by_cases hk : k = e.1
      · simp [lookup?, hk]
      · simp [lookup?, hk, ih]

/-- Of the entries put in one after the other, the last one with a key is found under it. -/
theorem get?_ofList (entries : List (String × Argument)) (k : String) :
    (ofList entries).get? k = (entries.filter (·.1 = k)).getLast?.map (·.2) := by
  rw [ofList]
  induction entries using List.reverseRecOn with
  | nil => rfl
  | append_singleton first last ih =>
      rw [List.foldl_append, List.foldl_cons, List.foldl_nil, List.filter_append]
      by_cases hkey : last.1 = k
      · subst hkey
        simp [get?_insert_self]
      · rw [get?_insert_of_ne _ (Ne.symm hkey), ih]
        simp [hkey]

theorem resolve?_eq_some_iff {m : ArgumentMap} {s : String} {a : Argument} :
    m.resolve? s = some a ↔
      ∃ t b, Token.parse? s = some t ∧ m.get? t.root = some b ∧ b.path? t.fields = some a := by
  rw [resolve?]
  cases Token.parse? s with
  | none => simp
  | some t => simp [Option.bind_eq_some_iff]

end ArgumentMap

theorem Node.mem_dangling_iff {n : Node} {m : ArgumentMap} {r : FieldReference} :
    r ∈ n.dangling m ↔ r ∈ n.references ∧ m.resolve? r.token = none := by
  rw [dangling, List.mem_filter, Option.isNone_iff_eq_none]

/-- A node of a scope exposes an argument with this key. -/
def ScopeNode.Exposes (e : ScopeNode) (k : String) : Prop :=
  ∃ a ∈ e.arguments, k = Token.key e.id a.name

/-- The arguments that the nodes of a scope expose, each with its node, in order. -/
def Scope.exposures (s : Scope) : List (NodeId × Argument) :=
  (s.previous ++ s.inner).flatMap fun e => e.arguments.map fun a => (e.id, a)

theorem Scope.exists_mem_exposures_iff {s : Scope} {k : String} :
    (∃ pair ∈ s.exposures, Token.key pair.1 pair.2.name = k) ↔
      ∃ e ∈ s.previous ++ s.inner, e.Exposes k := by
  constructor
  · intro hpair
    obtain ⟨pair, hpair, rfl⟩ := hpair
    obtain ⟨e, he, hpair⟩ := List.mem_flatMap.mp hpair
    obtain ⟨a, ha, rfl⟩ := List.mem_map.mp hpair
    exact ⟨e, he, a, ha, rfl⟩
  · intro hexposed
    obtain ⟨e, he, a, ha, rfl⟩ := hexposed
    exact ⟨(e.id, a), List.mem_flatMap.mpr ⟨e, he, List.mem_map_of_mem ha⟩, rfl⟩

theorem contains_foldl_insertNode_iff {entries : List ScopeNode} {m : ArgumentMap} {k : String} :
    (entries.foldl (fun m e => m.insertNode e.id e.arguments) m).contains k = true ↔
      m.contains k = true ∨ ∃ e ∈ entries, e.Exposes k := by
  induction entries generalizing m with
  | nil => simp
  | cons e rest ih =>
      rw [List.foldl_cons, ih, ArgumentMap.contains_insertNode_iff]
      rw [List.exists_mem_cons_iff, or_assoc, ScopeNode.Exposes]

/-- The arguments that come with the entries are those of the entries, one after the other. -/
theorem collectScope_snd (entryAt : Nat → ArgumentMap → ScopeNode) (nodes : List Nat)
    (m : ArgumentMap) : (collectScope entryAt nodes m).2 =
      (collectScope entryAt nodes m).1.foldl (fun m e => m.insertNode e.id e.arguments) m := by
  induction nodes generalizing m with
  | nil => rfl
  | cons p rest ih =>
      rw [collectScope]
      exact ih _

namespace Index

variable {ix : Index} {system : List Argument} {t : Nat}

/-- The arguments of a scope are those of the nodes before the target and then those of its own body. -/
theorem arguments_scopeAt :
    (ix.scopeAt system t).arguments =
      ((ix.scopeAt system t).previous ++ (ix.scopeAt system t).inner).foldl
        (fun m e => m.insertNode e.id e.arguments) {} := by
  by_cases hloop : (ix.nodeAt t).isLoop = true
  · simp only [scopeAt, hloop, ↓reduceIte, List.foldl_append, ← collectScope_snd]
  · simp only [scopeAt, hloop, Bool.false_eq_true, ↓reduceIte, List.append_nil, ← collectScope_snd]

theorem contains_scopeAt_iff {k : String} : (ix.scopeAt system t).arguments.contains k = true ↔
    ∃ e ∈ (ix.scopeAt system t).previous ++ (ix.scopeAt system t).inner, e.Exposes k := by
  have hnone : ArgumentMap.contains {} k ≠ true := by simp [ArgumentMap.contains, ArgumentMap.get?, lookup?]
  rw [arguments_scopeAt, contains_foldl_insertNode_iff]
  exact or_iff_right hnone

end Index

/-- A scope holds exactly the keys that its nodes expose. -/
theorem Workflow.contains_scope_iff (w : Workflow) (further : List Argument) (target : NodeId)
    {k : String} : (w.scope further target).arguments.contains k = true ↔
      ∃ e ∈ (w.scope further target).previous ++ (w.scope further target).inner, e.Exposes k := by
  rw [scope]
  split
  · simp [ArgumentMap.contains, ArgumentMap.get?, lookup?]
  · exact Index.contains_scopeAt_iff

theorem Index.arguments_scopeAt_eq_ofList {ix : Index} {system : List Argument} {t : Nat} :
    (ix.scopeAt system t).arguments = ArgumentMap.ofList
      ((ix.scopeAt system t).exposures.map fun pair => (Token.key pair.1 pair.2.name, pair.2)) := by
  rw [arguments_scopeAt, Scope.exposures, ArgumentMap.ofList, List.map_flatMap, List.foldl_flatMap]
  simp only [List.map_map, List.foldl_map, ArgumentMap.insertNode, Function.comp_apply]

/-- Under a key a scope has the last of the arguments that are exposed under it. -/
theorem Workflow.get?_scope (w : Workflow) (further : List Argument) (target : NodeId) (k : String) :
    (w.scope further target).arguments.get? k =
      ((w.scope further target).exposures.filter fun pair =>
        Token.key pair.1 pair.2.name = k).getLast?.map (·.2) := by
  rw [scope]
  split
  · rfl
  · rw [Index.arguments_scopeAt_eq_ofList, ArgumentMap.get?_ofList, List.filter_map,
      List.getLast?_map, Option.map_map]
    rfl

/-- The keys offered as a choice are those that the nodes of the scope expose. -/
theorem Scope.exists_mem_picker_iff {s : Scope} {k : String} :
    (∃ g ∈ s.picker, ∃ v ∈ g.vars, v.key = k) ↔ ∃ e ∈ s.previous ++ s.inner, e.Exposes k := by
  constructor
  · rintro ⟨g, hg, v, hv, rfl⟩
    obtain ⟨e, he, rfl⟩ := List.mem_map.mp hg
    obtain ⟨a, ha, rfl⟩ := List.mem_map.mp hv
    exact ⟨e, he, a, ha, rfl⟩
  · rintro ⟨e, he, a, ha, rfl⟩
    exact ⟨_, List.mem_map_of_mem he, _, List.mem_map_of_mem ha, rfl⟩

/-- The arguments of a scope agree with its nodes: a key is there exactly when a node of the scope
exposes an argument under it, the last such argument is the one that is found, and the keys offered as a
choice are those that are there. -/
theorem Workflow.scope_agrees_with_exposures (w : Workflow) (further : List Argument)
    (target : NodeId) (k : String) :
    (k ∈ (w.scope further target).arguments.keys ↔
        ∃ pair ∈ (w.scope further target).exposures, Token.key pair.1 pair.2.name = k) ∧
      (w.scope further target).arguments.get? k =
        ((w.scope further target).exposures.filter fun pair =>
          Token.key pair.1 pair.2.name = k).getLast?.map (·.2) ∧
      ((∃ g ∈ (w.scope further target).picker, ∃ v ∈ g.vars, v.key = k) ↔
        (w.scope further target).arguments.contains k = true) := by
  rw [ArgumentMap.mem_keys_iff, Scope.exists_mem_exposures_iff, Scope.exists_mem_picker_iff,
    w.contains_scope_iff]
  exact ⟨Iff.rfl, w.get?_scope further target k, Iff.rfl⟩

end FlowScope
