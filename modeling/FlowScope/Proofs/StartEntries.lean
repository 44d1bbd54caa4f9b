import FlowScope.Proofs.LoopEntries
/-!
What a start exposes in the scope of a node: its inputs without their bindings, its outputs, and
variables of the system. A name may be there many times among the variables of the system: then the
first one counts, and none when the start declares the name itself.
-/
namespace FlowScope

/-- Variables chosen from those available, where certain names are declared already: one for every
other name. It is the first of its name, and they are in the order in which their names come first. -/
structure FirstOfEach (available : List Argument) (declared : List String) (chosen : List Argument) :
    Prop where
  names_nodup : (chosen.map (·.name)).Nodup
  not_declared : ∀ v ∈ chosen, v.name ∉ declared
  complete : ∀ v ∈ available, v.name ∈ declared ∨ v.name ∈ chosen.map (·.name)
  first : ∀ v ∈ chosen, available.find? (·.name == v.name) = some v
  ordered : chosen.Pairwise fun u v =>
    available.findIdx (·.name == u.name) < available.findIdx (·.name == v.name)

variable {seen : List String} {a : Argument} {args : List Argument}

theorem firstByName_cons_of_mem (h : a.name ∈ seen) :
    firstByName seen (a :: args) = firstByName seen args := by
  rw [firstByName, if_pos (List.contains_iff_mem.mpr h)]

theorem firstByName_cons_of_notMem (h : a.name ∉ seen) :
    firstByName seen (a :: args) = a :: firstByName (a.name :: seen) args := by
  rw [firstByName, if_neg (mt List.contains_iff_mem.mp h)]

/-- Every name is seen already, or one of the arguments that are kept has it. -/
theorem name_mem_firstByName {v : Argument} (hv : v ∈ args) :
    v.name ∈ seen ∨ v.name ∈ (firstByName seen args).map (·.name) := by
  induction args generalizing seen with
  | nil => exact absurd hv List.not_mem_nil
  | cons a rest ih =>
      by_cases ha : a.name ∈ seen
      · rw [firstByName_cons_of_mem ha]
        rcases List.mem_cons.mp hv with rfl | hv
        · exact Or.inl ha
        · exact ih hv
      · rw [firstByName_cons_of_notMem ha, List.map_cons]
        rcases List.mem_cons.mp hv with rfl | hv
        · exact Or.inr List.mem_cons_self
        · rcases ih hv with hseen | hkept
          · rcases List.mem_cons.mp hseen with hname | hseen
            · exact Or.inr (hname ▸ List.mem_cons_self)
            · exact Or.inl hseen
          · exact Or.inr (List.mem_cons_of_mem _ hkept)

/-- An argument that is kept is the first of its name. -/
theorem find?_of_mem_firstByName {v : Argument} (hv : v ∈ firstByName seen args) :
    args.find? (·.name == v.name) = some v := by
  induction args generalizing seen with
  | nil => exact absurd hv List.not_mem_nil
  | cons a rest ih =>
      have hnew := name_notMem_of_mem_firstByName hv
      by_cases ha : a.name ∈ seen
      · have hne : a.name ≠ v.name := fun heq => hnew (heq ▸ ha)
        rw [firstByName_cons_of_mem ha] at hv
        rw [List.find?_cons_of_neg (by simpa using hne)]
        exact ih hv
      · rw [firstByName_cons_of_notMem ha] at hv
        rcases List.mem_cons.mp hv with rfl | hv
        · exact List.find?_cons_of_pos (beq_self_eq_true v.name)
        · have hne : a.name ≠ v.name := fun heq =>
            name_notMem_of_mem_firstByName hv (heq ▸ List.mem_cons_self)
          rw [List.find?_cons_of_neg (by simpa using hne)]
          exact ih hv

/-- The arguments that are kept are in the order in which their names come first. -/
theorem pairwise_firstByName (seen : List String) (args : List Argument) :
    (firstByName seen args).Pairwise fun u v =>
      args.findIdx (·.name == u.name) < args.findIdx (·.name == v.name) := by
  induction args generalizing seen with
  | nil => exact List.Pairwise.nil
  | cons a rest ih =>
      -- Where the first argument has another name, every place after it is one later.
      have hlater : ∀ {v : Argument}, a.name ≠ v.name →
          (a :: rest).findIdx (·.name == v.name) = rest.findIdx (·.name == v.name) + 1 := by
        intro v hne
        have hfalse : (a.name == v.name) = false := beq_false_of_ne hne
        simp [List.findIdx_cons, hfalse]
      have hkept : ∀ {seen : List String}, a.name ∈ seen → (firstByName seen rest).Pairwise fun u v =>
          (a :: rest).findIdx (·.name == u.name) < (a :: rest).findIdx (·.name == v.name) := by
        intro seen ha
        have hne : ∀ {v : Argument}, v ∈ firstByName seen rest → a.name ≠ v.name := fun hv heq =>
          name_notMem_of_mem_firstByName hv (heq ▸ ha)
        refine (ih seen).imp_of_mem fun hu hv hlt => ?_
        rw [hlater (hne hu), hlater (hne hv)]
        exact Nat.succ_lt_succ hlt
      by_cases ha : a.name ∈ seen
      · rw [firstByName_cons_of_mem ha]
        exact hkept ha
      · rw [firstByName_cons_of_notMem ha, List.pairwise_cons]
        refine ⟨fun v hv => ?_, hkept List.mem_cons_self⟩
        have hne : a.name ≠ v.name := fun heq =>
          name_notMem_of_mem_firstByName hv (heq ▸ List.mem_cons_self)
        rw [hlater hne, List.findIdx_cons, beq_self_eq_true]
        exact Nat.succ_pos _

/-- The first of each name, without the names that are declared. -/
theorem firstOfEach_filter (available : List Argument) (declared : List String) :
    FirstOfEach available declared
      ((firstByName [] available).filter fun v => !declared.contains v.name) := by
  have hordered := (pairwise_firstByName [] available).filter fun v => !declared.contains v.name
  refine ⟨?_, ?_, ?_, ?_, hordered⟩
  · rw [List.Nodup, List.pairwise_map]
    refine hordered.imp ?_
    intro u v hlt hname
    rw [hname] at hlt
    exact Nat.lt_irrefl _ hlt
  · intro v hv
    simpa using (List.mem_filter.mp hv).2
  · intro v hv
    by_cases hdeclared : v.name ∈ declared
    · exact Or.inl hdeclared
    · obtain ⟨u, hu, hname⟩ :=
        List.mem_map.mp ((name_mem_firstByName hv).resolve_left List.not_mem_nil)
      refine Or.inr (List.mem_map.mpr ⟨u, List.mem_filter.mpr ⟨hu, ?_⟩, hname⟩)
      simpa [hname] using hdeclared
  · intro v hv
    exact find?_of_mem_firstByName (List.mem_filter.mp hv).1

namespace Node

/-- The names of the inputs and outputs that a node declares. -/
def declaredNames (n : Node) : List String := (n.config.inputs ++ n.config.outputs).map (·.name)

theorem exists_startArguments_eq (n : Node) (further : List Argument) :
    ∃ chosen, n.startArguments (systemVariables further) =
        n.config.inputs.map Argument.unbound ++ n.config.outputs ++ chosen ∧
      FirstOfEach (builtinVariables ++ further) n.declaredNames chosen := by
  have hnames : (n.config.inputs.map Argument.unbound ++ n.config.outputs).map (·.name) =
      n.declaredNames := by
    rw [declaredNames, List.map_append, List.map_append, List.map_map]
    rfl
  refine ⟨_, rfl, ?_⟩
  rw [hnames]
  exact firstOfEach_filter _ _

end Node

/-- Every start in a scope exposes its inputs without their bindings, then its outputs, then the
first variable of every other name among the built-in ones, those of the workflow and further ones. -/
theorem Workflow.arguments_of_start_entry (w : Workflow) (further : List Argument) {target : NodeId}
    {e : ScopeNode} (he : e ∈ (w.scope further target).previous) (hstart : e.type = .start) :
    ∃ p chosen, w.index.position? e.id = some p ∧ (w.index.nodeAt p).type = .start ∧
      e.arguments = (w.index.nodeAt p).config.inputs.map Argument.unbound ++
        (w.index.nodeAt p).config.outputs ++ chosen ∧
      FirstOfEach (builtinVariables ++ (w.systemVariables ++ further))
        (w.index.nodeAt p).declaredNames chosen := by
  cases ht : w.index.position? target with
  | none => simp [scope, ht] at he
  | some t =>
      rw [w.scope_eq_scopeAt further ht, Index.previous_scopeAt] at he
      obtain ⟨before, after, hsplit⟩ := List.append_of_mem he
      obtain ⟨p, hp, hentry⟩ := exists_of_collectScope_eq_append hsplit
      have htype : (w.index.nodeAt p).type = .start := by
        rw [← hstart, hentry]
        rfl
      have harguments : e.arguments =
          (w.index.nodeAt p).startArguments (w.allSystemVariables further) := by
        simp [hentry, Index.previousEntry, Index.entry, Node.exposed, htype]
      have hid : e.id = (w.index.nodeAt p).id := by
        rw [hentry]
        rfl
      obtain ⟨chosen, heq, hchosen⟩ :=
        (w.index.nodeAt p).exists_startArguments_eq (w.systemVariables ++ further)
      have hlt := Index.lt_of_mem_scopeOrder w.index_wellFormed hp
      refine ⟨p, chosen, ?_, htype, harguments.trans heq, hchosen⟩
      rw [hid, Index.position?_nodeAt w.index_wellFormed hlt]

namespace StartEntriesWitness

def tenant : Argument := .provided "SYS_TENANT" .string "Tenant"

def region : Argument := .provided "SYS_REGION" .string "Region"

/-- The start declares the name of a variable itself. The workflow has that variable, another one by
the name of the built-in one, and one that is there twice. -/
def workflow : Workflow where
  nodes := [
    { id := ⟨"1"⟩, type := .start, next := [⟨"2"⟩], config := {
        inputs := [(Argument.typed "question" .string).withLiteral "hi"]
        outputs := [.typed "SYS_APP" .string] } },
    { id := ⟨"2"⟩, type := .finish }]
  systemVariables := [
    .provided "SYS_APP" .integer "App", .provided "SYS_USER_ID" .integer "Number", tenant,
    .provided "SYS_TENANT" .integer "Number"]

def further : List Argument := [.provided "SYS_TENANT" .object "Another", region]

def start : ScopeNode where
  id := ⟨"1"⟩
  name := ""
  type := .start
  arguments := [
    .typed "question" .string, .typed "SYS_APP" .string,
    .provided "SYS_USER_ID" .string "System user ID", tenant, region]
  viaException := false

theorem arguments_of_start_entry_shadowed :
    start ∈ (workflow.scope further ⟨"2"⟩).previous ∧ start.type = .start ∧
      FirstOfEach (builtinVariables ++ (workflow.systemVariables ++ further))
        ["question", "SYS_APP"]
        [.provided "SYS_USER_ID" .string "System user ID", tenant, region] := by
  have hprevious : (workflow.scope further ⟨"2"⟩).previous = [start] := by rfl
  have hmem : start ∈ (workflow.scope further ⟨"2"⟩).previous := hprevious ▸ List.mem_cons_self
  obtain ⟨p, chosen, hp, -, harguments, hchosen⟩ :=
    workflow.arguments_of_start_entry further hmem rfl
  have hposition : workflow.index.position? start.id = some 0 := by decide
  obtain rfl : 0 = p := Option.some.inj (hposition.symm.trans hp)
  have hdeclared : [.typed "question" .string, .typed "SYS_APP" .string] ++
      [.provided "SYS_USER_ID" .string "System user ID", tenant, region] =
        [.typed "question" .string, .typed "SYS_APP" .string] ++ chosen := harguments
  obtain rfl := List.append_cancel_left hdeclared
  exact ⟨hmem, rfl, hchosen⟩

end StartEntriesWitness

end FlowScope
