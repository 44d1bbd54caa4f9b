import FlowScope.Proofs.Members
import Mathlib.Data.List.Perm.Basic
import Mathlib.Logic.Equiv.Basic
/-!
Workflows whose lists stand in another order: the nodes, the nodes nested in a node, the edges, and the
successors that a node names. Such workflows have the same members up to the order of what these name,
and so there is a renumbering of positions that takes each member to its counterpart.
-/
namespace FlowScope

/-- The configuration with the successors of each branch, and the nodes that take over, in another
order. -/
structure NodeConfig.Rearranged (c c' : NodeConfig) : Prop where
  kept : { c' with failure := c.failure, conditions := c.conditions, intents := c.intents
                   answers := c.answers } = c
  failure : Option.Rel (fun handling handling' => handling'.mode = handling.mode ∧
    handling.handlers.Perm handling'.handlers) c.failure c'.failure
  conditions : List.Forall₂ (fun b b' => { b' with next := b.next } = b ∧ b.next.Perm b'.next)
    c.conditions c'.conditions
  intents : List.Forall₂ (fun b b' => { b' with next := b.next } = b ∧ b.next.Perm b'.next)
    c.intents c'.intents
  answers : List.Forall₂ (fun b b' => { b' with next := b.next } = b ∧ b.next.Perm b'.next)
    c.answers c'.answers

theorem NodeConfig.Rearranged.refl (c : NodeConfig) : c.Rearranged c where
  kept := rfl
  failure := by
    cases c.failure with
    | none => exact .none
    | some handling => exact .some ⟨rfl, .rfl⟩
  conditions := List.forall₂_same.mpr fun _ _ => ⟨rfl, .rfl⟩
  intents := List.forall₂_same.mpr fun _ _ => ⟨rfl, .rfl⟩
  answers := List.forall₂_same.mpr fun _ _ => ⟨rfl, .rfl⟩

namespace Node

mutual

/-- The node with its lists in another order, and so for all that is nested in it. -/
inductive Rearranged : Node → Node → Prop
  | node {id : NodeId} {name : String} {type : NodeType} {loop innerStart innerEnd : Option NodeId}
      {next next' : List NodeId} {config config' : NodeConfig}
      {inner inner' configInner configInner' : List Node} :
      next.Perm next' → config.Rearranged config' → RearrangedAll inner inner' →
        RearrangedAll configInner configInner' →
          Rearranged ⟨id, name, type, next, loop, config, inner, configInner, innerStart, innerEnd⟩
            ⟨id, name, type, next', loop, config', inner', configInner', innerStart, innerEnd⟩

/-- The nodes in another order, each with its lists in another order. -/
inductive RearrangedAll : List Node → List Node → Prop
  | nil : RearrangedAll [] []
  | cons {n n' : Node} {rest rest' : List Node} :
      Rearranged n n' → RearrangedAll rest rest' → RearrangedAll (n :: rest) (n' :: rest')
  | swap (m n : Node) (rest : List Node) : RearrangedAll (n :: m :: rest) (m :: n :: rest)
  | trans {first second third : List Node} :
      RearrangedAll first second → RearrangedAll second third → RearrangedAll first third

end

mutual

theorem Rearranged.refl : ∀ n : Node, n.Rearranged n
  | ⟨_, _, _, _, _, _, inner, configInner, _, _⟩ =>
      .node .rfl (.refl _) (RearrangedAll.refl inner) (RearrangedAll.refl configInner)

theorem RearrangedAll.refl : ∀ ns : List Node, RearrangedAll ns ns
  | [] => .nil
  | n :: rest => .cons (Rearranged.refl n) (RearrangedAll.refl rest)

end

/-- The same nodes in another order. -/
theorem RearrangedAll.of_perm {ns ns' : List Node} (h : ns.Perm ns') : RearrangedAll ns ns' := by
  induction h with
  | nil => exact .nil
  | cons n _ ih => exact .cons (.refl n) ih
  | swap m n rest => exact .swap m n rest
  | trans _ _ ih ih' => exact .trans ih ih'

/-- Nodes that say the same, but for the order in which they name their successors. -/
structure Alike (n n' : Node) : Prop where
  id_eq : n'.id = n.id
  type_eq : n'.type = n.type
  loop_eq : n'.loop = n.loop
  innerStart_eq : n'.innerStart = n.innerStart
  innerEnd_eq : n'.innerEnd = n.innerEnd
  vars_eq : n'.config.vars = n.config.vars
  next_perm : n.next.Perm n'.next
  branches_perm : n.branches.Perm n'.branches
  handlers_perm : n.handlers.Perm n'.handlers

theorem Alike.refl (n : Node) : n.Alike n := ⟨rfl, rfl, rfl, rfl, rfl, rfl, .rfl, .rfl, .rfl⟩

theorem Alike.trans {first second third : Node} (h : first.Alike second) (h' : second.Alike third) :
    first.Alike third where
  id_eq := h'.id_eq.trans h.id_eq
  type_eq := h'.type_eq.trans h.type_eq
  loop_eq := h'.loop_eq.trans h.loop_eq
  innerStart_eq := h'.innerStart_eq.trans h.innerStart_eq
  innerEnd_eq := h'.innerEnd_eq.trans h.innerEnd_eq
  vars_eq := h'.vars_eq.trans h.vars_eq
  next_perm := h.next_perm.trans h'.next_perm
  branches_perm := h.branches_perm.trans h'.branches_perm
  handlers_perm := h.handlers_perm.trans h'.handlers_perm

theorem Alike.isLoop_eq {n n' : Node} (h : n.Alike n') : n'.isLoop = n.isLoop := by
  rw [isLoop, isLoop, h.type_eq]

end Node

/-- Branches with their successors in another order name the same ones all together. -/
theorem flatMap_next_perm {β : Type} {next : β → List NodeId} {R : β → β → Prop}
    (hnext : ∀ b b', R b b' → (next b).Perm (next b')) {branches branches' : List β}
    (h : List.Forall₂ R branches branches') : (branches.flatMap next).Perm (branches'.flatMap next) := by
  induction h with
  | nil => exact .rfl
  | cons hhead _ ih =>
      rw [List.flatMap_cons, List.flatMap_cons]
      exact (hnext _ _ hhead).append ih

namespace NodeConfig.Rearranged

variable {c c' : NodeConfig} {n n' : Node}

theorem vars_eq (h : c.Rearranged c') : c'.vars = c.vars :=
  (congrArg NodeConfig.vars h.kept :)

theorem handlers_perm (h : n.config.Rearranged n'.config) : n.handlers.Perm n'.handlers := by
  have hfailure := h.failure
  rw [Node.handlers, Node.handlers]
  generalize n.config.failure = failure, n'.config.failure = failure' at hfailure ⊢
  cases hfailure with
  | none => exact .rfl
  | @some handling handling' hsame =>
      have hmode : handling'.handsOver = handling.handsOver := by
        rw [FailureHandling.handsOver, FailureHandling.handsOver, hsame.1]
      simp only [hmode]
      by_cases hover : handling.handsOver = true
      · rw [if_pos hover, if_pos hover]
        exact hsame.2
      · rw [if_neg hover, if_neg hover]

theorem branches_perm (h : n.config.Rearranged n'.config) (htype : n'.type = n.type) :
    n.branches.Perm n'.branches := by
  rw [Node.branches, Node.branches, htype]
  split
  · exact flatMap_next_perm (fun _ _ hsame => hsame.2) h.conditions
  · exact flatMap_next_perm (fun _ _ hsame => hsame.2) h.intents
  · exact flatMap_next_perm (fun _ _ hsame => hsame.2) h.answers
  · exact .rfl

end NodeConfig.Rearranged

/-- The renumbering that leaves the first number and does with those after it what another does. -/
def shifted (σ : Equiv.Perm Nat) : Equiv.Perm Nat where
  toFun
    | 0 => 0
    | i + 1 => σ i + 1
  invFun
    | 0 => 0
    | i + 1 => σ.symm i + 1
  left_inv i := by cases i <;> simp
  right_inv i := by cases i <;> simp

/-- A list in another order is a list with its places renumbered. -/
theorem exists_renumbering_of_perm {α : Type} {xs ys : List α} (h : xs.Perm ys) :
    ∃ σ : Equiv.Perm Nat, ∀ i : Nat, ys[σ i]? = xs[i]? := by
  induction h with
  | nil => exact ⟨Equiv.refl Nat, fun _ => rfl⟩
  | cons x _ ih =>
      obtain ⟨σ, hσ⟩ := ih
      refine ⟨shifted σ, fun i => ?_⟩
      cases i with
      | zero => rfl
      | succ i => simpa [shifted] using hσ i
  | swap x y xs =>
      refine ⟨Equiv.swap 0 1, fun i => ?_⟩
      match i with
      | 0 => simp
      | 1 => simp
      | i + 2 => rw [Equiv.swap_apply_of_ne_of_ne (by omega) (by omega)]; rfl
  | trans _ _ ih ih' =>
      obtain ⟨σ, hσ⟩ := ih
      obtain ⟨τ, hτ⟩ := ih'
      exact ⟨σ.trans τ, fun i => by rw [Equiv.trans_apply, hτ, hσ]⟩

theorem rel_getElem?_of_forall₂ {α β : Type} {R : α → β → Prop} {xs : List α} {ys : List β}
    (h : List.Forall₂ R xs ys) (i : Nat) : Option.Rel R xs[i]? ys[i]? := by
  induction h generalizing i with
  | nil => exact .none
  | cons hhead _ ih =>
      cases i with
      | zero => exact .some hhead
      | succ i => simpa using ih i

/-- Members that say the same and are nested in the same node. -/
structure Member.Alike (m m' : Member) : Prop where
  node : m.node.Alike m'.node
  container_eq : m'.container = m.container

theorem Member.Alike.trans {first second third : Member} (h : first.Alike second)
    (h' : second.Alike third) : first.Alike third :=
  ⟨h.node.trans h'.node, h'.container_eq.trans h.container_eq⟩

/-- The same members in another order. -/
def Member.Rearranged : List Member → List Member → Prop :=
  Relation.Comp List.Perm (List.Forall₂ Member.Alike)

theorem Member.forall₂_alike_trans {first second third : List Member}
    (h : List.Forall₂ Member.Alike first second) (h' : List.Forall₂ Member.Alike second third) :
    List.Forall₂ Member.Alike first third := by
  induction h generalizing third with
  | nil => exact h'
  | cons hhead _ ih =>
      cases h' with
      | cons hhead' hrest => exact .cons (hhead.trans hhead') (ih hrest)

namespace Member.Rearranged

variable {ms ms' more more' : List Member}

theorem of_perm (h : ms.Perm ms') : Member.Rearranged ms ms' :=
  ⟨ms', h, List.forall₂_same.mpr fun m _ => ⟨.refl m.node, rfl⟩⟩

theorem cons {m m' : Member} (hm : m.Alike m') (h : Member.Rearranged ms ms') :
    Member.Rearranged (m :: ms) (m' :: ms') := by
  obtain ⟨middle, hperm, halike⟩ := h
  exact ⟨m :: middle, hperm.cons m, .cons hm halike⟩

theorem append (h : Member.Rearranged ms ms') (hmore : Member.Rearranged more more') :
    Member.Rearranged (ms ++ more) (ms' ++ more') := by
  obtain ⟨middle, hperm, halike⟩ := h
  obtain ⟨middle', hperm', halike'⟩ := hmore
  exact ⟨middle ++ middle', hperm.append hperm', List.rel_append halike halike'⟩

theorem trans (h : Member.Rearranged ms ms') (h' : Member.Rearranged ms' more) :
    Member.Rearranged ms more := by
  obtain ⟨middle, hperm, halike⟩ := h
  obtain ⟨middle', hperm', halike'⟩ := h'
  have hswapped : Member.Rearranged middle middle' := by
    rw [Member.Rearranged, ← List.forall₂_comp_perm_eq_perm_comp_forall₂]
    exact ⟨ms', halike, hperm'⟩
  obtain ⟨last, hlast, hlastAlike⟩ := hswapped
  exact ⟨last, hperm.trans hlast, Member.forall₂_alike_trans hlastAlike halike'⟩

theorem ids_perm (h : Member.Rearranged ms ms') :
    (ms.map (·.node.id)).Perm (ms'.map (·.node.id)) := by
  obtain ⟨middle, hperm, halike⟩ := h
  have hids : middle.map (·.node.id) = ms'.map (·.node.id) := by
    rw [← List.forall₂_eq_eq_eq, List.forall₂_map_left_iff, List.forall₂_map_right_iff]
    exact halike.imp fun _ _ hsame => hsame.node.id_eq.symm
  rw [← hids]
  exact hperm.map _

/-- Some renumbering takes each member to its counterpart. -/
theorem exists_renumbering (h : Member.Rearranged ms ms') :
    ∃ σ : Equiv.Perm Nat, ∀ i, Option.Rel Member.Alike ms[i]? ms'[σ i]? := by
  obtain ⟨middle, hperm, halike⟩ := h
  obtain ⟨σ, hσ⟩ := exists_renumbering_of_perm hperm
  refine ⟨σ, fun i => ?_⟩
  rw [← hσ]
  exact rel_getElem?_of_forall₂ halike (σ i)

end Member.Rearranged

namespace Node

mutual

theorem Rearranged.members (container : Option NodeId) : ∀ {n n' : Node}, n.Rearranged n' →
    Member.Rearranged (n.members container) (n'.members container)
  | _, _, .node hnext hconfig hinner hconfigInner => by
      rw [Node.members, Node.members]
      refine .cons ⟨⟨rfl, rfl, rfl, rfl, rfl, hconfig.vars_eq, hnext, ?_, ?_⟩, rfl⟩ ?_
      · exact NodeConfig.Rearranged.branches_perm hconfig rfl
      · exact NodeConfig.Rearranged.handlers_perm hconfig
      · exact (hinner.membersAll _).append (hconfigInner.membersAll _)

theorem RearrangedAll.membersAll (container : Option NodeId) : ∀ {ns ns' : List Node},
    RearrangedAll ns ns' →
      Member.Rearranged (Node.membersAll container ns) (Node.membersAll container ns')
  | _, _, .nil => .of_perm .rfl
  | _, _, .cons hhead hrest => by
      rw [Node.membersAll, Node.membersAll]
      exact (hhead.members container).append (hrest.membersAll container)
  | _, _, .swap m n rest => by
      simp only [Node.membersAll, ← List.append_assoc]
      exact .of_perm (List.perm_append_comm.append_right _)
  | _, _, .trans hfirst hsecond =>
      (hfirst.membersAll container).trans (hsecond.membersAll container)

end

end Node

/-- A workflow with its lists in another order. -/
structure Workflow.Rearranged (w w' : Workflow) : Prop where
  nodes : Node.RearrangedAll w.nodes w'.nodes
  edges : w.edges.Perm w'.edges
  systemVariables_eq : w'.systemVariables = w.systemVariables

theorem Workflow.Rearranged.members {w w' : Workflow} (h : w.Rearranged w') :
    Member.Rearranged w.members w'.members := by
  rw [Workflow.members, Workflow.members, ← Node.membersAll_eq_flatMap, ← Node.membersAll_eq_flatMap]
  exact h.nodes.membersAll none

end FlowScope
