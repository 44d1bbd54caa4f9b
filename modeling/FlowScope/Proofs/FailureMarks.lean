import FlowScope.Proofs.Discovery
/-!
The mark of nodes reached through failures only, told by what the workflow declares. An edge keeps the
first kind under which it is declared, and failures come before the further edges of the workflow and
before the bodies of loops. So a node stays unmarked when it lies on a way of normal connections of
which none is declared for failures, unless it is also named plainly or in a branch.
-/
namespace FlowScope

open Relation

namespace Workflow

variable (w : Workflow)

/-- The workflow declares `v` after `u` other than for failures. -/
def NormallyDeclares (u v : Nat) : Prop :=
  ∃ k : EdgeKind, k.isNormal = true ∧ w.Declares u v k

/-- The workflow declares `v` after `u` other than for failures, and if for failures as well then
plainly or in a branch. -/
def KeepsNormal (u v : Nat) : Prop :=
  w.NormallyDeclares u v ∧
    (w.Declares u v .exception → w.Declares u v .next ∨ w.Declares u v .branch)

theorem leads_isNormal_iff {u v : Nat} :
    w.index.Leads EdgeKind.isNormal u v ↔ w.KeepsNormal u v := by
  constructor
  · rintro ⟨k, hnormal, hk⟩
    obtain ⟨hdeclares, hfirst⟩ := w.mem_out_iff.mp hk
    refine ⟨⟨k, hnormal, hdeclares⟩, fun hexception => ?_⟩
    cases k with
    | next => exact Or.inl hdeclares
    | branch => exact Or.inr hdeclares
    | exception => simp [EdgeKind.isNormal] at hnormal
    | supplemental => exact absurd hexception (hfirst .exception (by simp [EdgeKind.before]))
    | loopBody => exact absurd hexception (hfirst .exception (by simp [EdgeKind.before]))
  · rintro ⟨⟨k, -, hdeclares⟩, hkeeps⟩
    obtain ⟨j, hj, hfirst⟩ := EdgeKind.exists_first (P := w.Declares u v) hdeclares
    refine ⟨j, ?_, w.mem_out_iff.mpr ⟨hj, hfirst⟩⟩
    cases j with
    | exception =>
        rcases hkeeps hj with hnext | hbranch
        · exact absurd hnext (hfirst .next (by simp [EdgeKind.before]))
        · exact absurd hbranch (hfirst .branch (by simp [EdgeKind.before]))
    | _ => rfl

theorem leads_isNormal_eq : w.index.Leads EdgeKind.isNormal = w.KeepsNormal := by
  funext u v
  exact propext w.leads_isNormal_iff

/-- A node on a way of connections that keep normal is on a way of normal connections. -/
theorem onWay_of_keepsNormal {t p : Nat} (h : w.index.OnWay w.KeepsNormal t p) :
    w.index.OnWay w.NormallyDeclares t p :=
  h.mono fun _ _ hkeeps => hkeeps.1

/-- A discovered node is unmarked exactly when it lies on a way of connections that keep normal. So
the mark tells apart the nodes on normal ways from others as long as every node on a normal way is on
one that keeps normal, and only then. -/
theorem viaException_eq_false_iff {t p : Nat} {viaException : Bool}
    (hp : (p, viaException) ∈ w.index.discover t) :
    (viaException = false ↔ w.index.OnWay w.KeepsNormal t p) ∧
      ((viaException = false ↔ w.index.OnWay w.NormallyDeclares t p) ↔
        (w.index.OnWay w.NormallyDeclares t p → w.index.OnWay w.KeepsNormal t p)) := by
  have hmark : viaException = false ↔ w.index.OnWay w.KeepsNormal t p := by
    rw [← w.leads_isNormal_eq]
    exact Index.eq_false_iff_of_mem_discover w.index_wellFormed hp
  refine ⟨hmark, ?_⟩
  rw [hmark]
  constructor
  · exact fun h => h.mpr
  · exact fun h => ⟨w.onWay_of_keepsNormal, h⟩

end Workflow

namespace FailureMarksWitness

/-- The second node hands over to the third when it fails, and an edge of the workflow leads there
as well. -/
def workflow : Workflow where
  nodes := [
    { id := ⟨"1"⟩, type := .start, next := [⟨"2"⟩] },
    { id := ⟨"2"⟩, type := .llm, config := { failure := some ⟨some .executeFlow, [⟨"3"⟩]⟩ } },
    { id := ⟨"3"⟩, type := .finish }]
  edges := [⟨⟨"2"⟩, ⟨"3"⟩, .supplemental⟩]

theorem viaException_eq_false_iff_masked :
    (1, true) ∈ workflow.index.discover 2 ∧
      (true = false ↔ workflow.index.OnWay workflow.KeepsNormal 2 1) := by
  have hp : (1, true) ∈ workflow.index.discover 2 := by decide
  exact ⟨hp, (workflow.viaException_eq_false_iff hp).1⟩

/-- Both edges are declared as normal ones, yet the nodes are marked. -/
theorem not_viaException_eq_false_iff_onWay_normallyDeclares :
    ¬ ∀ (w : Workflow) (t p : Nat) (viaException : Bool), (p, viaException) ∈ w.index.discover t →
      (viaException = false ↔ w.index.OnWay w.NormallyDeclares t p) := by
  intro hclaim
  have hfirst : workflow.NormallyDeclares 0 1 :=
    ⟨.next, rfl, ⟨by decide, by decide, by decide, by decide, by decide⟩, by decide⟩
  have hsecond : workflow.NormallyDeclares 1 2 :=
    ⟨.supplemental, rfl, ⟨by decide, by decide, by decide, by decide, by decide⟩, by decide⟩
  have hway : workflow.index.OnWay workflow.NormallyDeclares 2 1 :=
    ⟨[0, 1], ⟨0, by decide, rfl⟩, by simp [hfirst, hsecond], by decide, by decide⟩
  have hmarked := (hclaim workflow 2 1 true (by decide)).mpr hway
  exact Bool.noConfusion hmarked

end FailureMarksWitness

end FlowScope
