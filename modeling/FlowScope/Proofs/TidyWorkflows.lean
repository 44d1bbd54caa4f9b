import FlowScope.Proofs.TokenPieces
import FlowScope.Workflow.Basic
/-!
What workflows are like that have been read. Reading trims every identifier, wherever it stands, and
takes every edge of the workflow's own list for a supplemental one. Everything else may be as it likes.
-/
namespace FlowScope

namespace Json

theorem exists_of_bind_eq_ok {ε α β : Type} {x : Except ε α} {f : α → Except ε β} {b : β}
    (h : x >>= f = .ok b) : ∃ a, x = .ok a ∧ f a = .ok b := by
  cases x with
  | error e => simp [bind, Except.bind] at h
  | ok a => exact ⟨a, rfl, h⟩

theorem exists_of_map_eq_ok {ε α β : Type} {x : Except ε α} {f : α → β} {b : β}
    (h : x.map f = .ok b) : ∃ a, x = .ok a ∧ f a = b := by
  cases x with
  | error e => simp [Except.map] at h
  | ok a => exact ⟨a, rfl, Except.ok.inj h⟩

/-- Whatever the decoder makes of a document has a property. -/
def Yields {α : Type} (read : Decoder α) (P : α → Prop) : Prop :=
  ∀ (depth : Nat) (j : Json) (a : α), read depth j = .ok a → P a

section Decoders

variable {α : Type} {read : Decoder α} {P : α → Prop}

theorem Yields.orElse (h : Yields read P) {ifNull : α} (hnull : P ifNull) :
    Yields (orElse ifNull read) P := by
  intro depth j a ha
  cases j with
  | null =>
      obtain rfl : ifNull = a := Except.ok.inj ha
      exact hnull
  | _ => exact h depth _ a ha

theorem Yields.map {β : Type} {f : α → β} {Q : β → Prop} (h : Yields read P)
    (hf : ∀ a, P a → Q (f a)) : Yields (fun depth j => (read depth j).map f) Q := by
  intro depth j b hb
  obtain ⟨a, ha, rfl⟩ := exists_of_map_eq_ok hb
  exact hf a (h depth j a ha)

theorem Yields.option (h : Yields read P) : Yields (readOption read) fun a? => ∀ a ∈ a?, P a :=
  Yields.orElse (h.map fun a ha b hb => Option.some.inj hb ▸ ha) (by simp)

theorem Yields.mapM (h : Yields read P) {depth : Nat} {items : List Json} {as : List α}
    (has : items.mapM (read depth) = .ok as) : ∀ a ∈ as, P a := by
  induction items generalizing as with
  | nil =>
      obtain rfl : [] = as := Except.ok.inj has
      exact fun a ha => absurd ha List.not_mem_nil
  | cons item rest ih =>
      rw [List.mapM_cons] at has
      obtain ⟨b, hb, has⟩ := exists_of_bind_eq_ok has
      obtain ⟨bs, hbs, has⟩ := exists_of_bind_eq_ok has
      obtain rfl : b :: bs = as := Except.ok.inj has
      exact List.forall_mem_cons.mpr ⟨h depth item b hb, ih hbs⟩

theorem Yields.list (h : Yields read P) : Yields (readList read) fun as => ∀ a ∈ as, P a := by
  intro depth j as has
  cases j with
  | arr items stop =>
      obtain ⟨below, -, has⟩ := exists_of_bind_eq_ok has
      obtain ⟨bs, hbs, has⟩ := exists_of_bind_eq_ok has
      obtain ⟨-, -, has⟩ := exists_of_bind_eq_ok has
      obtain rfl : bs = as := Except.ok.inj has
      exact h.mapM hbs
  | _ => simp [readList] at has

/-- A list that may be `null`. -/
theorem Yields.many (h : Yields read P) :
    Yields (Json.orElse [] (readList read)) fun as => ∀ a ∈ as, P a :=
  h.list.orElse (by simp)

end Decoders

namespace Schema

variable {F : Type} [DecidableEq F] {V : F → Type} {s : Schema F V}

/-- Every field that has been read so far is what its decoder has made of something. -/
def Sourced (s : Schema F V) (d : Draft V) : Prop :=
  ∀ f x, d f = some x → ∃ depth j, s.read f depth j = .ok x

theorem Sourced.put {d : Draft V} (h : s.Sourced d) {f : F} {x : V f} {depth : Nat} {j : Json}
    (hx : s.read f depth j = .ok x) : s.Sourced (put d f x) := by
  intro g y hy
  by_cases hgf : g = f
  · subst hgf
    rw [put_self, Option.some.injEq] at hy
    exact ⟨depth, j, hy ▸ hx⟩
  · rw [put_of_ne d x hgf] at hy
    exact h g y hy

theorem Sourced.readMembers {depth : Nat} {members : List (Quoted × Json)} {d d' : Draft V}
    (h : s.Sourced d) (hd' : s.readMembers depth members d = .ok d') : s.Sourced d' := by
  induction members generalizing d with
  | nil =>
      obtain rfl : d = d' := Except.ok.inj hd'
      exact h
  | cons m rest ih =>
      obtain ⟨q, j⟩ := m
      cases q with
      | faulty fault skipped => simp [Schema.readMembers] at hd'
      | text key =>
          rw [Schema.readMembers] at hd'
          split at hd'
          · split at hd'
            · simp at hd'
            · exact ih h hd'
          · split at hd'
            · simp at hd'
            · split at hd'
              · simp at hd'
              · next x hx => exact ih (h.put hx) hd'

theorem Sourced.readItems {depth : Nat} {stop : Option Fault} {n : Nat} {fields : List F}
    {items : List Json} {d d' : Draft V} (h : s.Sourced d)
    (hd' : s.readItems depth stop n fields items d = .ok d') : s.Sourced d' := by
  induction fields generalizing n items d with
  | nil =>
      cases items with
      | nil =>
          obtain ⟨-, -, rfl⟩ := exists_of_map_eq_ok hd'
          exact h
      | cons item rest => simp [Schema.readItems] at hd'
  | cons f fields ih =>
      cases items with
      | nil =>
          cases stop with
          | some fault => simp [Schema.readItems] at hd'
          | none =>
              rw [Schema.readItems] at hd'
              split at hd'
              · simp at hd'
              · exact ih h hd'
      | cons item rest =>
          rw [Schema.readItems] at hd'
          split at hd'
          · simp at hd'
          · next x hx => exact ih (h.put hx) hd'

/-- A field of a record that has been read has what its decoder yields, or the value of a missing
field. -/
theorem field_of_readFields {depth : Nat} {j : Json} {v : (f : F) → V f}
    (h : s.readFields depth j = .ok v) {f : F} {P : V f → Prop} (hread : Yields (s.read f) P)
    (hempty : P (s.empty f)) : P (v f) := by
  have hdraft : ∃ d : Draft V, s.Sourced d ∧ v = fun f => (d f).getD (s.empty f) := by
    have hnew : s.Sourced fun _ => none := fun f x hx => by simp at hx
    cases j with
    | obj members stop =>
        obtain ⟨below, -, h⟩ := exists_of_bind_eq_ok h
        obtain ⟨d, hd, h⟩ := exists_of_bind_eq_ok h
        obtain ⟨-, -, h⟩ := exists_of_bind_eq_ok h
        split at h
        · simp at h
        · exact ⟨d, hnew.readMembers hd, (Except.ok.inj h).symm⟩
    | arr items stop =>
        obtain ⟨below, -, h⟩ := exists_of_bind_eq_ok h
        obtain ⟨d, hd, h⟩ := exists_of_bind_eq_ok h
        exact ⟨d, hnew.readItems hd, (Except.ok.inj h).symm⟩
    | _ => simp [readFields] at h
  obtain ⟨d, hsourced, rfl⟩ := hdraft
  cases hd : d f with
  | none => simpa [hd] using hempty
  | some x =>
      obtain ⟨depth, j, hx⟩ := hsourced f x hd
      simpa [hd] using hread depth j x hx

end Schema

end Json

namespace Text

theorem isBlank_of_isDigit {c : Char} (h : c.isDigit = true) : isBlank c = false := by
  have hrange : 48 ≤ c.toNat ∧ c.toNat ≤ 57 := by
    simpa [Char.isDigit, UInt32.le_iff_toNat_le] using h
  simp only [isBlank, Bool.or_eq_false_iff, Bool.and_eq_false_iff, decide_eq_false_iff_not,
    beq_eq_false_iff_ne]
  omega

theorem trim_toString_int (n : Int) : trim (toString n) = toString n := by
  have hnat : ∀ k : Nat, ∀ c ∈ k.repr.toList, isBlank c = false := by
    intro k c hc
    rw [Nat.repr, String.toList_ofList] at hc
    exact isBlank_of_isDigit (Nat.isDigit_of_mem_toDigits (by decide) (by decide) hc)
  apply trim_eq_self_of_forall
  intro c hc
  cases n with
  | ofNat k => exact hnat k c hc
  | negSucc k =>
      have hchars : (toString (Int.negSucc k)).toList = '-' :: (k + 1).repr.toList := by
        rw [show toString (Int.negSucc k) = "-" ++ (k + 1).repr from rfl, String.toList_append]
        rfl
      rw [hchars, List.mem_cons] at hc
      rcases hc with rfl | hc
      · rfl
      · exact hnat _ c hc

end Text

open Json (Yields)
open Json.Schema (field_of_readFields)

/-- There are no blanks at the ends of the identifier. -/
def NodeId.Trimmed (id : NodeId) : Prop := Text.trim id.text = id.text

theorem NodeId.yields_read : Yields NodeId.read NodeId.Trimmed := by
  intro depth j id h
  cases hfault : j.readFault? depth with
  | some fault => simp [read, hfault] at h
  | none =>
      simp only [read, hfault] at h
      split at h
      · obtain rfl := Except.ok.inj h
        exact Text.trim_trim _
      · split at h
        · split at h
          · obtain rfl := Except.ok.inj h
            exact Text.trim_toString_int _
          · simp at h
        · simp at h
      · simp at h

/-- An edge as the list of a workflow has it: with trimmed identifiers, and supplemental. -/
structure Edge.Tidy (e : Edge) : Prop where
  source : e.source.Trimmed
  target : e.target.Trimmed
  kind : e.kind = .supplemental

theorem Edge.yields_read : Yields Edge.read Edge.Tidy := by
  intro depth j e h
  obtain ⟨v, hv, rfl⟩ := Json.exists_of_map_eq_ok h
  exact ⟨field_of_readFields hv NodeId.yields_read rfl,
    field_of_readFields hv NodeId.yields_read rfl, rfl⟩

/-- All identifiers in a list are trimmed. -/
def NodeId.AllTrimmed (ids : List NodeId) : Prop := ∀ id ∈ ids, id.Trimmed

theorem NodeId.yields_readMany : Yields NodeId.readMany NodeId.AllTrimmed := NodeId.yields_read.many

theorem NodeId.allTrimmed_nil : NodeId.AllTrimmed [] := by simp [NodeId.AllTrimmed]

theorem FailureHandling.yields_read :
    Yields FailureHandling.read fun h => NodeId.AllTrimmed h.handlers := by
  intro depth j h hread
  obtain ⟨v, hv, rfl⟩ := Json.exists_of_map_eq_ok hread
  exact field_of_readFields hv (f := .handlers) NodeId.yields_readMany NodeId.allTrimmed_nil

theorem ConditionBranch.yields_read :
    Yields ConditionBranch.read fun b => NodeId.AllTrimmed b.next := by
  intro depth j b hread
  obtain ⟨v, hv, rfl⟩ := Json.exists_of_map_eq_ok hread
  exact field_of_readFields hv (f := .next) NodeId.yields_readMany NodeId.allTrimmed_nil

theorem IntentBranch.yields_read : Yields IntentBranch.read fun b => NodeId.AllTrimmed b.next := by
  intro depth j b hread
  obtain ⟨v, hv, rfl⟩ := Json.exists_of_map_eq_ok hread
  exact field_of_readFields hv (f := .next) NodeId.yields_readMany NodeId.allTrimmed_nil

theorem AnswerBranch.yields_read : Yields AnswerBranch.read fun b => NodeId.AllTrimmed b.next := by
  intro depth j b hread
  obtain ⟨v, hv, rfl⟩ := Json.exists_of_map_eq_ok hread
  exact field_of_readFields hv (f := .next) NodeId.yields_readMany NodeId.allTrimmed_nil

/-- The identifiers in a configuration are trimmed. -/
structure NodeConfig.Tidy (c : NodeConfig) : Prop where
  failure : ∀ h ∈ c.failure, NodeId.AllTrimmed h.handlers
  conditions : ∀ b ∈ c.conditions, NodeId.AllTrimmed b.next
  intents : ∀ b ∈ c.intents, NodeId.AllTrimmed b.next
  answers : ∀ b ∈ c.answers, NodeId.AllTrimmed b.next

theorem NodeConfig.Tidy.empty : NodeConfig.Tidy {} := ⟨by simp, by simp, by simp, by simp⟩

/-- The identifiers in a node and in all that is nested in it are trimmed. -/
inductive Node.Tidy : Node → Prop
  | mk {n : Node} : n.id.Trimmed → NodeId.AllTrimmed n.next → (∀ id ∈ n.loop, id.Trimmed) →
      (∀ id ∈ n.innerStart, id.Trimmed) → (∀ id ∈ n.innerEnd, id.Trimmed) → n.config.Tidy →
      (∀ m ∈ n.inner, m.Tidy) → (∀ m ∈ n.configInner, m.Tidy) → n.Tidy

/-- A configuration that has been read is tidy, and so are the nodes nested in it, if nested nodes
are. -/
theorem NodeConfig.yields_readWith {node : Json.Decoder Node} (hnode : Yields node Node.Tidy) :
    Yields (NodeConfig.readWith node) fun c => c.1.Tidy ∧ ∀ m ∈ c.2, m.Tidy := by
  intro depth j c hread
  obtain ⟨v, hv, rfl⟩ := Json.exists_of_map_eq_ok hread
  refine ⟨⟨?_, ?_, ?_, ?_⟩, ?_⟩
  · exact field_of_readFields hv (f := .failure) FailureHandling.yields_read.option nofun
  · exact field_of_readFields hv (f := .conditions) ConditionBranch.yields_read.many
      (List.forall_mem_nil _)
  · exact field_of_readFields hv (f := .intents) IntentBranch.yields_read.many
      (List.forall_mem_nil _)
  · exact field_of_readFields hv (f := .answers) AnswerBranch.yields_read.many
      (List.forall_mem_nil _)
  · exact field_of_readFields hv (f := .inner) hnode.many (List.forall_mem_nil _)

theorem Node.yields_readNested (n : Nat) : Yields (Node.readNested n) Node.Tidy := by
  induction n with
  | zero => exact fun depth j node h => by simp [readNested] at h
  | succ n ih =>
      intro depth j node hread
      obtain ⟨v, hv, rfl⟩ := Json.exists_of_map_eq_ok hread
      have hconfig := field_of_readFields hv (f := .config)
        ((NodeConfig.yields_readWith ih).orElse ⟨NodeConfig.Tidy.empty, List.forall_mem_nil _⟩)
        ⟨NodeConfig.Tidy.empty, List.forall_mem_nil _⟩
      refine .mk ?_ ?_ ?_ ?_ ?_ hconfig.1 ?_ hconfig.2
      · exact field_of_readFields hv (f := .id) NodeId.yields_read rfl
      · exact field_of_readFields hv (f := .next) NodeId.yields_readMany NodeId.allTrimmed_nil
      · exact field_of_readFields hv (f := .loop) NodeId.yields_read.option nofun
      · exact field_of_readFields hv (f := .innerStart) NodeId.yields_read.option nofun
      · exact field_of_readFields hv (f := .innerEnd) NodeId.yields_read.option nofun
      · exact field_of_readFields hv (f := .inner) ih.many (List.forall_mem_nil _)

/-- A workflow of tidy nodes and edges. -/
structure Workflow.Tidy (w : Workflow) : Prop where
  nodes : ∀ n ∈ w.nodes, n.Tidy
  edges : ∀ e ∈ w.edges, e.Tidy

/-- A workflow that has been read is tidy. -/
theorem Workflow.yields_read : Yields Workflow.read Workflow.Tidy := by
  intro depth j w hread
  obtain ⟨v, hv, rfl⟩ := Json.exists_of_map_eq_ok hread
  have hnode : Yields Node.read Node.Tidy := fun depth => Node.yields_readNested depth depth
  exact ⟨field_of_readFields hv (f := .nodes) hnode.many (List.forall_mem_nil _),
    field_of_readFields hv (f := .edges) Edge.yields_read.many (List.forall_mem_nil _)⟩

theorem Workflow.tidy_of_ofDocument {d : Json.Document} {w : Workflow}
    (h : Workflow.ofDocument d = .ok w) : w.Tidy := by
  obtain ⟨w', hread, h⟩ := Json.exists_of_bind_eq_ok h
  obtain ⟨-, -, h⟩ := Json.exists_of_bind_eq_ok h
  obtain rfl : w' = w := Except.ok.inj h
  exact Workflow.yields_read _ _ _ hread

end FlowScope
