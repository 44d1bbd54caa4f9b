import FlowScope.Proofs.TokenTexts
import FlowScope.Scope.ArgumentMap
/-!
References to fields. The text of a token may be continued by a dot and the name of a field, and then it
leads to that field of what it has led to before. So following a reference of many pieces is following it
field by field.
-/
namespace FlowScope

namespace Argument

theorem path?_append (a : Argument) (front back : List String) :
    a.path? (front ++ back) = (a.path? front).bind (·.path? back) := by
  induction front generalizing a with
  | nil => rfl
  | cons name rest ih =>
      rw [List.cons_append, path?, path?, Option.bind_assoc]
      exact congrArg _ (funext fun b => ih b)

theorem path?_singleton (a : Argument) (name : String) : a.path? [name] = a.field? name := by
  rw [path?]
  cases a.field? name <;> rfl

end Argument

namespace Token

/-- A name that may stand after the last dot of a token. -/
structure FieldName (name : String) : Prop where
  full : name ≠ ""
  dotless : '.' ∉ name.toList
  ends : ∀ c ∈ name.toList.getLast?, Text.isBlank c = false

/-- A text with the name of one more field. -/
def below (s name : String) : String := s ++ "." ++ name

/-- The token with one more field. -/
def field (t : Token) (name : String) : Token := { t with fields := t.fields ++ [name] }

/-- A text that is read as it is: no blanks have to be trimmed off. -/
structure Reads (s : String) (t : Token) : Prop where
  parsed : parse s = .ok t
  trimmed : Text.trim s = s

variable {s name : String} {t : Token}

theorem Reads.pieces_eq (h : Reads s t) : pieces s = t.node.text :: t.path := by
  have hpieces := (parse_eq_ok_iff_pieces.mp h.parsed).1
  rwa [h.trimmed] at hpieces

theorem Reads.ne_empty (h : Reads s t) : s ≠ "" := by
  rintro rfl
  have hlength := congrArg List.length h.pieces_eq
  simp [pieces, path] at hlength

/-- Blanks are trimmed off at the ends only, and the new end is that of the name. -/
theorem Reads.trim_below (h : Reads s t) (hname : FieldName name) :
    Text.trim (below s name) = below s name := by
  have hbegins := (Text.trimChars_eq_self_iff.mp (Text.trim_eq_self_iff.mp h.trimmed)).1
  have hkey : Text.trim (key ⟨s⟩ name) = key ⟨s⟩ name := by
    rw [trim_key_eq_self_iff h.ne_empty hname.full]
    exact ⟨hbegins, hname.ends⟩
  exact hkey

/-- A text with one more name is read as the token with one more field. -/
theorem Reads.below (h : Reads s t) (hname : FieldName name) :
    Reads (below s name) (t.field name) := by
  have htrimmed := h.trim_below hname
  have hpieces : pieces (Token.below s name) = t.node.text :: t.path ++ [name] := by
    rw [← h.pieces_eq, ← pieces_eq_singleton hname.dotless]
    exact pieces_key ⟨s⟩ name
  have hfull : "" ∉ t.node.text :: t.path := (parse_eq_ok_iff_pieces.mp h.parsed).2
  refine ⟨parse_eq_ok_iff_pieces.mpr ?_, htrimmed⟩
  rw [htrimmed, hpieces]
  refine ⟨rfl, ?_⟩
  intro hempty
  rcases List.mem_append.mp (show "" ∈ t.node.text :: t.path ++ [name] from hempty) with hold | hnew
  · exact hfull hold
  · exact hname.full (List.mem_singleton.mp hnew).symm

end Token

namespace ArgumentMap

variable {s name : String} {t : Token} (m : ArgumentMap)

theorem resolve?_of_parse (h : Token.parse s = .ok t) :
    m.resolve? s = (m.get? t.root).bind (·.path? t.fields) := by
  rw [resolve?, Token.parse?, h]
  rfl

/-- One more name leads to the field of that name. -/
theorem resolve?_below (h : Token.Reads s t) (hname : Token.FieldName name) :
    m.resolve? (Token.below s name) = (m.resolve? s).bind (·.field? name) := by
  rw [m.resolve?_of_parse (h.below hname).parsed, m.resolve?_of_parse h.parsed, Option.bind_assoc]
  refine congrArg _ (funext fun a => ?_)
  rw [Token.field, Argument.path?_append]
  exact congrArg _ (funext fun b => b.path?_singleton name)

/-- A reference is followed field by field. If a text that is read as a token without trimming is continued
by the name of a field, it leads to the field of that name in what it has led to before, and to nothing if
it has led to nothing; and so on for any number of names. -/
theorem resolve?_continued (hparsed : Token.parse s = .ok t) (htrimmed : Text.trim s = s) :
    (∀ name, Token.FieldName name → m.resolve? (s ++ "." ++ name) =
      match m.resolve? s with
      | some a => a.field? name
      | none => none) ∧
    ∀ names : List String, (∀ name ∈ names, Token.FieldName name) →
      m.resolve? (names.foldl (fun text name => text ++ "." ++ name) s) =
        names.foldl (fun found? name => found?.bind (·.field? name)) (m.resolve? s) := by
  constructor
  · intro name hname
    have hstep : m.resolve? (s ++ "." ++ name) = (m.resolve? s).bind (·.field? name) :=
      m.resolve?_below ⟨hparsed, htrimmed⟩ hname
    rw [hstep]
    cases m.resolve? s <;> rfl
  · intro names hnames
    -- Each name leaves a text that is read without trimming, so the text and its token change with it.
    induction names generalizing s t with
    | nil => rw [List.foldl_nil, List.foldl_nil]
    | cons name rest ih =>
        obtain ⟨hname, hrest⟩ := List.forall_mem_cons.mp hnames
        have hreads := Token.Reads.below ⟨hparsed, htrimmed⟩ hname
        rw [List.foldl_cons, List.foldl_cons, ← m.resolve?_below ⟨hparsed, htrimmed⟩ hname]
        exact ih hreads.parsed hreads.trimmed hrest

end ArgumentMap

namespace FieldPathsWitness

/-- An object with two fields of one name, of which the first has a field itself. -/
def map : ArgumentMap := ArgumentMap.ofList [("7.order", {
  name := "order"
  type := some .object
  fields := [
    { name := "unit price", type := some .object, fields := [.typed "amount" .integer] },
    .typed "unit price" .string] })]

theorem resolve?_continued_twice :
    Token.parse "7.order" = .ok ⟨⟨"7"⟩, "order", []⟩ ∧ Text.trim "7.order" = "7.order" ∧
      (∀ name ∈ ["unit price", "amount"], Token.FieldName name) ∧
      map.resolve? "7.order.unit price.amount" = some (.typed "amount" .integer) ∧
      map.resolve? "7.order.amount" = none := by
  have hparsed : Token.parse "7.order" = .ok ⟨⟨"7"⟩, "order", []⟩ := by rfl
  have htrimmed : Text.trim "7.order" = "7.order" := by rfl
  have hprice : Token.FieldName "unit price" := ⟨by decide, by decide, by rintro c ⟨⟩; decide⟩
  have hamount : Token.FieldName "amount" := ⟨by decide, by decide, by rintro c ⟨⟩; decide⟩
  have hnames : ∀ name ∈ ["unit price", "amount"], Token.FieldName name := by
    simp [hprice, hamount]
  have hleads := map.resolve?_continued hparsed htrimmed
  refine ⟨hparsed, htrimmed, hnames, ?_, ?_⟩
  · exact hleads.2 ["unit price", "amount"] hnames
  · exact hleads.1 "amount" hamount

end FieldPathsWitness

end FlowScope
