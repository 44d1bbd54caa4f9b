import FlowScope.Node.Basic
import FlowScope.Scope.ArgumentMap
/-!
The arguments that a node exposes to the nodes after it. A start exposes its inputs, its outputs and
the variables of the system; a loop shows the nodes of its own body the items of its arrays, the
number of the round and its variables; a node that sets a variable tells whether that went well;
every other node exposes its outputs.
-/
namespace FlowScope

/-- The variables that every start exposes. -/
def builtinVariables : List Argument :=
  [Argument.provided "SYS_USER_ID" .string "System user ID"]

/-- The first argument of every name that is not in `seen`. -/
def firstByName (seen : List String) : List Argument → List Argument
  | [] => []
  | a :: rest =>
      if seen.contains a.name then firstByName seen rest
      else a :: firstByName (a.name :: seen) rest

theorem name_notMem_of_mem_firstByName {seen : List String} {args : List Argument} {a : Argument}
    (h : a ∈ firstByName seen args) : a.name ∉ seen := by
  induction args generalizing seen with
  | nil => simp [firstByName] at h
  | cons b rest ih =>
      by_cases hb : b.name ∈ seen
      · simp [firstByName, hb] at h
        exact ih h
      · simp only [firstByName, List.contains_eq_mem, hb, decide_false, Bool.false_eq_true,
          ↓reduceIte, List.mem_cons] at h
        rcases h with rfl | h
        · exact hb
        · exact fun hmem => ih h (List.mem_cons_of_mem _ hmem)

/-- The variables of the system: the built-in ones, then further ones; the first of a name counts. -/
def systemVariables (further : List Argument) : List Argument :=
  firstByName [] (builtinVariables ++ further)

namespace Node

def startArguments (n : Node) (system : List Argument) : List Argument :=
  let declared := n.config.inputs.map Argument.unbound ++ n.config.outputs
  declared ++ system.filter fun v => !(declared.map (·.name)).contains v.name

/-- The argument that an input takes its type from: the one it is bound to, if that is known, and
otherwise itself. -/
def effective (a : Argument) (m : ArgumentMap) : Argument :=
  (a.reference.bind m.resolve?).getD a

/-- The item of an input in one round of a loop, if the input is an array. -/
def loopItem? (m : ArgumentMap) (input : Argument) : Option Argument :=
  let source := effective input m
  (source.type.bind DataType.element?).map fun element =>
    { input.unbound with
      name := input.name ++ "_item"
      type := some element
      fields := if element = .object then source.fields else [] }

/-- A variable of a loop. One that is bound takes over the fields of its source, and the source's type
when it has none itself. -/
def loopVariable (m : ArgumentMap) (v : Argument) : Argument :=
  match v.reference.bind m.resolve? with
  | none => v.unbound
  | some source => { v.unbound with fields := source.fields, type := v.type.or source.type }

def loopVariables (n : Node) (m : ArgumentMap) : List Argument :=
  n.config.vars.map (loopVariable m)

def roundIndex : Argument := Argument.provided "INDEX" .integer "Array index"

/-- What a loop exposes to the nodes of its body. -/
def loopArguments (n : Node) (m : ArgumentMap) : List Argument :=
  n.config.inputs.filterMap (loopItem? m) ++ roundIndex :: n.loopVariables m

/-- Tells whether a variable has been set. -/
def success : Argument :=
  { Argument.typed "isSuccess" .boolean with description := some "Variable set result" }

/-- What a node that sets a variable exposes. -/
def setterArguments (n : Node) : List Argument :=
  if n.config.outputs.any (·.name == success.name) then n.config.outputs
  else n.config.outputs ++ [success]

/-- What a node exposes, given the variables of the system, whether the target is in the body of the
node, and the arguments before it. -/
def exposed (n : Node) (system : List Argument) (inside : Bool) (m : ArgumentMap) :
    List Argument :=
  match n.type with
  | .start => n.startArguments system
  | .loop => if inside then n.loopArguments m else n.config.outputs
  | .variableAccess =>
      if n.config.variableMode = some .set then n.setterArguments else n.config.outputs
  | _ => n.config.outputs

end Node

end FlowScope
