import FlowScope.Config.Basic
import FlowScope.NodeId
/-!
The arguments of the command line. Options may stand before the verb, as far as they go with every
verb, and after it.
-/
namespace FlowScope.Command

/-- An option. -/
inductive Key where
  | verbose | config | format | graph | node | picker | token | force | help | version
deriving DecidableEq, Repr

/-- How many values an option has: none, one, or one or more. -/
inductive Arity where
  | none
  | one
  | many
deriving DecidableEq, Repr

namespace Key

/-- The name of an option, for use after two dashes. -/
def name : Key → String
  | verbose => "verbose"
  | config => "config"
  | format => "format"
  | graph => "graph"
  | node => "node"
  | picker => "picker"
  | token => "token"
  | force => "force"
  | help => "help"
  | version => "version"

/-- The letter of an option, for use after one dash. -/
def letter? : Key → Option Char
  | verbose => some 'v'
  | config => some 'c'
  | format => some 'f'
  | graph => some 'g'
  | node => some 'n'
  | token => some 't'
  | help => some 'h'
  | version => some 'V'
  | picker | force => Option.none

/-- How many values an option has. -/
def arity : Key → Arity
  | config | format | graph | node => .one
  | token => .many
  | _ => .none

/-- May the option have this value? A path must not be empty. -/
def accepts : Key → String → Bool
  | format, value => (AnswerFormat.ofName? value).isSome
  | config, value | graph, value => !value.isEmpty
  | _, _ => true

end Key

/-- What is to be done. -/
inductive Verb where
  | scope | refs | check | validate | stats | watch | init | version
deriving DecidableEq, Repr

namespace Verb

def name : Verb → String
  | scope => "scope"
  | refs => "refs"
  | check => "check"
  | validate => "validate"
  | stats => "stats"
  | watch => "watch"
  | init => "init"
  | version => "version"

def all : List Verb := [scope, refs, check, validate, stats, watch, init, version]

def ofName? (name : String) : Option Verb := all.find? (·.name == name)

/-- The options that go with a verb alone. -/
def ownKeys : Verb → List Key
  | scope => [.graph, .node, .picker]
  | refs => [.graph, .node]
  | check => []
  | validate => [.graph, .node, .token]
  | stats => [.graph]
  | watch => [.node]
  | init => [.force]
  | version => []

/-- The options that may stand after a verb. -/
def keys (v : Verb) : List Key := [.verbose, .config, .format, .help] ++ v.ownKeys

def takesPath : Verb → Bool
  | check | watch => true
  | _ => false

end Verb

/-- The options that may stand before the verb. -/
def leadingKeys : List Key := [.verbose, .config, .format, .help, .version]

/-- What is to be done, with all that is needed for it. -/
inductive Task where
  | scope (graph : Option String) (node : NodeId) (picker : Bool)
  | refs (graph : Option String) (node : NodeId)
  | check (path : Option String)
  | validate (graph : Option String) (node : NodeId) (tokens : List String)
  | stats (graph : Option String)
  | watch (path : Option String) (node : Option NodeId)
  | init (force : Bool)
  | version
deriving DecidableEq, Repr

def Task.verb : Task → Verb
  | scope .. => .scope
  | refs .. => .refs
  | check .. => .check
  | validate .. => .validate
  | stats .. => .stats
  | watch .. => .watch
  | init .. => .init
  | version => .version

def Task.path? : Task → Option String
  | scope graph .. | refs graph .. | validate graph .. | stats graph => graph
  | check path | watch path _ => path
  | init .. | version => none

/-- A task, and what goes with every one. -/
structure Invocation where
  config : Option String
  format : Option AnswerFormat
  task : Task
deriving DecidableEq, Repr

/-- Why arguments make no invocation: they ask for help or for the version, or they are not in
order. -/
inductive Stop where
  | help
  | version
  | misuse
deriving DecidableEq, Repr

/-- The options so far with their values, the option that may have further values, and the path. -/
structure Draft where
  given : List (Key × List String) := []
  waiting : Option (Key × List String) := none
  path : Option String := none
deriving DecidableEq, Repr

namespace Draft

/-- Add an option. Only one with many values may be given twice. -/
def add (d : Draft) (k : Key) (values : List String) : Except Stop Draft :=
  if (k.arity != .many && d.given.any (·.1 == k)) || !values.all k.accepts then .error .misuse
  else .ok { d with given := d.given ++ [(k, values)], waiting := none }

/-- Close the option that may have further values. It needs one at least. -/
def settle (d : Draft) : Except Stop Draft :=
  match d.waiting with
  | none => .ok d
  | some (_, []) => .error .misuse
  | some (k, values) => d.add k values

/-- Take up an option, and its value if it is attached to it. -/
def takeKey (d : Draft) (k : Key) (attached : Option String) : Except Stop Draft := do
  let d ← d.settle
  match k.arity, attached with
  | .none, some _ => .error .misuse
  | .none, none =>
      match k with
      | .help => .error .help
      | .version => .error .version
      | k => d.add k []
  | _, some value => d.add k [value]
  | _, none => return { d with waiting := some (k, []) }

/-- Take up the options whose letters follow a dash. What is left after an option with a value is its
value, behind an equals sign or not. -/
def takeLetters (d : Draft) (keys : List Key) : List Char → Except Stop Draft
  | [] => .ok d
  | c :: cs =>
      match keys.find? (·.letter? == some c) with
      | none => .error .misuse
      | some k =>
          if k.arity == .none then
            match d.takeKey k none with
            | .ok d => d.takeLetters keys cs
            | .error stop => .error stop
          else
            match cs with
            | [] => d.takeKey k none
            | '=' :: value => d.takeKey k (some (String.ofList value))
            | value => d.takeKey k (some (String.ofList value))

/-- Take up an option by its name. A value may follow an equals sign. -/
def takeName (d : Draft) (keys : List Key) (cs : List Char) : Except Stop Draft :=
  let isName := fun c => c != '='
  match keys.find? (·.name.toList == cs.takeWhile isName), cs.dropWhile isName with
  | none, _ => .error .misuse
  | some k, [] => d.takeKey k none
  | some k, _ :: value => d.takeKey k (some (String.ofList value))

def takePath (d : Draft) (v : Verb) (path : String) : Except Stop Draft := do
  let d ← d.settle
  if v.takesPath && d.path.isNone && !path.isEmpty then return { d with path := some path }
  else .error .misuse

/-- Take up a word as a value of the option that waits for one. -/
def takeValue? (d : Draft) (word : String) : Option (Except Stop Draft) :=
  match d.waiting with
  | none => none
  | some (k, values) =>
      some (if k.arity == .one then d.add k [word]
        else .ok { d with waiting := some (k, values ++ [word]) })

/-- Take up the words after the verb. After two dashes alone there are no options any more. -/
def takeWords (d : Draft) (v : Verb) : List String → Except Stop Draft
  | [] => d.settle
  | word :: rest =>
      match word.toList with
      | ['-', '-'] => rest.foldlM (·.takePath v ·) d >>= settle
      | '-' :: '-' :: name =>
          match d.takeName v.keys name with
          | .ok d => d.takeWords v rest
          | .error stop => .error stop
      | '-' :: letter :: more =>
          match d.takeLetters v.keys (letter :: more) with
          | .ok d => d.takeWords v rest
          | .error stop => .error stop
      | _ =>
          match (d.takeValue? word).getD (d.takePath v word) with
          | .ok d => d.takeWords v rest
          | .error stop => .error stop

/-- The values of an option, in the order in which they are given. -/
def values (d : Draft) (k : Key) : List String :=
  (d.given.filter (·.1 == k)).flatMap (·.2)

def value? (d : Draft) (k : Key) : Option String := (d.values k).head?

def has (d : Draft) (k : Key) : Bool := d.given.any (·.1 == k)

/-- The node that has to be given. -/
def node (d : Draft) : Except Stop NodeId :=
  match d.value? .node with
  | some node => .ok ⟨node⟩
  | none => .error .misuse

def task (d : Draft) : Verb → Except Stop Task
  | .scope => do return .scope (d.value? .graph) (← d.node) (d.has .picker)
  | .refs => do return .refs (d.value? .graph) (← d.node)
  | .check => .ok (.check d.path)
  | .validate => do
      if d.has .token then return .validate (d.value? .graph) (← d.node) (d.values .token)
      else .error .misuse
  | .stats => .ok (.stats (d.value? .graph))
  | .watch => .ok (.watch d.path ((d.value? .node).map (⟨·⟩)))
  | .init => .ok (.init (d.has .force))
  | .version => .ok .version

end Draft

/-- The invocation of the options before a verb, the verb and the words after it. Where an option
stands on both sides, the one after the verb counts. -/
def invoke (leading : Draft) (v : Verb) (words : List String) : Except Stop Invocation := do
  let d ← Draft.takeWords {} v words
  let task ← d.task v
  return {
    config := (d.value? .config).or (leading.value? .config)
    format := ((d.value? .format).or (leading.value? .format)).bind AnswerFormat.ofName?
    task }

/-- What a request for help leads to, which may name a verb. -/
def helpOn : List String → Stop
  | [] => .help
  | [word] => if word = "help" || (Verb.ofName? word).isSome then .help else .misuse
  | _ => .misuse

/-- The invocation of arguments, after the options so far. -/
def takeArguments (d : Draft) : List String → Except Stop Invocation
  | [] => .error .misuse
  | word :: rest =>
      match word.toList with
      | ['-', '-'] => .error .misuse
      | '-' :: '-' :: name =>
          match d.takeName leadingKeys name with
          | .ok d => takeArguments d rest
          | .error stop => .error stop
      | '-' :: letter :: more =>
          match d.takeLetters leadingKeys (letter :: more) with
          | .ok d => takeArguments d rest
          | .error stop => .error stop
      | _ =>
          match d.takeValue? word, Verb.ofName? word with
          | some (.ok d), _ => takeArguments d rest
          | some (.error stop), _ => .error stop
          | none, some v => invoke d v rest
          | none, none => .error (if word = "help" then helpOn rest else .misuse)

def Invocation.ofArguments (words : List String) : Except Stop Invocation := takeArguments {} words

end FlowScope.Command
