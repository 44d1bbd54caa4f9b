import FlowScope.Check
import FlowScope.Command.Reply
import FlowScope.Config.File
import FlowScope.Report.Tables
import FlowScope.Snapshots
import FlowScope.Watch
import FlowScope.Workflow.File
/-!
Carrying out a command. A task either fails with a message, or it comes to an end, with what it has
to report and whether all was in order.
-/
namespace FlowScope.Command

open Report (Line Theme)

def programVersion : String := "0.0.1"

/-- What a task needs to know. -/
structure Job where
  surroundings : Surroundings
  config : Config
  configPath : String
  format : AnswerFormat
deriving Repr

namespace Job

variable (job : Job)

def files : FileTree := job.surroundings.files

/-- How styles are shown. -/
def theme : Theme := job.surroundings.theme

/-- Is the answer for people? -/
def isHuman : Bool := job.format == .human

/-- An answer: lines for people, a record for programs. -/
def answer (v : Verb) (lines : List String) (content : Json) : Reply where
  report := if job.isHuman then lines.map .text else [envelope v true content]
  files := job.files

/-- The path that is given, or else the one in the settings. -/
def graphPath (path : Option String) : Except String String :=
  match path.or job.config.graph with
  | some path => .ok path
  | none => .error "no graph given (pass --graph or set \x60graph\x60 in the config)"

def load (path : String) : Except String Workflow :=
  match Workflow.load job.files path with
  | .ok w => .ok w
  | .error e => .error ("failed to load " ++ path ++ ": " ++ e.message)

/-- The snapshot at the path that is given or set, with a node that has to be in it. -/
def loadWith (path : Option String) (node : NodeId) : Except String Workflow := do
  let w ← job.load (← job.graphPath path)
  if w.index.contains node then return w
  else .error ("node " ++ node.text ++ " not found in graph")

/-- The variables that the settings add. -/
def further : List Argument := job.config.systemArguments

/-- Names with a comma between each two. -/
def commaList (ids : List NodeId) : String := String.intercalate ", " (ids.map (·.text))

def scopeLines (node : NodeId) (s : Scope) : List String :=
  job.theme.headingLine ("Scope of node " ++ node.text) ::
    (if s.isEmpty then [job.theme.nothingLine "Previous nodes"]
    else
      [job.theme.statusLine "🔗" "Previous nodes" (commaList s.previousIds)] ++
        (if s.inner.isEmpty then []
        else [job.theme.statusLine "🔁" "Loop body" (commaList (s.inner.map (·.id)))]) ++
        [(Report.scopeTable job.theme s).render])

def scope (path : Option String) (node : NodeId) (picker : Bool) : Except String Reply := do
  let w ← job.loadWith path node
  let s := w.scope job.further node
  if picker then
    return job.answer .scope (s.picker.flatMap job.theme.pickerLines)
      (Json.list PickerGroup.toJson s.picker)
  else return job.answer .scope (job.scopeLines node s) s.toJson

/-- Show the references to a node. -/
def refs (path : Option String) (node : NodeId) : Except String Reply := do
  let w ← job.loadWith path node
  let found := w.dependents node
  return job.answer .refs [
    job.theme.headingLine ("References to node " ++ node.text),
    if found.isEmpty then job.theme.nothingLine "Dependents"
    else (Report.referencesTable found).render]
    (Json.list (NodeReferences.toJson "references") found)

/-- What a check of a snapshot has found. -/
inductive FileReport where
  | checked (nodes : Nat) (issues : List NodeReferences)
  | failed (cause : LoadError)
deriving Repr

namespace FileReport

/-- Is there nothing to complain about? -/
def isClean : FileReport → Bool
  | checked _ issues => issues.isEmpty
  | failed _ => false

def nodes : FileReport → Nat
  | checked nodes _ => nodes
  | failed _ => 0

/-- The number of dangling references. -/
def dangling : FileReport → Nat
  | checked _ issues => danglingCount issues
  | failed _ => 0

/-- A number over all reports. -/
def total (count : FileReport → Nat) (reports : List FileReport) : Nat :=
  reports.foldl (fun n r => n + count r) 0

/-- The lines about a snapshot. -/
def lines (theme : Theme) (path : String) : FileReport → List String
  | checked _ [] => [theme.cleanLine path]
  | checked _ issues =>
      [theme.danglingLine path (danglingCount issues), (Report.referencesTable issues).render]
  | failed _ => []

/-- The complaints about a snapshot. -/
def complaints (theme : Theme) (path : String) : FileReport → List String
  | checked _ _ => []
  | failed cause => [theme.errorLine (path ++ ": " ++ cause.message)]

def toJson (path : String) : FileReport → Json
  | checked _ issues => .object [
      ("file", .text path), ("issues", Json.list (NodeReferences.toJson "dangling") issues)]
  | failed cause => .object [("file", .text path), ("error", .text cause.message)]

end FileReport

def checkWorkflow (w : Workflow) : FileReport := .checked w.index.size (w.check job.further)

def checkFile (path : String) : FileReport :=
  match Workflow.load job.files path with
  | .ok w => job.checkWorkflow w
  | .error cause => .failed cause

/-- Check the snapshot, or all snapshots of a folder. -/
def check (path : Option String) : Except String Reply := do
  let path ← job.graphPath path
  let paths := findSnapshots job.files path job.config.exclude
  if paths.isEmpty then .error ("no snapshots found under " ++ path)
  else
    let reports := paths.map fun file => (file, job.checkFile file)
    let clean := reports.all fun (_, r) => r.isClean
    let found := reports.map (·.2)
    let counts := job.theme.countsLine paths.length (FileReport.total FileReport.nodes found)
      (FileReport.total FileReport.dangling found)
    let report :=
      if job.isHuman then
        (reports.flatMap fun (file, r) => (r.lines job.theme file).map Line.text) ++
          [.text "", .checked job.theme, .text counts]
      else [envelope .check true (.object [
        ("clean", .bool clean), ("files", Json.list (fun (file, r) => r.toJson file) reports)])]
    return {
      report
      complaints :=
        if job.isHuman then reports.flatMap fun (file, r) => r.complaints job.theme file else []
      files := job.files
      exit := if clean then 0 else 1 }

/-- A token, whether it is a key of the scope, and what it leads to. -/
structure TokenCheck where
  token : String
  valid : Bool
  found : Option Argument
deriving Repr

namespace TokenCheck

def ofToken (m : ArgumentMap) (token : String) : TokenCheck where
  token := token
  valid := m.contains token
  found := m.resolve? token

/-- The tag of the type of what the token leads to. -/
def tag (c : TokenCheck) : Option String := (c.found.bind (·.type)).map DataType.tag

def toJson (c : TokenCheck) : Json := .object [
  ("token", .text c.token), ("valid", .bool c.valid), ("resolves", .bool c.found.isSome),
  ("dataType", Json.orNull .text c.tag)]

end TokenCheck

/-- Check tokens against the scope of a node. -/
def validate (path : Option String) (node : NodeId) (tokens : List String) : Except String Reply := do
  let w ← job.loadWith path node
  let arguments := (w.scope job.further node).arguments
  let checks := tokens.map (TokenCheck.ofToken arguments)
  let good := checks.filter (·.found.isSome)
  let bad := checks.filter (·.found.isNone)
  let reply := job.answer .validate
    (good.map fun c => job.theme.successLine (c.token ++ " (" ++ c.tag.getD "unknown" ++ ")"))
    (.object [("node", node.toJson), ("results", Json.list TokenCheck.toJson checks)])
  return { reply with
    complaints :=
      if job.isHuman then
        bad.map fun c =>
          job.theme.errorLine (c.token ++ " is not in scope of node " ++ node.text)
      else []
    exit := if bad.isEmpty then 0 else 1 }

/-- Show counts over a snapshot. -/
def stats (path : Option String) : Except String Reply := do
  let path ← job.graphPath path
  let s := (← job.load path).index.stats
  return job.answer .stats
    [job.theme.statusLine "📊" "Snapshot" path, (Report.statsTable s).render] s.toJson

/-- What is told about a snapshot that is watched: its references, or the scope of a node. -/
def watchLines (node : Option NodeId) (path : String) (w : Workflow) : List Line :=
  match node with
  | some node =>
      let s := w.scope job.further node
      if job.isHuman then [
        .text (job.theme.statusLine "📝" "Updated" path),
        .text (Report.scopeTable job.theme s).render]
      else [envelope .watch true s.toJson]
  | none =>
      let r := job.checkWorkflow w
      if job.isHuman then (r.lines job.theme path).map .text
      else [envelope .watch true (r.toJson path)]

/-- Tell about the snapshots at paths, one after the other, as far as their content is new. -/
def watchFiles (node : Option NodeId) : Watcher → List String → List Line × List String
  | _, [] => ([], [])
  | watcher, path :: rest =>
      let (found, watcher) := watcher.reload job.files path
      let (report, complaints) := watchFiles node watcher rest
      match found with
      | none => (report, complaints)
      | some (.ok w) => (job.watchLines node path w ++ report, complaints)
      | some (.error cause) =>
          (report, job.theme.warningLine (path ++ ": " ++ (LoadError.content cause).message) ::
            complaints)

/-- Tell about the snapshots that are watched. Nothing tells of later changes, so the task ends there,
and not in good order. -/
def watch (path : Option String) (node : Option NodeId) : Except String Reply := do
  let path ← job.graphPath path
  let banner :=
    if job.isHuman then
      job.surroundings.banner "Watch" ("👀 Watching " ++ path ++ " for changes")
    else []
  let watcher := Watcher.make job.files path job.config.exclude
  let (report, complaints) :=
    job.watchFiles node watcher (findSnapshots job.files path job.config.exclude)
  return { report := banner ++ report, complaints, files := job.files, exit := 1 }

def init (force : Bool) : Except String Reply :=
  match Config.initial.save job.files job.configPath force with
  | .error e => .error e.message
  | .ok files =>
      .ok { job.answer .init [job.theme.successLine ("Wrote " ++ job.configPath)]
        (.object [("path", .text job.configPath)]) with files }

def version : Reply where
  report :=
    if job.isHuman then job.surroundings.banner "Flowref" ("Version " ++ programVersion)
    else [envelope .version true (.object [("version", .text programVersion)])]
  files := job.files

/-- Carry out a task. -/
def perform : Task → Except String Reply
  | .scope path node picker => job.scope path node picker
  | .refs path node => job.refs path node
  | .check path => job.check path
  | .validate path node tokens => job.validate path node tokens
  | .stats path => job.stats path
  | .watch path node => job.watch path node
  | .init force => job.init force
  | .version => .ok job.version

end Job

/-- The complaint of a program that cannot go on. -/
def failure (message : String) : String := "Error: " ++ message

/-- Carry out an invocation. -/
def invokeIn (s : Surroundings) (i : Invocation) : Reply :=
  let configPath := i.config.getD Config.defaultPath
  match Config.load s.files configPath with
  | .error e => { complaints := [failure e.message], files := s.files, exit := 1 }
  | .ok found =>
      let config := found.getD {}
      let format := (i.format.or config.format).getD .human
      match Job.perform { surroundings := s, config, configPath, format } i.task with
      | .ok reply => reply
      | .error message =>
          if format == .human then
            { complaints := [failure message], files := s.files, exit := 1 }
          else { report := [envelope i.task.verb false (.text message)], files := s.files, exit := 1 }

/-- How the program is used. -/
def usage : String := "Usage: flowref [OPTIONS] <COMMAND>"

/-- The verbs, for help. -/
def helpLines : List String :=
  ["Variable-reference resolution for node-based workflow graphs", "", usage, "", "Commands:"] ++
    Verb.all.map fun v => "  " ++ v.name

/-- Run the program with arguments. -/
def run (s : Surroundings) (words : List String) : Reply :=
  match Invocation.ofArguments words with
  | .ok i => invokeIn s i
  | .error .help => { report := helpLines.map .text, files := s.files }
  | .error .version => { report := [.text ("flowref " ++ programVersion)], files := s.files }
  | .error .misuse => { complaints := [usage], files := s.files, exit := 2 }

end FlowScope.Command
