import FlowScope.Command.Invocation
import FlowScope.Files.Tree
import FlowScope.Json.Printer
import FlowScope.Report.Duration
import FlowScope.Report.Lines
/-!
What a command answers.
-/
namespace FlowScope.Command

open Report (Line Theme)

/-- What a command answers: a report, lines about what went wrong, the files as they are then, and the
number that the program ends with. -/
structure Reply where
  report : List Line := []
  complaints : List String := []
  files : FileTree
  exit : Nat := 0
deriving Repr, Inhabited

namespace Reply

/-- Lines with their ends. -/
def joined (lines : List String) : String := String.join (lines.map (· ++ "\n"))

/-- The text of a report on a command that took so long. -/
def text (r : Reply) (duration : String) : String :=
  joined (r.report.map (Line.render duration))

/-- The text about what went wrong. -/
def complaintText (r : Reply) : String := joined r.complaints

/-- A reply after something that was to be told first. -/
def after (r : Reply) (report : List Line) (complaints : List String) : Reply :=
  { r with report := report ++ r.report, complaints := complaints ++ r.complaints }

end Reply

/-- The record around an answer for programs. -/
def envelope (v : Verb) (ok : Bool) (content : Json) : Line :=
  .text (Json.object [
    ("ok", .bool ok), ("command", .text v.name),
    (if ok then "data" else "error", content)]).sorted.pretty

/-- Where a command runs: the files, how the terminal shows styles, and whether banners are left
out. -/
structure Surroundings where
  files : FileTree
  theme : Theme := .plain
  quiet : Bool := false
deriving Repr, Inhabited

/-- Is the value of a variable of the environment a yes? -/
def isYes (value : Option String) : Bool :=
  match value with
  | none => false
  | some s => s == "1" || s.toList.map Char.toLower == ['t', 'r', 'u', 'e']

/-- A banner, unless banners are left out. -/
def Surroundings.banner (s : Surroundings) (title subtitle : String) : List Line :=
  if s.quiet then [] else (s.theme.bannerLines title subtitle).map .text

end FlowScope.Command
