import FlowScope.Report.Style
import FlowScope.Scope.Picker
/-!
The single lines of reports.
-/
namespace FlowScope.Report

/-- A line of a report. The line that tells how long a check took is completed when it is printed. -/
inductive Line where
  | text (s : String)
  | checked (theme : Theme)
deriving DecidableEq, Repr

namespace Theme

variable (theme : Theme)

def headingLine (s : String) : String := "🚀 " ++ theme.paint .heading s

/-- A name and a value behind a sign. -/
def statusLine (sign label value : String) : String :=
  sign ++ " " ++ theme.paint .label label ++ ": " ++ value

/-- A name without anything to show for it. -/
def nothingLine (label : String) : String :=
  theme.paint .accent "ℹ️" ++ " " ++ theme.paint .label label ++ ": none"

/-- Something that is as it should be. -/
def successLine (s : String) : String := "✅ " ++ theme.paint .clean s

/-- Something that is not as it should be. -/
def errorLine (s : String) : String := "❌ " ++ theme.paint .dangling s

/-- Something to be careful about. -/
def warningLine (s : String) : String := "⚠️ " ++ theme.paint .notice s

/-- A title and a line below it, set off by empty lines. -/
def bannerLines (title subtitle : String) : List String :=
  ["", "  " ++ theme.paint .accent title, "  " ++ theme.paint .label subtitle, ""]

/-- The variables of one node. -/
def pickerLines (g : PickerGroup) : List String :=
  let title := " " ++ g.name ++ " (" ++ g.node.text ++ ", " ++ g.type.name ++ ") "
  ["", "━" ++ theme.paint .heading title ++ "━"] ++ g.vars.map fun v =>
    "  " ++ theme.paint .token v.key ++ " " ++ theme.paint .dataType v.type

/-- A snapshot without dangling references. -/
def cleanLine (path : String) : String := "  " ++ theme.paint .faded (path ++ " ok")

/-- A snapshot with dangling references. -/
def danglingLine (path : String) (dangling : Nat) : String :=
  theme.paint .notice "📝" ++ " " ++ path ++ " " ++
    theme.paint .dangling ("(" ++ toString dangling ++ " dangling)")

/-- A snapshot that is gone. -/
def removedLine (path : String) : String := theme.paint .dangling "🗑️" ++ " " ++ path

/-- How long a check took. -/
def checkedLine (duration : String) : String :=
  theme.paint .clean "✅" ++ " " ++ theme.paint .clean ("Checked in " ++ duration)

/-- How many snapshots, nodes and dangling references there are. -/
def countsLine (files nodes dangling : Nat) : String :=
  "  " ++ theme.paint .accent "📄" ++ " " ++ toString files ++
    "  " ++ theme.paint .accent "🔗" ++ " " ++ toString nodes ++
    "  " ++ theme.paint (if 0 < dangling then .dangling else .notice) "⚠️" ++ " " ++ toString dangling

end Theme

/-- The text of a line, for a check that took so long. -/
def Line.render (duration : String) : Line → String
  | text s => s
  | checked theme => theme.checkedLine duration

end FlowScope.Report
