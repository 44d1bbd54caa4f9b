/-!
Styles of reports on a terminal.
-/
namespace FlowScope.Report

/-- What a piece of a report stands for. -/
inductive Style where
  | heading | clean | dangling | notice | accent | label | faded | token | dataType | exception
  | loopBody
deriving DecidableEq, Repr

namespace Style

/-- Every style with its name. -/
def all : List (String × Style) := [
  ("heading", heading), ("clean", clean), ("dangling", dangling), ("notice", notice),
  ("accent", accent), ("label", label), ("faded", faded), ("token", token),
  ("dataType", dataType), ("exception", exception), ("loopBody", loopBody)]

/-- The parameters of the terminal's escape sequence: a color, and bold, dim or italic. -/
def parameters : Style → String
  | heading => "36;1"
  | clean => "32;1"
  | dangling => "31;1"
  | notice => "33;1"
  | accent => "35"
  | label => "37;2"
  | faded => "90"
  | token => "34;1"
  | dataType => "90;3"
  | exception => "33;3"
  | loopBody => "36;3"

end Style

/-- Are styles shown? -/
inductive Theme where
  | plain
  | colored
deriving DecidableEq, Repr

def Theme.paint : Theme → Style → String → String
  | plain, _, text => text
  | colored, style, text => "\x1b[" ++ style.parameters ++ "m" ++ text ++ "\x1b[0m"

theorem Theme.paint_plain (style : Style) (text : String) : plain.paint style text = text := rfl

end FlowScope.Report
