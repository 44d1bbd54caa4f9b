/-!
Values of a TOML text. Settings are texts, lists and tables; what else a text may hold is kept as it
is written.
-/
namespace FlowScope

/-- What brought a table into being: its own header, a step on the way in the header of another
table, or a step on the way in a key with dots. -/
inductive Toml.Origin where
  | header
  | path
  | dots
deriving DecidableEq, Repr

/-- A value. Tables and lists of tables have headers and may grow from several places of a text;
a table in braces is complete where it stands. -/
inductive Toml where
  | text (s : String)
  | plain (spelling : String)
  | array (items : List Toml)
  | braces (entries : List (String × Toml))
  | table (origin : Toml.Origin) (entries : List (String × Toml))
  | tables (each : List (List (String × Toml)))
deriving Repr, Inhabited

namespace Toml

/-- Keys with values, in order. -/
abbrev Entries := List (String × Toml)

namespace Entries

/-- The entries with another value at a key that they have. -/
def replace (es : Entries) (key : String) (value : Toml) : Entries :=
  es.map fun (k, v) => if k = key then (k, value) else (k, v)

/-- Change the table at the end of a way from a table of the given origin. Tables that are missing
on the way are made, with `step` as their origin; in a list of tables the way goes through the last
one. A key with dots must not lead into a table that has its own header. -/
def change (step : Origin) (f : Origin → Entries → Option Entries) :
    Origin → List String → Entries → Option Entries
  | origin, [], es => f origin es
  | _, key :: way, es =>
      match es.lookup key with
      | none => (change step f step way []).map fun inner => es ++ [(key, .table step inner)]
      | some (.table origin inner) =>
          if step = .dots && origin = .header then none
          else (change step f origin way inner).map fun inner => es.replace key (.table origin inner)
      | some (.tables each) =>
          match each.getLast? with
          | none => none
          | some last =>
              (change step f .header way last).map fun last =>
                es.replace key (.tables (each.dropLast ++ [last]))
      | some _ => none

/-- Put a value at a key that is not yet there. The table of a key with dots has to be one that keys
with dots have made. -/
def put (key : String) (value : Toml) (dotted : Bool) (origin : Origin) (es : Entries) :
    Option Entries :=
  if dotted != (origin == .dots) || (es.lookup key).isSome then none
  else some (es ++ [(key, value)])

/-- Put a value at the end of a key with dots. -/
def insert (es : Entries) (path : List String) (value : Toml) : Option Entries :=
  match path.getLast? with
  | none => none
  | some key => es.change .dots (put key value (path.length != 1)) .header path.dropLast

/-- Open a table that has no header so far. -/
def openTable (key : String) (_ : Origin) (es : Entries) : Option Entries :=
  match es.lookup key with
  | none => some (es ++ [(key, .table .header [])])
  | some (.table .path inner) => some (es.filter (·.1 != key) ++ [(key, .table .header inner)])
  | some _ => none

/-- Open one more table in a list of tables. -/
def openNext (key : String) (_ : Origin) (es : Entries) : Option Entries :=
  match es.lookup key with
  | none => some (es ++ [(key, .tables [[]])])
  | some (.tables each) => some (es.replace key (.tables (each ++ [[]])))
  | some _ => none

/-- Apply a change to the table that the last key of a path is in. -/
def below (es : Entries) (path : List String) (f : String → Origin → Entries → Option Entries) :
    Option Entries :=
  match path.getLast? with
  | none => none
  | some key => es.change .path (f key) .header path.dropLast

end Entries

/-- Nothing in it: an empty list or table. -/
def isEmpty : Toml → Bool
  | .array [] | .braces [] | .table _ [] | .tables [] => true
  | _ => false

end Toml

end FlowScope
