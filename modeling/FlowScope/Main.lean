import FlowScope.Command.Run
/-!
The program: it reads the files that a command may ask for, runs the command, prints its answer and
writes the files that are new.
-/
namespace FlowScope.Program

open Command (Invocation Reply)

/-- Is the content of a file of interest, whatever the command? -/
def isOfInterest (name : String) : Bool :=
  Path.isSnapshot name || [".ignore", ".gitignore", "exclude"].contains name

def wayOf (path : String) : List String :=
  ((FileTree.destination {} (Path.parts path) []).toOption).getD []

/-- Add a file with its content. One that cannot be read counts as missing. -/
def addFile (t : FileTree) (entry : IO.FS.DirEntry) : IO FileTree := do
  let path := entry.path
  try
    let content ← IO.FS.readFile path
    return t.write (wayOf path.toString) content
  catch _ => return t

/-- Add what is in a folder, down to the given depth. -/
def addFolder : Nat → FileTree → IO.FS.DirEntry → IO FileTree
  | 0, t, _ => return t
  | depth + 1, t, entry => do
      let mut t := { t with folders := wayOf entry.path.toString :: t.folders }
      for inner in ← entry.path.readDir do
        if ← inner.path.isDir then t ← addFolder depth t inner
        else if isOfInterest inner.fileName then t ← addFile t inner
      return t

def addPath (t : FileTree) (path : String) : IO FileTree := do
  let entry : IO.FS.DirEntry := { root := ← IO.currentDir, fileName := path }
  if ← entry.path.isDir then addFolder 256 t entry
  else if ← entry.path.pathExists then addFile t entry
  else return t

/-- Add the ignore files of a folder and of the folders it is in. -/
def addIgnoreFiles (t : FileTree) (way : List String) : IO FileTree := do
  let mut t := t
  for n in List.range (way.length + 1) do
    let folder := "/" ++ Path.ofNames (way.take n)
    let repository : IO.FS.DirEntry := { root := folder, fileName := ".git" }
    if ← repository.path.pathExists then t := { t with folders := (way.take n ++ [".git"]) :: t.folders }
    for name in [".ignore", ".gitignore", ".git/info/exclude"] do
      t ← addPath t (Path.join folder name)
  return t

/-- The files for arguments: the settings, and what the command is about. -/
def filesFor (words : List String) : IO FileTree := do
  let here := wayOf (← IO.currentDir).toString
  let t : FileTree := { current := here, folders := [here] }
  match Invocation.ofArguments words with
  | .error _ => return t
  | .ok i =>
      let configPath := i.config.getD Config.defaultPath
      let t ← addPath t configPath
      let config := ((Config.load t configPath).toOption.bind id).getD {}
      match i.task.path?.or config.graph with
      | none => return t
      | some path => addIgnoreFiles (← addPath t path) (wayOf (Path.join ("/" ++ Path.ofNames here) path))

/-- Write a file, in folders that are made where they are missing. -/
def writeFile (way : List String) (content : String) : IO Unit := do
  IO.FS.createDirAll ("/" ++ Path.ofNames way.dropLast)
  IO.FS.writeFile ("/" ++ Path.ofNames way) content

/-- Are styles shown? -/
def theme : IO Report.Theme := do
  let plain := !(← (← IO.getStdout).isTty) || (← IO.getEnv "NO_COLOR").isSome
  return if plain then .plain else .colored

/-- Run the program with arguments. -/
def start (words : List String) : IO UInt32 := do
  let files ← filesFor words
  let quiet := Command.isYes (← IO.getEnv "FLOWREF_QUIET")
  let theme ← theme
  let began ← IO.monoMsNow
  let reply ← IO.lazyPure fun _ => Command.run { files, theme, quiet } words
  let ended ← IO.monoMsNow
  (← IO.getStdout).putStr (reply.text (Report.durationText (ended - began)))
  (← IO.getStderr).putStr reply.complaintText
  for (way, content) in reply.files.files do
    unless files.content? way = some content do writeFile way content
  return UInt32.ofNat reply.exit

end FlowScope.Program

def main (words : List String) : IO UInt32 := FlowScope.Program.start words
