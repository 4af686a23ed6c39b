import ComponentSurvey.CommandLine.Run
import Std.Time

/-!
# The program

The files that a command may look at are read beforehand, the command is run on what they hold, and
the files that it changed are written afterwards.
-/

namespace ComponentSurvey.CommandLine

def timeText : IO String := do
  let now ← Std.Time.Timestamp.now
  let zoned := Std.Time.DateTime.ofTimestamp now Std.Time.TimeZone.ZoneRules.UTC
  return zoned.format "uuuu-MM-dd'T'HH:mm:ss.SSSSSSSSS'Z'"

def contentAt (path : String) : IO Content := do
  return .ofBytes (← IO.FS.readBinFile path).toList

def kindAt (path : String) : IO (Option IO.FS.FileType) := do
  let found : IO.FS.DirEntry := { root := "/", fileName := path }
  match ← found.path.metadata.toBaseIO with
  | .ok metadata => return some metadata.type
  | .error _ => return none

/-- All files and directories below a directory; links are left out. -/
partial def entriesBelow (directory : String) (entries : Array (Place × Entry)) :
    IO (Array (Place × Entry)) := do
  let here : IO.FS.DirEntry := { root := "/", fileName := directory }
  let mut entries := entries
  for found in ← here.path.readDir do
    let path := Path.join directory found.fileName
    let place := FileTree.placeBelow path
    match (← found.path.symlinkMetadata).type with
    | .dir => entries ← entriesBelow path (entries.push (place, .directory))
    | .file => entries := entries.push (place, .file (← contentAt path))
    | _ => pure ()
  return entries

def ignoreFilesAround (tree : FileTree) (directory : String) : IO FileTree := do
  let place := FileTree.placeBelow directory
  let mut tree := tree
  for depth in List.range place.length do
    for name in [".gitignore", ".git/info/exclude"] do
      let path := Path.join ("/" ++ Place.path (place.take depth)) name
      if (← kindAt path) == some .file then
        tree := tree.addFile path (← contentAt path)
  return tree

def outermost (directories : List String) : List String :=
  directories.eraseDups.filter fun directory =>
    directories.all fun other => !(other ++ "/").isPrefixOf directory

def directoriesAt (paths : List String) : IO (List String) := do
  let found ← paths.mapM fun path => do
    if (← kindAt path) == some .dir then
      return [(← IO.FS.realPath path).toString]
    else return []
  return found.flatten

def addNamed (tree : FileTree) (path : String) : IO FileTree := do
  match ← kindAt path with
  | some .file => return tree.addFile (← IO.FS.realPath path).toString (← contentAt path)
  | some _ => return tree
  | none =>
    let around := Place.path (Path.splitAt '/' path.toList).dropLast
    if (← kindAt around) == some .dir then
      return tree.addDirectory (← IO.FS.realPath around).toString
    else return tree

def snapshot (paths : List String) : IO FileTree := do
  let directories := outermost (← directoriesAt paths)
  let mut entries := #[]
  for directory in directories do
    entries ← entriesBelow directory entries
  let mut tree : FileTree := { top := "", entries := entries.toList }
  for directory in directories do
    tree ← ignoreFilesAround (tree.addDirectory directory) directory
  for path in paths do
    tree ← addNamed tree path
  return tree

def userSettings : IO (Option (String × Except FileError (List Char))) := do
  let home := (← IO.getEnv "HOME").map fun home => Path.join home ".archbase"
  match (← IO.getEnv "ARCHBASE_CONFIG_DIR").or home with
  | none => return none
  | some directory =>
    let path := Path.join directory "config.toml"
    if (← kindAt path) == some .file then
      match (← contentAt path).text? with
      | some text => return some (path, .ok text)
      | none => return some (path, .error .notText)
    else return none

def writeContent (path : String) : Content → IO Unit
  | .text chars => IO.FS.writeFile path (String.ofList chars)
  | .bytes raw => IO.FS.writeBinFile path ⟨raw.toArray⟩

def conclude (before : FileTree) (ending : Ending) : IO UInt32 := do
  for (place, content) in ending.tree.filesBeyond before do
    writeContent ("/" ++ place.path) content
  (← IO.getStdout).putStr ending.printout.text
  for line in ending.notes ++ (ending.failure.map CommandFailure.lines).getD [] do
    (← IO.getStderr).putStrLn line
  return UInt32.ofNat ending.exitCode

def runProgram (arguments : List String) : IO UInt32 := do
  let environment ← IO.getEnv "ARCHBASE_CONFIG"
  let directory := (← IO.currentDir).toString
  let paths := match Invocation.read environment arguments with
    | .ok invocation => invocation.paths
    | .error _ => []
  let tree ← snapshot (directory :: paths.map (Path.join directory))
  let place : Workplace :=
    { tree := tree
      directory := directory
      userSettings := ← userSettings
      time := ← timeText }
  conclude tree (place.respond environment arguments)

end ComponentSurvey.CommandLine

def main (arguments : List String) : IO UInt32 :=
  ComponentSurvey.CommandLine.runProgram arguments
