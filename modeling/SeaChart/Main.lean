import SeaChart.Program

namespace SeaChart.Machine

def dataLimit : USize := 65536

def readBytes (limit : Option USize) (e : IO.FS.DirEntry) : IO Text.Bytes := do
  match limit with
  | none => return (← IO.FS.readBinFile e.path).toList
  | some limit =>
    let handle ← IO.FS.Handle.mk e.path .read
    return (← handle.read limit).toList

partial def readEntry (limit : Option USize) (e : IO.FS.DirEntry) : IO Entry := do
  if ← e.path.isDir then
    let children ← (← e.path.readDir).mapM fun child => do
      return (child.fileName, ← readEntry limit child)
    return .directory (Dictionary.ofList children.toList).entries
  else return .file (← readBytes limit e)

def locationOf (p : Path) : Location :=
  p.components.filterMap fun
    | .name n => some n
    | _ => none

def pathText (location : Location) : String :=
  "/" ++ String.intercalate "/" location

def copy (limit : Option USize) (s : Store) (p : Path) : IO Store := do
  let base : Path := ⟨pathText s.workingDirectory⟩
  let p := base.relativeTo p
  match p.parent?, p.fileName? with
  | some directory, some fileName =>
    let e : IO.FS.DirEntry := { root := directory.text, fileName }
    if ← e.path.pathExists then
      let new ← readEntry limit e
      return { s with root := new.insert (locationOf p) s.root }
    else return s
  | _, _ => return s

def bareStore : IO Store := do
  let workingDirectory := locationOf ⟨(← IO.currentDir).toString⟩
  return {
    root := (Entry.directory []).insert workingDirectory (.directory [])
    workingDirectory }

def readStore (usualResources : String) (arguments : List String) : IO Store := do
  let s ← bareStore
  match CommandLine.read usualResources arguments with
  | .error _ => return s
  | .ok r =>
    let s ← copy none s ⟨r.settingsFile⟩
    match (Settings.load s ⟨r.settingsFile⟩ ⟨r.resources⟩).1 with
    | .error _ => return s
    | .ok settings =>
      let s ← copy (some dataLimit) s settings.places.data
      [settings.places.map, settings.places.ruleSet, settings.places.library].foldlM (copy none) s

def writeChanges (before after : Store) : IO Unit := do
  for location in before.newDirectories after do
    IO.FS.createDirAll (pathText location)
  for (location, contents) in before.changes after [] do
    let e : IO.FS.DirEntry :=
      { root := pathText location.dropLast, fileName := location.getLastD "" }
    match contents with
    | none => IO.FS.removeFile e.path
    | some bytes => IO.FS.writeBinFile e.path ⟨bytes.toArray⟩

def printEvent : Event → IO Unit
  | .warning message => IO.eprintln ("[WARN] " ++ message)
  | .error message => IO.eprintln ("[ERROR] " ++ message)

def printAnswer : Answer → IO Unit
  | .nothing => return ()
  | .help => IO.println CommandLine.help
  | .version => IO.println CommandLine.version

end SeaChart.Machine

open SeaChart in
def main (arguments : List String) : IO UInt32 := do
  let usualResources := (← IO.getEnv "SEACHART_RESOURCES").getD "resources"
  let store ← Machine.readStore usualResources arguments
  let outcome := Program.run usualResources arguments store
  outcome.shown.forM Machine.printEvent
  Machine.writeChanges store outcome.store
  Machine.printAnswer outcome.answer
  outcome.complaint.forM IO.eprintln
  return outcome.exitCode.toUInt32
