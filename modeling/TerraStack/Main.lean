import TerraStack.CommandLine.Perform
import TerraStack.Shell.StandIn

open TerraStack

/-- What is at a location on the disk. -/
def entryOnDisk? (location : Location) : IO (Option Entry) := do
  try
    let bytes ← IO.FS.readBinFile (FileSystem.pathOf location)
    return some (.ofBytes bytes.toList)
  catch
    | .inappropriateType .. => return some .directory
    | _ => return none

/-- Read what is on the way along the parts of a path. -/
def readAlong (location : Location) : List String → FileSystem → IO FileSystem
  | [], files => return files
  | part :: rest, files =>
    match files.follow location part with
    | .error _ => return files
    | .ok next => do
      let found ← if (files.entry? next).isSome then pure none else entryOnDisk? next
      readAlong next rest (found.elim files (files.put next))

/-- Read what is at some paths. -/
def readPaths (paths : List String) : IO FileSystem := do
  let here := (Path.parts (← IO.currentDir).toString).filter (· ≠ "")
  let files ← readAlong [] here FileSystem.empty
  let files := { files with workingDirectory := here }
  paths.foldlM (fun files path => readAlong (files.start path) (Path.parts path) files) files

/-- Write an entry. -/
def writeEntry : Location × Entry → IO Unit
  | (location, .directory) => IO.FS.createDirAll (FileSystem.pathOf location)
  | (location, .text content) => IO.FS.writeFile (FileSystem.pathOf location) content
  | (location, .binary bytes) => IO.FS.writeBinFile (FileSystem.pathOf location) ⟨bytes.toArray⟩
  | (_, .sink) => return

/-- Take away what has been at a location. -/
def removeEntry : Location × Entry → IO Unit
  | (location, .directory) => IO.FS.removeDir (FileSystem.pathOf location)
  | (location, _) => IO.FS.removeFile (FileSystem.pathOf location)

/-- Read a stream to its end. -/
partial def readAll (stream : IO.FS.Stream) (done : String) : IO String := do
  let line ← stream.getLine
  if line.isEmpty then return done else readAll stream (done ++ line)

/-- The directory in which the script that stands in for terraform is found. -/
def scriptDirectory : Location := ["opt", "terrastack"]

/-- Put a script among the files as terraform. The programs that are known are those of a rehearsal:
the script that `TERRASTACK_SCRIPT` names stands in for terraform. -/
def withScript (files : FileSystem) (script : List UInt8) : FileSystem :=
  let location := scriptDirectory ++ ["terraform"]
  let files := (files.put ["opt"] .directory).put scriptDirectory .directory
  { files.putBytes location script with programs := [location] }

/-- Read what the request on the command line needs, carry it out, and write what has changed. -/
def main (arguments : List String) : IO UInt32 := do
  let program ← IO.getEnv "TERRASTACK_TERRAFORM_BIN"
  let request := (CommandLine.Request.ofArguments program arguments).toOption
  let files ← readPaths (request.elim [] (·.paths))
  let input ← if request.any (·.mayAsk) then readAll (← IO.getStdin) "" else pure ""
  let script ← (← IO.getEnv "TERRASTACK_SCRIPT").mapM fun path => IO.FS.readBinFile path
  let files := script.elim files fun bytes => withScript files bytes.toList
  let path := FileSystem.pathOf scriptDirectory ++ ":" ++ .ofList Shell.standardPath
  let (code, session) :=
    CommandLine.run (Shell.standIns [("PATH", path)]) program arguments
      { files, input := input.toList }
  (session.files.lossesSince files).forM removeEntry
  (session.files.changesSince files).forM writeEntry
  IO.print session.output
  IO.eprint session.errors
  return code.toNat.toUInt32
