import TerraStack.FileSystem.Change
import TerraStack.Stack.Artifacts
import TerraStack.Tfvars.Merge

namespace TerraStack

/-- The name of the directory with the generated files. -/
def generatedName : String := "generated"

/-- The name of the file with the values of the variables. -/
def tfvarsName : String := "terraform.tfvars"

/-- Where the files of a stack go, and whether values that are written already are kept. The
generated files go into a directory of their own below the terraform directory, and the values of
the variables into a file beside it. -/
structure Writer where
  directory : String
  preserve : Bool := true

namespace Writer

/-- The path of the directory with the generated files. -/
def generatedPath (writer : Writer) : String :=
  Path.join writer.directory generatedName

/-- The path of the file with the values of the variables. -/
def tfvarsPath (writer : Writer) : String :=
  Path.join writer.directory tfvarsName

/-- Stage contents in a directory, all or none. -/
def stageAll (directory : Location) : List (String × String) → FileSystem →
    FileSystem × Except FileError (List (String × StagedFile))
  | [], fs => (fs, .ok [])
  | (name, content) :: rest, fs =>
    match fs.stage directory content with
    | .error error => (fs, .error error)
    | .ok (staging, file) =>
      match stageAll directory rest staging with
      | (after, .error error) => (after.discard file, .error error)
      | (after, .ok files) => (after, .ok ((name, file) :: files))

/-- Move a staged file to its place in the directory to which a path leads. -/
def persistIn (path name : String) (file : StagedFile) (fs : FileSystem) :
    Except FileError FileSystem := do
  FileSystem.ensurePath (Path.join path name)
  fs.persist file name

/-- Move staged files to their places in the directory to which a path leads, up to the first that
cannot be moved. It and those behind it are dropped. -/
def persistAll (path : String) : List (String × StagedFile) → FileSystem →
    FileSystem × Except FileError Unit
  | [], fs => (fs, .ok ())
  | (name, file) :: rest, fs =>
    match persistIn path name file fs with
    | .ok after => persistAll path rest after
    | .error error => (((name, file) :: rest).foldl (fun fs entry => fs.discard entry.2) fs, .error error)

/-- Write the generated files, and say which. All of them are staged before the first takes its
place, so one that cannot be staged leaves the others alone. They then take their places one after
another. -/
def write (writer : Writer) (artifacts : Artifacts) (fs : FileSystem) :
    FileSystem × Except FileError (List String) :=
  match fs.makeDirectories writer.generatedPath with
  | (fs, .error error) => (fs, .error error)
  | (fs, .ok directory) =>
    match stageAll directory artifacts.files fs with
    | (fs, .error error) => (fs, .error error)
    | (fs, .ok files) =>
      match persistAll writer.generatedPath files fs with
      | (fs, .error error) => (fs, .error error)
      | (fs, .ok ()) =>
        (fs, .ok (artifacts.files.map fun (name, _) => Path.join writer.generatedPath name))

/-- Write one file in a directory, which is made if it is missing. -/
def writeOne (directory name content : String) (fs : FileSystem) :
    FileSystem × Except FileError Unit :=
  match fs.makeDirectories directory with
  | (fs, .error error) => (fs, .error error)
  | (fs, .ok location) =>
    match stageAll location [(name, content)] fs with
    | (fs, .error error) => (fs, .error error)
    | (fs, .ok files) => persistAll directory files fs

/-- The text into which values are merged: the one that is there, if it is to be kept. -/
def existingTfvars (writer : Writer) (fs : FileSystem) : Except FileError (Option String) :=
  if writer.preserve && fs.contains writer.tfvarsPath then
    (fs.readText writer.tfvarsPath).map some
  else .ok none

/-- Write the values of the variables, and say where, if there are any. What is there already is
left alone unless it is to be kept by merging. -/
def writeTfvars (writer : Writer) (stack : Stack) (fs : FileSystem) :
    FileSystem × Except FileError (Option String) :=
  if !writer.preserve && fs.contains writer.tfvarsPath then (fs, .ok none)
  else match writer.existingTfvars fs with
    | .error error => (fs, .error error)
    | .ok existing =>
      match Tfvars.render stack existing with
      | none => (fs, .ok none)
      | some content =>
        match writeOne writer.directory tfvarsName content fs with
        | (fs, .error error) => (fs, .error error)
        | (fs, .ok ()) => (fs, .ok (some writer.tfvarsPath))

end Writer
end TerraStack
