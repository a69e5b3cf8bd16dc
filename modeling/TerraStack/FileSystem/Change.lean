import TerraStack.FileSystem

namespace TerraStack.FileSystem

/-- Put an entry at a location. -/
def put (fs : FileSystem) (location : Location) (entry : Entry) : FileSystem :=
  { fs with entries := fs.entries.insert location entry }

/-- Put a file with some bytes at a location, unless the file there keeps nothing. -/
def putBytes (fs : FileSystem) (location : Location) (bytes : List UInt8) : FileSystem :=
  if fs.entry? location = some .sink then fs else fs.put location (.ofBytes bytes)

/-- Write bytes into a file from an offset on. If the file is shorter, zero bytes fill the gap. A
text behind a text makes a text, so that case takes no look at the bytes that are there. -/
def putBytesAt (fs : FileSystem) (location : Location) (offset : Nat) (bytes : List UInt8) :
    FileSystem :=
  let entry := (fs.entry? location).getD (.text "")
  let behind? := match entry, Text.decode? bytes with
    | .text content, some more => if offset = entry.size then some (content ++ more) else none
    | _, _ => none
  match behind? with
  | some content => fs.put location (.text content)
  | none =>
    let old := entry.bytes?.getD []
    let gap := List.replicate (offset - old.length) 0
    fs.putBytes location (old.take offset ++ gap ++ bytes ++ old.drop (offset + bytes.length))

/-- Take away what is at a location and below it. -/
def remove (fs : FileSystem) (location : Location) : FileSystem :=
  { fs with
    entries := fs.entries.filter fun other _ => !location.isPrefixOf other
    programs := fs.programs.filter (!location.isPrefixOf ·) }

/-- Make the directories on the way along the parts of a path, as far as they are missing. What has
been made stays even if the way ends at a file. -/
def makeWayFrom (location : Location) : List String → FileSystem →
    FileSystem × Except FileError Location
  | [], fs => (fs, .ok location)
  | part :: rest, fs =>
    match fs.follow location part with
    | .error error => (fs, .error error)
    | .ok next =>
      match fs.entry? next with
      | some .directory => makeWayFrom next rest fs
      | none => makeWayFrom next rest (fs.put next .directory)
      | some _ => (fs, .error .notDirectory)

/-- Make the directory to which a path leads, and those on the way to it. -/
def makeWay (fs : FileSystem) (path : String) : FileSystem × Except FileError Location :=
  match ensurePath path with
  | .error error => (fs, .error error)
  | .ok () => makeWayFrom (fs.start path) (Path.parts path) fs

/-- The parts of a path that ends with a dot, without its last name. -/
def partsBeforeDot (parts : List String) : Option (List String) :=
  match parts.reverse.dropWhile (· = "") with
  | "." :: rest => some ((rest.dropWhile fun part => part = "" || part = ".").drop 1).reverse
  | _ => none

/-- The error of making a directory whose way meets an error. A file on the way is told of as a file
in the place of the directory where the path ends with it, or where the way to it was missing and is
made from the file on. -/
def wayError (fs : FileSystem) (path : String) : FileError → FileError
  | .notDirectory =>
    let parts := ((Path.parts path).reverse.dropWhile (· = "")).reverse
    match parts.foldlM fs.follow (fs.start path) with
    | .error .notDirectory => .notDirectory
    | _ => .exists
  | error => error

/-- Make the directory to which a path leads, and those on the way to it. Where the path ends with a
dot, the last name before it is not made: it has to be there once the way to it is, as the way back
by two dots is. -/
def makeDirectories (fs : FileSystem) (path : String) : FileSystem × Except FileError Location :=
  match fs.locate path, partsBeforeDot (Path.parts path) with
  | .error .notFound, some parts =>
    match makeWayFrom (fs.start path) parts fs with
    | (made, .error error) => (made, .error (fs.wayError path error))
    | (made, .ok _) => (made, made.locate path)
  | _, _ =>
    let (made, result) := fs.makeWay path
    (made, result.mapError (fs.wayError path))

/-- Make one directory. -/
def makeDirectory (fs : FileSystem) (path : String) : Except FileError FileSystem := do
  let location ← fs.locate path
  if (fs.entry? location).isSome then .error .exists
  else if fs.isDirectory location.dropLast then .ok (fs.put location .directory)
  else .error .notFound

/-- Where a file can be written to which a path leads. -/
def target (fs : FileSystem) (path : String) : Except FileError Location := do
  let location ← fs.locate path
  if fs.isDirectory location then .error .isDirectory
  else if !fs.isDirectory location.dropLast then .error .notFound
  else .ok location

/-- Write a file in a directory that exists. -/
def writeBytes (fs : FileSystem) (path : String) (bytes : List UInt8) : Except FileError FileSystem :=
  (fs.target path).map (fs.putBytes · bytes)

/-- Write a text file in a directory that exists. -/
def writeText (fs : FileSystem) (path content : String) : Except FileError FileSystem :=
  fs.writeBytes path (Text.encode content)

/-- Take away the file to which a path leads. -/
def removeFile (fs : FileSystem) (path : String) : Except FileError FileSystem := do
  let location ← fs.locate path
  match fs.entry? location with
  | none => .error .notFound
  | some .directory => .error .isDirectory
  | some _ => .ok (fs.remove location)

/-- Take away the empty directory to which a path leads. -/
def removeDirectory (fs : FileSystem) (path : String) : Except FileError FileSystem := do
  let location ← fs.locate path
  match fs.entry? location with
  | none => .error .notFound
  | some .directory =>
    if (fs.children location).isEmpty then .ok (fs.remove location) else .error .notEmpty
  | some _ => .error .notDirectory

/-- Move what is at a location, and below it, to another. -/
def move (fs : FileSystem) (old new : Location) : FileSystem :=
  let moved := fs.entries.entries.filter fun (location, _) => old.isPrefixOf location
  let rename (location : Location) := new ++ location.drop old.length
  let programs := (fs.programs.filter (old.isPrefixOf ·)).map rename
  let fs := (fs.remove old).remove new
  let fs := moved.foldl (fun fs (location, entry) => fs.put (rename location) entry) fs
  { fs with programs := programs ++ fs.programs }

/-- Stage new content in a directory. -/
def stage (fs : FileSystem) (directory : Location) (content : String) :
    Except FileError (FileSystem × StagedFile) :=
  match fs.entry? directory with
  | none => .error .notFound
  | some .directory =>
    let file := ⟨directory, content⟩
    .ok ({ fs with staged := file :: fs.staged }, file)
  | some _ => .error .notDirectory

/-- Drop a staged file. -/
def discard (fs : FileSystem) (file : StagedFile) : FileSystem :=
  { fs with staged := fs.staged.erase file }

/-- Move a staged file to its place in its directory, where it replaces a file but no directory. -/
def persist (fs : FileSystem) (file : StagedFile) (name : String) :
    Except FileError FileSystem :=
  let location := file.directory ++ [name]
  if fs.isDirectory location then .error .isDirectory
  else .ok ((fs.discard file).put location (.text file.content))

/-- The entries that are not the same in a file system before. -/
def changesSince (fs before : FileSystem) : List (Location × Entry) :=
  fs.entries.entries.filter fun (location, entry) => before.entry? location ≠ some entry

/-- The locations at which there was something before and nothing is left, the deepest first. -/
def lossesSince (fs before : FileSystem) : List (Location × Entry) :=
  (before.entries.entries.filter fun (location, _) => (fs.entry? location).isNone).mergeSort
    fun a b => b.1.length ≤ a.1.length

end TerraStack.FileSystem
