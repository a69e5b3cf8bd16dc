import TerraStack.OrderedMap
import TerraStack.Path
import TerraStack.Text.Bytes

namespace TerraStack

/-- A place in the tree: the names on the way from the root. -/
abbrev Location := List String

/-- What is at a location: a directory, a text file, or a file that holds no text. -/
inductive Entry where
  | directory
  | text (content : String)
  /-- A file whose bytes are no text. -/
  | binary (bytes : List UInt8)
  /-- A file that keeps nothing of what is written to it. -/
  | sink
  deriving Repr, DecidableEq

namespace Entry

/-- The file with some bytes. -/
def ofBytes (bytes : List UInt8) : Entry :=
  match Text.decode? bytes with
  | some content => .text content
  | none => .binary bytes

/-- The bytes of a file. -/
def bytes? : Entry → Option (List UInt8)
  | .directory => none
  | .text content => some (Text.encode content)
  | .binary bytes => some bytes
  | .sink => some []

/-- The number of bytes in a file. -/
def size : Entry → Nat
  | .directory | .sink => 0
  | .text content => content.utf8ByteSize
  | .binary bytes => bytes.length

end Entry

/-- Why something cannot be done with files. -/
inductive FileError where
  | notFound
  | notDirectory
  | isDirectory
  | exists
  | notEmpty
  | notText
  | nameTooLong
  /-- A path holds the character that ends paths. -/
  | forbiddenPath
  deriving Repr, DecidableEq

/-- The text of an error for the operator. -/
def FileError.message : FileError → String
  | .notFound => "No such file or directory"
  | .notDirectory => "Not a directory"
  | .isDirectory => "Is a directory"
  | .exists => "File exists"
  | .notEmpty => "Directory not empty"
  | .notText => "stream did not contain valid UTF-8"
  | .nameTooLong => "File name too long"
  | .forbiddenPath => "file name contained an unexpected NUL byte"

/-- New content that waits in a directory to take its place. It has a name that nothing else has, so
it is kept apart from the tree until it is moved to its location or dropped. -/
structure StagedFile where
  directory : Location
  content : String
  deriving Repr, DecidableEq

/-- A tree of directories and files, with a working directory from which paths lead to locations. -/
structure FileSystem where
  entries : OrderedMap Location Entry
  /-- The files that may be started as programs. -/
  programs : List Location := []
  staged : List StagedFile := []
  workingDirectory : Location := []

namespace FileSystem

/-- Nothing but the root, which is the working directory. -/
def empty : FileSystem := { entries := ∅ }

/-- An empty working directory beside the directories that are everywhere. -/
def standard : FileSystem where
  entries := .ofList [(["dev"], .directory), (["dev", "null"], .sink), (["tmp"], .directory),
    (["root"], .directory), (["work"], .directory)]
  workingDirectory := ["work"]

/-- What is at a location. The root is a directory. -/
def entry? (fs : FileSystem) : Location → Option Entry
  | [] => some .directory
  | location => fs.entries.find? location

def isDirectory (fs : FileSystem) (location : Location) : Bool :=
  fs.entry? location = some .directory

/-- The greatest number of bytes in a name. -/
def nameLimit : Nat := 255

/-- The greatest number of bytes in a path. -/
def pathLimit : Nat := 4095

/-- Go on from a location by a part of a path, if there is a directory to go on from. -/
def follow (fs : FileSystem) (location : Location) (part : String) : Except FileError Location :=
  match fs.entry? location with
  | none => .error .notFound
  | some .directory =>
    if part = "" || part = "." then .ok location
    else if part = ".." then .ok location.dropLast
    else if nameLimit < part.utf8ByteSize then .error .nameTooLong
    else .ok (location ++ [part])
  | some _ => .error .notDirectory

/-- Where a path starts. -/
def start (fs : FileSystem) (path : String) : Location :=
  if Path.isAbsolute path then [] else fs.workingDirectory

/-- Whether a text can be a path at all. -/
def ensurePath (path : String) : Except FileError Unit :=
  if path.toList.contains '\x00' then .error .forbiddenPath
  else if pathLimit < path.utf8ByteSize then .error .nameTooLong
  else .ok ()

/-- The location to which a path leads. It leads on only through directories that exist, but nothing
needs to be at its end. The empty path leads nowhere. -/
def locate (fs : FileSystem) (path : String) : Except FileError Location :=
  if path = "" then .error .notFound
  else do
    ensurePath path
    (Path.parts path).foldlM fs.follow (fs.start path)

/-- What is where a path leads. -/
def lookup? (fs : FileSystem) (path : String) : Option Entry :=
  (fs.locate path).toOption.bind fs.entry?

/-- Whether something is where a path leads. -/
def contains (fs : FileSystem) (path : String) : Bool :=
  (fs.lookup? path).isSome

/-- The bytes of the file to which a path leads. -/
def readBytes (fs : FileSystem) (path : String) : Except FileError (List UInt8) := do
  let location ← fs.locate path
  match fs.entry? location with
  | none => .error .notFound
  | some entry => entry.bytes?.elim (.error .isDirectory) .ok

/-- The text of the file to which a path leads. -/
def readText (fs : FileSystem) (path : String) : Except FileError String := do
  match Text.decode? (← fs.readBytes path) with
  | some content => .ok content
  | none => .error .notText

/-- The path of a location from the root. -/
def pathOf (location : Location) : String :=
  "/" ++ "/".intercalate location

/-- The names in a directory, in order, with what is there. -/
def children (fs : FileSystem) (directory : Location) : List (String × Entry) :=
  let inside := fs.entries.entries.filterMap fun (location, entry) =>
    if location.dropLast = directory then location.getLast?.map (·, entry) else none
  inside.mergeSort fun a b => a.1 ≤ b.1

/-- The entries below a directory, with their paths from there and a slash behind those of
directories, in the order of the paths. -/
def listing (fs : FileSystem) (directory : Location) : List (String × Entry) :=
  let below := fs.entries.entries.filterMap fun (location, entry) =>
    if directory.isPrefixOf location && directory.length < location.length then
      let path := "/".intercalate (location.drop directory.length)
      some (if entry = .directory then path ++ "/" else path, entry)
    else none
  below.mergeSort fun a b => a.1 ≤ b.1

end FileSystem
end TerraStack
