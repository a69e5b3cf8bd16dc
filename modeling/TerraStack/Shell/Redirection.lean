import TerraStack.Shell.Expand
import TerraStack.Shell.Utility.Options

namespace TerraStack.Shell

/-- The descriptor that a redirection changes. -/
def Redirect.changed : Redirect → Nat
  | .file descriptor .. | .duplicate descriptor _ | .document descriptor _ => descriptor

namespace Run

/-- Make a descriptor name a stream. -/
def setDescriptor (descriptor place : Nat) : Run Unit :=
  modifyProcess fun process =>
    let others := process.descriptors.filter fun (other, _) => other ≠ descriptor
    { process with descriptors := (descriptor, place) :: others }

/-- Close a descriptor. -/
def closeDescriptor (descriptor : Nat) : Run Unit :=
  modifyProcess fun process =>
    { process with
      descriptors := process.descriptors.filter fun (other, _) => other ≠ descriptor }

/-- Make a descriptor the same as another. -/
def duplicateDescriptor (descriptor source : Nat) : Run Unit := do
  match ← place? source with
  | some place => setDescriptor descriptor place
  | none => die (digitsOf source ++ ": Bad file descriptor".toList)

/-- The text of an error that shows when a file is opened. -/
def openingError (missing : String) (error : FileError) : Octets :=
  match error with
  | .notFound | .notDirectory => missing.toList
  | error => error.message.toList

/-- Open a file. -/
def openFile (descriptor : Nat) (mode : FileMode) (path : Octets) : Run Unit := do
  let view ← view
  let text := textOf path
  match deviceDescriptor? path, mode with
  | some source, _ => duplicateDescriptor descriptor source
  | none, .read =>
    let complain (error : FileError) : Run Unit :=
      die ("cannot open ".toList ++ path ++ ": ".toList ++ openingError "No such file" error)
    match view.locate text with
    | .error error => complain error
    | .ok location =>
      match view.entry? location with
      | none => complain .notFound
      | some .directory | some .sink => setDescriptor descriptor (← openStream .nothing)
      | some _ => setDescriptor descriptor (← openStream (.file location 0 .read))
  | none, mode =>
    match view.target text with
    | .error error =>
      die ("cannot create ".toList ++ path ++ ": ".toList
        ++ openingError "Directory nonexistent" error)
    | .ok location =>
      let isThere := (view.entry? location).any (· ≠ .sink)
      if mode = .write && isThere && (← get).has 'C' then
        die ("cannot create ".toList ++ path ++ ": File exists".toList)
      if mode = .write || mode = .replace || !isThere then
        modifyWorld fun world => { world with files := world.files.putBytes location [] }
      setDescriptor descriptor (← openStream (.file location 0 mode))

/-- Find out which descriptor a text of one digit names, and then make another the same. -/
def duplicatingNamed (descriptor : Nat) (source : Octets) : Run (Run Unit) := do
  if source = ['-'] then return closeDescriptor descriptor
  else match (natOf? source).filter (· < 10) with
    | some source => return duplicateDescriptor descriptor source
    | none => do
      modifyProcess fun process => { process with line := process.nextLine }
      die "Syntax error: Bad fd number".toList

/-- Find out what redirections name, and then open it, one file after another. -/
def openingAll (capture : List Command → Run Octets) (redirects : List Redirect) :
    Run (Run Unit) := do
  let actions ← redirects.mapM fun redirect => do
    match redirect with
    | .file descriptor mode path =>
      let path ← expandText capture path
      return openFile descriptor mode path
    | .duplicate descriptor source =>
      let source ← expandText capture source
      duplicatingNamed descriptor source
    | .document descriptor body =>
      let body ← expandText capture body
      return do setDescriptor descriptor (← openStream (.buffer body))
  return actions.forM id

/-- Do something with files opened as redirections say. If they cannot be opened, nothing is done,
and the exit code says so. Whether something was done is returned. -/
def redirecting (capture : List Command → Run Octets) (isPermanent : Bool)
    (redirects : List Redirect) (action : Run Unit) : Run Bool := do
  let opening ← openingAll capture redirects
  keeping (if isPermanent then [] else redirects.map Redirect.changed) do
    match ← attempt opening with
    | .ok () => do
      action
      return true
    | .error .fault => do
      setStatus 2
      return false
    | .error stop => throw stop

end Run
end TerraStack.Shell
