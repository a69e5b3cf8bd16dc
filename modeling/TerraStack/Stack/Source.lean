import TerraStack.Text.Affix

namespace TerraStack

/-- What kind of source an address names, read off how it starts. -/
inductive SourceKind where
  | directory
  | registry
  | repository
  | archive
  deriving Repr, DecidableEq

namespace SourceKind

/-- The word for a kind of source. -/
def word : SourceKind → String
  | .directory => "local"
  | .registry => "registry"
  | .repository => "version_control"
  | .archive => "remote_archive"

/-- Whether a module from such a source may ask for a version. -/
def hasVersions : SourceKind → Bool
  | .registry | .repository => true
  | .directory | .archive => false

end SourceKind

/-- A source as the generated files name it. -/
structure Source where
  kind : SourceKind
  address : String
  deriving Repr, DecidableEq

/-- The source that an address in a stack file names. The generated files lie one directory below
the stack file, so a directory given as `./x` or `../x` is given from one level deeper, as `../x` or
`../../x`. -/
def Source.ofAddress (address : String) : Source :=
  match Text.afterStart? "./".toList address.toList with
  | some rest => ⟨.directory, "../" ++ .ofList rest⟩
  | none =>
    if Text.startsWith "../" address then ⟨.directory, "../" ++ address⟩
    else if Text.startsWith "git::" address then ⟨.repository, address⟩
    else if Text.startsWith "http" address then ⟨.archive, address⟩
    else ⟨.registry, address⟩

end TerraStack
