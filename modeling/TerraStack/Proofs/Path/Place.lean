import TerraStack.Path

namespace TerraStack.Path

/-- Where the way down to a place starts: at the root, or so many steps above the directory in which
the path is read. -/
inductive Origin where
  | root
  | above (steps : Nat)
  deriving Repr, DecidableEq

/-- One step up from an origin. Nothing is above the root. -/
def Origin.parent : Origin → Origin
  | .root => .root
  | .above steps => .above (steps + 1)

/-- A place, as the names on the way down to it. Nothing has to be there, and paths that are spelled
differently can lead to one place. -/
structure Place where
  origin : Origin
  names : List String := []
  deriving Repr, DecidableEq

namespace Place

/-- One step up from a place. -/
def parent (place : Place) : Place :=
  match place.names with
  | [] => { place with origin := place.origin.parent }
  | name :: rest => { place with names := (name :: rest).dropLast }

/-- Go on from a place by a part of a path. -/
def follow (place : Place) (part : String) : Place :=
  if part = "" ∨ part = "." then place
  else if part = ".." then place.parent
  else { place with names := place.names ++ [part] }

variable {place : Place} {name : String}

@[simp] theorem follow_empty (place : Place) : place.follow "" = place := rfl

@[simp] theorem follow_dot (place : Place) : place.follow "." = place := rfl

@[simp] theorem follow_dots (place : Place) : place.follow ".." = place.parent := rfl

/-- A name leads down. -/
theorem follow_name (hstays : ¬ (name = "" ∨ name = ".")) (hdots : name ≠ "..") :
    place.follow name = { place with names := place.names ++ [name] } := by
  rw [follow, if_neg hstays, if_neg hdots]

/-- What a name adds, one step up takes away. -/
theorem parent_append_name (origin : Origin) (names : List String) (name : String) :
    parent ⟨origin, names ++ [name]⟩ = ⟨origin, names⟩ := by
  unfold parent
  cases names with
  | nil => rfl
  | cons first rest =>
    have hnames : ((first :: rest) ++ [name]).dropLast = first :: rest := List.dropLast_concat
    exact congrArg (Place.mk origin) hnames

/-- From where a name leads, two dots lead back. -/
theorem parent_follow_name (hstays : ¬ (name = "" ∨ name = ".")) (hdots : name ≠ "..") :
    (place.follow name).parent = place := by
  rw [follow_name hstays hdots, parent_append_name]

end Place

/-- Where a path starts. -/
def origin (path : String) : Origin :=
  if isAbsolute path then .root else .above 0

/-- The place to which a path leads. -/
def place (path : String) : Place :=
  (parts path).foldl Place.follow ⟨origin path, []⟩

/-- A path that is read in a directory goes on from there. -/
theorem place_join {path : String} (hrelative : isAbsolute path = false) (directory : String) :
    place (join directory path) = (parts path).foldl Place.follow (place directory) := by
  unfold place origin
  rw [isAbsolute_join hrelative]
  rcases @parts_join directory path hrelative with hparts | ⟨before, hdirectory, hparts⟩
  · rw [hparts, List.foldl_append]
  · -- The empty part at the end of the directory leads nowhere.
    rw [hparts, hdirectory, List.foldl_append, List.foldl_append, List.foldl_cons, List.foldl_nil,
      Place.follow_empty]

example : place "a//b/.././../../../c/d/.." = ⟨.above 2, ["c"]⟩ := by decide

end TerraStack.Path
