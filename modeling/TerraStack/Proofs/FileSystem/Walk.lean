import TerraStack.FileSystem.Change
import TerraStack.Proofs.Result

namespace TerraStack.FileSystem

variable {fs after other : FileSystem} {location next : Location}

theorem isDirectory_iff : fs.isDirectory location = true ↔ fs.entry? location = some .directory := by
  simp [isDirectory]

/-- A path goes on only from a directory. -/
theorem isDirectory_of_follow {part : String} (hfollow : fs.follow location part = .ok next) :
    fs.isDirectory location = true := by
  unfold follow at hfollow
  rw [isDirectory_iff]
  split at hfollow
  · cases hfollow
  · assumption
  · cases hfollow

/-- What stands in the way at a location stands in the way of every part. -/
theorem follow_of_not_isDirectory (hdirectory : fs.isDirectory location = false) :
    ∃ error, ∀ part, fs.follow location part = .error error := by
  unfold follow
  cases hentry : fs.entry? location with
  | none => exact ⟨_, fun _ => rfl⟩
  | some entry =>
    cases entry with
    | directory => simp [isDirectory, hentry] at hdirectory
    | text | binary | sink => exact ⟨_, fun _ => rfl⟩

/-- An empty part stays where it is. -/
theorem follow_empty (hdirectory : fs.isDirectory location = true) :
    fs.follow location "" = .ok location := by
  simp [follow, isDirectory_iff.mp hdirectory]

/-- To stay in a directory and to go on from there is to go on from there. -/
theorem follow_empty_bind (fs : FileSystem) (location : Location) (part : String) :
    (fs.follow location "" >>= fun middle => fs.follow middle part) = fs.follow location part := by
  cases hdirectory : fs.isDirectory location with
  | true =>
    rw [follow_empty hdirectory]
    rfl
  | false =>
    obtain ⟨error, herror⟩ := follow_of_not_isDirectory hdirectory
    rw [herror "", herror part]
    rfl

/-- A name that leads on: neither a way back nor longer than names can be. -/
structure IsName (name : String) : Prop where
  noSlash : '/' ∉ name.toList
  ne_empty : name ≠ ""
  ne_dot : name ≠ "."
  ne_dots : name ≠ ".."
  short : name.utf8ByteSize ≤ nameLimit

/-- The path of a name is not empty. -/
theorem IsName.join_ne_empty {name : String} (hname : IsName name) (directory : String) :
    Path.join directory name ≠ "" :=
  Path.join_ne_empty (Path.isAbsolute_of_not_mem hname.noSlash) hname.ne_empty

/-- A name leads down from a directory, whether something is there or not. -/
theorem follow_of_isDirectory {name : String} (hname : IsName name)
    (hdirectory : fs.isDirectory location = true) :
    fs.follow location name = .ok (location ++ [name]) := by
  rw [isDirectory_iff] at hdirectory
  have hshort := Nat.not_lt.mpr hname.short
  simp [follow, hdirectory, hname.ne_empty, hname.ne_dot, hname.ne_dots, hshort]

/-- A path that led to a location still leads there. -/
def walk (fs : FileSystem) (path : String) : Except FileError Location :=
  (Path.parts path).foldlM fs.follow (fs.start path)

/-- A path leads to a location if it can be a path at all and its parts lead there. -/
theorem locate_eq_ok {path : String} :
    fs.locate path = .ok location ↔
      path ≠ "" ∧ ensurePath path = .ok () ∧ fs.walk path = .ok location := by
  unfold locate
  split
  · next hempty => exact iff_of_false nofun fun h => h.1 hempty
  · next hsome =>
    rw [bind_eq_ok]
    constructor
    · rintro ⟨⟨⟩, hensure, hwalk⟩
      exact ⟨hsome, hensure, hwalk⟩
    · rintro ⟨-, hensure, hwalk⟩
      exact ⟨(), hensure, hwalk⟩

/-- A name in a directory is reached from where the directory is reached. -/
theorem start_join {directory name : String} (hslash : '/' ∉ name.toList) :
    fs.start (Path.join directory name) = fs.start directory := by
  unfold start
  rw [Path.isAbsolute_join (Path.isAbsolute_of_not_mem hslash)]

/-- To walk to a name in a directory is to walk to the directory and to follow the name. -/
theorem walk_join {directory name : String} (hslash : '/' ∉ name.toList) :
    fs.walk (Path.join directory name) =
      (fs.walk directory >>= fun location => fs.follow location name) := by
  unfold walk
  rw [start_join hslash]
  rcases Path.parts_join_name hslash with hparts | ⟨before, hdirectory, hparts⟩
  · rw [hparts, List.foldlM_append]
    simp
  · rw [hparts, hdirectory, List.foldlM_append, List.foldlM_append]
    simp [follow_empty_bind]

/-- A way that leads to a directory starts at one. -/
theorem isDirectory_of_foldlM {parts : List String} (hfold : parts.foldlM fs.follow location = .ok next)
    (hnext : fs.isDirectory next = true) : fs.isDirectory location = true := by
  cases parts with
  | nil =>
    obtain rfl := Except.ok.inj hfold
    exact hnext
  | cons part rest =>
    rw [List.foldlM_cons, bind_eq_ok] at hfold
    obtain ⟨middle, hfollow, -⟩ := hfold
    exact isDirectory_of_follow hfollow

/-- A text that is no path leads to nothing. -/
theorem lookup?_of_not_ensurePath {path : String} (hensure : ensurePath path ≠ .ok ()) :
    fs.lookup? path = none := by
  unfold lookup?
  cases hlocate : fs.locate path with
  | error error => rfl
  | ok location => exact absurd (locate_eq_ok.mp hlocate).2.1 hensure

/-- A path leads to a directory that is there. -/
structure HasDirectory (fs : FileSystem) (path : String) (location : Location) : Prop where
  ensure : ensurePath path = .ok ()
  walk : fs.walk path = .ok location
  isDirectory : fs.isDirectory location = true

/-- What a path leads to by a name in a directory. -/
theorem HasDirectory.lookup?_join {directory name : String} (hname : IsName name)
    (hhas : fs.HasDirectory directory location)
    (hensure : ensurePath (Path.join directory name) = .ok ()) :
    fs.lookup? (Path.join directory name) = fs.entry? (location ++ [name]) := by
  have hlocate : fs.locate (Path.join directory name) = .ok (location ++ [name]) := by
    refine locate_eq_ok.mpr ⟨hname.join_ne_empty directory, hensure, ?_⟩
    rw [walk_join hname.noSlash, hhas.walk]
    exact follow_of_isDirectory hname hhas.isDirectory
  simp [lookup?, hlocate, Except.toOption]

/-- What was there is still there: directories as directories, and files as files. No path that
leads to a location is cut off by such a change. -/
structure Keeps (fs after : FileSystem) : Prop where
  workingDirectory : after.workingDirectory = fs.workingDirectory
  kind : ∀ location entry, fs.entry? location = some entry →
    ∃ new, after.entry? location = some new ∧ (new = .directory ↔ entry = .directory)

namespace Keeps

theorem refl (fs : FileSystem) : Keeps fs fs :=
  ⟨rfl, fun _ entry hentry => ⟨entry, hentry, .rfl⟩⟩

theorem trans (hfirst : Keeps fs after) (hsecond : Keeps after other) : Keeps fs other where
  workingDirectory := hsecond.workingDirectory.trans hfirst.workingDirectory
  kind location entry hentry := by
    obtain ⟨middle, hmiddle, hkind⟩ := hfirst.kind location entry hentry
    obtain ⟨new, hnew, hkind'⟩ := hsecond.kind location middle hmiddle
    exact ⟨new, hnew, hkind'.trans hkind⟩

variable (hkeeps : Keeps fs after)
include hkeeps

/-- A directory is still one. -/
theorem isDirectory (hdirectory : fs.isDirectory location = true) :
    after.isDirectory location = true := by
  rw [isDirectory_iff] at hdirectory ⊢
  obtain ⟨new, hnew, hkind⟩ := hkeeps.kind location _ hdirectory
  rw [hnew, hkind.mpr rfl]

/-- A step that could be made can still be made, and leads to the same place. -/
theorem follow {part : String} (hfollow : fs.follow location part = .ok next) :
    after.follow location part = .ok next := by
  have hdirectory := isDirectory_of_follow hfollow
  have hafter := hkeeps.isDirectory hdirectory
  rw [isDirectory_iff] at hdirectory hafter
  unfold FileSystem.follow at hfollow ⊢
  simp only [hdirectory] at hfollow
  simpa only [hafter] using hfollow

/-- A way that led to a location still leads there. -/
theorem foldlM {parts : List String} (hfold : parts.foldlM fs.follow location = .ok next) :
    parts.foldlM after.follow location = .ok next := by
  induction parts generalizing location with
  | nil => exact hfold
  | cons part rest ih =>
    rw [List.foldlM_cons, bind_eq_ok] at hfold ⊢
    obtain ⟨middle, hfollow, hrest⟩ := hfold
    exact ⟨middle, hkeeps.follow hfollow, ih hrest⟩

theorem start (path : String) : after.start path = fs.start path := by
  unfold FileSystem.start
  rw [hkeeps.workingDirectory]

theorem walk {path : String} (hwalk : fs.walk path = .ok location) :
    after.walk path = .ok location := by
  unfold FileSystem.walk at hwalk ⊢
  rw [hkeeps.start]
  exact hkeeps.foldlM hwalk

end Keeps

/-- A directory that was there is still found by its path. -/
theorem HasDirectory.of_keeps {path : String} (hhas : fs.HasDirectory path location)
    (hkeeps : Keeps fs after) : after.HasDirectory path location where
  ensure := hhas.ensure
  walk := hkeeps.walk hhas.walk
  isDirectory := hkeeps.isDirectory hhas.isDirectory

/-- What is at a location where something was put, and anywhere else. -/
theorem entry?_put {entry : Entry} (hlocation : location ≠ []) (other : Location) :
    entry? (fs.put location entry) other = if other = location then some entry else fs.entry? other := by
  cases other with
  | nil => rw [if_neg hlocation.symm]; rfl
  | cons name rest => exact OrderedMap.find?_insert fs.entries location (name :: rest) entry

/-- To put a file in the place of a file, or anything where nothing was, takes no directory and no
file away. -/
theorem keeps_put {entry : Entry} (hlocation : location ≠ [])
    (hkind : ∀ old, fs.entry? location = some old → (entry = .directory ↔ old = .directory)) :
    Keeps fs (fs.put location entry) where
  workingDirectory := rfl
  kind other old hold := by
    rw [entry?_put hlocation]
    by_cases hother : other = location
    · exact ⟨entry, if_pos hother, hkind old (hother ▸ hold)⟩
    · exact ⟨old, (if_neg hother).trans hold, .rfl⟩

theorem ne_nil_of_entry?_eq_none (hentry : fs.entry? location = none) : location ≠ [] := by
  rintro rfl
  cases hentry

theorem keeps_put_of_none {entry : Entry} (hentry : fs.entry? location = none) :
    Keeps fs (fs.put location entry) :=
  keeps_put (ne_nil_of_entry?_eq_none hentry) fun old hold => by simp [hentry] at hold

/-- To make a way takes nothing away. -/
theorem keeps_makeWayFrom {parts : List String} {result : Except FileError Location}
    (hmake : makeWayFrom location parts fs = (after, result)) : Keeps fs after := by
  induction parts generalizing location fs with
  | nil =>
    obtain ⟨rfl, -⟩ := Prod.mk.inj hmake
    exact .refl fs
  | cons part rest ih =>
    unfold makeWayFrom at hmake
    split at hmake
    · obtain ⟨rfl, -⟩ := Prod.mk.inj hmake
      exact .refl fs
    · split at hmake
      · exact ih hmake
      · next hentry => exact (keeps_put_of_none hentry).trans (ih hmake)
      · obtain ⟨rfl, -⟩ := Prod.mk.inj hmake
        exact .refl fs

/-- The way that has been made leads to the end of it. -/
theorem foldlM_of_makeWayFrom {parts : List String}
    (hmake : makeWayFrom location parts fs = (after, .ok next)) :
    parts.foldlM after.follow location = .ok next := by
  induction parts generalizing location fs with
  | nil =>
    obtain ⟨-, hnext⟩ := Prod.mk.inj hmake
    exact hnext
  | cons part rest ih =>
    unfold makeWayFrom at hmake
    rw [List.foldlM_cons, bind_eq_ok]
    split at hmake
    · cases hmake
    · next middle hfollow =>
      split at hmake
      · exact ⟨middle, (keeps_makeWayFrom hmake).follow hfollow, ih hmake⟩
      · next hentry =>
        have hkeeps := (keeps_put_of_none hentry).trans (keeps_makeWayFrom hmake)
        exact ⟨middle, hkeeps.follow hfollow, ih hmake⟩
      · cases hmake

/-- Along directories there is nothing to make. -/
theorem makeWayFrom_append {parts rest : List String}
    (hfold : parts.foldlM fs.follow location = .ok next) (hnext : fs.isDirectory next = true) :
    makeWayFrom location (parts ++ rest) fs = makeWayFrom next rest fs := by
  induction parts generalizing location with
  | nil =>
    obtain rfl := Except.ok.inj hfold
    rfl
  | cons part parts ih =>
    rw [List.foldlM_cons, bind_eq_ok] at hfold
    obtain ⟨middle, hfollow, hrest⟩ := hfold
    have hmiddle := isDirectory_of_foldlM hrest hnext
    rw [isDirectory_iff] at hmiddle
    simp only [List.cons_append, makeWayFrom, hfollow, hmiddle]
    exact ih hrest

theorem keeps_makeWay (fs : FileSystem) (path : String) : Keeps fs (fs.makeWay path).1 := by
  unfold makeWay
  split
  · exact .refl fs
  · exact keeps_makeWayFrom rfl

/-- To make a directory takes nothing away. -/
theorem keeps_makeDirectories {path : String} {result : Except FileError Location}
    (hmake : fs.makeDirectories path = (after, result)) : Keeps fs after := by
  unfold makeDirectories at hmake
  split at hmake
  · split at hmake
    · next hway =>
      obtain ⟨rfl, -⟩ := Prod.mk.inj hmake
      exact keeps_makeWayFrom hway
    · next hway =>
      obtain ⟨rfl, -⟩ := Prod.mk.inj hmake
      exact keeps_makeWayFrom hway
  · obtain ⟨rfl, -⟩ := Prod.mk.inj hmake
    exact keeps_makeWay fs path

/-- The path leads to the directory that has been made. -/
theorem walk_of_makeDirectories {path : String}
    (hmake : fs.makeDirectories path = (after, .ok location)) :
    ensurePath path = .ok () ∧ after.walk path = .ok location := by
  have hkeeps := keeps_makeDirectories hmake
  unfold makeDirectories at hmake
  split at hmake
  · split at hmake
    · cases hmake
    · obtain ⟨rfl, hlocate⟩ := Prod.mk.inj hmake
      exact (locate_eq_ok.mp hlocate).2
  · obtain ⟨hmade, hresult⟩ := Prod.mk.inj hmake
    have hway : fs.makeWay path = (after, .ok location) := Prod.ext hmade (mapError_eq_ok.mp hresult)
    unfold makeWay at hway
    split at hway
    · cases hway
    · next hensure =>
      refine ⟨hensure, ?_⟩
      unfold walk
      rw [hkeeps.start]
      exact foldlM_of_makeWayFrom hway

/-- A directory that is there need not be made. -/
theorem HasDirectory.makeDirectories_eq {path : String} (hhas : fs.HasDirectory path location)
    (hsome : path ≠ "") : fs.makeDirectories path = (fs, .ok location) := by
  have hlocate := locate_eq_ok.mpr ⟨hsome, hhas.ensure, hhas.walk⟩
  simp only [makeDirectories, hlocate, makeWay, hhas.ensure]
  rw [← List.append_nil (Path.parts path), makeWayFrom_append hhas.walk hhas.isDirectory]
  rfl

/-- A path that ends with a name does not end with a dot. -/
theorem partsBeforeDot_concat {name : String} (hname : IsName name) (parts : List String) :
    partsBeforeDot (parts ++ [name]) = none := by
  simp [partsBeforeDot, hname.ne_empty, hname.ne_dot]

/-- To make one directory changes what is there and nothing else. -/
theorem entry?_makeWayFrom_name {name : String} (hname : IsName name)
    (hdirectory : fs.isDirectory location = true) (hother : next ≠ location ++ [name]) :
    entry? (makeWayFrom location [name] fs).1 next = fs.entry? next := by
  simp only [makeWayFrom, follow_of_isDirectory hname hdirectory]
  split
  · rfl
  · next hentry => rw [entry?_put (ne_nil_of_entry?_eq_none hentry), if_neg hother]
  · rfl

/-- Before the last name, a path leads to the directory of the name. -/
theorem exists_parts_join {directory name : String} (hslash : '/' ∉ name.toList)
    (hwalk : fs.walk directory = .ok location) :
    ∃ before, before.foldlM fs.follow (fs.start directory) = .ok location ∧
      Path.parts (Path.join directory name) = before ++ [name] := by
  rcases Path.parts_join_name hslash with hparts | ⟨before, hbefore, hparts⟩
  · exact ⟨_, hwalk, hparts⟩
  · refine ⟨before, ?_, hparts⟩
    rw [walk, hbefore, List.foldlM_append, bind_eq_ok] at hwalk
    obtain ⟨middle, hmiddle, hstay⟩ := hwalk
    rw [List.foldlM_cons, bind_eq_ok] at hstay
    obtain ⟨same, hsame, hnil⟩ := hstay
    obtain rfl := Except.ok.inj hnil
    rw [hmiddle, ← follow_empty (isDirectory_of_follow hsame), hsame]

/-- To make a directory in another one that is there changes nothing else. -/
theorem entry?_makeDirectories_join {directory name : String} (hname : IsName name)
    (hwalk : fs.walk directory = .ok location) (hdirectory : fs.isDirectory location = true)
    (hother : next ≠ location ++ [name]) :
    entry? (fs.makeDirectories (Path.join directory name)).1 next = fs.entry? next := by
  obtain ⟨before, hfold, hparts⟩ := exists_parts_join hname.noSlash hwalk
  unfold makeDirectories
  rw [hparts, partsBeforeDot_concat hname]
  split
  · next hdot => cases hdot
  · change entry? (fs.makeWay (Path.join directory name)).1 next = fs.entry? next
    unfold makeWay
    split
    · rfl
    · rw [start_join hname.noSlash, hparts, makeWayFrom_append hfold hdirectory]
      exact entry?_makeWayFrom_name hname hdirectory hother

/-- There is nothing below a directory in which nothing is listed. -/
theorem entry?_of_listing {rest : Location} (hlisting : fs.listing location = []) (hrest : rest ≠ []) :
    fs.entry? (location ++ rest) = none := by
  have hsome : location ++ rest ≠ [] := List.append_ne_nil_of_right_ne_nil location hrest
  have hentry : fs.entry? (location ++ rest) = fs.entries.find? (location ++ rest) := by
    cases hlocation : location ++ rest with
    | nil => exact absurd hlocation hsome
    | cons name others => rfl
  rw [hentry]
  cases hfound : fs.entries.find? (location ++ rest) with
  | none => rfl
  | some entry =>
    have hlength := congrArg List.length hlisting
    rw [listing, List.length_mergeSort, List.length_nil, List.length_eq_zero_iff,
      List.filterMap_eq_nil_iff] at hlength
    have hlisted := hlength _ (OrderedMap.find?_eq_some_iff.mp hfound)
    simp [List.isPrefixOf_iff_prefix, hrest] at hlisted

end TerraStack.FileSystem
