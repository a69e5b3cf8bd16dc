import Mathlib.Data.List.TakeWhile
import TerraStack.Proofs.FileSystem.Walk

namespace TerraStack.FileSystem

variable {fs after middle : FileSystem} {location next : Location}

/-- A location on the way along the parts of a path: the first of them lead there. -/
def IsOnWay (fs : FileSystem) (start : Location) (parts : List String) (location : Location) : Prop :=
  ∃ front, front <+: parts ∧ front.foldlM fs.follow start = .ok location

/-- Nothing has changed but that there are directories now at some of the places where nothing was. -/
structure AddsDirectories (fs after : FileSystem) (place : Location → Prop) : Prop where
  programs : after.programs = fs.programs
  staged : after.staged = fs.staged
  workingDirectory : after.workingDirectory = fs.workingDirectory
  entry : ∀ location, after.entry? location = fs.entry? location ∨
    fs.entry? location = none ∧ after.entry? location = some .directory ∧ place location

namespace AddsDirectories

variable {place other : Location → Prop}

theorem refl (fs : FileSystem) (place : Location → Prop) : AddsDirectories fs fs place :=
  ⟨rfl, rfl, rfl, fun _ => .inl rfl⟩

/-- Directories may be said to have been added at more places. -/
theorem mono (hadds : AddsDirectories fs after place) (hplace : ∀ location, place location → other location) :
    AddsDirectories fs after other where
  programs := hadds.programs
  staged := hadds.staged
  workingDirectory := hadds.workingDirectory
  entry location := (hadds.entry location).imp_right fun ⟨hnone, hnew, hat⟩ =>
    ⟨hnone, hnew, hplace location hat⟩

theorem trans (hfirst : AddsDirectories fs middle place) (hsecond : AddsDirectories middle after place) :
    AddsDirectories fs after place where
  programs := hsecond.programs.trans hfirst.programs
  staged := hsecond.staged.trans hfirst.staged
  workingDirectory := hsecond.workingDirectory.trans hfirst.workingDirectory
  entry location := by
    rcases hsecond.entry location with hsame | ⟨hnone, hnew, hat⟩
    · rw [hsame]
      exact hfirst.entry location
    · refine .inr ⟨?_, hnew, hat⟩
      rcases hfirst.entry location with hsame | ⟨hmissing, -, -⟩
      · exact hsame.symm.trans hnone
      · exact hmissing

end AddsDirectories

/-- A directory where nothing was is the only thing that is new. -/
theorem addsDirectories_put (hentry : fs.entry? location = none) :
    AddsDirectories fs (fs.put location .directory) (· = location) where
  programs := rfl
  staged := rfl
  workingDirectory := rfl
  entry other := by
    rw [entry?_put (ne_nil_of_entry?_eq_none hentry)]
    by_cases hother : other = location
    · exact .inr ⟨hother ▸ hentry, if_pos hother, hother⟩
    · exact .inl (if_neg hother)

/-- What is on the way behind a part is on the whole way. -/
theorem isOnWay_cons {part : String} {rest : List String} (hfollow : fs.follow location part = .ok next)
    {place : Location} (hplace : fs.IsOnWay next rest place) :
    fs.IsOnWay location (part :: rest) place := by
  obtain ⟨front, hfront, hfold⟩ := hplace
  refine ⟨part :: front, List.cons_prefix_cons.mpr ⟨rfl, hfront⟩, ?_⟩
  rw [List.foldlM_cons, hfollow]
  exact hfold

/-- Where the first part leads is on the way. -/
theorem isOnWay_next {part : String} {rest : List String} (hfollow : fs.follow location part = .ok next) :
    fs.IsOnWay location (part :: rest) next :=
  isOnWay_cons hfollow ⟨[], List.nil_prefix, rfl⟩

/-- What is on a part of the way is on the whole way. -/
theorem IsOnWay.of_prefix {parts more : List String} (hway : fs.IsOnWay location parts next)
    (hparts : parts <+: more) : fs.IsOnWay location more next := by
  obtain ⟨front, hfront, hfold⟩ := hway
  exact ⟨front, hfront.trans hparts, hfold⟩

/-- To make a way adds directories on that way and changes nothing else, also where the way ends at
a file. -/
theorem addsDirectories_makeWayFrom {parts : List String} {result : Except FileError Location}
    (hmake : makeWayFrom location parts fs = (after, result)) :
    AddsDirectories fs after (after.IsOnWay location parts) := by
  induction parts generalizing location fs with
  | nil =>
    obtain ⟨rfl, -⟩ := Prod.mk.inj hmake
    exact .refl fs _
  | cons part rest ih =>
    have hkeeps := keeps_makeWayFrom hmake
    unfold makeWayFrom at hmake
    split at hmake
    · obtain ⟨rfl, -⟩ := Prod.mk.inj hmake
      exact .refl fs _
    · next next hfollow =>
      have hafter := hkeeps.follow hfollow
      split at hmake
      · exact (ih hmake).mono fun _ => isOnWay_cons hafter
      · next hentry =>
        have hplace (place : Location) (heq : place = next) : after.IsOnWay location (part :: rest) place :=
          heq ▸ isOnWay_next hafter
        exact ((addsDirectories_put hentry).mono hplace).trans
          ((ih hmake).mono fun _ => isOnWay_cons hafter)
      · obtain ⟨rfl, -⟩ := Prod.mk.inj hmake
        exact .refl fs _

/-- The parts that lead to the name before the dot come first in the path. -/
theorem partsBeforeDot_isPrefix {parts front : List String} (hdot : partsBeforeDot parts = some front) :
    front <+: parts := by
  unfold partsBeforeDot at hdot
  split at hdot
  · next rest hrest =>
    obtain rfl := Option.some.inj hdot
    have hdropped : (rest.dropWhile fun part => part = "" || part = ".").drop 1 <:+ parts.reverse := by
      have hends := List.dropWhile_suffix (l := parts.reverse) (· = "")
      rw [hrest] at hends
      exact (((List.drop_suffix 1 _).trans (List.dropWhile_suffix _)).trans
        (List.suffix_cons "." rest)).trans hends
    rw [← List.reverse_suffix]
    simpa using hdropped
  · cases hdot

/-- To make the way of a path adds directories on that way and changes nothing else. -/
theorem addsDirectories_makeWay (fs : FileSystem) (path : String) :
    AddsDirectories fs (fs.makeWay path).1
      ((fs.makeWay path).1.IsOnWay (fs.start path) (Path.parts path)) := by
  unfold makeWay
  split
  · exact .refl fs _
  · exact addsDirectories_makeWayFrom rfl

/-- Making a directory makes directories on the way to it and changes nothing else, also where it
fails. -/
theorem addsDirectories_makeDirectories {path : String} {result : Except FileError Location}
    (hmake : fs.makeDirectories path = (after, result)) :
    AddsDirectories fs after (after.IsOnWay (fs.start path) (Path.parts path)) := by
  unfold makeDirectories at hmake
  split at hmake
  · next parts _ hdot =>
    have hfront := partsBeforeDot_isPrefix hdot
    split at hmake
    · next hway =>
      obtain ⟨rfl, -⟩ := Prod.mk.inj hmake
      exact (addsDirectories_makeWayFrom hway).mono fun _ hplace => hplace.of_prefix hfront
    · next hway =>
      obtain ⟨rfl, -⟩ := Prod.mk.inj hmake
      exact (addsDirectories_makeWayFrom hway).mono fun _ hplace => hplace.of_prefix hfront
  · obtain ⟨rfl, -⟩ := Prod.mk.inj hmake
    exact addsDirectories_makeWay fs path

/-- A way that starts at a directory and can be made ends at one. -/
theorem isDirectory_of_makeWayFrom_directory {parts : List String}
    (hdirectory : fs.isDirectory location = true)
    (hmake : makeWayFrom location parts fs = (after, .ok next)) : after.isDirectory next = true := by
  induction parts generalizing location fs with
  | nil =>
    obtain ⟨rfl, hnext⟩ := Prod.mk.inj hmake
    exact Except.ok.inj hnext ▸ hdirectory
  | cons part rest ih =>
    unfold makeWayFrom at hmake
    split at hmake
    · cases hmake
    · split at hmake
      · next hentry => exact ih (isDirectory_iff.mpr hentry) hmake
      · next hentry =>
        refine ih (isDirectory_iff.mpr ?_) hmake
        rw [entry?_put (ne_nil_of_entry?_eq_none hentry), if_pos rfl]
      · cases hmake

/-- A way that has parts starts at a directory if it can be made. -/
theorem isDirectory_of_makeWayFrom {parts : List String} (hsome : parts ≠ [])
    (hmake : makeWayFrom location parts fs = (after, .ok next)) : after.isDirectory next = true := by
  cases hdirectory : fs.isDirectory location with
  | true => exact isDirectory_of_makeWayFrom_directory hdirectory hmake
  | false =>
    cases parts with
    | nil => exact absurd rfl hsome
    | cons part rest =>
      obtain ⟨error, herror⟩ := follow_of_not_isDirectory hdirectory
      unfold makeWayFrom at hmake
      rw [herror part] at hmake
      cases hmake

/-- A part that stays where it is needs a directory to stay in. -/
theorem isDirectory_of_follow_stay {part : String} (hstay : part = "" ∨ part = ".")
    (hfollow : fs.follow location part = .ok next) : fs.isDirectory next = true := by
  have hdirectory := isDirectory_of_follow hfollow
  have hsame : fs.follow location part = .ok location := by
    rw [isDirectory_iff] at hdirectory
    rcases hstay with rfl | rfl <;> simp [follow, hdirectory]
  obtain rfl := Except.ok.inj (hsame.symm.trans hfollow)
  exact hdirectory

/-- A path that ends with a dot has a last part that stays where it is. -/
theorem exists_stay_of_partsBeforeDot {parts front : List String}
    (hdot : partsBeforeDot parts = some front) :
    ∃ before part, parts = before ++ [part] ∧ (part = "" ∨ part = ".") := by
  have hsplit := List.takeWhile_append_dropWhile (p := (· = "")) (l := parts.reverse)
  unfold partsBeforeDot at hdot
  split at hdot
  · next rest hrest =>
    rw [hrest] at hsplit
    cases hempty : parts.reverse.takeWhile (· = "") with
    | nil =>
      rw [hempty, List.nil_append] at hsplit
      exact ⟨rest.reverse, ".", by simpa using congrArg List.reverse hsplit.symm, .inr rfl⟩
    | cons part more =>
      rw [hempty] at hsplit
      have hpart : part = "" := by
        have hmem : part ∈ parts.reverse.takeWhile (· = "") := by simp [hempty]
        simpa using List.mem_takeWhile_imp hmem
      exact ⟨(more ++ "." :: rest).reverse, part, by simpa using congrArg List.reverse hsplit.symm,
        .inl hpart⟩
  · cases hdot

/-- What has been made for a path is a directory. -/
theorem isDirectory_of_makeDirectories {path : String}
    (hmake : fs.makeDirectories path = (after, .ok location)) : after.isDirectory location = true := by
  unfold makeDirectories at hmake
  split at hmake
  · next hdot =>
    split at hmake
    · cases hmake
    · obtain ⟨rfl, hlocate⟩ := Prod.mk.inj hmake
      obtain ⟨before, part, hparts, hstay⟩ := exists_stay_of_partsBeforeDot hdot
      have hwalk := (locate_eq_ok.mp hlocate).2.2
      rw [walk, hparts, List.foldlM_append, bind_eq_ok] at hwalk
      obtain ⟨middle, -, hlast⟩ := hwalk
      rw [List.foldlM_cons, bind_eq_ok] at hlast
      obtain ⟨next, hfollow, hnil⟩ := hlast
      obtain rfl := Except.ok.inj hnil
      exact isDirectory_of_follow_stay hstay hfollow
  · obtain ⟨hmade, hresult⟩ := Prod.mk.inj hmake
    have hway : fs.makeWay path = (after, .ok location) := Prod.ext hmade (mapError_eq_ok.mp hresult)
    unfold makeWay at hway
    split at hway
    · cases hway
    · refine isDirectory_of_makeWayFrom ?_ hway
      simpa [Path.parts] using Path.splitSlashes_ne_nil path.toList

/-- The directory that has been made is where the path leads. -/
theorem hasDirectory_of_makeDirectories {path : String}
    (hmake : fs.makeDirectories path = (after, .ok location)) : after.HasDirectory path location :=
  have hwalk := walk_of_makeDirectories hmake
  ⟨hwalk.1, hwalk.2, isDirectory_of_makeDirectories hmake⟩

/-- Where there is a directory there is no way to make. -/
theorem HasDirectory.makeWay_eq {path : String} (hhas : fs.HasDirectory path location) :
    fs.makeWay path = (fs, .ok location) := by
  simp only [makeWay, hhas.ensure]
  rw [← List.append_nil (Path.parts path), makeWayFrom_append hhas.walk hhas.isDirectory]
  rfl

/-- Where there is a directory nothing is made, not even at the end of the empty path. -/
theorem HasDirectory.makeDirectories_fst {path : String} (hhas : fs.HasDirectory path location) :
    (fs.makeDirectories path).1 = fs := by
  by_cases hempty : path = ""
  · subst hempty
    have hmake : (fs.makeDirectories "").1 = (fs.makeWay "").1 := by
      simp [makeDirectories, locate, partsBeforeDot, Path.parts, Path.splitSlashes]
    rw [hmake, hhas.makeWay_eq]
  · rw [hhas.makeDirectories_eq hempty]

end TerraStack.FileSystem
