import Mathlib.Data.List.Basic
import TerraStack.Proofs.Text.LineEnds
import TerraStack.Terraform.Workspace

namespace TerraStack.Terraform

open Text (blanks isBlank trimChars withoutReturn IsTrimmed)

/-- How many of the pieces of a listing between its line feeds hold a character that is not white
space. -/
def filledLines (listing : String) : Nat :=
  (listing.toList.splitOn '\n').countP fun piece => piece.any fun c => c ∉ blanks

/-- A line with nothing on it but a name: white space may stand around, and stars with white space
around them in front. Of these stars the first ones are no part of the name, so a name that starts
with a star stands behind another one and white space. -/
inductive BearsName (name : List Char) : List Char → Prop where
  | intro {before between after : List Char} {stars : Nat} (hbefore : ∀ c ∈ before, c ∈ blanks)
      (hbetween : ∀ c ∈ between, c ∈ blanks) (hafter : ∀ c ∈ after, c ∈ blanks)
      (hne : name ≠ []) (hfirst : ∀ c, name.head? = some c → c ∉ blanks)
      (hlast : ∀ c, name.getLast? = some c → c ∉ blanks)
      (hstar : name.head? = some '*' → 0 < stars ∧ between ≠ []) :
      BearsName name (before ++ List.replicate stars '*' ++ between ++ name ++ after)

/-- A listing names a workspace on one of its lines. -/
def Names (listing workspace : String) : Prop :=
  ∃ line ∈ listing.toList.splitOn '\n', BearsName workspace.toList line

/-- A workspace is in production by its name, whatever the case of the letters. -/
def IsProductionName (workspace : String) : Prop :=
  workspace.toList.map Char.toLower = "prod".toList ∨
    workspace.toList.map Char.toLower = "production".toList

instance (workspace : String) : Decidable (IsProductionName workspace) :=
  inferInstanceAs (Decidable (_ ∨ _))

/-- A workspace is taken for one in production by its name alone. -/
theorem isProduction_iff {workspace : String} :
    isProduction workspace = true ↔ IsProductionName workspace := by
  unfold isProduction IsProductionName
  simp only [List.contains_iff_mem, List.mem_cons, List.not_mem_nil, or_false]

/-- The resources that are counted are the lines that are not blank. -/
theorem countResources_eq (listing : String) : countResources listing = filledLines listing := by
  have hfilled : ∀ line : List Char,
      (!(trimChars line).isEmpty) = line.any fun c => c ∉ blanks := by
    intro line
    rw [Bool.eq_iff_iff]
    simp [Text.trimChars_eq_nil_iff, Text.isBlank_eq_true_iff]
  have hreturn (line : List Char) :
      (!(trimChars (withoutReturn line)).isEmpty) = !(trimChars line).isEmpty := by
    rw [Text.trimChars_withoutReturn]
  unfold countResources filledLines
  rw [Text.countP_lineChars rfl hreturn]
  exact congrArg (fun p => List.countP p _) (funext hfilled)

/-- Where no star is in front none is dropped. -/
theorem dropWhile_star {cs : List Char} (hstar : cs.head? ≠ some '*') :
    cs.dropWhile (· = '*') = cs := by
  cases cs with
  | nil => rfl
  | cons c rest =>
    have hc : c ≠ '*' := by simpa using hstar
    exact List.dropWhile_cons_of_neg (by simpa using hc)

/-- Behind the stars in front no star comes. -/
theorem head?_dropWhile_star (cs : List Char) : (cs.dropWhile (· = '*')).head? ≠ some '*' := by
  intro hstar
  have hdropped := List.head?_dropWhile_not (fun c => decide (c = '*')) cs
  rw [hstar] at hdropped
  simp at hdropped

/-- What is dropped is a row of stars. -/
theorem exists_replicate_append_dropWhile_star (cs : List Char) :
    ∃ stars, cs = List.replicate stars '*' ++ cs.dropWhile (· = '*') := by
  have htaken : cs.takeWhile (· = '*') = List.replicate (cs.takeWhile (· = '*')).length '*' :=
    List.eq_replicate_iff.mpr
      ⟨rfl, fun c hc => by simpa using List.all_eq_true.mp List.all_takeWhile c hc⟩
  exact ⟨_, by rw [← htaken, List.takeWhile_append_dropWhile]⟩

/-- The name that is read on a line stands alone there. -/
theorem bearsName_of_workspaceOnLine {line name : List Char} (hread : workspaceOnLine line = name)
    (hne : name ≠ []) : BearsName name line := by
  obtain ⟨before, after, hbefore, hafter, hline⟩ := Text.exists_eq_append_trimChars line
  obtain ⟨stars, hstars⟩ := exists_replicate_append_dropWhile_star (trimChars line)
  obtain ⟨between, behind, hbetween, hbehind, hrest⟩ :=
    Text.exists_eq_append_trimChars ((trimChars line).dropWhile (· = '*'))
  have hfound : trimChars ((trimChars line).dropWhile (· = '*')) = name := hread
  have htrimmed : IsTrimmed name := hfound ▸ Text.isTrimmed_trimChars _
  have hstar := head?_dropWhile_star (trimChars line)
  rw [hfound] at hrest
  rw [hrest] at hstars hstar
  have hlayout : line = before ++ List.replicate stars '*' ++ between ++ name ++ (behind ++ after) := by
    rw [hline, hstars]
    simp
  have hbehindAfter : ∀ c ∈ behind ++ after, isBlank c = true := fun c hc =>
    (List.mem_append.mp hc).elim (hbehind c) (hafter c)
  simp only [Text.isBlank_eq_true_iff] at hbefore hbetween hbehindAfter
  rw [hlayout]
  refine .intro hbefore hbetween hbehindAfter hne ?_ ?_ ?_
  · exact fun c hc => Text.isBlank_eq_false_iff.mp (htrimmed.head c hc)
  · exact fun c hc => Text.isBlank_eq_false_iff.mp (htrimmed.last c hc)
  · intro hhead
    have hspace : between ≠ [] := by
      rintro rfl
      exact hstar (by simp [List.head?_append, hhead])
    refine ⟨Nat.pos_of_ne_zero ?_, hspace⟩
    rintro rfl
    -- Without a star in front, what is left after trimming would start with white space.
    obtain ⟨c, rest, rfl⟩ := List.exists_cons_of_ne_nil hspace
    have hblank : isBlank c = true := Text.isBlank_eq_true_iff.mpr (hbetween c List.mem_cons_self)
    have hwhole := (Text.isTrimmed_trimChars line).head c (by rw [hstars]; rfl)
    rw [hblank] at hwhole
    cases hwhole

/-- A name that stands alone on a line is read there. -/
theorem BearsName.workspaceOnLine_eq {name line : List Char} (hbears : BearsName name line) :
    workspaceOnLine line = name := by
  obtain @⟨before, between, after, stars, hbefore, hbetween, hafter, hne, hfirst, hlast, hstar⟩ := hbears
  simp only [← Text.isBlank_eq_true_iff] at hbefore hbetween hafter
  simp only [← Text.isBlank_eq_false_iff] at hfirst hlast
  have htrimmed : IsTrimmed name := ⟨hfirst, hlast⟩
  unfold workspaceOnLine
  cases stars with
  | zero =>
    have hmargin : ∀ d ∈ before ++ between, isBlank d = true := fun d hd =>
      (List.mem_append.mp hd).elim (hbefore d) (hbetween d)
    have hplain : name.head? ≠ some '*' := fun heq => absurd (hstar heq).1 (Nat.lt_irrefl 0)
    rw [List.replicate_zero, List.append_nil, htrimmed.trimChars_append hmargin hafter,
      dropWhile_star hplain, htrimmed.trimChars_eq]
  | succ stars =>
    have hwhole : IsTrimmed (List.replicate (stars + 1) '*' ++ (between ++ name)) := by
      constructor
      · intro c hc
        obtain rfl : '*' = c := Option.some.inj hc
        decide
      · rw [← List.append_assoc, List.getLast?_append_of_ne_nil _ hne]
        exact hlast
    have hspaced : (between ++ name).head? ≠ some '*' := by
      cases between with
      | nil => exact fun heq => (hstar heq).2 rfl
      | cons c rest =>
        intro heq
        obtain rfl : c = '*' := Option.some.inj heq
        exact absurd (hbetween '*' List.mem_cons_self) (by decide)
    have hdropped : (List.replicate (stars + 1) '*' ++ (between ++ name)).dropWhile (· = '*') =
        between ++ name := by
      rw [List.dropWhile_append_of_pos (by simp), dropWhile_star hspaced]
    rw [List.append_assoc before, List.append_assoc before, List.append_assoc (List.replicate _ _),
      hwhole.trimChars_append hbefore hafter, hdropped]
    have hrest := htrimmed.trimChars_append hbetween fun _ hc => absurd hc List.not_mem_nil
    rwa [List.append_nil] at hrest

/-- A name on a line is not empty. -/
theorem BearsName.ne_nil {name line : List Char} (hbears : BearsName name line) : name ≠ [] := by
  obtain ⟨_, _, _, hne, _, _, _⟩ := hbears
  exact hne

/-- A line bears the name that is read on it, unless that is empty. -/
theorem bearsName_iff {name line : List Char} :
    BearsName name line ↔ workspaceOnLine line = name ∧ name ≠ [] :=
  ⟨fun hbears => ⟨hbears.workspaceOnLine_eq, hbears.ne_nil⟩,
    fun hname => bearsName_of_workspaceOnLine hname.1 hname.2⟩

/-- The workspaces that are read in a listing are those that it names. -/
theorem mem_parseWorkspaces_iff {listing workspace : String} :
    workspace ∈ parseWorkspaces listing ↔ Names listing workspace := by
  have hempty : ¬ BearsName workspace.toList [] := by
    rw [bearsName_iff]
    rintro ⟨hnothing, hne⟩
    exact hne hnothing.symm
  have hreturn (line : List Char) :
      BearsName workspace.toList (withoutReturn line) ↔ BearsName workspace.toList line := by
    rw [bearsName_iff, bearsName_iff, workspaceOnLine, Text.trimChars_withoutReturn, workspaceOnLine]
  unfold Names
  rw [← Text.exists_mem_lineChars_iff hempty hreturn, parseWorkspaces]
  simp only [List.mem_map, List.mem_filter]
  constructor
  · rintro ⟨name, ⟨⟨line, hline, rfl⟩, hne⟩, rfl⟩
    refine ⟨line, hline, bearsName_iff.mpr ?_⟩
    rw [String.toList_ofList]
    exact ⟨rfl, by simpa using hne⟩
  · rintro ⟨line, hline, hbears⟩
    obtain ⟨hname, hne⟩ := bearsName_iff.mp hbears
    exact ⟨workspace.toList, ⟨⟨line, hline, hname⟩, by simpa using hne⟩, String.ofList_toList⟩

end TerraStack.Terraform
