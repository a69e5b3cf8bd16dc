import Mathlib.Data.List.Basic
import TerraStack.CommandLine.Perform
import TerraStack.Proofs.Terraform.GuardSequence

namespace TerraStack.Terraform

open Text (isBlank IsTrimmed lineChars trimChars withoutReturn)

/-- A name that is a line of its own: it does not start with what marks the current workspace. -/
structure WorkspaceName where
  chars : List Char
  ne_nil : chars ≠ []
  noFeed : '\n' ∉ chars
  isTrimmed : IsTrimmed chars
  noStar : chars.head? ≠ some '*'

namespace WorkspaceName

/-- The name as a text. -/
def text (name : WorkspaceName) : String := .ofList name.chars

end WorkspaceName

/-- A line with white space only. -/
structure BlankLine where
  chars : List Char
  isBlank : ∀ c ∈ chars, isBlank c = true
  noFeed : '\n' ∉ chars

/-- A line with nothing but a tab. -/
def BlankLine.tab : BlankLine where
  chars := ['\t']
  isBlank c hc := by
    obtain rfl := List.mem_singleton.mp hc
    decide
  noFeed := by decide

/-- A line of a list of workspaces. -/
inductive ListingRow where
  | blank (line : BlankLine)
  | workspace (isCurrent : Bool) (name : WorkspaceName)

namespace ListingRow

/-- The characters of a row. -/
def chars : ListingRow → List Char
  | .blank line => line.chars
  | .workspace true name => '*' :: ' ' :: name.chars
  | .workspace false name => ' ' :: ' ' :: name.chars

/-- The name in a row, if it is one of a workspace. -/
def name? : ListingRow → Option String
  | .blank _ => none
  | .workspace _ name => some name.text

end ListingRow

/-- How a line ends. -/
inductive LineEnd where
  | feed
  | returnFeed

/-- The characters of a line end. -/
def LineEnd.chars : LineEnd → List Char
  | .feed => ['\n']
  | .returnFeed => ['\r', '\n']

/-- A list of workspaces. Each of its lines has an end of its own, which only the last one may lack.
Any row may carry the star, so also one of them or none. -/
structure Listing where
  rows : List (ListingRow × LineEnd)
  last : Option ListingRow

namespace Listing

/-- The characters of a list. -/
def chars (listing : Listing) : List Char :=
  listing.rows.flatMap (fun row => row.1.chars ++ row.2.chars) ++
    (listing.last.map ListingRow.chars).getD []

/-- The list as a text. -/
def text (listing : Listing) : String := .ofList listing.chars

/-- The names that are printed, in order. -/
def names (listing : Listing) : List String :=
  listing.rows.filterMap (·.1.name?) ++ (listing.last.bind ListingRow.name?).toList

end Listing

/-- The name on a line, if there is one. -/
def nameOnLine? (line : List Char) : Option String :=
  if workspaceOnLine line = [] then none else some (.ofList (workspaceOnLine line))

theorem parseWorkspaces_ofList (chars : List Char) :
    parseWorkspaces (.ofList chars) = (lineChars chars).filterMap nameOnLine? := by
  unfold parseWorkspaces
  rw [String.toList_ofList]
  induction lineChars chars with
  | nil => rfl
  | cons line rest ih =>
    rw [List.filterMap_cons, ← ih]
    by_cases hname : workspaceOnLine line = [] <;> simp [nameOnLine?, hname]

/-- A carriage return at the end of a line is no part of a name. -/
theorem nameOnLine?_withoutReturn (line : List Char) :
    nameOnLine? (withoutReturn line) = nameOnLine? line := by
  unfold nameOnLine? workspaceOnLine
  rw [Text.trimChars_withoutReturn]

/-- The star keeps the space behind it from being trimmed. -/
theorem WorkspaceName.isTrimmed_star (name : WorkspaceName) : IsTrimmed ('*' :: ' ' :: name.chars) where
  head c hc := by
    obtain rfl := Option.some.inj hc
    decide
  last c hc := by
    have hlast : ('*' :: ' ' :: name.chars).getLast? = name.chars.getLast? :=
      List.getLast?_append_of_ne_nil ['*', ' '] name.ne_nil
    exact name.isTrimmed.last c (hlast ▸ hc)

/-- White space in front of a name is no part of it. -/
theorem WorkspaceName.trimChars_cons_space (name : WorkspaceName) :
    trimChars (' ' :: name.chars) = name.chars := by
  rw [Text.trimChars_cons_of_blank (by decide), name.isTrimmed.trimChars_eq]

/-- A name is read from its row, with or without the star. -/
theorem workspaceOnLine_workspace (isCurrent : Bool) (name : WorkspaceName) :
    workspaceOnLine (ListingRow.workspace isCurrent name).chars = name.chars := by
  unfold workspaceOnLine
  cases isCurrent with
  | true =>
    have hstar : ('*' :: ' ' :: name.chars).dropWhile (· = '*') = ' ' :: name.chars := by simp
    rw [ListingRow.chars, name.isTrimmed_star.trimChars_eq, hstar, name.trimChars_cons_space]
  | false =>
    rw [ListingRow.chars, Text.trimChars_cons_of_blank (by decide), name.trimChars_cons_space,
      dropWhile_star name.noStar, name.isTrimmed.trimChars_eq]

/-- No name is read from a blank line. -/
theorem workspaceOnLine_blank (line : BlankLine) : workspaceOnLine line.chars = [] := by
  rw [workspaceOnLine, Text.trimChars_eq_nil_iff.mpr line.isBlank]
  rfl

/-- Each row is read as the name that it has, if it has one. -/
theorem nameOnLine?_chars (row : ListingRow) : nameOnLine? row.chars = row.name? := by
  cases row with
  | blank line =>
    rw [ListingRow.chars, nameOnLine?, if_pos (workspaceOnLine_blank line)]
    rfl
  | workspace isCurrent name =>
    rw [nameOnLine?, workspaceOnLine_workspace, if_neg name.ne_nil]
    rfl

/-- A row is one line. -/
theorem ListingRow.noFeed (row : ListingRow) : '\n' ∉ row.chars := by
  cases row with
  | blank line => exact line.noFeed
  | workspace isCurrent name => cases isCurrent <;> simpa [chars] using name.noFeed

/-- A row is one line, and what follows its end is read as if the row were not there. -/
theorem exists_lineChars_row (row : ListingRow) (lineEnd : LineEnd) (rest : List Char) :
    ∃ line, lineChars (row.chars ++ lineEnd.chars ++ rest) = line :: lineChars rest ∧
      nameOnLine? line = row.name? := by
  cases lineEnd with
  | feed =>
    -- A blank row may end with a carriage return of its own, which is taken for a part of the line end.
    refine ⟨withoutReturn row.chars, ?_, ?_⟩
    · rw [List.append_assoc]
      exact Text.lineChars_append_feed_of_not_mem row.noFeed rest
    · rw [nameOnLine?_withoutReturn, nameOnLine?_chars]
  | returnFeed =>
    have hreturn : '\n' ∉ row.chars ++ ['\r'] := by simpa using row.noFeed
    have hsplit : row.chars ++ LineEnd.returnFeed.chars ++ rest =
        (row.chars ++ ['\r']) ++ '\n' :: rest := by simp [LineEnd.chars]
    refine ⟨row.chars, ?_, nameOnLine?_chars row⟩
    rw [hsplit, Text.lineChars_append_feed_of_not_mem hreturn, Text.withoutReturn_concat]

/-- The last row is read without a line end as well. -/
theorem filterMap_lineChars_last (last : Option ListingRow) :
    (lineChars ((last.map ListingRow.chars).getD [])).filterMap nameOnLine? =
      (last.bind ListingRow.name?).toList := by
  cases last with
  | none => rfl
  | some row =>
    have hname := nameOnLine?_chars row
    rw [Option.map_some, Option.getD_some, Option.bind_some, ← hname,
      Text.lineChars_of_not_mem row.noFeed]
    split
    · next hnothing =>
      rw [hnothing]
      rfl
    · cases hrow : nameOnLine? row.chars <;> simp [hrow]

/-- By induction over the rows. No name is lost, and a blank line adds none. -/
theorem parseWorkspaces_text (listing : Listing) : parseWorkspaces listing.text = listing.names := by
  obtain ⟨rows, last⟩ := listing
  unfold Listing.text Listing.chars Listing.names
  rw [parseWorkspaces_ofList]
  induction rows with
  | nil => exact filterMap_lineChars_last last
  | cons row rows ih =>
    obtain ⟨line, hlines, hname⟩ := exists_lineChars_row row.1 row.2
      (rows.flatMap (fun row => row.1.chars ++ row.2.chars) ++ (last.map ListingRow.chars).getD [])
    rw [List.flatMap_cons, List.append_assoc, hlines, List.filterMap_cons, List.filterMap_cons, hname, ih]
    cases row.1.name? <;> rfl

/-- A handler whose commands leave it to the list of workspaces to tell that there is no such
workspace. -/
def Handler.ReportsNoMissing {σ : Type} (handler : Handler σ) : Prop :=
  ∀ args state missing, (handler.command args state).1 ≠ .error (.workspaceNotFound missing)

/-- A scripted terraform never says of its own that a workspace is missing. -/
theorem Rehearsal.reportsNoMissing (workingDirectory : String) :
    (Rehearsal.handler workingDirectory).ReportsNoMissing := by
  intro args rehearsal missing hreported
  simp only [Rehearsal.handler, Script.run] at hreported
  split at hreported
  · cases hreported
  · cases hreported

/-- A terraform that is started never says by itself that a workspace is missing. -/
theorem Launcher.run_ne_workspaceNotFound (launcher : Launcher) (programs : Programs)
    (workingDirectory : String) (args : List String) (machine : Machine) (missing : String) :
    (launcher.run programs workingDirectory args machine).1 ≠ .error (.workspaceNotFound missing) := by
  intro hreported
  unfold run at hreported
  split at hreported
  · cases hreported
  · split at hreported
    · cases hreported
    · next ending _ _ =>
      have houtput : launcher.outputOf args ending = .error (.workspaceNotFound missing) := hreported
      unfold outputOf at houtput
      split at houtput
      · cases houtput
      · cases houtput

theorem reportsNoMissing_handler (programs : Programs) (globals : CommandLine.Globals) (approved : Bool) :
    (CommandLine.handler programs globals approved).ReportsNoMissing := by
  intro args session missing hreported
  have hrun := globals.launcher.run_ne_workspaceNotFound programs globals.writer.generatedPath args
    session.toMachine missing
  unfold CommandLine.handler at hreported
  dsimp only at hreported
  split at hreported
  · cases hreported
  · next error _ hresult =>
    rw [hresult] at hrun
    exact hrun hreported

namespace Lifecycle

open Procedure

/-- The list of workspaces is printed in this state, with success. -/
def Lists {σ : Type} (handler : Handler σ) (state : σ) (text : String) : Prop :=
  ∃ output, (handler.command listWorkspacesArgs state).1 = .ok output ∧ output.exitCode = 0 ∧
    output.stdout = text

/-- In a directory that is initialized, exactly the workspaces without one of these names are not
found. -/
def FindsOnly {σ : Type} (handler : Handler σ) (state : σ) (names : List String) : Prop :=
  ∀ directory workspace, ((destroyWorkspace directory true workspace).perform handler state).1 =
    .error (.workspaceNotFound workspace) ↔ workspace ∉ names

/-- How a list of workspaces is read, and what the destruction of a workspace makes of it. -/
structure ReadBack (listing : Listing) : Prop where
  names_eq : parseWorkspaces listing.text = listing.names
  /-- Whatever is done with the commands, a workspace is missed because it is not in the list,
  unless it is a command itself that fails with the same error. -/
  missing_iff : ∀ {σ : Type} {handler : Handler σ} {state : σ}, Lists handler state listing.text →
    ∀ directory workspace missing,
      ((destroyWorkspace directory true workspace).perform handler state).1 =
          .error (.workspaceNotFound missing) ↔
        (missing = workspace ∧ workspace ∉ listing.names) ∨
          ∃ args, .ran args (.error (.workspaceNotFound missing)) ∈
            (destroyWorkspace directory true workspace).events handler state
  /-- Terraform started as a program gives no such error. -/
  started : ∀ {programs : Programs} {globals : CommandLine.Globals} {approved : Bool}
    {session : CommandLine.Session},
    Lists (CommandLine.handler programs globals approved) session listing.text →
      FindsOnly (CommandLine.handler programs globals approved) session listing.names
  /-- Nor does a scripted one. -/
  scripted : ∀ {workingDirectory : String} {rehearsal : Rehearsal},
    Lists (Rehearsal.handler workingDirectory) rehearsal listing.text →
      FindsOnly (Rehearsal.handler workingDirectory) rehearsal listing.names

variable {directory workspace : String} {initialized : Bool} {events : List Event}
  {outcome : Except Error DestroyOutcome}

/-- Only a command that said so fails for a missing workspace. -/
theorem reported_of_fails {before : List Event} {args : List String}
    {result : Except Error CommandOutput} {missing : String}
    (hfails : result.bind CommandOutput.checked = .error (.workspaceNotFound missing)) :
    ∃ other, .ran other (.error (.workspaceNotFound missing)) ∈ before ++ [.ran args result] := by
  cases checked_eq_error_iff.mp hfails
  exact ⟨args, List.mem_append_right _ List.mem_cons_self⟩

/-- A command that cannot be run is the last thing a destruction does. -/
theorem Destruction.error_of_mem
    (hdestruction : Destruction directory initialized workspace events outcome) {args : List String}
    {error : Error} (hmem : .ran args (.error error) ∈ events) : outcome = .error error := by
  have hpassed := hdestruction.passed
  have hlast : events.getLast? = some (.ran args (.error error)) := by
    rcases List.eq_nil_or_concat' events with rfl | ⟨before, last, rfl⟩
    · cases hmem
    · rw [List.dropLast_concat] at hpassed
      rcases List.mem_append.mp hmem with hbefore | hend
      · exact absurd (.unrun error) (hpassed _ hbefore).not_failsWith
      · rw [List.getLast?_concat, List.mem_singleton.mp hend]
  exact (hdestruction.error_iff error).mpr (.failed hlast (.unrun error))

/-- Behind a list of workspaces, the requested one is not found or is in the list. If it is, only a
command gives such an error. -/
theorem Destruction.missing_cases {listing : CommandOutput}
    (hdestruction : Destruction directory initialized workspace events outcome)
    (hfirst : events.head? = some (.ran listWorkspacesArgs (.ok listing)))
    (hlisting : listing.exitCode = 0) :
    (workspace ∉ parseWorkspaces listing.stdout ∧ outcome = .error (.workspaceNotFound workspace)) ∨
      (workspace ∈ parseWorkspaces listing.stdout ∧
        ∀ missing, outcome = .error (.workspaceNotFound missing) →
          ∃ args, .ran args (.error (.workspaceNotFound missing)) ∈ events) := by
  cases hdestruction with
  | uninitialized _ => cases hfirst
  | listFails _ hfails =>
    cases hfirst
    rw [checked_eq_ok_iff.mpr ⟨rfl, hlisting⟩] at hfails
    cases hfails
  | unknown _ _ hunknown =>
    cases hfirst
    exact .inl ⟨hunknown, rfl⟩
  | selectFails _ _ hknown _ hfails | countFails _ _ hknown _ hfails =>
    cases hfirst
    refine .inr ⟨hknown, fun missing herror => ?_⟩
    cases herror
    exact reported_of_fails hfails
  | nothing hcounting =>
    obtain ⟨_, _, hknown, _, _, _⟩ := hcounting
    cases hfirst
    exact .inr ⟨hknown, nofun⟩
  | planFails hcounting _ hfails =>
    obtain ⟨_, _, hknown, _, _, _⟩ := hcounting
    cases hfirst
    refine .inr ⟨hknown, fun missing herror => ?_⟩
    cases herror
    exact reported_of_fails hfails
  | declined hcounting _ _ | phraseDeclined hcounting _ _ _ =>
    obtain ⟨_, _, hknown, _, _, _⟩ := hcounting
    cases hfirst
    exact .inr ⟨hknown, nofun⟩
  | destroys hcounting _ _ _ =>
    obtain ⟨_, _, hknown, _, _, _⟩ := hcounting
    cases hfirst
    exact .inr ⟨hknown, fun missing herror => reported_of_fails (checked_map_eq_error herror)⟩

section

variable {σ : Type} {handler : Handler σ} {state : σ} {text : String}

/-- A destruction fails for a missing workspace exactly if the requested one is not in the list, or
a command said so. -/
theorem destroyWorkspace_missing_iff (hlists : Lists handler state text)
    (directory workspace missing : String) :
    ((destroyWorkspace directory true workspace).perform handler state).1 =
        .error (.workspaceNotFound missing) ↔
      (missing = workspace ∧ workspace ∉ parseWorkspaces text) ∨
        ∃ args, .ran args (.error (.workspaceNotFound missing)) ∈
          (destroyWorkspace directory true workspace).events handler state := by
  obtain ⟨output, hcommand, hsuccess, rfl⟩ := hlists
  have hdestruction := destruction_events handler directory true workspace state
  have hfirst : ((destroyWorkspace directory true workspace).events handler state).head? =
      some (.ran listWorkspacesArgs (.ok output)) := by
    rw [← hcommand]
    rfl
  have hcases := hdestruction.missing_cases hfirst hsuccess
  constructor
  · intro herror
    rcases hcases with ⟨hunknown, houtcome⟩ | ⟨_, hreported⟩
    · rw [houtcome] at herror
      cases herror
      exact .inl ⟨rfl, hunknown⟩
    · exact .inr (hreported missing herror)
  · rintro (⟨rfl, hunknown⟩ | ⟨args, hmem⟩)
    · rcases hcases with ⟨_, houtcome⟩ | ⟨hknown, _⟩
      · exact houtcome
      · exact absurd hknown hunknown
    · exact hdestruction.error_of_mem hmem

/-- Where the commands do not say so, exactly the names in the list are found. -/
theorem findsOnly_of_lists (hlists : Lists handler state text) (hreports : handler.ReportsNoMissing) :
    FindsOnly handler state (parseWorkspaces text) := by
  intro directory workspace
  rw [destroyWorkspace_missing_iff hlists]
  constructor
  · rintro (⟨_, hunknown⟩ | ⟨args, hmem⟩)
    · exact hunknown
    · obtain ⟨moment, hreported⟩ := exists_state_of_mem_events hmem
      exact absurd hreported (hreports args moment workspace)
  · exact fun hunknown => .inl ⟨rfl, hunknown⟩

end

/-- Any list of workspaces is read back, and a workspace is missed exactly if its name was not
printed. -/
theorem listing_readBack (listing : Listing) : ReadBack listing where
  names_eq := parseWorkspaces_text listing
  missing_iff hlists := parseWorkspaces_text listing ▸ destroyWorkspace_missing_iff hlists
  started hlists := parseWorkspaces_text listing ▸ findsOnly_of_lists hlists (reportsNoMissing_handler _ _ _)
  scripted hlists := parseWorkspaces_text listing ▸ findsOnly_of_lists hlists (Rehearsal.reportsNoMissing _)

/-- A list with a blank line and both kinds of line ends. There is a space in the name of the
current workspace, and a star. -/
def spacedListing : Listing where
  rows := [
    (.workspace false ⟨['d', 'e', 'v'], by decide, by decide, by decide, by decide⟩, .returnFeed),
    (.blank .tab, .feed)]
  last := some (.workspace true ⟨['q', ' ', '*', '1'], by decide, by decide, by decide, by decide⟩)

/-- A scripted terraform that prints the list. -/
def spacedRehearsal : Rehearsal where
  script := { responses := [("workspace list", .success spacedListing.text)] }

/-- The name is not cut at its space and keeps its star, and a part of it is no name. -/
theorem spacedRehearsal_readBack :
    let handler := Rehearsal.handler "generated"
    Lists handler spacedRehearsal spacedListing.text ∧
      parseWorkspaces spacedListing.text = ["dev", "q *1"] ∧
      ((destroyWorkspace "generated" true "q").perform handler spacedRehearsal).1 =
        .error (.workspaceNotFound "q") := by
  intro handler
  have hback := listing_readBack spacedListing
  have hlists : Lists handler spacedRehearsal spacedListing.text := ⟨_, rfl, rfl, rfl⟩
  have hnames : spacedListing.names = ["dev", "q *1"] := rfl
  refine ⟨hlists, hback.names_eq.trans hnames, ?_⟩
  apply (hback.scripted hlists "generated" "q").mpr
  rw [hnames]
  decide

end Lifecycle
end TerraStack.Terraform
