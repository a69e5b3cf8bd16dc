namespace TerraStack.Path

/-- The parts of a path between its slashes, of which there is at least one. -/
def splitSlashes : List Char → List (List Char)
  | [] => [[]]
  | c :: rest =>
    if c = '/' then [] :: splitSlashes rest
    else match splitSlashes rest with
      | [] => [[c]]
      | part :: parts => (c :: part) :: parts

/-- The parts of a path between its slashes. -/
def parts (path : String) : List String :=
  (splitSlashes path.toList).map String.ofList

/-- Even the empty path has one part. -/
theorem splitSlashes_ne_nil (cs : List Char) : splitSlashes cs ≠ [] := by
  cases cs with
  | nil => exact List.cons_ne_nil _ _
  | cons c rest =>
    unfold splitSlashes
    split
    · exact List.cons_ne_nil _ _
    · split <;> exact List.cons_ne_nil _ _

/-- A slash ends one part and begins the next. -/
theorem splitSlashes_append (before after : List Char) :
    splitSlashes (before ++ '/' :: after) = splitSlashes before ++ splitSlashes after := by
  induction before with
  | nil => rfl
  | cons c rest ih =>
    by_cases hslash : c = '/'
    · simp [splitSlashes, hslash, ih]
    · cases hparts : splitSlashes rest with
      | nil => exact absurd hparts (splitSlashes_ne_nil rest)
      | cons part parts => simp [splitSlashes, hslash, ih, hparts]

/-- A text without a slash is one part. -/
theorem splitSlashes_of_not_mem {cs : List Char} (hslash : '/' ∉ cs) : splitSlashes cs = [cs] := by
  induction cs with
  | nil => rfl
  | cons c rest ih =>
    rw [List.mem_cons, not_or] at hslash
    simp [splitSlashes, Ne.symm hslash.1, ih hslash.2]

/-- Whether a path starts at the root. -/
def isAbsolute (path : String) : Bool :=
  path.toList.head? = some '/'

/-- The path of a name in a directory. The slash between them is written once, and not after the
empty path. -/
def join (directory name : String) : String :=
  if isAbsolute name then name
  else if directory = "" || directory.toList.getLast? = some '/' then directory ++ name
  else directory ++ "/" ++ name

/-- A name without a slash is one part. -/
theorem parts_of_not_mem {name : String} (hslash : '/' ∉ name.toList) : parts name = [name] := by
  simp [parts, splitSlashes_of_not_mem hslash]

/-- A name without a slash is no absolute path. -/
theorem isAbsolute_of_not_mem {name : String} (hslash : '/' ∉ name.toList) :
    isAbsolute name = false := by
  refine decide_eq_false fun hhead => hslash ?_
  exact List.mem_of_mem_head? hhead

section relative

variable {directory path : String} (hrelative : isAbsolute path = false)
include hrelative

/-- In the empty directory a path stays as it is. -/
theorem join_of_empty : join "" path = path := by
  simp [join, hrelative]

/-- A slash at the end of the directory is the one that stands in between. -/
theorem join_of_ends (hends : directory.toList.getLast? = some '/') :
    join directory path = directory ++ path := by
  simp [join, hrelative, hends]

/-- Without a slash at the end of the directory, one is written in between. -/
theorem join_of_not_ends (hsome : directory ≠ "") (hends : directory.toList.getLast? ≠ some '/') :
    join directory path = directory ++ "/" ++ path := by
  simp [join, hrelative, hsome, hends]

/-- The parts of a path come behind those of the directory. They take the place of the empty part
with which the path of the directory ends, if that is how it ends. -/
theorem parts_join : parts (join directory path) = parts directory ++ parts path ∨
    ∃ before, parts directory = before ++ [""] ∧ parts (join directory path) = before ++ parts path := by
  by_cases hsome : directory = ""
  · subst hsome
    exact .inr ⟨[], rfl, by rw [join_of_empty hrelative, List.nil_append]⟩
  · by_cases hends : directory.toList.getLast? = some '/'
    · obtain ⟨before, hbefore⟩ := List.getLast?_eq_some_iff.mp hends
      refine .inr ⟨(splitSlashes before).map String.ofList, ?_, ?_⟩
      · simp [parts, hbefore, splitSlashes_append, splitSlashes]
      · simp [parts, join_of_ends hrelative hends, hbefore, splitSlashes_append]
    · refine .inl ?_
      simp [parts, join_of_not_ends hrelative hsome hends, splitSlashes_append]

/-- A path in a directory starts where the directory starts. -/
theorem isAbsolute_join : isAbsolute (join directory path) = isAbsolute directory := by
  by_cases hsome : directory = ""
  · rw [hsome, join_of_empty hrelative, hrelative]
    rfl
  · have hhead (more : List Char) : (directory.toList ++ more).head? = directory.toList.head? := by
      cases hchars : directory.toList with
      | nil => exact absurd (String.toList_eq_nil_iff.mp hchars) hsome
      | cons c rest => rfl
    by_cases hends : directory.toList.getLast? = some '/'
    · simp [isAbsolute, join_of_ends hrelative hends, hhead]
    · simp only [isAbsolute, join_of_not_ends hrelative hsome hends, String.toList_append,
        List.append_assoc, hhead]

/-- A path in a directory is not empty if it is not by itself. -/
theorem join_ne_empty (hpath : path ≠ "") : join directory path ≠ "" := by
  by_cases hsome : directory = ""
  · rwa [hsome, join_of_empty hrelative]
  · by_cases hends : directory.toList.getLast? = some '/'
    · simp [join_of_ends hrelative hends, hsome]
    · simp [join_of_not_ends hrelative hsome hends, hsome]

end relative

/-- A name is the last part of a path. -/
theorem parts_join_name {directory name : String} (hslash : '/' ∉ name.toList) :
    parts (join directory name) = parts directory ++ [name] ∨
      ∃ before, parts directory = before ++ [""] ∧ parts (join directory name) = before ++ [name] := by
  have hjoin := @parts_join directory name (isAbsolute_of_not_mem hslash)
  rwa [parts_of_not_mem hslash] at hjoin

end TerraStack.Path
