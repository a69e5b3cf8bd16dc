import TerraStack.Shell.Utility.Options

namespace TerraStack.Shell

/-- How command lines are made. -/
structure ArgumentsRequest where
  /-- How many arguments one command line gets at most. -/
  limit : Option Nat := none
  /-- What stands for a line that is read. -/
  placeholder : Option Octets := none
  /-- The byte at which the input is cut, instead of at blanks. -/
  separator : Option Char := none
  /-- Whether nothing is run for an empty input. -/
  isIdleIfEmpty : Bool := false
  command : List Octets := []

namespace ArgumentsRequest

/-- The request that arguments make. -/
def read : List Octets → ArgumentsRequest → ArgumentsRequest
  | ['-', 'n'] :: limit :: rest, request => read rest { request with limit := natOf? limit }
  | ['-', 'L'] :: limit :: rest, request => read rest { request with limit := natOf? limit }
  | ['-', 'I'] :: text :: rest, request => read rest { request with placeholder := some text }
  | ['-', 'd'] :: text :: rest, request =>
    read rest { request with separator := some (if text = ['\\', 'n'] then '\n' else text.headD ' ') }
  | ['-', 'r'] :: rest, request => read rest { request with isIdleIfEmpty := true }
  | ['-', '0'] :: rest, request => read rest { request with separator := some '\x00' }
  | ['-', '-'] :: rest, request => { request with command := rest }
  | ('-' :: 'n' :: limit) :: rest, request => read rest { request with limit := natOf? limit }
  | ('-' :: 'L' :: limit) :: rest, request => read rest { request with limit := natOf? limit }
  | ('-' :: 'I' :: text) :: rest, request => read rest { request with placeholder := some text }
  | command, request => { request with command }

/-- Cut a text at blanks that are not quoted. -/
def cutAtBlanks : Nat → Octets → Option Octets → List Octets
  | 0, _, word => word.toList
  | _, [], word => word.toList
  | fuel + 1, c :: rest, word =>
    if isBlank c then word.toList ++ cutAtBlanks fuel rest none
    else if c = '\'' || c = '"' then
      let inner := rest.takeWhile (· ≠ c)
      cutAtBlanks fuel (rest.drop (inner.length + 1)) (some (word.getD [] ++ inner))
    else if c = '\\' then cutAtBlanks fuel (rest.drop 1) (some (word.getD [] ++ rest.take 1))
    else cutAtBlanks fuel rest (some (word.getD [] ++ [c]))

/-- The arguments that an input holds. -/
def cut (request : ArgumentsRequest) (input : Octets) : List Octets :=
  match request.separator with
  | some separator =>
    let parts := splitAt separator input
    if parts.getLast? = some [] then parts.dropLast else parts
  | none =>
    if request.placeholder.isSome then
      ((octetLines input).map fun line => line.dropWhile isBlank).filter (· ≠ [])
    else cutAtBlanks (input.length + 1) input none

/-- Cut a list into parts of a length. -/
def chunks (limit : Nat) : Nat → List Octets → List (List Octets)
  | 0, _ => []
  | _, [] => []
  | fuel + 1, inputs => inputs.take limit :: chunks limit fuel (inputs.drop limit)

/-- A text with another in place of each part that is a third. -/
def substitute (old new : Octets) : Nat → Octets → Octets
  | 0, text => text
  | _, [] => []
  | fuel + 1, c :: rest =>
    if !old.isEmpty && old.isPrefixOf (c :: rest) then
      new ++ substitute old new fuel ((c :: rest).drop old.length)
    else c :: substitute old new fuel rest

/-- The command lines that arguments make, as `xargs` makes them of its own arguments and of what it
reads. -/
def batches (request : ArgumentsRequest) (inputs : List Octets) : List (List Octets) :=
  let command := if request.command.isEmpty then ["echo".toList] else request.command
  match request.placeholder with
  | some old => inputs.map fun input =>
    command.map fun word => substitute old input (word.length + 1) word
  | none =>
    if inputs.isEmpty then if request.isIdleIfEmpty then [] else [command]
    else
      let limit := max 1 (request.limit.getD inputs.length)
      (chunks limit inputs.length inputs).map (command ++ ·)

end ArgumentsRequest
end TerraStack.Shell
