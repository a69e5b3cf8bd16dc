import TerraStack.Yaml.Character

namespace TerraStack.Yaml

/-- White space met since the last word, backwards. Spaces between two words of a line are kept. A
line end between two words becomes a space, and of several line ends all but the first are kept. The
Unicode separators are kept in any case. -/
inductive Gap where
  | nothing
  | spaces (met : List Char)
  /-- The first line end, unless it is escaped, and the line ends after it. -/
  | breaks (first : Option Char) (more : List Char)

namespace Gap

/-- Add a space or a tab. After a line end these are indentation. -/
def addSpace (c : Char) : Gap → Gap
  | .nothing => .spaces [c]
  | .spaces met => .spaces (c :: met)
  | .breaks first more => .breaks first more

/-- Add a line end. Spaces before it are dropped. -/
def addBreak (c : Char) : Gap → Gap
  | .breaks first more => .breaks first (c :: more)
  | _ => .breaks (some c) []

/-- Whether a line ended in the gap. -/
def hasBreak : Gap → Bool
  | .breaks _ _ => true
  | _ => false

def isNothing : Gap → Bool
  | .nothing => true
  | _ => false

/-- What the gap leaves between two words, put on top of the text read so far, backwards. -/
def joinTo (done : List Char) : Gap → List Char
  | .nothing => done
  | .spaces met => met ++ done
  | .breaks (some '\n') [] => ' ' :: done
  | .breaks (some '\n') more => more ++ done
  | .breaks (some first) more => more ++ first :: done
  | .breaks none more => more ++ done

end Gap
end TerraStack.Yaml
