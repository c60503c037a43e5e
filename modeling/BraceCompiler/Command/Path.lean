/-! Paths as walks from folder to folder. -/

namespace BraceCompiler.Command

/-- One part of a path. -/
inductive Hop where
  | stay
  | up
  | into (name : String)
  deriving DecidableEq, Repr

def Hop.ofName (name : String) : Hop :=
  if name = "." then .stay else if name = ".." then .up else .into name

/-- The longest name that a folder can hold, in bytes. -/
def longestName : Nat := 255

/-- The longest path that can be asked for, in bytes. -/
def longestPath : Nat := 4095

namespace Path

/-- The parts of a path; slashes that follow each other divide as one. -/
def hops (path : String) : List Hop :=
  ((path.toList.splitOn '/').filter (· ≠ [])).map fun name => Hop.ofName (String.ofList name)

/-- The walk starts above all folders, not where the command runs. -/
def isAbsolute (path : String) : Bool := path.toList.head? == some '/'

/-- The path ends in a slash, so that its last name has to be a folder. -/
def wantsFolder (path : String) : Bool := path.toList.getLast? == some '/'

end Path

end BraceCompiler.Command
