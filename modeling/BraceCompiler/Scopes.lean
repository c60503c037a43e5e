import BraceCompiler.Notice
import BraceCompiler.Table

/-! A register of the variables declared in each function. Leaving a function goes back to the
global scope, whatever was current before; entering a function again forgets what was declared in
it. -/

namespace BraceCompiler

structure Scopes where
  known : Table Names
  current : String

namespace Scopes

def globalScope : String := "global"

def initial : Scopes := ⟨Table.empty.insert globalScope .empty, globalScope⟩

/-- The calls that change the register. -/
inductive Event where
  | enter (function : String)
  | leave
  | declare (name : String)
  deriving DecidableEq, Repr

def namesIn (scopes : Scopes) (scope : String) : Names := (scopes.known.get? scope).getD .empty

/-- The register after a call, and the one note that the call gives. -/
def apply (scopes : Scopes) : Event → Scopes × Notice
  | .enter function => (⟨scopes.known.insert function .empty, function⟩, .scopeEntered function)
  | .leave => ({ scopes with current := globalScope }, .scopeLeft scopes.current)
  | .declare name =>
    let names := (scopes.namesIn scopes.current).add name
    ({ scopes with known := scopes.known.insert scopes.current names },
      .variableDeclared name scopes.current)

def isDeclared (scopes : Scopes) (scope name : String) : Bool := (scopes.namesIn scope).contains name

/-- The variables of a scope, in ascending order. -/
def declared (scopes : Scopes) (scope : String) : List String := (scopes.namesIn scope).names

end Scopes

end BraceCompiler
