import BraceCompiler.Node.Basic
import BraceCompiler.Table

/-! The names that may be assigned to, each with its declared type if it has one. There is one level
of names: a function replaces all of them by its parameters, and they stay when the function ends.
-/

namespace BraceCompiler

abbrev Bindings := Table (Option String)

namespace Bindings

def bind (bindings : Bindings) (name : String) (type : Option String) : Bindings :=
  bindings.insert name type

/-- The bindings of a function's parameters; of two with one name the later counts. -/
def ofParameters (parameters : List Parameter) : Bindings :=
  parameters.foldl (fun bindings parameter => bindings.bind parameter.name parameter.type) .empty

end Bindings

end BraceCompiler
