/-! The reserved words of the language. -/

namespace BraceCompiler.Words

def keywords : List String := [
  "xec", "function", "entry", "output", "runtime", "pipeline", "thread", "layer", "modify", "print",
  "if", "else", "elif", "switch", "case", "return", "while", "for", "break", "continue", "in", "def",
  "class", "struct", "inherit", "and", "or", "not", "default", "loop", "end"]

def dataTypes : List String := [
  "int", "float", "bool", "string", "byte", "stream", "packet", "void", "array", "map", "tuple",
  "object"]

def booleans : List String := ["true", "false"]

/-- The keyword that may also stand before the name of a variable. -/
def declarator : String := "xec"

def isKeyword (word : String) : Bool := keywords.contains word

def isDataType (word : String) : Bool := dataTypes.contains word

end BraceCompiler.Words
