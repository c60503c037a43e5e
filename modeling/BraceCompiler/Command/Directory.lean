import BraceCompiler.Command.Path
import BraceCompiler.Command.Run
import BraceCompiler.Table

/-! Runs in a directory that is a value. Of what is around the directory only this is known: there
are folders, and none of them holds a file. -/

namespace BraceCompiler.Command

inductive Entry where
  | folder
  | file (content : ByteArray)

/-- The entries of a directory by their paths below it. -/
abbrev Directory := Table Entry

/-- A folder that a walk has come to. -/
inductive Place where
  | inside (names : List String)
  | outside
  deriving DecidableEq, Repr

namespace Place

/-- The folder that holds this one. -/
def parent : Place → Place
  | .inside [] | .outside => .outside
  | .inside (name :: rest) => .inside (name :: rest).dropLast

/-- A folder in this one. -/
def child (name : String) : Place → Place
  | .inside names => .inside (names ++ [name])
  | .outside => .outside

/-- What the directory calls an entry of this folder. -/
def address? (name : String) : Place → Option String
  | .inside names => some ("/".intercalate (names ++ [name]))
  | .outside => none

/-- Where the walk along a path starts. -/
def start (path : String) : Place := if Path.isAbsolute path then .outside else .inside []

end Place

namespace Directory

/-- What a folder holds under a name. -/
def lookUp (directory : Directory) (place : Place) (name : String) :
    Except FileProblem (Option Entry) :=
  if longestName < name.utf8ByteSize then .error .nameTooLong
  else .ok ((place.address? name).bind directory.get?)

/-- The folder that one part of a path leads to. -/
def follow (directory : Directory) (place : Place) : Hop → Except FileProblem Place
  | .stay => .ok place
  | .up => .ok place.parent
  | .into name => do
    match ← directory.lookUp place name with
    | some .folder => .ok (place.child name)
    | some (.file _) => .error .throughFile
    | none => .error .notFound

/-- The folder before the last part of a path, and the name in it; no name if the path is that of a
folder, whatever the directory holds. -/
def resolve (directory : Directory) (path : String) :
    Except FileProblem (Place × Option String) := do
  if longestPath < path.utf8ByteSize then .error .nameTooLong
  else
    let hops := Path.hops path
    let place ← hops.dropLast.foldlM directory.follow (Place.start path)
    match hops.getLast? with
    | some (.into name) => .ok (place, some name)
    | _ => .ok (place, none)

/-- The text of a file. -/
def read (directory : Directory) (path : String) : Except FileProblem String := do
  match ← directory.resolve path with
  | (_, none) => .error .isFolder
  | (place, some name) =>
    match ← directory.lookUp place name with
    | none => .error .notFound
    | some .folder => .error .isFolder
    | some (.file content) =>
      if Path.wantsFolder path then .error .throughFile
      else match String.fromUTF8? content with
        | some text => .ok text
        | none => .error .notText

/-- The directory with a file made or replaced. A path that wants a folder is refused before the
folder is searched for the name. -/
def write (directory : Directory) (path text : String) : Except FileProblem Directory := do
  match ← directory.resolve path with
  | (_, none) => .error .isFolder
  | (place, some name) =>
    if Path.wantsFolder path then .error .isFolder
    else match ← directory.lookUp place name with
      | some .folder => .error .isFolder
      | _ =>
        match place.address? name with
        | some address => .ok (directory.insert address (.file text.toUTF8))
        | none => .ok directory

end Directory

/-- A directory, and what has been printed. -/
structure Session where
  directory : Directory
  output : String
  messages : String

def Session.host : Host (StateM Session) where
  read path := do return (← get).directory.read path
  write path text := do
    match (← get).directory.write path text with
    | .ok directory =>
      modify ({ · with directory })
      return .ok ()
    | .error problem => return .error problem
  print text := modify fun session => { session with output := session.output ++ text }
  complain text := modify fun session => { session with messages := session.messages ++ text }

/-- The exit code of a run, and the session after it. -/
def Directory.run (directory : Directory) (arguments : List String) : Nat × Session :=
  (Session.host.run arguments).run ⟨directory, "", ""⟩

end BraceCompiler.Command
