/-!
# Paths

A path is a text with slashes between its components. Repeated slashes, a slash
at the end and the component `.` after the first name nothing, so two texts may
have the same components.
-/

namespace Highlight.Files.Path

inductive Component where
  | root
  | current
  | parent
  | normal (name : String)
  deriving DecidableEq, Repr

/-- The component that a piece between slashes stands for, if any. -/
def Component.ofPiece? : List Char → Option Component
  | [] | ['.'] => none
  | ['.', '.'] => some .parent
  | name => some (.normal (String.ofList name))

/-- What a path starts with apart from its pieces. -/
def start : List Char → List Component
  | '/' :: _ => [.root]
  | ['.'] | '.' :: '/' :: _ => [.current]
  | _ => []

def components (path : String) : List Component :=
  start path.toList ++ (path.toList.splitOn '/').filterMap Component.ofPiece?

/-- The last component, if it is a name. -/
def fileName? (path : String) : Option String :=
  match (components path).getLast? with
  | some (.normal name) => some name
  | _ => none

/-- What follows the last dot of a file name. A dot at the start ends no stem. -/
def extension? (name : String) : Option String :=
  let after := name.toList.reverse.takeWhile (· != '.')
  match name.toList.reverse.drop after.length with
  | [] | [_] => none
  | _ => some (String.ofList after.reverse)

/-- The path of the entry `name` of the directory `dir`. -/
def join (dir name : String) : String :=
  if dir.isEmpty || dir.toList.getLast? = some '/' then dir ++ name else dir ++ "/" ++ name

def Component.rank : Component → Nat
  | .root => 0
  | .current => 1
  | .parent => 2
  | .normal _ => 3

def Component.text : Component → String
  | .normal name => name
  | _ => ""

/-- Special components come before names, and names are in the order of their
characters, which is that of their bytes. -/
def Component.before (a b : Component) : Bool :=
  a.rank < b.rank || (a.rank == b.rank && a.text < b.text)

/-- The order of paths goes by components, so a directory comes with all it
holds before its neighbours: `a/z` is before `a-b`. -/
def listLe : List Component → List Component → Bool
  | [], _ => true
  | _ :: _, [] => false
  | a :: as, b :: bs => a.before b || (a == b && listLe as bs)

def le (p q : String) : Bool :=
  listLe (components p) (components q)

end Highlight.Files.Path
