/-!
# Paths

A path is a text. Its components are what lies between its slashes, where repeated slashes count
once and a `.` counts at the very front only; the text itself is kept as it was given, because error
messages show it. Joining, the parent and a change of extension work on the text.
-/

namespace BudgetedRun

namespace Path

/-- One component of a path. -/
inductive Component where
  /-- The leading slash. -/
  | root
  /-- A leading `.`. -/
  | current
  /-- A `..`. -/
  | parent
  | name (s : String)
deriving DecidableEq, Repr

/-- The texts between the slashes of a path, empty ones included. -/
def pieces : List Char → List (List Char)
  | [] => [[]]
  | c :: rest =>
    if c = '/' then [] :: pieces rest
    else
      match pieces rest with
      | [] => [[c]]
      | p :: ps => (c :: p) :: ps

/-- The path starts at the root. -/
def isRooted (path : String) : Bool := path.toList.head? == some '/'

/-- The component that a piece is, if it counts. -/
def component? (atFront : Bool) (piece : List Char) : Option Component :=
  if piece = [] then none
  else if piece = ['.'] then (if atFront then some .current else none)
  else if piece = ['.', '.'] then some .parent
  else some (.name (String.ofList piece))

def components (path : String) : List Component :=
  let front := if isRooted path then [Component.root] else []
  match pieces path.toList with
  | [] => front
  | p :: ps => front ++ (component? true p).toList ++ ps.filterMap (component? false)

/-- A path under another one. A path that starts at the root stays as it is. -/
def join (base path : String) : String :=
  if isRooted path then path
  else if base = "" then path
  else if base.toList.getLast? = some '/' then base ++ path
  else base ++ "/" ++ path

/-- The pieces with a slash between any two. -/
def glue : List (List Char) → List Char
  | [] => []
  | [p] => p
  | p :: ps => p ++ '/' :: glue ps

/-- The pieces up to the last one that is a component, from the last one back. Whether the first of
the pieces is at the front of the path decides if a `.` there counts. -/
def dropTail : List (List Char) → List (List Char)
  | [] => []
  | [p] => if (component? true p).isSome then [p] else []
  | p :: ps => if (component? false p).isSome then p :: ps else dropTail ps

/-- The last component of a path. -/
def last? (path : String) : Option Component := (components path).getLast?

/-- The path without its last component. The root and the empty path have no parent. -/
def parent? (path : String) : Option String :=
  match dropTail (pieces path.toList).reverse with
  | [] => none
  | _ :: front =>
    match dropTail front with
    | [] => some (if isRooted path then "/" else "")
    | kept => some (String.ofList (glue kept.reverse))

/-- The last component of a path, if it is a name. -/
def fileName? (path : String) : Option String :=
  match last? path with
  | some (.name s) => some s
  | _ => none

/-- A name up to its last dot; a dot in front of all does not count. -/
def stem (name : List Char) : List Char :=
  match name.reverse.dropWhile (· ≠ '.') with
  | [] => name
  | [_] => name
  | _ :: before => before.reverse

/-- The path with another extension in place of what follows the last dot of its name. A path that
does not end in a name stays as it is. The old extension goes first: where that leaves `..` at the
very end, no name is left and no extension is added. -/
def withExtension (path extension : String) : String :=
  let all := pieces path.toList
  match fileName? path, dropTail all.reverse with
  | some _, name :: front =>
    if stem name = ['.'] ∧ all.getLast? = some name then
      String.ofList (glue (['.', '.'] :: front).reverse)
    else String.ofList (glue (stem name :: front).reverse ++ '.' :: extension.toList)
  | _, _ => path

end Path

end BudgetedRun
