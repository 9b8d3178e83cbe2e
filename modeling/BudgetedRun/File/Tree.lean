import BudgetedRun.File.Error
import BudgetedRun.File.Node
import BudgetedRun.File.Path

/-!
# File trees

A tree of files and directories, and what the operations of a file system do to it. A path is walked
from a working directory, or from the root, one name after another; every name but the last must be
that of a directory. There are no links. Nothing new comes into a directory that is not there, which
the working directory need not be.
-/

namespace BudgetedRun

/-- Where a path leads: a directory, and a name in it unless the path is that of the directory
itself. -/
structure Place where
  directory : List String
  name : Option String
  /-- The path ends with a slash, so it can be that of a directory only. -/
  slash : Bool

/-- A tree with the directory from which paths are walked. -/
structure Disk where
  tree : Tree
  current : List String

namespace Disk

/-- What the tree consists of. -/
def root (d : Disk) : Node := d.tree.node

/-- The longest name of a file, in bytes. -/
def maxNameSize : Nat := 255

/-- The longest path, in bytes. -/
def maxPathSize : Nat := 4095

/-- What keeps a path from being walked at all. -/
def pathFault? (path : String) : Option FileError :=
  if '\x00' ∈ path.toList then some .badPath
  else if path.utf8ByteSize > maxPathSize then some .nameTooLong
  else none

/-- Walk through names from a directory up to the last one. -/
def walk (d : Disk) (slash : Bool) (here : List String) : List String → Except FileError Place
  | [] => .ok ⟨here, none, slash⟩
  | name :: rest =>
    if name = "." then walk d slash here rest
    else if name = ".." then walk d slash here.dropLast rest
    else if name.utf8ByteSize > maxNameSize then .error .nameTooLong
    else if rest = [] then .ok ⟨here, some name, slash⟩
    else
      match d.root.get? (here ++ [name]) with
      | none => .error .notFound
      | some (.file _) => .error .notADirectory
      | some (.directory _) => walk d slash (here ++ [name]) rest

/-- The names that a path consists of. -/
def names (path : String) : List String :=
  ((Path.pieces path.toList).filter (· ≠ [])).map String.ofList

/-- The directory from which a path is walked. -/
def origin (d : Disk) (path : String) : List String :=
  if Path.isRooted path then [] else d.current

/-- Where a path leads. -/
def locate (d : Disk) (path : String) : Except FileError Place :=
  if path = "" then .error .notFound
  else
    match pathFault? path with
    | some e => .error e
    | none => walk d (path.toList.getLast? == some '/') (d.origin path) (names path)

/-- There is a directory under some names. -/
def hasDirectory (d : Disk) (path : List String) : Bool := (d.root.get? path).any Node.isDirectory

/-- What is at a place. -/
def at? (d : Disk) (p : Place) : Option Node := d.root.get? (p.directory ++ p.name.toList)

/-- What is at a path. -/
def find (d : Disk) (path : String) : Except FileError Node :=
  match d.locate path with
  | .error e => .error e
  | .ok p =>
    match d.at? p with
    | none => .error .notFound
    | some (.file content) => if p.slash then .error .notADirectory else .ok (.file content)
    | some (.directory entries) => .ok (.directory entries)

/-- There is something at a path. -/
def isPresent (d : Disk) (path : String) : Bool :=
  match d.find path with
  | .ok _ => true
  | .error _ => false

/-- What the file at a path holds. -/
def read (d : Disk) (path : String) : Except FileError ByteArray :=
  match d.find path with
  | .ok (.file content) => .ok content
  | .ok (.directory _) => .error .isADirectory
  | .error e => .error e

/-- The names in the directory at a path. -/
def list (d : Disk) (path : String) : Except FileError (List String) :=
  match d.find path with
  | .ok (.directory entries) => .ok (entries.map (·.1))
  | .ok (.file _) => .error .notADirectory
  | .error e => .error e

/-- The disk with a tree under a name in a directory. -/
def put (d : Disk) (directory : List String) (name : String) (t : Tree) : Disk :=
  { d with tree := d.tree.put directory name t }

/-- The disk without a name in a directory. -/
def drop (d : Disk) (directory : List String) (name : String) : Disk :=
  { d with tree := d.tree.drop directory name }

/-- What the tree consists of once something was put into it. -/
@[simp] theorem root_put (d : Disk) (directory : List String) (name : String) (t : Tree) :
    (d.put directory name t).root = d.root.modify (Node.put name t.node) directory := rfl

/-- Write a file, in place of the one that is there. -/
def write (d : Disk) (path : String) (content : ByteArray) : Except FileError Disk :=
  match d.locate path with
  | .error e => .error e
  | .ok ⟨_, none, _⟩ => .error .isADirectory
  | .ok ⟨directory, some name, slash⟩ =>
    match d.root.get? (directory ++ [name]) with
    | some (.directory _) => .error .isADirectory
    | some (.file _) =>
      if slash then .error .notADirectory else .ok (d.put directory name (.file content))
    | none =>
      if !d.hasDirectory directory then .error .notFound
      else if slash then .error .isADirectory
      else .ok (d.put directory name (.file content))

/-- Move a file to a place where there is nothing, or a file. -/
def rename (d : Disk) (source target : String) : Except FileError Disk :=
  match d.locate source with
  | .error e => .error e
  | .ok ⟨_, none, _⟩ => .error .busy
  | .ok ⟨directory, some name, _⟩ =>
    match d.locate target with
    | .error e => .error e
    | .ok ⟨_, none, _⟩ => .error .busy
    | .ok ⟨targetDirectory, some targetName, slash⟩ =>
      match d.tree.get? (directory ++ [name]) with
      | none => .error .notFound
      | some t =>
        if !d.hasDirectory targetDirectory then .error .notFound
        else if slash && !t.node.isDirectory then .error .notADirectory
        else
          match d.root.get? (targetDirectory ++ [targetName]) with
          | some (.directory _) => .error .isADirectory
          | _ => .ok ((d.drop directory name).put targetDirectory targetName t)

/-- Take the file at a path away. -/
def remove (d : Disk) (path : String) : Except FileError Disk :=
  match d.locate path with
  | .error e => .error e
  | .ok ⟨_, none, _⟩ => .error .isADirectory
  | .ok ⟨directory, some name, slash⟩ =>
    match d.root.get? (directory ++ [name]) with
    | none => .error .notFound
    | some (.directory _) => .error .isADirectory
    | some (.file _) => if slash then .error .notADirectory else .ok (d.drop directory name)

/-- Walk through names from a directory and make the directories that are missing. Those made stay
if a later name fails. `missed` tells that one was missing before. -/
def makeWalk (missed : Bool) (here : List String) :
    List String → Disk → Except FileError Unit × Disk
  | [], d => (.ok (), d)
  | name :: rest, d =>
    if name = "." then makeWalk missed here rest d
    else if name = ".." then makeWalk missed here.dropLast rest d
    else if name.utf8ByteSize > maxNameSize then (.error .nameTooLong, d)
    else
      match d.root.get? (here ++ [name]) with
      | none =>
        if d.hasDirectory here then
          makeWalk true (here ++ [name]) rest (d.put here name (.directory []))
        else (.error .notFound, d)
      | some (.directory _) => makeWalk missed (here ++ [name]) rest d
      | some (.file _) =>
        (.error (if rest = [] ∨ missed = true then .alreadyExists else .notADirectory), d)

/-- Make a directory and those above it, as far as they are missing. -/
def makeDirectories (d : Disk) (path : String) : Except FileError Unit × Disk :=
  match pathFault? path with
  | some e => (.error e, d)
  | none => makeWalk false (d.origin path) (names path) d

end Disk

end BudgetedRun
