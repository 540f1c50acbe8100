import BindingSuite.Path
import BindingSuite.Text.Quoted

/-! # File trees

What stands where in the files of a system, and how far a path gets there.

* `Obstacle` is what can be in the way of a path, with its message;
* `FileTree` says what stands at each place: directories, links to them, and files with a content of
  any kind;
* `FileTree.find` follows a path to what it leads to;
* `FileTree.makeDirectories` makes a directory with all above it, and `FileTree.checkWritable` sees
  that a file can be written. -/

namespace BindingSuite

/-! ## Obstacles -/

/-- What can be in the way of a path. -/
inductive Obstacle where
  /-- The system does not permit it at this place. -/
  | notPermitted
  /-- There is no such file. -/
  | missing
  /-- It is nothing that can be started. -/
  | denied
  /-- Something stands there already. -/
  | occupied
  /-- The path goes on behind a file. -/
  | notADirectory
  /-- It is a directory, where a file is asked for. -/
  | isADirectory
  /-- The path, or a component of it, is too long. -/
  | nameTooLong
  /-- The path holds the null character. -/
  | nullCharacter
  deriving DecidableEq

/-- What the system says of a failure with a path. -/
def systemMessage (number : Nat) (complaint path : String) : String :=
  "[Errno " ++ number.repr ++ "] " ++ complaint ++ ": " ++ Text.quoted path

/-- What is said of a path with an obstacle. -/
def Obstacle.message (path : String) : Obstacle → String
  | notPermitted => systemMessage 1 "Operation not permitted" path
  | missing => systemMessage 2 "No such file or directory" path
  | denied => systemMessage 13 "Permission denied" path
  | occupied => systemMessage 17 "File exists" path
  | notADirectory => systemMessage 20 "Not a directory" path
  | isADirectory => systemMessage 21 "Is a directory" path
  | nameTooLong => systemMessage 36 "File name too long" path
  | nullCharacter => "embedded null byte"

/-- A path with the obstacle in its way. -/
structure PathError where
  /-- The path. -/
  path : String
  /-- The obstacle. -/
  obstacle : Obstacle
  deriving DecidableEq

/-- What is said of a path with the obstacle in its way. -/
def PathError.message (error : PathError) : String :=
  error.obstacle.message error.path

/-! ## Trees -/

/-- A place: the components that lead to it from the root. -/
abbrev Place := List String

namespace FileTree

/-- What can stand at a place. -/
inductive Entry (α : Type) where
  /-- A directory. -/
  | directory
  /-- A directory in which nothing can be made, for an obstacle. -/
  | closed (obstacle : Obstacle)
  /-- A second name of a directory. -/
  | link (target : Place)
  /-- A file. -/
  | file (content : α)

/-- What a path can lead to. -/
inductive Found (α : Type) where
  /-- The directory at a place. -/
  | directory (place : Place)
  /-- A file. -/
  | file (content : α)

end FileTree

open FileTree in
/-- What stands where, and the place from which relative paths start. The root is a directory. -/
structure FileTree (α : Type) where
  /-- Where relative paths start. -/
  here : Place := []
  /-- What stands at which place. -/
  entries : List (Place × Entry α) := []

namespace FileTree

variable {α : Type}

/-- What stands at a place. -/
def lookup? (tree : FileTree α) (place : Place) : Option (Entry α) :=
  if place = [] then some .directory else tree.entries.lookup place

/-- Puts an entry at a place. -/
def insert (tree : FileTree α) (place : Place) (entry : Entry α) : FileTree α :=
  { tree with entries := (place, entry) :: tree.entries }

/-- What is put at a place under the root stands there. -/
@[simp] theorem lookup?_insert_self (tree : FileTree α) (place : Place) (entry : Entry α)
    (under : place ≠ []) : (tree.insert place entry).lookup? place = some entry := by
  simp [lookup?, insert, under]

/-- What is put at a place stands nowhere else. -/
theorem lookup?_insert_of_ne (tree : FileTree α) (place other : Place) (entry : Entry α)
    (apart : other ≠ place) : (tree.insert place entry).lookup? other = tree.lookup? other := by
  simp [lookup?, insert, List.lookup_cons, beq_false_of_ne apart]

/-! ## Following paths -/

/-- Where a part of a path leads from a place. Empty and dot parts lead nowhere, and a part of two
dots leads back to the directory above. -/
def step (tree : FileTree α) (place : Place) (part : String) : Except Obstacle (Found α) :=
  if part = "" || part = "." then return .directory place
  else if part = ".." then return .directory place.dropLast
  else if Path.isOverlong part then throw .nameTooLong
  else
    match tree.lookup? (place ++ [part]) with
    | none => throw .missing
    | some .directory | some (.closed _) => return .directory (place ++ [part])
    | some (.link target) => return .directory target
    | some (.file content) => return .file content

/-- Where the parts of a path lead from a place. -/
def walk (tree : FileTree α) (place : Place) : List String → Except Obstacle (Found α)
  | [] => return .directory place
  | part :: rest => do
    match ← tree.step place part with
    | .directory next => tree.walk next rest
    | .file content => if rest.isEmpty then return .file content else throw .notADirectory

/-- Where a path starts. -/
def start (tree : FileTree α) (path : String) : Place :=
  if Path.isAbsolute path then [] else tree.here

/-- The obstacle that a path is to itself, if it is one. -/
def ownObstacle? (path : String) : Option Obstacle :=
  if Path.hasNull path then some .nullCharacter
  else if Path.isTooLong path then some .nameTooLong
  else none

/-- What a path leads to. -/
def find (tree : FileTree α) (path : String) : Except Obstacle (Found α) :=
  match ownObstacle? path with
  | some obstacle => throw obstacle
  | none => tree.walk (tree.start path) (Path.parts path)

/-! ## Making and writing

A directory is made together with those above it that are missing. Up to the first that is missing,
an obstacle is in the way of the whole path; from there on directories are made one by one, and an
obstacle is in the way of the path so far. -/

/-- Enters the directory of a name, which is made if it is missing. What comes of it is the tree
after that and the place of the directory. -/
def enter (tree : FileTree α) (place : Place) (name : String) :
    Except Obstacle (FileTree α × Place) :=
  match tree.step place name with
  | .ok (.directory next) => return (tree, next)
  | .ok (.file _) => throw .occupied
  | .error .missing =>
    match tree.lookup? place with
    | some (.closed obstacle) => throw obstacle
    | _ => return (tree.insert (place ++ [name]) .directory, place ++ [name])
  | .error obstacle => throw obstacle

/-- Makes directories one by one, behind a path that leads to a place. -/
def makeFrom (tree : FileTree α) (path : String) (place : Place) :
    List String → Except PathError (FileTree α)
  | [] => return tree
  | name :: rest =>
    let path := Path.join path name
    match tree.enter place name with
    | .ok (tree, next) => tree.makeFrom path next rest
    | .error obstacle => throw ⟨path, obstacle⟩

/-- Makes the directory of the whole path, of which a beginning leads to a place and some components
are left. -/
def makeBehind (tree : FileTree α) (whole path : String) (place : Place) :
    List String → Except PathError (FileTree α)
  | [] => return tree
  | name :: rest =>
    match tree.step place name with
    | .ok (.directory next) => tree.makeBehind whole (Path.join path name) next rest
    | .ok (.file _) => throw ⟨whole, if rest.isEmpty then .occupied else .notADirectory⟩
    | .error .missing => tree.makeFrom path place (name :: rest)
    | .error obstacle => throw ⟨whole, obstacle⟩

/-- Makes a directory with all that are missing above it, from its path in normal form. One that is
there already is left as it is. -/
def makeDirectories (tree : FileTree α) (path : String) : Except PathError (FileTree α) :=
  match ownObstacle? path with
  | some obstacle => throw ⟨path, obstacle⟩
  | none =>
    tree.makeBehind path (Path.normal (Path.rootOf path.toList)) (tree.start path)
      (Path.components path)

/-- Sees that a file can be written in a directory that is there. -/
def checkWritable (tree : FileTree α) (path : String) : Except PathError Unit :=
  match tree.find path with
  | .ok (.directory _) => throw ⟨path, .isADirectory⟩
  | .ok (.file _) | .error .missing => return ()
  | .error obstacle => throw ⟨path, obstacle⟩

end FileTree

end BindingSuite
