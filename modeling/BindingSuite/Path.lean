/-! # Paths

Paths of files, as texts.

* `Path.normal` is a path as messages show it: without empty and dot components, which lead nowhere.
  `Path.join` goes on from a path in that form;
* `Path.place` is where an absolute path leads in the end: a component of two dots leads back to the
  directory above;
* `Path.within?` is the way from a directory to a place under it;
* `Path.isOverlong`, `Path.isTooLong` and `Path.hasNull` are the limits of what can be a path. -/

namespace BindingSuite.Path

/-- The parts of a path between its slashes, some of which may be empty. -/
def parts (path : String) : List String :=
  (path.toList.splitOn '/').map String.ofList

/-- The parts of a path that lead somewhere. -/
def components (path : String) : List String :=
  (parts path).filter fun component => component ≠ "" && component ≠ "."

/-- Whether a path starts at the root of all files. -/
def isAbsolute (path : String) : Bool :=
  path.toList.head? = some '/'

/-! ## Normal form -/

/-- The slashes that a path starts with in normal form: exactly two are kept, more count as one. -/
def rootOf (path : List Char) : String :=
  match path.takeWhile (· = '/') with
  | [] => ""
  | ['/', '/'] => "//"
  | _ => "/"

/-- The normal form of a path; the empty path is the current directory. -/
def normal (path : String) : String :=
  let normal := rootOf path.toList ++ "/".intercalate (components path)
  if normal = "" then "." else normal

/-- The path of a file in a directory, whose path is in normal form. -/
def join (directory file : String) : String :=
  if directory = "." then file
  else if directory = "/" || directory = "//" then directory ++ file
  else directory ++ "/" ++ file

/-! ## Places -/

/-- The place that a component leads to, both as components from the root. -/
def follow (here : List String) (component : String) : List String :=
  if component = ".." then here.dropLast else here ++ [component]

/-- The place that an absolute path leads to. -/
def place (path : String) : List String :=
  (components path).foldl follow []

/-- The path from a directory to what lies under it, when both have absolute paths. -/
def within? (directory path : String) : Option String :=
  if isAbsolute directory && isAbsolute path && (place directory).isPrefixOf (place path) then
    some ("/".intercalate ((place path).drop (place directory).length))
  else none

/-! ## Limits -/

/-- The most bytes that a component may have. -/
def componentLimit : Nat := 255

/-- Whether a component is too long to name anything. -/
def isOverlong (component : String) : Bool :=
  componentLimit < component.utf8ByteSize

/-- The number of bytes that a path may not reach. -/
def lengthLimit : Nat := 4096

/-- Whether a path is too long to lead anywhere. -/
def isTooLong (path : String) : Bool :=
  lengthLimit ≤ path.utf8ByteSize

/-- Whether a path holds the null character, which no path of a file does. -/
def hasNull (path : String) : Bool :=
  path.toList.contains '\x00'

end BindingSuite.Path
