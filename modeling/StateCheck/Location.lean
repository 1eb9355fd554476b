/-!
Paths of files, as texts with slashes.

`Location.join` and `Location.parent?` are inverse on a plain name: the parent of `dir/name` is
`dir`. A directory tree is given by the texts of its files (`Files`), and `Files.ofList` is the tree
of a list of files.
-/
namespace StateCheck
set_option autoImplicit false

namespace Location

def isAbsolute (path : String) : Bool := path.startsWith "/"

/-- A path below a directory; an absolute path stands for itself. -/
def join (dir path : String) : String :=
  if isAbsolute path || dir.isEmpty then path
  else if dir.endsWith "/" then dir ++ path
  else dir ++ "/" ++ path

def segments (path : String) : List String := (path.splitToList (· == '/'))

/-- Whether a segment says nothing; a leading point does where the path starts. -/
def isEmptySegment (s : String) : Bool := s.isEmpty || s == "."

def dropEmptyEnd (parts : List String) : List String :=
  (parts.reverse.dropWhile isEmptySegment).reverse

/-- The directory of a path, none for the root and for the empty path. -/
def parent? (path : String) : Option String :=
  match segments path with
  | [] => none
  | first :: rest =>
    match dropEmptyEnd rest with
    | [] => if first.isEmpty then none else some ""
    | parts =>
      let above := dropEmptyEnd parts.dropLast
      if first.isEmpty && above.isEmpty then some "/"
      else some ("/".intercalate (first :: above))

def fileName? (path : String) : Option String :=
  match (segments path).filter (!isEmptySegment ·) |>.getLast? with
  | some ".." => none
  | name => name

/-- The last name without its extension; a point at its start begins no extension. -/
def stem? (path : String) : Option String :=
  (fileName? path).map fun name =>
    match name.toList.reverse.dropWhile (· != '.') with
    | [] | [_] => name
    | _ :: stem => String.ofList stem.reverse

/-- The names that lead to a file, with parent references resolved. -/
def resolved (path : String) : List String :=
  (segments path).foldl (fun names s =>
    if isEmptySegment s then names else if s == ".." then names.dropLast else names ++ [s]) []

end Location

/-! ## Directory trees -/

inductive FileFault where
  | missing
  | directory
  | notDirectory
deriving DecidableEq, Repr

namespace FileFault

def message : FileFault → String
  | missing => "No such file or directory (os error 2)"
  | directory => "Is a directory (os error 21)"
  | notDirectory => "Not a directory (os error 20)"

end FileFault

/-- A directory tree: at every path stands the text of a file or there is none. -/
structure Files (m : Type → Type) where
  read : String → m (Except FileFault String)

namespace Files

def isPresent {m : Type → Type} [Monad m] (files : Files m) (path : String) : m Bool := do
  return match ← files.read path with
    | .ok _ | .error .directory => true
    | .error _ => false

/-- What stands where the segments lead from a directory. -/
def follow (files : List (List String × String)) (here : List String) :
    List String → Except FileFault String
  | [] => .error .directory
  | s :: rest =>
    if Location.isEmptySegment s then follow files here rest
    else if s = ".." then follow files here.dropLast rest
    else
      let there := here ++ [s]
      match files.lookup there with
      | some text => if rest.isEmpty then .ok text else .error .notDirectory
      | none =>
        if files.any fun (names, _) => there.isPrefixOf names then follow files there rest
        else .error .missing

/-- The tree of a list of files with their texts, seen from its top. -/
def ofList (files : List (String × String)) : Files Id where
  read path :=
    if path.isEmpty || Location.isAbsolute path then .error .missing
    else
      follow (files.map fun (name, text) => (Location.resolved name, text)) []
        (Location.segments path)

end Files
end StateCheck
