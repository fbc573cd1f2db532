import AvroIdl.Conversion.Failure
import AvroIdl.Text.Bytes

/-
A tree of files and directories, and how a path leads to one of them.
-/
set_option autoImplicit false

namespace AvroIdl.Command

/-- Names from the root down. -/
abbrev Location := List String

inductive Entry
  | file (contents : List UInt8)
  | directory

/-- The root is a directory that needs no entry. -/
structure FileTree where
  entries : List (Location × Entry)

namespace FileTree

def get? (tree : FileTree) (location : Location) : Option Entry :=
  if location = [] then some .directory else tree.entries.lookup location

/-- What was at the location is replaced. -/
def put (tree : FileTree) (location : Location) (entry : Entry) : FileTree :=
  ⟨(location, entry) :: tree.entries.filter fun (other, _) => other ≠ location⟩

theorem get?_put_self (tree : FileTree) {location : Location} (entry : Entry)
    (below : location ≠ []) : (tree.put location entry).get? location = some entry := by
  simp [get?, put, below]

theorem lookup_filter_ne {location other : Location} (differ : other ≠ location)
    (entries : List (Location × Entry)) :
    (entries.filter fun (l, _) => l ≠ location).lookup other = entries.lookup other := by
  induction entries with
  | nil => rfl
  | cons head rest ih =>
    obtain ⟨l, e⟩ := head
    by_cases h : l = location
    · subst h
      have apart : (other == l) = false := by simpa using differ
      rw [List.filter_cons_of_neg (by simp), List.lookup_cons, apart]
      exact ih
    · by_cases h' : other = l <;> simp_all [List.lookup_cons]

theorem get?_put_of_ne (tree : FileTree) {location other : Location} (entry : Entry)
    (differ : other ≠ location) : (tree.put location entry).get? other = tree.get? other := by
  unfold get?
  split
  · rfl
  · have apart : (other == location) = false := by simpa using differ
    rw [put, List.lookup_cons, apart]
    exact lookup_filter_ne differ tree.entries

end FileTree

/-- A path as it is written: where it starts, its parts, and whether a slash ends it. -/
structure Path where
  absolute : Bool
  parts : List String
  endsInSlash : Bool

def splitParts : List Char → List Char → List String
  | [], [] => []
  | part, [] => [String.ofList part.reverse]
  | [], '/' :: rest => splitParts [] rest
  | part, '/' :: rest => String.ofList part.reverse :: splitParts [] rest
  | part, c :: rest => splitParts (c :: part) rest

def Path.ofText (text : String) : Path where
  absolute := text.toList.head? = some '/'
  parts := splitParts [] text.toList
  endsInSlash := text.toList.getLast? = some '/'

/-- Longest name of a file, and shortest path that is too long, in bytes. -/
def maxNameSize : Nat := 255

def minLongPath : Nat := 4096

namespace FileTree

/-- Goes down through directories, and up at each pair of dots. -/
def enter (tree : FileTree) (here : Location) : List String → Except SystemError Location
  | [] => .ok here
  | "." :: rest => enter tree here rest
  | ".." :: rest => enter tree here.dropLast rest
  | name :: rest =>
    if maxNameSize < name.utf8ByteSize then .error .nameTooLong
    else match tree.get? (here ++ [name]) with
      | none => .error .notFound
      | some (.file _) => .error .notDirectory
      | some .directory => enter tree (here ++ [name]) rest

/-- The directory a path leads into and the name it ends with, which is none when the path can
only mean a directory. -/
def locate (tree : FileTree) (cwd : Location) (text : String) :
    Except SystemError (Location × Option (String × Bool)) :=
  let path := Path.ofText text
  let from? := if path.absolute then [] else cwd
  if text = "" then .error .notFound
  else if minLongPath ≤ text.utf8ByteSize then .error .nameTooLong
  else match path.parts.getLast? with
    | none | some "." | some ".." => (tree.enter from? path.parts).map fun here => (here, none)
    | some name =>
      (tree.enter from? path.parts.dropLast).map fun here => (here, some (name, path.endsInSlash))

def readFile (tree : FileTree) (cwd : Location) (text : String) :
    Except SystemError (List UInt8) :=
  match tree.locate cwd text with
  | .error e => .error e
  | .ok (_, none) => .error .isDirectory
  | .ok (here, some (name, endsInSlash)) =>
    if maxNameSize < name.utf8ByteSize then .error .nameTooLong
    else match tree.get? (here ++ [name]) with
      | none => .error .notFound
      | some .directory => .error .isDirectory
      | some (.file contents) => if endsInSlash then .error .notDirectory else .ok contents

/-- Where a file is written. A path that ends in a slash can name no file. -/
def target (tree : FileTree) (cwd : Location) (text : String) : Except SystemError Location :=
  match tree.locate cwd text with
  | .error e => .error e
  | .ok (_, none) | .ok (_, some (_, true)) => .error .isDirectory
  | .ok (here, some (name, false)) =>
    if maxNameSize < name.utf8ByteSize then .error .nameTooLong
    else match tree.get? (here ++ [name]) with
      | some .directory => .error .isDirectory
      | _ => .ok (here ++ [name])

/-- A file that is there is replaced; a new one needs its directory. -/
def writeFile (tree : FileTree) (cwd : Location) (text : String) (contents : List UInt8) :
    Except SystemError FileTree :=
  (tree.target cwd text).map fun location => tree.put location (.file contents)

end FileTree

def Location.text (location : Location) : String :=
  String.join (location.map fun name => "/" ++ name)

/-- The full form of a path: single slashes, no single dots, and pairs of dots as they are. Two
slashes at the start stay, as they may have a meaning of their own. -/
def fullPath (cwd : Location) (text : String) : String :=
  let path := Path.ofText text
  let parts := Location.text (path.parts.filter (· ≠ "."))
  match text.toList with
  | '/' :: '/' :: '/' :: _ => parts
  | '/' :: '/' :: _ => "/" ++ parts
  | _ => if path.absolute then parts else Location.text cwd ++ parts

end AvroIdl.Command
