import GuestLibrary.Bytes.Block
import GuestLibrary.Text.Split

/-!
Slash-separated paths, and a folder tree held as a list of its files. Names of resources are
confined: they cannot leave the folder that they are looked up in.
-/
namespace GuestLibrary

namespace Path

/-- The components of a path as they are written, empty ones included. -/
def written (path : String) : List String :=
  Text.split '/' path

/-- The components that lead somewhere else, behind the root of an absolute path. -/
def components (path : String) : List String :=
  (if path.toList.head? == some '/' then ["/"] else [])
    ++ (written path).filter fun c => c ≠ "" ∧ c ≠ "."

/-- A component of a path, by what it does to a place. -/
inductive Component
  | root
  /-- The dot that a relative path begins with. -/
  | here
  | up
  | named (name : String)
  deriving DecidableEq, Repr

/-- What is written between two slashes. Nothing and a dot do not count. -/
def Component.ofWritten? (c : String) : Option Component :=
  if c = "" ∨ c = "." then none else if c = ".." then some .up else some (.named c)

/-- The components of a path in order. A dot counts only where a relative path begins with it. -/
def parts (path : String) : List Component :=
  (if path.toList.head? == some '/' then [.root]
    else if (written path).head? == some "." then [.here] else [])
    ++ (written path).filterMap Component.ofWritten?

/-- The component leads neither upwards nor to the root. -/
def Component.staysInside : Component → Bool
  | here | named _ => true
  | root | up => false

/-- A relative path that never steps upwards. -/
def isConfined (path : String) : Bool := (parts path).all Component.staysInside

/-- A relative path behind a folder's path. -/
def join (folder path : String) : String :=
  if folder = "" ∨ folder.toList.getLast? = some '/' then folder ++ path
  else folder ++ "/" ++ path

/-- Takes one component from a place, the innermost component of which comes first. A step upwards
undoes the component before it, stays at the root, and is kept where nothing is before it. -/
def follow (place : List String) (c : String) : List String :=
  if c = ".." then
    match place with
    | [] => [".."]
    | last :: rest =>
      if last = "/" then place else if last = ".." then ".." :: place else rest
  else c :: place

/-- Lexical normalization. -/
def normalized (path : String) : List String :=
  ((components path).foldl follow []).reverse

/-- The places that components lead through from a place on, before the last one of them. -/
def passed : List String → List String → List (List String)
  | c :: d :: rest, place => (follow place c).reverse :: passed (d :: rest) (follow place c)
  | _, _ => []

/-- Written as a folder: its last component is empty or a dot. -/
def endsAsFolder (path : String) : Bool :=
  match (written path).getLast? with
  | some c => c = "" || c = "."
  | none => true

end Path

/-- A folder tree. Each file has its path and its content; folders are those on the way. -/
structure Folder where
  files : List (String × Bytes)

namespace Folder

/-- The files with the components of their paths. -/
def entries (f : Folder) : List (List String × Bytes) :=
  f.files.map fun (path, content) => (Path.normalized path, content)

/-- Whether there is a folder at a place. -/
def holds (f : Folder) (place : List String) : Bool :=
  place.isEmpty || f.files.any fun (path, _) => (Path.passed (Path.components path) []).contains place

/-- The place that a path leads to; none when it steps upwards from where no folder is. -/
def place? (f : Folder) (path : String) : Option (List String) :=
  ((Path.components path).foldlM
    (fun place c => if c = ".." && !f.holds place.reverse then none else some (Path.follow place c))
    []).map List.reverse

/-- Whether a path leads to a folder. -/
def isFolder (f : Folder) (path : String) : Bool := (f.place? path).any f.holds

/-- The content of the file at a path. -/
def read? (f : Folder) (path : String) : Option Bytes :=
  if path.toList.contains '\x00' || Path.endsAsFolder path then none
  else (f.place? path).bind fun place => f.entries.lookup place

/-- Names directly inside a folder. -/
def names (f : Folder) (path : String) : List String :=
  match f.place? path with
  | none => []
  | some place =>
    (f.entries.filterMap fun (p, _) =>
      if place.isPrefixOf p then (p.drop place.length).head? else none).eraseDups

/-- Stores a file; none where no file can be. -/
def write? (f : Folder) (path : String) (content : Bytes) : Option Folder :=
  if path.toList.contains '\x00' || Path.endsAsFolder path then none
  else
    match f.place? path with
    | none => none
    | some place =>
      if f.holds place || !f.holds place.dropLast then none
      else some ⟨f.files.filter (fun (p, _) => Path.normalized p ≠ place) ++ [(path, content)]⟩

end Folder
end GuestLibrary
