import BoothLink.Text.Utf8

/-!
# Files

A tree of folders and plain files, as far as settings and what is written of them need it. A path is
followed name by name from the folder in which we work, or from the root if it begins with a slash; every
name but the last has to be that of a folder, also before a step back up.

* `Way`, `Way.onward`: where something is, and one step further.
* `Node`, `Files`: what there is.
* `Files.locate`: the folder that a path leads into, and the last name.
* `Files.find`, `Files.contains`, `Files.readText`: what a path leads to.
* `Files.write`, `Files.makeFolders`, `Files.place`: the files after a change.
* `FileFault`, `FileFault.message`: why something cannot be read or written.
-/

namespace BoothLink

/-- Why a file cannot be read or written. -/
inductive FileFault where
  | missing
  /-- It is a folder. -/
  | folder
  /-- It would be in a plain file. -/
  | notFolder
  /-- A name, or the whole path, has too many octets. -/
  | tooLong
  /-- The path has a zero in it. -/
  | zero
  /-- Its octets are no text. -/
  | notText
  deriving DecidableEq, Repr

/-- The wording of a fault, as the system gives it. -/
def FileFault.message : FileFault → String
  | missing => "No such file or directory (os error 2)"
  | folder => "Is a directory (os error 21)"
  | notFolder => "Not a directory (os error 20)"
  | tooLong => "File name too long (os error 36)"
  | zero => "file name contained an unexpected NUL byte"
  | notText => "stream did not contain valid UTF-8"

/-! ## Ways -/

/-- Where something is: the names on the way to it from the folder in which we work. The way may begin with
steps up from there, or at the root. -/
structure Way where
  names : List String
  deriving DecidableEq, Repr

namespace Way

/-- The folder in which we work. -/
def here : Way := ⟨[]⟩

def root : Way := ⟨["/"]⟩

/-- The name of the folder around a folder. -/
def upName : String := ".."

/-- The folders around the one in which we work, and that one. -/
def isAbove (w : Way) : Bool := w.names.all (· = upName)

/-- The folder around a place; the root has none but itself. -/
def up (w : Way) : Way :=
  if w = root then root else if w.isAbove then ⟨w.names ++ [upName]⟩ else ⟨w.names.dropLast⟩

/-- One step further: a dot stays, two dots go up. -/
def onward (w : Way) (name : String) : Way :=
  if name = "." then w else if name = upName then w.up else ⟨w.names ++ [name]⟩

/-- Where a path begins. -/
def start (path : String) : Way := if path.startsWith "/" then root else here

/-- The names in a path. -/
def split (path : String) : List String := (path.splitOn "/").filter (· ≠ "")

end Way

/-! ## Trees -/

/-- A folder or a plain file. -/
inductive Node where
  | plain (content : Octets)
  | folder (entries : List (String × Node))

namespace Node

/-- What is in a folder, by its name. -/
def entries : Node → List (String × Node)
  | plain _ => []
  | folder entries => entries

/-- What is at the end of a way. -/
def find? : Node → List String → Option Node
  | n, [] => some n
  | n, name :: way => (n.entries.lookup name).bind (·.find? way)

/-- The tree with something else at the end of a way, on which all becomes a folder. -/
def put : Node → List String → Node → Node
  | _, [], new => new
  | n, name :: way, new =>
    let inside := (n.entries.lookup name).getD (folder [])
    folder ((name, inside.put way new) :: n.entries.filter (·.1 ≠ name))

/-- What has been put at the end of a way is found there. -/
theorem find?_put (n : Node) (way : List String) (new : Node) :
    (n.put way new).find? way = some new := by
  induction way generalizing n with
  | nil => rfl
  | cons name way ih => simp [put, find?, entries, ih]

end Node

/-- The folder in which we work, with what can be reached from there: the root and the folder around it are
kept as if they were in it. -/
structure Files where
  tree : Node := .folder []

namespace Files

def nameLimit : Nat := 255

def pathLimit : Nat := 4095

/-! ## Finding -/

/-- What is at the end of a way. Around us there are folders. -/
def entry? (f : Files) (w : Way) : Option Node :=
  if w.isAbove || w = .root then some ((f.tree.find? w.names).getD (.folder []))
  else f.tree.find? w.names

/-- The files with something else at the end of a way. -/
def put (f : Files) (w : Way) (n : Node) : Files := ⟨f.tree.put w.names n⟩

/-- One step further, if it leads into a folder. -/
def enter (f : Files) (w : Way) (name : String) : Except FileFault Way :=
  if nameLimit < name.utf8ByteSize then .error .tooLong
  else
    match f.entry? (w.onward name) with
    | some (.folder _) => .ok (w.onward name)
    | some (.plain _) => .error .notFolder
    | none => .error .missing

/-- Refuses what is no path at all. -/
def checkPath (path : String) : Except FileFault Unit :=
  if path.toList.contains '\x00' then .error .zero
  else if path.isEmpty then .error .missing
  else if pathLimit < path.utf8ByteSize then .error .tooLong
  else .ok ()

/-- The folder that a path leads into, and the last name, which is a dot if there is none. -/
def locate (f : Files) (path : String) : Except FileFault (Way × String) := do
  checkPath path
  let names := Way.split path
  let w ← names.dropLast.foldlM f.enter (Way.start path)
  return (w, names.getLast?.getD ".")

/-- What a path leads to; one with a slash at its end can lead to a folder only. -/
def find (f : Files) (path : String) : Except FileFault Node := do
  let (w, name) ← f.locate path
  if nameLimit < name.utf8ByteSize then .error .tooLong
  else
    match f.entry? (w.onward name) with
    | some (.folder entries) => .ok (.folder entries)
    | some (.plain content) => if path.endsWith "/" then .error .notFolder else .ok (.plain content)
    | none => .error .missing

/-- Whether there is a folder or a plain file. -/
def contains (f : Files) (path : String) : Bool := (f.find path).toBool

def read (f : Files) (path : String) : Except FileFault Octets :=
  match f.find path with
  | .ok (.plain content) => .ok content
  | .ok (.folder _) => .error .folder
  | .error e => .error e

def readText (f : Files) (path : String) : Except FileFault String :=
  match f.read path with
  | .error e => .error e
  | .ok content =>
    match Utf8.decode content with
    | .ok s => .ok (String.ofList s)
    | .error _ => .error .notText

/-! ## Writing -/

/-- Writes a plain file in a folder that is there. -/
def write (f : Files) (path : String) (content : Octets) : Except FileFault Files := do
  let (w, name) ← f.locate path
  if name = "." || name = Way.upName || path.endsWith "/" then .error .folder
  else if nameLimit < name.utf8ByteSize then .error .tooLong
  else
    match f.entry? (w.onward name) with
    | some (.folder _) => .error .folder
    | _ => .ok (f.put (w.onward name) (.plain content))

def writeText (f : Files) (path : String) (s : String) : Except FileFault Files :=
  f.write path (Utf8.encode s.toList)

/-- One step further into a folder, which is made if it is missing. -/
def enterNew : Files × Way → String → Except FileFault (Files × Way)
  | (f, w), name =>
    match f.enter w name with
    | .ok w => .ok (f, w)
    | .error .missing => .ok (f.put (w.onward name) (.folder []), w.onward name)
    | .error e => .error e

/-- Makes all folders on the way to a file. -/
def makeFolders (f : Files) (path : String) : Except FileFault Files := do
  checkPath path
  let names := ((Way.split path).filter (· ≠ ".")).dropLast
  return (← names.foldlM enterNew (f, Way.start path)).1

/-- Puts a plain file and the folders on the way to it in place, as far as they can be there. -/
def place (f : Files) (path : String) (content : Octets) : Files :=
  ((f.makeFolders path).bind (·.write path content)).toOption.getD f

end Files

end BoothLink
