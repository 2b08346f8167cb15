/-! # Directories

The files below a working directory, and how paths are followed in it: names are separated by
slashes, a dot stays in place, two dots go back, and every place on the way has to be a directory.
Two dots lead out of the working directory, too. The directories around it are there, but nothing
else is known of them. Reading needs a file; writing creates or replaces one and never makes a
directory. What a command needs of its files is that they are read and written (`Files`), in a
directory (`Directory.files`) or elsewhere. -/

namespace IntrospectSdl.Command

/-- Why a file cannot be read or written. -/
inductive FileError where
  | notFound
  | notDirectory
  | isDirectory
  | nameTooLong
  | nulInPath
  | notUtf8
  | other (reason : String)
deriving DecidableEq, Repr

/-- The error in words. -/
def FileError.message : FileError → String
  | .notFound => "No such file or directory (os error 2)"
  | .notDirectory => "Not a directory (os error 20)"
  | .isDirectory => "Is a directory (os error 21)"
  | .nameTooLong => "File name too long (os error 36)"
  | .nulInPath => "file name contained an unexpected NUL byte"
  | .notUtf8 => "stream did not contain valid UTF-8"
  | .other reason => reason

/-- Files that are read and written by their paths. -/
structure Files (m : Type → Type) where
  read (path : String) : ExceptT FileError m ByteArray
  write (path : String) (content : ByteArray) : ExceptT FileError m Unit

/-- What stands at a place. -/
inductive Entry where
  | file (content : ByteArray)
  | directory

theorem Entry.file_eq_iff {a b : ByteArray} : a.data = b.data ↔ Entry.file a = .file b := by
  simp [ByteArray.ext_iff]

instance : DecidableEq Entry
  | .file a, .file b => decidable_of_iff (a.data = b.data) Entry.file_eq_iff
  | .file _, .directory => isFalse nofun
  | .directory, .file _ => isFalse nofun
  | .directory, .directory => isTrue rfl

/-- A place, by the names on the way to it from the working directory. A way out of it begins with
two dots for each directory that is left, and a way from the top of all directories with a slash; no
file has such a name. -/
abbrev Place := List String

namespace Place

/-- The top of all directories. -/
def top : Place := ["/"]

/-- Whether the place is the working directory, a directory around it, or the top. -/
def isAround (place : Place) : Bool := place.all (· == "..") || place == top

/-- Whether the place lies below the working directory. -/
def isBelow (place : Place) : Bool := place.head? != some ".." && place.head? != some "/"

/-- The place that two dots lead to. From the top they lead nowhere else. -/
def parent (place : Place) : Place :=
  if place = top then top else if isAround place then place ++ [".."] else place.dropLast

end Place

/-- The files and directories that are known, apart from the working directory and those around it,
which are always there. -/
structure Directory where
  entries : List (Place × Entry)

namespace Directory

/-- What stands at a place. -/
def entry? (d : Directory) (place : Place) : Option Entry :=
  if Place.isAround place then some .directory else d.entries.lookup place

/-- The directory with an entry at a place, in the stead of what stood there. -/
def put (d : Directory) (place : Place) (entry : Entry) : Directory :=
  ⟨(place, entry) :: d.entries.filter fun e => e.1 ≠ place⟩

/-- The most bytes that a name on the way may have. -/
def nameLimit : Nat := 255

/-- The most bytes that a path may have. -/
def pathLimit : Nat := 4095

/-- Follows the names of a path from a place. -/
def follow (d : Directory) (place : Place) : List String → Except FileError Place
  | [] => .ok place
  | name :: names =>
    match d.entry? place with
    | none => .error .notFound
    | some (.file _) => .error .notDirectory
    | some .directory =>
      if name = "." then d.follow place names
      else if name = ".." then d.follow (Place.parent place) names
      else if nameLimit < name.utf8ByteSize then .error .nameTooLong
      else d.follow (place ++ [name]) names

/-- The names in a path. -/
def names (path : String) : List String := (path.splitOn "/").filter fun name => !name.isEmpty

/-- Whether a path ends with a slash. -/
def endsInSlash (path : String) : Bool := path.toList.getLast? == some '/'

/-- The place that a path starts from. -/
def start (path : String) : Place := if path.toList.head? = some '/' then Place.top else []

/-- The place that a path leads to. -/
def resolve (d : Directory) (path : String) : Except FileError Place :=
  if path.toList.contains '\x00' then .error .nulInPath
  else if path.isEmpty then .error .notFound
  else if pathLimit < path.utf8ByteSize then .error .nameTooLong
  else d.follow (start path) (names path)

/-- The content of a file. -/
def read (d : Directory) (path : String) : Except FileError ByteArray := do
  match d.entry? (← d.resolve path) with
  | none => .error .notFound
  | some .directory => .error .isDirectory
  | some (.file content) => if endsInSlash path then .error .notDirectory else .ok content

/-- The place that a path to be written leads to. A slash at the end asks for a directory. -/
def target (d : Directory) (path : String) : Except FileError Place := do
  let place ← d.resolve path
  if endsInSlash path || d.entry? place = some .directory then .error .isDirectory else .ok place

/-- The directory with a file written. -/
def write (d : Directory) (path : String) (content : ByteArray) : Except FileError Directory := do
  return d.put (← d.target path) (.file content)

/-- The files of a directory. What cannot be written leaves the directory as it was. -/
def files : Files (StateM Directory) where
  read path := fun d => (d.read path, d)
  write path content := fun d =>
    match d.write path content with
    | .ok after => (.ok (), after)
    | .error e => (.error e, d)

/-- The files below the working directory that are new or have a content that they did not have
before. -/
def changes (before after : Directory) : List (Place × ByteArray) :=
  after.entries.filterMap fun (place, entry) =>
    match entry with
    | .directory => none
    | .file content =>
      if Place.isBelow place && before.entry? place ≠ some (.file content) then
        some (place, content)
      else none

end Directory

end IntrospectSdl.Command
