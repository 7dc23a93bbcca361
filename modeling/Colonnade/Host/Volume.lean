/-
The files and directories that databases live in, and the locks on them.
What is in a volume is kept by its place, so that two paths that lead to one
place find the same thing there.

A path is walked name by name, and every name but the last has to lead to a
directory that is there: `x/../db` leads nowhere while there is no `x`, and
nothing leads through a file. Names and paths have a greatest length, told in
bytes.

A failure is the reason that the file system would give. An edit that fails
keeps what it did before; making directories makes those it can.

Chain: above `Host.Path`; `Host` opens databases on a volume.
-/
import Std.Data.TreeMap
import Colonnade.Host.Path
import Colonnade.Text.Utf8

namespace Colonnade

-- ======================================================== reasons

/-- Why a volume refuses. -/
inductive VolumeFault where
  | unreadablePath
  | nameTooLong
  | noSuchFile
  | notADirectory
  | isADirectory
  | fileExists
deriving DecidableEq, Repr, Inhabited

/-- The words of the file system. -/
def VolumeFault.message : VolumeFault → String
  | unreadablePath => "file name contained an unexpected NUL byte"
  | nameTooLong => "File name too long (os error 36)"
  | noSuchFile => "No such file or directory (os error 2)"
  | notADirectory => "Not a directory (os error 20)"
  | isADirectory => "Is a directory (os error 21)"
  | fileExists => "File exists (os error 17)"

-- ========================================================= places

/-- Where something is: the names on the way to it, the innermost first. A
way out of the place where paths start begins with two dots for each
directory that it leaves, and a way from the top with a slash. -/
abbrev Place := List String

namespace Place

/-- Where paths start that do not start at the top. -/
def start : Place := []

/-- The directory around all others. -/
def top : Place := ["/"]

/-- The directory around a place; around the top is the top. -/
def outer : Place → Place
  | [] => [".."]
  | ".." :: ways => ".." :: ".." :: ways
  | ["/"] => top
  | _ :: ways => ways

/-- Whether a place is the start, a directory around the start, or the top;
these are always there. -/
def isGiven (p : Place) : Bool := p.all (· == "..") || p == top

end Place

-- ======================================================== volumes

/-- What is found at a place. -/
inductive VolumeEntry where
  | file (contents : Bytes)
  | directory
deriving DecidableEq, Repr, Inhabited

/-- Files and directories by place, and the places of the files that are
locked. -/
structure Volume where
  entries : Std.TreeMap Place VolumeEntry := ∅
  locks : List Place := []

/-- A step that changes a volume or is refused. -/
abbrev VolumeEdit (α : Type) := EStateM VolumeFault Volume α

namespace Volume

instance : Inhabited Volume := ⟨{}⟩

/-- The greatest length of a name. -/
def longestName : Nat := 255

/-- The greatest length of a path. -/
def longestPath : Nat := 4095

/-- What is at a place. -/
def entryAt? (v : Volume) (p : Place) : Option VolumeEntry :=
  if p.isGiven then some .directory else v.entries[p]?

/-- The contents of the file at a place. -/
def contentsAt? (v : Volume) (p : Place) : Option Bytes :=
  match v.entryAt? p with
  | some (.file contents) => some contents
  | _ => none

/-- The volume with something put at a place. -/
def put (v : Volume) (p : Place) (x : VolumeEntry) : Volume :=
  { v with entries := v.entries.insert p x }

-- ======================================================== walking

/-- Passes if there is a directory at a place. -/
def enter (v : Volume) (p : Place) : Except VolumeFault Unit :=
  match v.entryAt? p with
  | some .directory => .ok ()
  | some (.file _) => .error .notADirectory
  | none => .error .noSuchFile

/-- The place that a name leads to from a place. -/
def step (v : Volume) (p : Place) (name : String) :
    Except VolumeFault Place := do
  v.enter p
  if name == "." then
    return p
  if name == ".." then
    return p.outer
  if longestName < name.utf8ByteSize then
    throw .nameTooLong
  return name :: p

/-- Passes if a text can be a path at all. -/
def checkPath (path : String) : Except VolumeFault Unit :=
  if path.toList.contains '\x00' then .error .unreadablePath
  else if path == "" then .error .noSuchFile
  else if longestPath < path.utf8ByteSize then .error .nameTooLong
  else .ok ()

/-- The place that some names of a path lead to. -/
def walk (v : Volume) (path : String) (names : List String) :
    Except VolumeFault Place := do
  checkPath path
  names.foldlM v.step (if Path.startsAtTop path then .top else .start)

/-- The place that a path leads to, whether or not something is there. -/
def placeOf (v : Volume) (path : String) : Except VolumeFault Place :=
  v.walk path (Path.names path)

-- ======================================================== looking

/-- What is under a path. -/
def find (v : Volume) (path : String) : Except VolumeFault VolumeEntry := do
  let p ← v.placeOf path
  if Path.endsInSlash path then
    v.enter p
  match v.entryAt? p with
  | some x => return x
  | none => throw .noSuchFile

/-- Whether there is anything under a path. -/
def holds (v : Volume) (path : String) : Bool := (v.find path).toBool

/-- Whether there is a directory under a path. -/
def isDirectory (v : Volume) (path : String) : Bool :=
  v.find path matches .ok .directory

/-- The contents of the file under a path. -/
def read? (v : Volume) (path : String) : Option Bytes :=
  match v.find path with
  | .ok (.file contents) => some contents
  | _ => none

-- ==================================================== directories

/-- Makes a directory in one that is there. -/
def makeDirectory (path : String) : VolumeEdit Unit := do
  let v ← get
  let p ← ofExcept (v.placeOf path)
  if (v.entryAt? p).isSome then
    throw .fileExists
  set (v.put p .directory)

/-- Makes a directory, unless it is there. -/
def ensureDirectory (path : String) : VolumeEdit Unit := fun v =>
  match (makeDirectory path).run v with
  | .error .fileExists v =>
    if v.isDirectory path then .ok () v else .error .fileExists v
  | result => result

/-- Makes a directory and, as far as they are missing, those around it. -/
def makeDirectories (path : String) : VolumeEdit Unit :=
  if path == "" then pure () else make path (Path.around path)
where
  /-- Makes a directory, and those around it only if they are missed. -/
  make (path : String) : List String → VolumeEdit Unit
    | [] => ensureDirectory path
    | outer :: others => fun v =>
      match (ensureDirectory path).run v with
      | .error .noSuchFile v =>
        (do make outer others; ensureDirectory path : VolumeEdit Unit).run v
      | result => result

-- ========================================================== files

/-- Opens the file under a path, which is made if it is missing, and gives
its place and contents. -/
def openFile (path : String) : VolumeEdit (Place × Bytes) := do
  let v ← get
  if Path.endsInSlash path then
    let around ← ofExcept (v.walk path (Path.names path).dropLast)
    ofExcept (v.enter around)
    throw .isADirectory
  let p ← ofExcept (v.placeOf path)
  match v.entryAt? p with
  | some (.file contents) => return (p, contents)
  | some .directory => throw .isADirectory
  | none =>
    set (v.put p (.file []))
    return (p, [])

/-- Opens a file, its directory made if it is missing. -/
def openWithin (path : String) : VolumeEdit (Place × Bytes) := do
  makeDirectories (Path.parent path)
  openFile path

/-- Writes a whole file, its directory made if it is missing. -/
def writeFile (path : String) (contents : Bytes) : VolumeEdit Unit := do
  let (p, _) ← openWithin path
  modify fun v => v.put p (.file contents)

-- ========================================================== locks

/-- Whether a file is locked. -/
def isLocked (v : Volume) (p : Place) : Bool := v.locks.contains p

/-- Locks a file. -/
def lock (v : Volume) (p : Place) : Volume :=
  { v with locks := p :: v.locks }

/-- Unlocks a file. -/
def unlock (v : Volume) (p : Place) : Volume :=
  { v with locks := v.locks.filter (· != p) }

end Volume

end Colonnade
