import BuildRules.Workspace.Path

namespace BuildRules

inductive FileTree.Entry where
  | directory
  | file (text : String)
deriving DecidableEq

/-- What may be done at a place: a directory is listed, changed and entered. -/
structure FileTree.Rights where
  read : Bool
  write : Bool
  enter : Bool
deriving DecidableEq

def FileTree.Rights.all : FileTree.Rights := ⟨true, true, true⟩

/-- Places below the root directory, which is always there. -/
structure FileTree where
  entries : List (List String × FileTree.Entry)
  /-- Where relative paths start. -/
  current : Path
  /-- Of what is at a place, or will be once it is made. -/
  rights : List String → FileTree.Rights

namespace FileTree

/-- Why a path cannot be looked up, read or written. -/
inductive Fault where
  | missing
  | isDirectory
  | notDirectory
  | exists
  | nameTooLong
  | denied
  | zeroByte
deriving DecidableEq

/-- A tree without entries, in which everything may be done. -/
def empty (current : Path) : FileTree := ⟨[], current, fun _ => .all⟩

def at? (tree : FileTree) (place : List String) : Option Entry :=
  if place.isEmpty then some .directory else tree.entries.lookup place

/-- Where one component leads from a place. -/
def step (place : List String) (part : String) : List String :=
  if part == ".." then place.dropLast else place ++ [part]

def descend (tree : FileTree) : List String → List String → Option (List String)
  | place, [] => some place
  | place, part :: rest =>
    if tree.at? place != some .directory then none else descend tree (step place part) rest

/-- The place that a path leads to, if every component before the last is a directory. -/
def place? (tree : FileTree) (path : Path) : Option (List String) :=
  descend tree [] (tree.current.within path).parts

def find? (tree : FileTree) (path : Path) : Option Entry := do
  tree.at? (← tree.place? path)

/-- Most bytes of one name, and of a whole path. -/
def maxNameBytes : Nat := 255
def maxPathBytes : Nat := 4095

/-- What the system has against a component that is looked up in a directory. -/
def objection? (tree : FileTree) (place : List String) (part : String) : Option Fault :=
  if !(tree.rights place).enter then some .denied
  else if maxNameBytes < part.utf8ByteSize then some .nameTooLong
  else none

/-- The first objection on the way, which goes no further than directories do. -/
def obstacle? (tree : FileTree) : List String → List String → Option Fault
  | _, [] => none
  | place, part :: rest =>
    if tree.at? place != some .directory then none
    else (tree.objection? place part).or (obstacle? tree (step place part) rest)

/-- The place that the components of a path are taken from. -/
def origin (tree : FileTree) (path : Path) : List String :=
  if path.isAbsolute then [] else tree.current.parts.foldl step []

/-- Why the system does not go to a path at all. -/
def hindrance? (tree : FileTree) (path : Path) : Option Fault :=
  if maxPathBytes < path.display.utf8ByteSize then some .nameTooLong
  else tree.obstacle? (tree.origin path) path.parts

def hasZero (path : Path) : Bool := path.parts.any fun part => part.toList.contains '\x00'

/-- What is found under a path. Under one with a zero byte there is nothing. -/
def look (tree : FileTree) (path : Path) : Except Fault (Option Entry) :=
  if hasZero path then .ok none
  else
    match tree.hindrance? path with
    | some fault => .error fault
    | none => .ok (tree.find? path)

def has (tree : FileTree) (path : Path) : Except Fault Bool := (tree.look path).map Option.isSome

def isDirectory (tree : FileTree) (path : Path) : Except Fault Bool :=
  (tree.look path).map (· == some .directory)

def rightsAt (tree : FileTree) (path : Path) : Rights :=
  ((tree.place? path).map tree.rights).getD .all

/-- Whether a directory may be listed and entered. -/
def isOpen (tree : FileTree) (path : Path) : Bool :=
  (tree.rightsAt path).read && (tree.rightsAt path).enter

/-- Names of the directories in a directory. -/
def subdirectories (tree : FileTree) (path : Path) : List String :=
  match tree.place? path with
  | none => []
  | some place => tree.entries.filterMap fun entry =>
    if entry.1.dropLast == place && entry.2 == .directory then entry.1.getLast? else none

/-- Names of everything in a directory. -/
def listing (tree : FileTree) (path : Path) : List String :=
  match tree.place? path with
  | none => []
  | some place => tree.entries.filterMap fun entry =>
    if entry.1.dropLast == place then entry.1.getLast? else none

/-- The same names in order. -/
def names (tree : FileTree) (path : Path) : List String :=
  (tree.listing path).mergeSort fun left right => decide (left ≤ right)

/-- Whether something in a directory has too long a path to be looked up. -/
def holdsTooLong (tree : FileTree) (path : Path) : Bool :=
  (tree.listing path).any fun name => decide (maxPathBytes < (path.child name).display.utf8ByteSize)

/-- Whether a directory is there and may be listed and entered. The system may refuse to say so, or
to look at something that stands in it. -/
def access (tree : FileTree) (path : Path) : Except Fault Bool :=
  match tree.isDirectory path with
  | .error fault => .error fault
  | .ok found =>
    if found && tree.isOpen path then
      if tree.holdsTooLong path then .error .nameTooLong else .ok true
    else .ok false

def read (tree : FileTree) (path : Path) : Except Fault String := do
  match ← tree.look path with
  | none => .error .missing
  | some entry =>
    if !(tree.rightsAt path).read then .error .denied
    else
      match entry with
      | .file text => .ok text
      | .directory => .error .isDirectory

def put (tree : FileTree) (place : List String) (entry : Entry) : FileTree :=
  if (tree.entries.lookup place).isSome then
    { tree with entries := tree.entries.map fun old =>
        if old.1 == place then (place, entry) else old }
  else { tree with entries := tree.entries ++ [(place, entry)] }

def makeFrom (tree : FileTree) : List String → List String → Except Fault FileTree
  | _, [] => .ok tree
  | place, part :: rest =>
    match tree.at? (step place part) with
    | some .directory => makeFrom tree (step place part) rest
    | some (.file _) => .error (if rest.isEmpty then .exists else .notDirectory)
    | none => makeFrom (tree.put (step place part) .directory) (step place part) rest

/-- What the system has against the directories of a path, those that are there and those that
would be made. -/
def refusal? (tree : FileTree) : List String → List String → Option Fault
  | _, [] => none
  | place, part :: rest =>
    (tree.objection? place part).or <|
      match tree.at? (step place part) with
      | some .directory => refusal? tree (step place part) rest
      | some (.file _) => none
      | none =>
        if (tree.rights place).write then refusal? tree (step place part) rest else some .denied

/-- Make a directory with those above it; one that is there stays. -/
def makeDirectory (tree : FileTree) (path : Path) : Except Fault FileTree :=
  if hasZero path then .error .zeroByte
  else if maxPathBytes < path.display.utf8ByteSize then .error .nameTooLong
  else
    match tree.refusal? (tree.origin path) path.parts with
    | some fault => .error fault
    | none => tree.makeFrom [] (tree.current.within path).parts

/-- A file that is there is changed itself, a new one changes its directory. -/
def mayWrite (tree : FileTree) (place : List String) : Bool :=
  (tree.rights (if (tree.at? place).isSome then place else place.dropLast)).write

/-- Write a file into a directory that is there. -/
def write (tree : FileTree) (path : Path) (text : String) : Except Fault FileTree :=
  if hasZero path then .error .zeroByte
  else
    match tree.hindrance? path, tree.place? path with
    | some fault, _ => .error fault
    | none, none => .error .notDirectory
    | none, some place =>
      match tree.at? place, tree.at? place.dropLast with
      | some .directory, _ => .error .isDirectory
      | _, some .directory =>
        if tree.mayWrite place then .ok (tree.put place (.file text)) else .error .denied
      | _, some (.file _) => .error .notDirectory
      | _, none => .error .missing

end FileTree
end BuildRules
