/-! Slash-separated paths. Empty and single-dot components do not count; two dots do. -/
namespace BuildRules

structure Path where
  /-- Leading slashes: none for a relative path, and exactly two are kept as two. -/
  anchor : String
  parts : List String
deriving DecidableEq

namespace Path

def ofText (text : String) : Path :=
  let slashes := (text.toList.takeWhile (· == '/')).length
  let anchor := if slashes = 0 then "" else if slashes = 2 then "//" else "/"
  let parts := (text.toList.splitOn '/').map String.ofList
  ⟨anchor, parts.filter fun part => part != "" && part != "."⟩

def isAbsolute (path : Path) : Bool := path.anchor != ""

def display (path : Path) : String :=
  if path.anchor == "" && path.parts.isEmpty then "."
  else path.anchor ++ "/".intercalate path.parts

/-- A path read from a base; an absolute one stands for itself. -/
def within (base path : Path) : Path :=
  if path.isAbsolute then path else ⟨base.anchor, base.parts ++ path.parts⟩

/-- The last component. -/
def name (path : Path) : String := path.parts.getLastD ""

/-- The last component taken away, if there is one. -/
def parent (path : Path) : Path := ⟨path.anchor, path.parts.dropLast⟩

def child (path : Path) (name : String) : Path := ⟨path.anchor, path.parts ++ [name]⟩

/-- The last dot of the name and what follows it; a dot at either end of the name is none. -/
def suffix (path : Path) : String :=
  let reversed := path.name.toList.reverse
  let extension := reversed.takeWhile (· != '.')
  let stem := (reversed.dropWhile (· != '.')).drop 1
  if extension.isEmpty || stem.isEmpty then "" else String.ofList ('.' :: extension.reverse)

end Path
end BuildRules
