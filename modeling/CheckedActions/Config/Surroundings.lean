import CheckedActions.Schema.Problem
import CheckedActions.Text.Blank

/-!
What the configuration is read from: the current directory, the environment variables, and the
files there are. Paths are given by their parts. Beside these stands how the library that checks
settings words what is wrong with them.
-/

namespace CheckedActions

/-- A path to a file or directory, without empty parts and without parts that stay in place. -/
structure Path where
  isAbsolute : Bool
  parts : List String
  deriving DecidableEq

namespace Path

def ofString (s : String) : Path :=
  let pieces := (cutAt (· = '/') s.toList).map String.ofList
  ⟨s.toList.head? = some '/', pieces.filter fun p => !p.isEmpty && p ≠ "."⟩

def toString (p : Path) : String :=
  let body := "/".intercalate p.parts
  if p.isAbsolute then "/" ++ body else if body.isEmpty then "." else body

/-- A path seen from another one. -/
def join (base p : Path) : Path :=
  if p.isAbsolute then p else ⟨base.isAbsolute, base.parts ++ p.parts⟩

end Path

structure Surroundings where
  /-- The parts of the current directory's path. -/
  directory : List String
  /-- The names and texts of the environment, in order. -/
  environment : List (String × String)
  /-- Files by the parts of their absolute paths, with their texts. -/
  files : List (List String × String)
  wording : Wording := .bare

namespace Surroundings

/-- Whether a directory of that path exists. -/
def isDirectory (s : Surroundings) (parts : List String) : Bool :=
  parts.isPrefixOf s.directory || s.files.any fun (p, _) => parts.isPrefixOf p && parts ≠ p

/-- The place a path leads to, step by step; only a directory that exists can be left upwards. -/
def follow (s : Surroundings) : List String → List String → Option (List String)
  | place, [] => some place
  | place, ".." :: rest =>
    if s.isDirectory place then follow s place.dropLast rest else none
  | place, p :: rest => follow s (place ++ [p]) rest

/-- The text of a file. -/
def read? (s : Surroundings) (p : Path) : Option String := do
  let place ← s.follow (if p.isAbsolute then [] else s.directory) p.parts
  s.files.lookup place

/-- The absolute path of a place that may not exist. -/
def resolve (s : Surroundings) (p : Path) : List String :=
  (Path.join ⟨true, s.directory⟩ p).parts.foldl
    (fun place part => if part = ".." then place.dropLast else place ++ [part]) []

/-- The value of an environment variable. -/
def lookup? (s : Surroundings) (name : String) : Option String := s.environment.lookup name

end Surroundings
end CheckedActions
