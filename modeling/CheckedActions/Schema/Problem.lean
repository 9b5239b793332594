import CheckedActions.Value.Show

/-!
What is wrong with a value that does not fit a declared shape, and where in the value it is.
-/

namespace CheckedActions

/-- What a shape check finds. -/
inductive ProblemKind where
  | missing
  | boolType
  | boolParsing
  | intType
  | intParsing
  | intParsingSize
  | intFromFloat
  | finiteNumber
  | stringType
  | stringUnicode
  | listType
  | tupleType
  | dictType
  | modelType
  | callableType
  | frozenInstance
  | extraForbidden
  deriving DecidableEq

def ProblemKind.name : ProblemKind → String
  | missing => "missing"
  | boolType => "bool_type"
  | boolParsing => "bool_parsing"
  | intType => "int_type"
  | intParsing => "int_parsing"
  | intParsingSize => "int_parsing_size"
  | intFromFloat => "int_from_float"
  | finiteNumber => "finite_number"
  | stringType => "string_type"
  | stringUnicode => "string_unicode"
  | listType => "list_type"
  | tupleType => "tuple_type"
  | dictType => "dict_type"
  | modelType => "model_type"
  | callableType => "callable_type"
  | frozenInstance => "frozen_instance"
  | extraForbidden => "extra_forbidden"

/-- One step on the way to a problem. -/
inductive Place where
  | name (s : String)
  | index (n : Int)
  deriving DecidableEq

structure Problem where
  place : List Place
  kind : ProblemKind
  deriving DecidableEq

/-- How problems are worded, all in one text. The library that finds them words them as well, and
its words are left open here. -/
abbrev Wording := List Problem → String

def Place.text : Place → String
  | name s => s
  | index n => toString n

/-- Every problem with its place, for want of other words. -/
def Wording.bare : Wording := fun problems =>
  "\n".intercalate (problems.map fun x =>
    ".".intercalate (x.place.map Place.text) ++ ": " ++ x.kind.name)

/-- The problem seen from one step further out. -/
def Problem.inside (p : Place) (x : Problem) : Problem := { x with place := p :: x.place }

/-- Whether a whole number fits into 64 bits. -/
def isWord (n : Int) : Bool :=
  decide (-9223372036854775808 ≤ n) && decide (n ≤ 9223372036854775807)

/-- The step a dictionary key stands for: whole numbers of 64 bits keep their value. -/
def Place.ofKey : Value → Place
  | .str s => .name s
  | .int n => if isWord n then .index n else .name (toString n)
  | .bool b => .index (if b then 1 else 0)
  | v => .name v.quoted

end CheckedActions
