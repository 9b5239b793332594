import CheckedActions.Calendar.DateTime
import CheckedActions.Number.Decimal

/-!
The values that actions take and return. `undefined` stands for a value that is absent, which
`null` is not. Dictionaries keep their entries in insertion order and take keys of any kind;
a mapping is a dictionary that can only be read. Functions are known by a reference, which the
program that made them resolves.
-/

namespace CheckedActions

/-- A function by reference: the name it is shown under, the name it declares, if any, and what
its owner finds it by. -/
structure FuncRef where
  shown : String
  name? : Option String
  ident : String
  deriving DecidableEq, Inhabited

inductive Value where
  | undefined
  | null
  | bool (b : Bool)
  | str (s : String)
  | int (n : Int)
  | float (x : Binary64)
  | decimal (d : Decimal)
  /-- A fraction in lowest terms. -/
  | fraction (num : Int) (den : Nat)
  | complex (re im : Binary64)
  | bytes (bs : List UInt8)
  | list (xs : List Value)
  | tuple (xs : List Value)
  | set (xs : List Value)
  | frozenset (xs : List Value)
  | dict (entries : List (Value × Value))
  | mapping (entries : List (Value × Value))
  | datetime (t : DateTime)
  | date (d : Date)
  | func (f : FuncRef)
  /-- An object with attributes. -/
  | obj (fields : List (String × Value))
  /-- A record with declared fields, which can be dumped into a dictionary. -/
  | model (fields : List (String × Value))
  deriving Inhabited

/-- Things under keys in insertion order, no key twice. -/
abbrev Keyed (α : Type) := List (Value × α)

abbrev Entries := Keyed Value

namespace Value

/-- The name of a value's kind in messages. -/
def kindName : Value → String
  | undefined => "_Undefined"
  | null => "NoneType"
  | bool _ => "bool"
  | str _ => "str"
  | int _ => "int"
  | float _ => "float"
  | decimal _ => "decimal.Decimal"
  | fraction .. => "Fraction"
  | complex .. => "complex"
  | bytes _ => "bytes"
  | list _ => "list"
  | tuple _ => "tuple"
  | set _ => "set"
  | frozenset _ => "frozenset"
  | dict _ => "dict"
  | mapping _ => "mappingproxy"
  | datetime _ => "datetime.datetime"
  | date _ => "datetime.date"
  | func _ => "Fn"
  | obj _ => "Obj"
  | model _ => "Model"

def isUndefined : Value → Bool
  | undefined => true
  | _ => false

def isString : Value → Bool
  | str _ => true
  | _ => false

/-- Whether there is something in a value that can be changed while the value stays the same one. -/
def isCompound : Value → Bool
  | list _ => true
  | tuple _ => true
  | set _ => true
  | frozenset _ => true
  | dict _ => true
  | mapping _ => true
  | obj _ => true
  | model _ => true
  | _ => false

/-- The entries of a dictionary or a mapping. -/
def entries? : Value → Option Entries
  | dict es => some es
  | mapping es => some es
  | _ => none

/-- Whether a condition takes the value for true: zeros, empty collections and the two kinds of
nothing are false. -/
def truthy : Value → Bool
  | undefined => false
  | null => false
  | bool b => b
  | str s => !s.isEmpty
  | int n => n ≠ 0
  | float x => !x.isZero
  | decimal (.finite _ n _) => n ≠ 0
  | fraction n _ => n ≠ 0
  | complex re im => !(re.isZero && im.isZero)
  | bytes bs => !bs.isEmpty
  | list xs => !xs.isEmpty
  | tuple xs => !xs.isEmpty
  | set xs => !xs.isEmpty
  | frozenset xs => !xs.isEmpty
  | dict es => !es.isEmpty
  | mapping es => !es.isEmpty
  | _ => true

/-- A dictionary with text keys. -/
def record (fields : List (String × Value)) : Value :=
  dict (fields.map fun (k, v) => (str k, v))

end Value
end CheckedActions
