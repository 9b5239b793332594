import CheckedActions.Value.Basic

/-!
Type tags, the small vocabulary in which validation speaks of values. `array` and `date` are
expected by validators only: no value reports them.
-/

namespace CheckedActions

inductive TypeTag where
  | string
  | number
  | boolean
  | object
  | function
  | array
  | date
  | undefined
  deriving DecidableEq, Inhabited

namespace TypeTag

def all : List TypeTag :=
  [string, number, boolean, object, function, array, date, undefined]

def name : TypeTag → String
  | string => "string"
  | number => "number"
  | boolean => "boolean"
  | object => "object"
  | function => "function"
  | array => "array"
  | date => "date"
  | undefined => "undefined"

/-- The tag of a name. -/
def ofName? (s : String) : Option TypeTag := all.find? (·.name = s)

end TypeTag

namespace Value

/-- The tag of a value. -/
def tag : Value → TypeTag
  | undefined => .undefined
  | bool _ => .boolean
  | str _ => .string
  | int _ => .number
  | float _ => .number
  | decimal _ => .number
  | fraction .. => .number
  | complex .. => .number
  | func _ => .function
  | _ => .object

end Value
end CheckedActions
