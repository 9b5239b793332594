import CheckedActions.Call
import CheckedActions.Value.Access
import CheckedActions.Value.Field
import CheckedActions.Value.Instant

/-!
Validators. A validator is a chain of steps; each takes the value the step before it produced and
either hands on a value or fails. Steps other than `required` and `compose` let an absent value
pass without looking at it. A shape checks every declared field, also after others have failed, and
collects what is wrong with each. Only a failure of which it cannot be told what it is makes the
shape itself fail, with the failure to tell it.
-/

namespace CheckedActions

/-- A check or conversion supplied from outside, with the name it declares, if any. -/
structure CustomStep (σ : Type) where
  name? : Option String
  apply : Value → Call σ Value

mutual
inductive Step (σ : Type) where
  | typeOf (tag : TypeTag)
  | array
  | date
  | required
  /-- Every declared field on its own; the result holds exactly the declared keys. -/
  | fields (declared : List (String × Field σ))
  | compose (f : CustomStep σ) (label? : Option String)
  | optional (f : CustomStep σ) (label? : Option String)

/-- What a shape declares for a key: a chain of steps, or some value that is no validator. -/
inductive Field (σ : Type) where
  | checked (steps : List (Step σ))
  | raw (v : Value)
end

abbrev Validator (σ : Type) := List (Step σ)

namespace Validator

variable {σ : Type}

/-- Accepts every value unchanged. -/
def root : Validator σ := []

def typeOf (v : Validator σ) (tag : TypeTag) : Validator σ := v ++ [.typeOf tag]
def string (v : Validator σ) : Validator σ := v.typeOf .string
def number (v : Validator σ) : Validator σ := v.typeOf .number
def boolean (v : Validator σ) : Validator σ := v.typeOf .boolean
def object (v : Validator σ) : Validator σ := v.typeOf .object
def function (v : Validator σ) : Validator σ := v.typeOf .function
def array (v : Validator σ) : Validator σ := v ++ [.array]
def date (v : Validator σ) : Validator σ := v ++ [.date]
def required (v : Validator σ) : Validator σ := v ++ [.required]

/-- Requires an object, then checks its fields. -/
def shape (v : Validator σ) (declared : List (String × Field σ)) : Validator σ :=
  v.object ++ [.fields declared]

/-- The shape of fields under any keys, which all have to be texts. -/
def shapeOf? (v : Validator σ) (declared : Keyed (Field σ)) : Except Failure (Validator σ) := do
  let names ← Value.texts declared.keys
  return v.shape (names.zip (declared.map (·.2)))

def compose (v : Validator σ) (f : CustomStep σ) (label? : Option String) : Validator σ :=
  v ++ [.compose f label?]

def optional (v : Validator σ) (f : CustomStep σ) (label? : Option String) : Validator σ :=
  v ++ [.optional f label?]

/-- The type check for a tag given as a value, which has to be a tag's name. What is no tag is
written out at once. -/
def typeOf? (v : Validator σ) (expected : Value) : Except Failure (Validator σ) :=
  match expected with
  | .str s => match TypeTag.ofName? s with
    | some tag => .ok (v.typeOf tag)
    | none => .error (.unknownTag expected)
  | _ => do
    expected.ifWritable ()
    throw (.unknownTag expected)

end Validator

/-- What a shape keeps of a field's outcome: its result, or else what its errors hold for it. -/
abbrev FieldReport := Except Value Value

/-- The report of an outcome. It fails if the failure that there is cannot be told. -/
def reportOf : Except Failure Value → Except Failure FieldReport
  | .ok v => .ok (.ok v)
  | .error f => f.entry.map .error

/-- Reports of fields as one outcome: a dictionary of the results if all of them passed, or else
a rejection that names the failing keys only. -/
def collectFields (reports : List (String × FieldReport)) : Except Failure Value :=
  let errors := reports.filterMap fun (k, r) => match r with
    | .error e => some (k, e)
    | .ok _ => none
  if errors.isEmpty then
    .ok (Value.record (reports.filterMap fun (k, r) => match r with
      | .ok v => some (k, v)
      | .error _ => none))
  else .error (.rejected (Value.record errors))

/-- The mismatch between a present value and an expected tag. -/
def mismatchOf (v : Value) (expected : TypeTag) : Failure :=
  .mismatch (.str v.tag.name) (.str expected.name)

def checkTag (tag : TypeTag) (v : Value) : Except Failure Value :=
  if v.isUndefined ∨ v.tag = tag then .ok v else .error (mismatchOf v tag)

def checkArray (v : Value) : Except Failure Value :=
  match v with
  | .undefined => .ok v
  | .list _ => .ok v
  | .tuple _ => .ok v
  | _ => .error (mismatchOf v .array)

def checkDate (v : Value) : Except Failure Value :=
  match v with
  | .undefined => .ok .undefined
  | v => match v.toInstant with
    | .ok (some t) => .ok (.datetime t)
    | .ok none => .error (mismatchOf v .date)
    | .error f => .error f

def checkPresent (v : Value) : Except Failure Value :=
  if v.isUndefined then .error .required else .ok v

variable {σ : Type}

mutual
/-- One step on a value. -/
def Step.run : Step σ → Value → Call σ Value
  | .typeOf tag, v => Call.ofExcept (checkTag tag v)
  | .array, v => Call.ofExcept (checkArray v)
  | .date, v => Call.ofExcept (checkDate v)
  | .required, v => Call.ofExcept (checkPresent v)
  | .fields declared, v =>
    if v.isUndefined then pure v
    else do Call.ofExcept (collectFields (← runFields declared v))
  | .compose f _, v => f.apply v
  | .optional f _, v => if v.isUndefined then pure v else f.apply v
termination_by structural s => s

/-- The steps of a chain, each on the result of the one before it. -/
def runSteps : List (Step σ) → Value → Call σ Value
  | [], v => pure v
  | s :: ss, v => do runSteps ss (← s.run v)
termination_by structural ss => ss

/-- A declared field of a value: the field is read, then checked. -/
def Field.run : Field σ → Value → String → Call σ Value
  | .checked steps, v, key => do runSteps steps (← Call.ofExcept (v.readField key))
  | .raw other, _, _ => throw (.noAttribute other.kindName "validate")
termination_by structural f => f

/-- The reports of all declared fields in order. A failure that cannot be told ends the run, and
the fields after it are not looked at. -/
def runFields : List (String × Field σ) → Value → Call σ (List (String × FieldReport))
  | [], _ => pure []
  | (key, f) :: rest, v => do
    let outcome ← Call.attempt (f.run v key)
    let report ← Call.ofExcept (reportOf outcome)
    return (key, report) :: (← runFields rest v)
termination_by structural fs => fs
end

/-- The sanitized value, or the failure of the first step that fails. Without a value to validate
there is an absent one. -/
def Validator.validate (v : Validator σ) (value : Value := .undefined) : Call σ Value :=
  runSteps v value

@[simp] theorem runSteps_nil (v : Value) : runSteps ([] : List (Step σ)) v = pure v := rfl

@[simp] theorem runSteps_cons (s : Step σ) (ss : List (Step σ)) (v : Value) :
    runSteps (s :: ss) v = s.run v >>= runSteps ss := rfl

/-- Chains run one after the other. -/
theorem runSteps_append (xs ys : List (Step σ)) (v : Value) :
    runSteps (xs ++ ys) v = runSteps xs v >>= runSteps ys := by
  induction xs generalizing v with
  | nil => simp
  | cons s ss ih =>
    have : runSteps (ss ++ ys) = fun v => runSteps ss v >>= runSteps ys := funext ih
    simp [this]

end CheckedActions
