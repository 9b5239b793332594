import CheckedActions.Validator.Basic

/-!
Labels: how a validator is described. Every step has a name, and a chain joins them with dots;
empty names in front of the first one that is not empty leave no trace.
-/

namespace CheckedActions

variable {σ : Type}

/-- The label of a chain extended by a step of the given name. -/
def joinLabel (base name : String) : String :=
  if base.isEmpty then name else base ++ "." ++ name

def CustomStep.composeLabel (f : CustomStep σ) (label? : Option String) : String :=
  label?.getD (f.name?.getD "compose")

def CustomStep.optionalLabel (f : CustomStep σ) (label? : Option String) : String :=
  label?.getD ("optional(" ++ f.name?.getD "fn" ++ ")")

def Step.name : Step σ → String
  | .typeOf tag => tag.name
  | .array => TypeTag.array.name
  | .date => TypeTag.date.name
  | .required => "is_required"
  | .fields declared => "shape" ++ Value.braced (", ".intercalate (declared.map (·.1)))
  | .compose f label? => f.composeLabel label?
  | .optional f label? => f.optionalLabel label?

/-- The label of a chain of the given label extended by the steps of another one. -/
def Validator.labelAfter (v : Validator σ) (base : String) : String :=
  v.foldl (fun base s => joinLabel base s.name) base

def Validator.label (v : Validator σ) : String := v.labelAfter ""

/-- What a description shows for a field: its label, or `any` where there is none. -/
def Field.label : Field σ → Value
  | .checked steps =>
    .str (if (Validator.label steps).isEmpty then "any" else Validator.label steps)
  | .raw v => match v.attribute? "label" with
    | some l => if l.truthy then l else .str "any"
    | none => .str "any"

end CheckedActions
