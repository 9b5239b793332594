import CheckedActions.Plugin.Roster

/-!
Modules as sources of actions: a module exports the actions of its export table if it has one, and
otherwise every action it defines, under the action's own name.
-/

namespace CheckedActions

/-- What a module defines. -/
structure ModuleContent (σ : Type) where
  attributes : List (String × Offer σ)
  /-- The table of exports, if there is one. -/
  exports? : Option (Keyed (Offer σ))

namespace ModuleContent

variable {σ : Type}

def empty : ModuleContent σ := ⟨[], none⟩

/-- The name of the attribute that stands for a table of exports. -/
def exportName : String := "ACTIONS"

/-- The table of exports, which can also be given as an attribute. -/
def exportTable? (m : ModuleContent σ) : Option (Keyed (Offer σ)) :=
  m.exports?.or ((m.attributes.lookup exportName).bind Offer.entries?)

/-- The module with an attribute for a module inside it, which is neither an action nor a table of
exports and takes the place of either. -/
def bindInner (m : ModuleContent σ) (name : String) : ModuleContent σ :=
  { attributes := putNamed m.attributes name (.value (.obj []))
    exports? := if name = exportName then none else m.exports? }

/-- The actions a module exports. -/
def actions (m : ModuleContent σ) : Keyed (Action σ) :=
  match m.exportTable? with
  | some entries => acceptedOffers entries
  | none => .ofPairs (m.attributes.filterMap fun
    | (_, .action a) => some (.str a.name, a)
    | _ => none)

end ModuleContent
end CheckedActions
