import CheckedActions.Proofs.Performing

/-!
Layers of defaults. Extending entries by others is the same in any grouping, and extending by none
changes nothing. So an action is called with the same input, whether a layer lies over its defaults
or under what is supplied.
-/

namespace CheckedActions

namespace Entries

/-- The supplied entries are laid over those of the mapping. -/
theorem extend_eq {a b : Value} {x y : Entries} (ha : a.IsMapping x) (hb : Given b y) :
    extend a b = .ok (x.overlay y) := by
  have hx : ofValue a = ofValue (.dict x) := by
    rw [ofValue_mapping ha, ofValue_mapping ⟨rfl, ha.2⟩]
  calc extend a b = extend (.dict x) b := by rw [extend, extend, hx]
    _ = .ok (x.overlay y) := extend_given ha.2 hb

end Entries

namespace Action

variable {σ : Type}

/-- The action with other providers of defaults. -/
def withDefaults (act : Action σ) (jacks? props? : Option (Provider σ)) : Action σ :=
  { act with descriptor :=
      { act.descriptor with defaultJacks? := jacks?, defaultProps? := props? } }

/-- What a side of a call comes to before it is validated. -/
def merged (provider? : Option (Provider σ)) (supplied : Value) : Call σ (Except Failure Entries) :=
  (fun defaults => Entries.extend (.dict defaults) supplied) <$> defaultsFrom provider?

/-- Two ways to come by a side of a call give the same merged input in every scene. -/
def SameInput (p? : Option (Provider σ)) (v : Value) (q? : Option (Provider σ)) (w : Value) :
    Prop :=
  ∀ s, (merged p? v).runIn s = (merged q? w).runIn s

theorem SameInput.refl (p? : Option (Provider σ)) (v : Value) : SameInput p? v p? v := fun _ => rfl

/-- What a call does once it has its defaults. -/
def callOver (act : Action σ) (defaults : Entries × Entries) (jacks props : Value) :
    Call σ Value := do
  match ← Call.attempt (act.sanitize defaults jacks props) with
  | .error f =>
    match f.errors? with
    | some errors =>
      Call.log .debug logger
        ("Validation failed for action " ++ act.name ++ ": " ++ errors.text)
      throw f
    | none => throw f
  | .ok (j, p) =>
    Call.log .debug logger ("Performing action " ++ act.name)
    act.descriptor.perform j p

theorem call_withDefaults (act : Action σ) (jacks? props? : Option (Provider σ))
    (jacks props : Value) :
    (act.withDefaults jacks? props?).call jacks props =
      defaultsFrom jacks? >>= fun dj => defaultsFrom props? >>= fun dp =>
        act.callOver (dj, dp) jacks props := by
  have hcall : (act.withDefaults jacks? props?).call jacks props =
      (act.withDefaults jacks? props?).defaults >>= fun d => act.callOver d jacks props := rfl
  rw [hcall, defaults, bind_assoc]
  simp only [bind_assoc, pure_bind]
  rfl

/-- What lies under a call and what is supplied to it matter only by what they are merged into. -/
theorem runIn_call_congr (act : Action σ) {pj qj pp qp : Option (Provider σ)} {j j' p p' : Value}
    (hj : SameInput pj j qj j') (hp : SameInput pp p qp p') (s : Scene σ) :
    ((act.withDefaults pj pp).call j p).runIn s =
      ((act.withDefaults qj qp).call j' p').runIn s := by
  rw [call_withDefaults, call_withDefaults]
  refine Call.runIn_bind_congr hj (fun dj ej hmergedj => ?_) s
  refine Call.runIn_bind_congr hp (fun dp ep hmergedp t => ?_)
  have hsides : act.sanitize (dj, dp) j p = act.sanitize (ej, ep) j' p' := by
    rw [sanitize, sanitize, hmergedj, hmergedp]
  rw [callOver, callOver, hsides]

/-- The provider supplies mappings, when it supplies anything. -/
def SuppliesMappings (provide : Provider σ) : Prop :=
  ∀ {s v t}, Call.runIn provide s = (.ok v, t) → ∃ es, v.IsMapping es

/-- The provider with a layer over what it supplies. -/
def layered (provide : Provider σ) (layer : Value) : Call σ Value := do
  let base ← provide
  return .dict (← Call.ofExcept (Entries.extend base layer))

/-- A layer over the defaults can be put under the supplied values instead. -/
theorem sameInput_layered {base : Provider σ} (hbase : SuppliesMappings base) {b c : Value}
    {y z : Entries} (hb : b.IsMapping y) (hc : Entries.Given c z) :
    SameInput (some (layered base b)) c (some base) (.dict (y.overlay z)) := by
  intro s
  rw [merged, merged, defaultsFrom, defaultsFrom, Call.runIn_map, Call.runIn_map]
  rcases hrun : Call.runIn base s with ⟨f | v, t⟩
  · have hlayered : (layered base b).runIn s = (.error f, t) := Call.runIn_bind_error hrun _
    rw [Call.runIn_bind_error hlayered, Call.runIn_bind_error hrun]
    rfl
  · obtain ⟨x, hx⟩ := hbase hrun
    have hlayered : (layered base b).runIn s = (.ok (.dict (x.overlay y)), t) := by
      rw [layered, Call.runIn_bind_ok hrun, Entries.extend_eq hx (.mapping hb)]
      rfl
    have hxy : Keyed.Distinct (x.overlay y) := hx.2.overlay y
    rw [Call.runIn_bind_ok hlayered, Call.runIn_bind_ok hrun, Entries.ofValue_mapping ⟨rfl, hxy⟩,
      Entries.ofValue_mapping hx]
    change (Except.ok (Entries.extend _ c), t) = (Except.ok (Entries.extend _ _), t)
    rw [Entries.extend_given hxy hc,
      Entries.extend_given hx.2 (.mapping ⟨rfl, hb.2.overlay z⟩), Keyed.overlay_assoc hb.2]

end Action

namespace Entries

/-- Extending mappings lays the upper one over the lower one: what is present there wins, whatever
it is, and the keys of the lower one come first. It returns in any case, three layers are the same
in either grouping, and no entries, or nothing supplied, make no difference. So actions are called
with the same input, whether the middle layer lies over their defaults or under what is supplied. -/
theorem extend_layers {a b c : Value} {x y z : Entries} (ha : a.IsMapping x) (hb : b.IsMapping y)
    (hc : c.IsMapping z) :
    (∃ ab bc abc, extend a b = .ok ab ∧ extend b c = .ok bc ∧
      (Value.dict ab).IsMapping ab ∧ (Value.dict bc).IsMapping bc ∧
      (∀ k, ab.get? k = if (y.get? k).isSome then y.get? k else x.get? k) ∧
      ab.keys = x.keys ++ y.keys.filter (fun k => (x.get? k).isNone) ∧
      extend (.dict ab) c = .ok abc ∧ extend a (.dict bc) = .ok abc ∧
      ∀ {σ : Type} (act : Action σ) {base : Provider σ}, Action.SuppliesMappings base →
        ∀ other? supplied s,
          ((act.withDefaults (some (Action.layered base b)) other?).call c supplied).runIn s =
            ((act.withDefaults (some base) other?).call (.dict bc) supplied).runIn s ∧
          ((act.withDefaults other? (some (Action.layered base b))).call supplied c).runIn s =
            ((act.withDefaults other? (some base)).call supplied (.dict bc)).runIn s) ∧
    (∀ empty : Value, empty.IsMapping [] → extend a empty = .ok x ∧ extend empty a = .ok x) ∧
    extend a .null = .ok x ∧ extend a .undefined = .ok x := by
  have hxy : Keyed.Distinct (x.overlay y) := ha.2.overlay y
  have hyz : Keyed.Distinct (y.overlay z) := hb.2.overlay z
  refine ⟨⟨x.overlay y, y.overlay z, x.overlay (y.overlay z), extend_eq ha (.mapping hb),
    extend_eq hb (.mapping hc), ⟨rfl, hxy⟩, ⟨rfl, hyz⟩, fun k => ?_, Keyed.keys_overlay hb.2 x, ?_,
    extend_eq ha (.mapping ⟨rfl, hyz⟩), ?_⟩, fun empty he => ⟨?_, ?_⟩, extend_eq ha .null,
    extend_eq ha .undefined⟩
  · rw [Keyed.get?_overlay hb.2]
    cases y.get? k <;> rfl
  · rw [extend_given hxy (.mapping hc), Keyed.overlay_assoc hb.2]
  · intro σ act base hbase other? supplied s
    have hsame := Action.sameInput_layered hbase hb (.mapping hc)
    exact ⟨act.runIn_call_congr hsame (.refl _ _) s, act.runIn_call_congr (.refl _ _) hsame s⟩
  · exact extend_eq ha (.mapping he)
  · rw [extend_eq he (.mapping ha), Keyed.overlay_nil ha.2]

/-- A read-only layer takes the mark away from the greeting by default, and is told `1` where the
default says `true`. -/
def quietLayer : Value :=
  .mapping [(.str "mark", .undefined), (.int 1, .str "once"), (.str "guest", .null)]

/-- The mark by default gives way to an absent one, in its old place, and the two spellings of one
key are one entry; so it is in either grouping, and when an action is called. -/
theorem quiet_greeting_layers :
    (∃ ab bc abc,
      extend (.dict [(.bool true, .str "yes"), (.str "mark", .str "!")]) quietLayer = .ok ab ∧
      extend quietLayer (.record [("guest", .str "Ada")]) = .ok bc ∧
      ab.keys = [.bool true, .str "mark", .str "guest"] ∧
      ab.get? (.str "mark") = some .undefined ∧ ab.get? (.bool true) = some (.str "once") ∧
      extend (.dict ab) (.record [("guest", .str "Ada")]) = .ok abc ∧
      extend (.dict [(.bool true, .str "yes"), (.str "mark", .str "!")]) (.dict bc) = .ok abc ∧
      ((Action.greeter.withDefaults (some (Action.layered Action.greeting quietLayer)) none).call
          (.record [("guest", .str "Ada")]) .null).runIn (.initial ()) =
        ((Action.greeter.withDefaults (some Action.greeting) none).call (.dict bc) .null).runIn
          (.initial ())) := by
  have hgreeting : Action.SuppliesMappings Action.greeting := by
    rintro s v t ⟨⟩
    exact ⟨_, rfl, by decide⟩
  obtain ⟨⟨ab, bc, abc, hab, hbc, -, -, hget, hkeys, hleft, hright, hcall⟩, -⟩ :=
    extend_layers (a := .dict [(.bool true, .str "yes"), (.str "mark", .str "!")])
      (b := quietLayer) (c := .record [("guest", .str "Ada")]) ⟨rfl, by decide⟩ ⟨rfl, by decide⟩
      ⟨rfl, by decide⟩
  exact ⟨ab, bc, abc, hab, hbc, hkeys, hget _, hget _, hleft, hright,
    (hcall Action.greeter hgreeting none .null (.initial ())).1⟩

end Entries
end CheckedActions
