import CheckedActions.Proofs.Names
import CheckedActions.Proofs.Precedence
import Mathlib

/-!
Which variables hold the fields of a section. A section that no variable holds as a whole has a
field exactly if there is a variable for it, named by the section and the field with two underscores
between them. Variables that go deeper than the fields of a section only ever make a dictionary of a
field, and no field of the settings is one.
-/

namespace CheckedActions.Config

/-! ### Names in small letters -/

/-- The text has no capitals. -/
def IsLowered (s : String) : Prop := lowered s = s

theorem isLowered_iff {s : String} : IsLowered s ↔ ∀ c ∈ s.toList, c.toLower = c := by
  have hid := List.map_inj_left (f := Char.toLower) (g := id) (l := s.toList)
  rw [List.map_id] at hid
  rw [IsLowered, lowered, ← String.toList_inj, String.toList_map]
  exact hid

theorem isLowered_lowered (s : String) : IsLowered (lowered s) := by
  rw [isLowered_iff, lowered, String.toList_map]
  simp

/-- No two variables have one name in small letters. -/
theorem loweredVariables_spec (given : List (String × String)) :
    ((loweredVariables given).map (·.1)).Nodup ∧ ∀ e ∈ loweredVariables given, IsLowered e.1 := by
  have hstep : ∀ vs : List (String × String), (vs.map (·.1)).Nodup → (∀ e ∈ vs, IsLowered e.1) →
      let held := given.foldl (fun vs e => putNamed vs (lowered e.1) e.2) vs
      (held.map (·.1)).Nodup ∧ ∀ e ∈ held, IsLowered e.1 := by
    induction given with
    | nil => exact fun vs hnodup hlowered => ⟨hnodup, hlowered⟩
    | cons d given ih =>
      intro vs hnodup hlowered
      refine ih _ (nodup_putNamed hnodup _ _) fun e he => ?_
      rcases mem_putNamed he with he | rfl
      · exact hlowered e he
      · exact isLowered_lowered d.1
  exact hstep [] List.nodup_nil (by simp)

/-! ### Names cut at pairs of underscores -/

theorem exists_cutAtDelimiter (cs : List Char) : ∃ p ps, cutAtDelimiter cs = p :: ps := by
  fun_induction cutAtDelimiter cs with
  | case1 => exact ⟨_, _, rfl⟩
  | case2 => exact ⟨_, _, rfl⟩
  | case3 => exact ⟨_, _, rfl⟩
  | case4 => exact ⟨_, _, rfl⟩

/-- A name that is cut in one piece is that piece. -/
theorem eq_of_cutAtDelimiter {cs p : List Char} (h : cutAtDelimiter cs = [p]) : cs = p := by
  fun_induction cutAtDelimiter cs generalizing p with
  | case1 => simpa using h
  | case2 rest ih =>
    obtain ⟨q, qs, hrest⟩ := exists_cutAtDelimiter rest
    simp [hrest] at h
  | case3 c rest hc piece pieces hrest ih =>
    obtain ⟨rfl, rfl⟩ := List.cons.inj h
    rw [ih hrest]
  | case4 c rest hc hrest ih =>
    obtain ⟨q, qs, hcut⟩ := exists_cutAtDelimiter rest
    rw [hcut] at hrest
    cases hrest

/-- The characters of pieces are characters of the name. -/
theorem mem_of_cutAtDelimiter {cs p : List Char} (hp : p ∈ cutAtDelimiter cs) {c : Char}
    (hc : c ∈ p) : c ∈ cs := by
  fun_induction cutAtDelimiter cs generalizing p with
  | case1 =>
    cases List.mem_singleton.1 hp
    cases hc
  | case2 rest ih =>
    rcases List.mem_cons.1 hp with rfl | hp
    · cases hc
    · exact List.mem_cons_of_mem _ (List.mem_cons_of_mem _ (ih hp hc))
  | case3 d rest hd piece pieces hrest ih =>
    rw [hrest] at ih
    rcases List.mem_cons.1 hp with rfl | hp
    · rcases List.mem_cons.1 hc with rfl | hc
      · exact List.mem_cons_self
      · exact List.mem_cons_of_mem d (ih List.mem_cons_self hc)
    · exact List.mem_cons_of_mem d (ih (List.mem_cons_of_mem piece hp) hc)
  | case4 d rest hd hrest ih =>
    obtain ⟨q, qs, hcut⟩ := exists_cutAtDelimiter rest
    rw [hcut] at hrest
    cases hrest

/-- A name without two underscores in a row is one piece. -/
def IsPiece (key : String) : Prop := cutAtDelimiter key.toList = [key.toList]

/-! ### Values stored under paths -/

/-- What there may be where a value was, or none, when variables have gone deeper: the same, or a
dictionary in place of none or of another one. -/
def Deepened (v? w? : Option Value) : Prop :=
  w? = v? ∨ (∃ sub, w? = some (.dict sub)) ∧ (v? = none ∨ ∃ sub, v? = some (.dict sub))

theorem Deepened.trans {u? v? w? : Option Value} (huv : Deepened u? v?) (hvw : Deepened v? w?) :
    Deepened u? w? := by
  rcases hvw with rfl | ⟨hw, hv⟩
  · exact huv
  · rcases huv with rfl | ⟨-, hu⟩
    · exact .inr ⟨hw, hv⟩
    · exact .inr ⟨hw, hu⟩

theorem Deepened.eq_of_not_dict {v? w? : Option Value} (h : Deepened v? w?)
    (hw : ∀ sub, w? ≠ some (.dict sub)) : w? = v? := by
  rcases h with h | ⟨⟨sub, hsub⟩, -⟩
  · exact h
  · exact absurd hsub (hw sub)

/-- A value is stored by putting one under the first key, or is not stored. -/
theorem storeAt_cases (v : Value) (k : String) (ks : List String) (es : Entries) :
    storeAt v (k :: ks) es = es ∨ ∃ w, storeAt v (k :: ks) es = es.put (.str k) w := by
  cases ks with
  | nil => exact .inr ⟨v, rfl⟩
  | cons j ks =>
    unfold storeAt
    split
    · exact .inr ⟨_, rfl⟩
    · exact .inr ⟨_, rfl⟩
    · exact .inl rfl

theorem field?_storeAt_self (v : Value) (key : String) (es : Entries) :
    (storeAt v [key] es).field? key = some v := by
  rw [storeAt, Entries.field?_put, if_pos rfl]

theorem field?_storeAt_ne {k key : String} (h : k ≠ key) (v : Value) (ks : List String)
    (es : Entries) : (storeAt v (k :: ks) es).field? key = es.field? key := by
  rcases storeAt_cases v k ks es with hsame | ⟨w, hput⟩
  · rw [hsame]
  · rw [hput, Entries.field?_put, if_neg h]

theorem deepened_storeAt {ks : List String} (h : ks ≠ []) (v : Value) (key : String)
    (es : Entries) : Deepened (es.field? key) ((storeAt v (key :: ks) es).field? key) := by
  cases ks with
  | nil => exact absurd rfl h
  | cons j ks =>
    unfold storeAt
    split
    · rename_i hnone
      rw [Entries.field?_put, if_pos rfl]
      exact .inr ⟨⟨_, rfl⟩, .inl hnone⟩
    · rename_i sub hsub
      rw [Entries.field?_put, if_pos rfl]
      exact .inr ⟨⟨_, rfl⟩, .inr ⟨sub, hsub⟩⟩
    · exact .inl rfl

/-- Entries under different names in small letters. -/
structure LoweredNames (es : Entries) : Prop where
  distinct : Keyed.Distinct es
  lowered : ∀ e ∈ es, ∃ s, e.1 = .str s ∧ IsLowered s

theorem LoweredNames.storeAt {es : Entries} (h : LoweredNames es) (v : Value) {k : String}
    (hk : IsLowered k) (ks : List String) : LoweredNames (storeAt v (k :: ks) es) := by
  rcases storeAt_cases v k ks es with hsame | ⟨w, hput⟩
  · rwa [hsame]
  · rw [hput]
    refine ⟨h.distinct.put _ _, fun e he => ?_⟩
    rcases Keyed.mem_put he with he | ⟨hkey | hkey, -⟩
    · exact h.lowered e he
    · exact ⟨k, hkey, hk⟩
    · exact ⟨k, Value.sameKey_str_iff.1 hkey, hk⟩

/-! ### Variables of a section -/

/-- The variable for a field of a section. -/
def fieldVariable (name key : String) : String := namePrefix ++ name ++ "__" ++ key

/-- The value that the text of a variable of a section stands for. Structured values are written as
JSON. -/
def variableValue (name : String) (form? : Option FieldForm) (text : String) :
    Except Failure Value :=
  match form? with
  | some (.structured _) => if text.isEmpty then .ok (.str text) else decode name text
  | _ => .ok (.str text)

/-- What the variable for a field of a section holds, if there is one. -/
def variableValue? (given : List (String × String)) (name key : String) (form? : Option FieldForm) :
    Except Failure (Option Value) :=
  match given.lookup (fieldVariable name key) with
  | some text => (variableValue name form? text).map some
  | none => .ok none

theorem variableValue?_cons (label text : String) (given : List (String × String))
    (name key : String) (form? : Option FieldForm) :
    variableValue? ((label, text) :: given) name key form? =
      if fieldVariable name key = label then (variableValue name form? text).map some
      else variableValue? given name key form? := by
  unfold variableValue?
  rw [lookup_pair]
  by_cases h : fieldVariable name key = label
  · simp only [if_pos h]
  · simp only [if_neg h]

theorem variableValue?_eq_none {given : List (String × String)} {name key : String}
    (h : fieldVariable name key ∉ given.map (·.1)) (form? : Option FieldForm) :
    variableValue? given name key form? = .ok none := by
  have hlookup : given.lookup (fieldVariable name key) = none := by
    refine List.lookup_eq_none_iff.2 fun e he => ?_
    have hne : e.1 ≠ fieldVariable name key := fun heq => h (List.mem_map.2 ⟨e, he, heq⟩)
    simpa using hne.symm
  rw [variableValue?, hlookup]

/-- The keys that the rest of a variable's name stands for. -/
def keysOf (cs : List Char) : List String := (cutAtDelimiter cs).map String.ofList

section Parts

variable {name label text : String} {form : FieldForm} {vars : List (String × String)}
  {es parts : Entries}

/-- The value of a variable of the section is stored. -/
theorem partsOf_cons_own {cs : List Char}
    (h : label.toList = (namePrefix ++ name ++ "__").toList ++ cs) :
    partsOf name form ((label, text) :: vars) es =
      variableValue name (form.innerAt? (keysOf cs)) text >>= fun v =>
        partsOf name form vars (storeAt v (keysOf cs) es) := by
  have hprefix : (namePrefix ++ name ++ "__").toList.isPrefixOf label.toList :=
    List.isPrefixOf_iff_prefix.2 ⟨cs, h.symm⟩
  rw [partsOf]
  dsimp only
  rw [if_pos hprefix, h, List.drop_left, ← keysOf]
  cases form.innerAt? (keysOf cs) with
  | none => rfl
  | some inner =>
    cases inner with
    | plain => rfl
    | structured fields =>
      dsimp only [variableValue]
      by_cases hempty : text.isEmpty = true
      · rw [if_pos hempty, if_pos hempty]
        rfl
      · rw [if_neg hempty, if_neg hempty]

/-- Other variables are passed over. -/
theorem partsOf_cons_other (h : ¬ (namePrefix ++ name ++ "__").toList <+: label.toList) :
    partsOf name form ((label, text) :: vars) es = partsOf name form vars es := by
  rw [partsOf]
  exact if_neg fun hprefix => h (List.isPrefixOf_iff_prefix.1 hprefix)

theorem partsOf_cons_eq_ok (h : partsOf name form ((label, text) :: vars) es = .ok parts) :
    ((∀ key, label ≠ fieldVariable name key) ∧ partsOf name form vars es = .ok parts) ∨
      ∃ cs v, label = fieldVariable name (String.ofList cs) ∧
        variableValue name (form.innerAt? (keysOf cs)) text = .ok v ∧
        partsOf name form vars (storeAt v (keysOf cs) es) = .ok parts := by
  by_cases hprefix : (namePrefix ++ name ++ "__").toList <+: label.toList
  · obtain ⟨cs, hcs⟩ := hprefix
    rw [partsOf_cons_own hcs.symm] at h
    obtain ⟨v, hv, hrest⟩ := bind_eq_ok_iff.1 h
    refine .inr ⟨cs, v, ?_, hv, hrest⟩
    rw [← String.toList_inj, ← hcs]
    simp [fieldVariable]
  · rw [partsOf_cons_other hprefix] at h
    refine .inl ⟨fun key hlabel => hprefix ⟨key.toList, ?_⟩, h⟩
    rw [hlabel]
    simp [fieldVariable]

theorem fieldVariable_inj {key key' : String}
    (h : fieldVariable name key = fieldVariable name key') : key = key' := by
  rw [← String.toList_inj] at h ⊢
  simpa [fieldVariable] using h

/-- The parts of a section have names in small letters. -/
theorem loweredNames_partsOf (hvars : ∀ e ∈ vars, IsLowered e.1) (hes : LoweredNames es)
    (h : partsOf name form vars es = .ok parts) : LoweredNames parts := by
  induction vars generalizing es with
  | nil =>
    cases h
    exact hes
  | cons e vars ih =>
    obtain ⟨he, hvars⟩ := List.forall_mem_cons.1 hvars
    rcases partsOf_cons_eq_ok h with ⟨-, hrest⟩ | ⟨cs, v, hlabel, -, hrest⟩
    · exact ih hvars hes hrest
    · obtain ⟨p, ps, hcut⟩ := exists_cutAtDelimiter cs
      have hp : IsLowered (String.ofList p) := by
        rw [isLowered_iff] at he ⊢
        rw [String.toList_ofList]
        intro c hc
        have hmem : c ∈ cs := mem_of_cutAtDelimiter (hcut ▸ List.mem_cons_self) hc
        refine he c ?_
        rw [hlabel]
        simp [fieldVariable, hmem]
      rw [keysOf, hcut] at hrest
      exact ih hvars (hes.storeAt v hp _) hrest

/-- A section has under a field what the variable for the field holds, or what it has had there if
there is no such variable, but for variables that go deeper. -/
theorem exists_part {key : String} (hkey : IsPiece key) (hnodup : (vars.map (·.1)).Nodup)
    (h : partsOf name form vars es = .ok parts) :
    ∃ v?, variableValue? vars name key (form.innerAt? [key]) = .ok v? ∧
      Deepened (v?.or (es.field? key)) (parts.field? key) := by
  -- Only one of the variables is that for the field, so what it stores stays.
  induction vars generalizing es with
  | nil =>
    cases h
    exact ⟨none, rfl, .inl rfl⟩
  | cons e vars ih =>
    obtain ⟨label, text⟩ := e
    obtain ⟨hlabel, hnodup⟩ := List.nodup_cons.1 hnodup
    rw [variableValue?_cons]
    rcases partsOf_cons_eq_ok h with ⟨hne, hrest⟩ | ⟨cs, v, hcs, hv, hrest⟩
    · rw [if_neg (hne key).symm]
      exact ih hnodup hrest
    · obtain ⟨v?, hvalue, hdeep⟩ := ih hnodup hrest
      by_cases hsame : label = fieldVariable name key
      · obtain rfl : String.ofList cs = key := fieldVariable_inj (hcs.symm.trans hsame)
        have hkeys : keysOf cs = [String.ofList cs] := by
          rw [IsPiece, String.toList_ofList] at hkey
          rw [keysOf, hkey, List.map_singleton]
        rw [variableValue?_eq_none (hsame ▸ hlabel)] at hvalue
        cases hvalue
        rw [hkeys] at hv hdeep
        rw [Option.none_or, field?_storeAt_self] at hdeep
        refine ⟨some v, ?_, hdeep⟩
        rw [if_pos hsame.symm, hv]
        rfl
      · rw [if_neg (Ne.symm hsame)]
        refine ⟨v?, hvalue, ?_⟩
        cases v? with
        | some w => exact hdeep
        | none =>
          rw [Option.none_or] at hdeep ⊢
          obtain ⟨p, ps, hcut⟩ := exists_cutAtDelimiter cs
          rw [keysOf, hcut, List.map_cons] at hdeep
          by_cases hp : String.ofList p = key
          · rw [hp] at hdeep
            refine (deepened_storeAt (fun hps => hsame ?_) v key es).trans hdeep
            have hone : cs = p := eq_of_cutAtDelimiter (by rw [hcut, List.map_eq_nil_iff.1 hps])
            rw [hcs, hone, hp]
          · rwa [field?_storeAt_ne hp] at hdeep

end Parts

/-! ### Sections -/

/-- What the declaration of a section says of one of its fields. -/
structure Declared (fields : List (String × FieldForm)) (key : String) (form : FieldForm) :
    Prop where
  piece : IsPiece key
  lowered : IsLowered key
  inner : (FieldForm.structured fields).innerAt? [key] = some form

/-- Which fields of the settings are structured. -/
theorem structured_of_mem {name : String} {fields : List (String × FieldForm)}
    (h : (name, .structured fields) ∈ forms) :
    (name = "modules" ∧ fields = []) ∨
      (name = "registry" ∧ fields = [("modules", .structured []), ("entry_points", .plain)]) ∨
      (name = "output" ∧ fields = [("width", .plain)]) := by
  simpa [forms] using h

/-- The fields of a section have names in small letters, of one piece each and all different. -/
theorem declared_of_mem {name key : String} {fields : List (String × FieldForm)} {form : FieldForm}
    (hform : (name, .structured fields) ∈ forms) (hkey : (key, form) ∈ fields) :
    Declared fields key form := by
  have hmodules : IsLowered "modules" := by
    simp only [IsLowered, lowered, String.map_eq_internal]
    rfl
  have hentryPoints : IsLowered "entry_points" := by
    simp only [IsLowered, lowered, String.map_eq_internal]
    rfl
  have hwidth : IsLowered "width" := by
    simp only [IsLowered, lowered, String.map_eq_internal]
    rfl
  rcases structured_of_mem hform with ⟨-, rfl⟩ | ⟨-, rfl⟩ | ⟨-, rfl⟩
  · cases hkey
  · rcases List.mem_cons.1 hkey with hkey | hkey
    · cases hkey
      exact ⟨rfl, hmodules, rfl⟩
    · cases List.mem_singleton.1 hkey
      exact ⟨rfl, hentryPoints, rfl⟩
  · cases List.mem_singleton.1 hkey
    exact ⟨rfl, hwidth, rfl⟩

/-- Names in small letters are not changed to those of declared fields: they are the same. -/
theorem declaredNames_eq {fields : List (String × FieldForm)}
    (hfields : ∀ f ∈ fields, IsLowered f.1) {es : Entries} (h : LoweredNames es) :
    declaredNames (.structured fields) es = es := by
  unfold declaredNames
  dsimp only
  refine (congrArg Keyed.ofPairs ?_).trans (Keyed.ofPairs_eq_self_iff.2 h.distinct)
  refine (List.map_congr_left fun e he => ?_).trans (List.map_id es)
  obtain ⟨k, v⟩ := e
  obtain ⟨s, rfl, hs⟩ := h.lowered _ he
  dsimp only
  split
  · rename_i f form hfind
    have hmem : (f, form) ∈ fields := List.mem_of_find?_eq_some hfind
    have hsame : lowered f = lowered s := by simpa using List.find?_some hfind
    have hf : f = s := (hfields (f, form) hmem).symm.trans (hsame.trans hs)
    rw [hf]
    rfl
  · rfl

/-- A section that no variable holds as a whole holds the parts that variables hold. -/
theorem exists_parts {given : List (String × String)} (hgiven : ∀ e ∈ given, IsLowered e.1)
    {name : String} {fields : List (String × FieldForm)} (hfields : ∀ f ∈ fields, IsLowered f.1)
    (hwhole : given.lookup (namePrefix ++ name) = none) {v? : Option Value}
    (h : fieldValue? given name (.structured fields) = .ok v?) :
    ∃ parts, partsOf name (.structured fields) given [] = .ok parts ∧
      v? = if parts.isEmpty then none else some (.dict parts) := by
  unfold fieldValue? at h
  rw [hwhole] at h
  obtain ⟨parts, hparts, h⟩ := bind_eq_ok_iff.1 h
  have hnames : LoweredNames parts := loweredNames_partsOf hgiven ⟨.nil, by simp⟩ hparts
  cases h
  exact ⟨parts, hparts, by rw [declaredNames_eq hfields hnames]⟩

end CheckedActions.Config
