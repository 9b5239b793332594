import CheckedActions.Proofs.SectionVariables

/-!
Where the fields of a section come from. Each field is as the environment has it, or else as the
configuration file has it, or else the default, whatever the other fields of its section are and
whatever flags are given: a section that is in both sources hides none of its fields. The
environment has a field by the variable for it, if no variable holds the whole section.
-/

namespace CheckedActions
namespace Settings

/-- The fields of a section, as far as a source has them. -/
def sectionOf (es : Entries) (name : String) : Entries :=
  match es.field? name with
  | some (.dict fields) => fields
  | _ => []

/-- The section is a table, if the source has it. -/
def HasTable (es : Entries) (name : String) : Prop :=
  ∀ v, es.field? name = some v → ∃ fields, v = .dict fields

theorem sectionOf_dict {es fields : Entries} {name : String}
    (h : es.field? name = some (.dict fields)) : sectionOf es name = fields := by
  rw [sectionOf, h]

theorem sectionOf_none {es : Entries} {name : String} (h : es.field? name = none) :
    sectionOf es name = [] := by
  rw [sectionOf, h]

theorem hasTable_none {es : Entries} {name : String} (h : es.field? name = none) :
    HasTable es name := by
  intro v hv
  rw [h] at hv
  cases hv

/-- A section that is a table, or is left out, is checked field by field. -/
theorem sectionField_eq {α : Type} {es : Entries} {name : String} (h : HasTable es name)
    {default : α} {check : Entries → Checked α} (hdefault : check [] = .ok default) :
    sectionField es name default check = (check (sectionOf es name)).inside (.name name) := by
  unfold sectionField Schema.field
  cases hv : es.field? name with
  | none =>
    rw [sectionOf_none hv, hdefault]
    rfl
  | some v =>
    obtain ⟨fields, rfl⟩ := h v hv
    rw [sectionOf_dict hv]
    rfl

/-! ### Merged sections -/

theorem chosen_pair {α : Type} (upper lower : Entries) (name : String) (default : α)
    (check : Value → Checked α) :
    chosen [upper, lower] name default check =
      if (upper.field? name).isSome then Schema.field upper name default check
      else Schema.field lower name default check := by
  unfold chosen Schema.field
  cases hu : upper.field? name with
  | some v => simp [hu]
  | none => cases hl : lower.field? name <;> simp [hu, hl]

/-- The fields of two merged sections are as the upper one has them, or else the lower one. -/
theorem field_merge {α : Type} {upper : Entries} (hupper : Keyed.Distinct upper) (lower : Entries)
    (name : String) (default : α) {check : Value → Checked α}
    (hcheck : Config.RefusesDicts check) :
    Schema.field (Config.merge lower upper) name default check =
      chosen [upper, lower] name default check := by
  unfold Schema.field chosen Entries.field?
  rw [Config.get?_merge hupper]
  cases hu : Keyed.get? upper (.str name) with
  | some v => simp [hu, hcheck.mergeValue]
  | none => cases hl : Keyed.get? lower (.str name) <;> simp [hu, hl]

section Merged

variable {flags environment : Entries} (hflags : Keyed.Distinct flags)
  (henvironment : Keyed.Distinct environment) {name : String}
  (hnone : flags.field? name = none) (file : Entries)
include hflags henvironment hnone

/-- A section that no flag sets is that of the environment over that of the file. -/
theorem field?_merged :
    (merged flags environment file).field? name =
      ((environment.field? name).map (Config.mergeValue (file.field? name))).or
        (file.field? name) := by
  have hmerged := get?_merged hflags henvironment file (.str name)
  have hflag : Keyed.get? flags (.str name) = none := hnone
  rw [hflag, Option.map_none, Option.none_or] at hmerged
  exact hmerged

variable {file} (htable : HasTable environment name) (hfile : HasTable file name)
include htable hfile

theorem hasTable_merged : HasTable (merged flags environment file) name := by
  intro v hv
  rw [field?_merged hflags henvironment hnone file] at hv
  cases he : environment.field? name with
  | none =>
    rw [he] at hv
    exact hfile v hv
  | some w =>
    obtain ⟨fields, rfl⟩ := htable w he
    rw [he] at hv
    cases hv
    unfold Config.mergeValue
    split <;> exact ⟨_, rfl⟩

/-- The fields of a merged section are as the first source has them that has them at all. -/
theorem field_section {α : Type} (hdistinct : Keyed.Distinct (sectionOf environment name))
    (key : String) (default : α) {check : Value → Checked α}
    (hcheck : Config.RefusesDicts check) :
    Schema.field (sectionOf (merged flags environment file) name) key default check =
      chosen [sectionOf environment name, sectionOf file name] key default check := by
  have hmerged := field?_merged hflags henvironment hnone file
  rw [chosen_pair]
  cases he : environment.field? name with
  | none =>
    rw [he, Option.map_none, Option.none_or] at hmerged
    rw [sectionOf_none he, sectionOf, hmerged, ← sectionOf]
    rfl
  | some v =>
    obtain ⟨upper, rfl⟩ := htable v he
    rw [he] at hmerged
    rw [sectionOf_dict he] at hdistinct ⊢
    cases hf : file.field? name with
    | none =>
      rw [hf] at hmerged
      rw [sectionOf_dict hmerged, sectionOf_none hf]
      unfold Schema.field
      cases Entries.field? upper key <;> rfl
    | some w =>
      obtain ⟨lower, rfl⟩ := hfile w hf
      rw [hf] at hmerged
      rw [sectionOf_dict hmerged, sectionOf_dict hf, field_merge hdistinct lower key default hcheck,
        chosen_pair]

end Merged

/-! ### Declared fields -/

theorem mem_merge {lower upper : Entries} {name : String}
    (h : ∃ e ∈ Config.merge lower upper, e.1 = .str name) :
    ∃ e ∈ lower ++ upper, e.1 = .str name := by
  induction upper generalizing lower with
  | nil =>
    obtain ⟨e, he, hname⟩ := h
    exact ⟨e, List.mem_append_left [] he, hname⟩
  | cons d upper ih =>
    obtain ⟨e, he, hname⟩ := ih h
    rcases List.mem_append.1 he with he | he
    · rcases Keyed.mem_put he with he | ⟨hkey | hkey, -⟩
      · exact ⟨e, List.mem_append_left _ he, hname⟩
      · exact ⟨d, by simp, hkey ▸ hname⟩
      · rw [hname] at hkey
        exact ⟨d, by simp, Value.sameKey_str_iff.1 (Value.sameKey_symm hkey)⟩
    · exact ⟨e, by simp [he], hname⟩

theorem declared_iff {es : Entries} :
    extraFields es = .ok () ↔ ∀ name, (∃ e ∈ es, e.1 = .str name) → name ∈ fieldNames := by
  unfold extraFields
  dsimp only
  split
  · rename_i hempty
    rw [List.isEmpty_iff, List.filterMap_eq_nil_iff] at hempty
    refine iff_of_true rfl ?_
    rintro name ⟨⟨k, v⟩, he, rfl⟩
    have hnone := hempty _ he
    simpa using hnone
  · rename_i hextra
    rw [List.isEmpty_iff, List.filterMap_eq_nil_iff] at hextra
    refine iff_of_false (fun h => by cases h) fun h => hextra ?_
    rintro ⟨k, v⟩ he
    cases k with
    | str name => simpa using h name ⟨_, he, rfl⟩
    | _ => rfl

theorem declared_merge {lower upper : Entries} (hlower : extraFields lower = .ok ())
    (hupper : extraFields upper = .ok ()) : extraFields (Config.merge lower upper) = .ok () := by
  rw [declared_iff] at hlower hupper ⊢
  intro name h
  obtain ⟨e, he, hname⟩ := mem_merge h
  rcases List.mem_append.1 he with he | he
  · exact hlower name ⟨e, he, hname⟩
  · exact hupper name ⟨e, he, hname⟩

/-! ### Sections of the environment -/

/-- No field comes twice in a section of the environment. -/
theorem distinct_section {given : List (String × String)} {es : Entries}
    (h : Config.fromVariables given = .ok es) {name : String}
    {fields : List (String × Config.FieldForm)}
    (hform : (name, .structured fields) ∈ Config.forms) : Keyed.Distinct (sectionOf es name) := by
  have hvalue := Config.field?_fromVariables h hform
  unfold sectionOf
  split
  · rename_i sub hsub
    rw [hsub] at hvalue
    cases hwhole : (Config.loweredVariables given).lookup (Config.namePrefix ++ name) with
    | none =>
      simp only [Config.fieldValue?, hwhole] at hvalue
      obtain ⟨parts, -, hsome⟩ := bind_eq_ok_iff.1 hvalue
      split at hsome
      · cases hsome
      · cases hsome
        exact Keyed.distinct_ofPairs _
    | some text =>
      simp only [Config.fieldValue?, hwhole] at hvalue
      obtain ⟨v, -, hdecoded⟩ := bind_eq_ok_iff.1 hvalue
      cases v with
      | dict es =>
        obtain ⟨parts, -, hsome⟩ := bind_eq_ok_iff.1 hdecoded
        cases hsome
        exact Keyed.distinct_ofPairs _
      | _ => cases hdecoded
  · exact .nil

/-- A field of a section of the environment is what the variable for it holds, if no variable holds
the whole section. -/
theorem field?_section {given : List (String × String)} {es : Entries}
    (h : Config.fromVariables given = .ok es) {name : String}
    {fields : List (String × Config.FieldForm)} (hform : (name, .structured fields) ∈ Config.forms)
    (hwhole : (Config.loweredVariables given).lookup (Config.namePrefix ++ name) = none)
    {key : String} {form : Config.FieldForm} (hkey : (key, form) ∈ fields)
    (hvalue : ∀ sub, (sectionOf es name).field? key ≠ some (.dict sub)) :
    Config.variableValue? (Config.loweredVariables given) name key (some form) =
      .ok ((sectionOf es name).field? key) := by
  obtain ⟨hnodup, hlowered⟩ := Config.loweredVariables_spec given
  have hdeclared : Config.Declared fields key form := Config.declared_of_mem hform hkey
  obtain ⟨parts, hparts, hes⟩ := Config.exists_parts hlowered
    (fun f hf => (Config.declared_of_mem hform hf).lowered) hwhole
    (Config.field?_fromVariables h hform)
  have hsection : sectionOf es name = parts := by
    rw [sectionOf, hes]
    cases parts <;> rfl
  rw [hsection] at hvalue ⊢
  obtain ⟨v?, hv, hdeep⟩ := Config.exists_part hdeclared.piece hnodup hparts
  rw [hdeclared.inner] at hv
  have hfield : parts.field? key = v?.or (Entries.field? [] key) := hdeep.eq_of_not_dict hvalue
  have hnone : Entries.field? [] key = none := rfl
  rw [hv, hfield, hnone, Option.or_none]

/-! ### Which modules are imported -/

theorem foldl_unseen {seen xs : List String} :
    xs.foldl (fun names n => if names.contains n then names else names ++ [n]) seen =
      seen ++ (xs.filter fun x => !seen.contains x).eraseDups := by
  induction xs generalizing seen with
  | nil => simp
  | cons x xs ih =>
    rw [List.foldl_cons, ih]
    by_cases hx : x ∈ seen
    · simp [hx]
    · have hfilter : (xs.filter fun y => !(seen ++ [x]).contains y) =
          (xs.filter fun y => !seen.contains y).filter fun y => !y == x := by
        rw [List.filter_filter]
        refine List.filter_congr fun y _ => ?_
        by_cases hy : y = x <;> simp [hy]
      have hnot : seen.contains x = false := by simpa using hx
      rw [hnot, if_neg Bool.false_ne_true, hfilter, List.filter_cons_of_pos (by simpa using hx),
        List.eraseDups_cons]
      simp

theorem actionModules_eq (s : Settings) :
    s.actionModules = (s.registry.modules ++ s.modules).eraseDups := by
  have hall : (s.registry.modules ++ s.modules).filter (fun x => !([] : List String).contains x) =
      s.registry.modules ++ s.modules := List.filter_eq_self.2 (by simp)
  rw [actionModules, foldl_unseen, hall, List.nil_append]

/-! ### Valid sources -/

/-- What a source says about the sections is valid: they are tables, the values in them fit their
fields, and beside the declared fields there are no others. -/
structure Valid (es : Entries) : Prop where
  registryTable : HasTable es "registry"
  outputTable : HasTable es "output"
  registry : ∃ c, RegistryConfig.check (sectionOf es "registry") = .ok c
  output : ∃ c, OutputConfig.check (sectionOf es "output") = .ok c
  declared : extraFields es = .ok ()

theorem registryCheck_eq_ok_iff {es : Entries} {c : RegistryConfig} :
    RegistryConfig.check es = .ok c ↔
      Schema.field es "modules" [] (Schema.strings .listType) = .ok c.modules ∧
        Schema.field es "entry_points" true Schema.bool = .ok c.entryPoints := by
  unfold RegistryConfig.check
  rw [map_eq_ok_iff]
  constructor
  · rintro ⟨⟨modules, entryPoints⟩, h, rfl⟩
    exact Checked.both_eq_ok_iff.1 h
  · exact fun h => ⟨(c.modules, c.entryPoints), Checked.both_eq_ok_iff.2 h, rfl⟩

theorem outputCheck_eq_ok_iff {es : Entries} {c : OutputConfig} :
    OutputConfig.check es = .ok c ↔ Schema.field es "width" 120 Schema.int = .ok c.width := by
  unfold OutputConfig.check
  rw [map_eq_ok_iff]
  constructor
  · rintro ⟨width, h, rfl⟩
    exact h
  · exact fun h => ⟨c.width, h, rfl⟩

theorem refusesDicts_int : Config.RefusesDicts Schema.int := fun _ _ => rfl

theorem ne_dict_of_field {α : Type} {es : Entries} {name : String} {default a : α}
    {check : Value → Checked α} (h : Schema.field es name default check = .ok a)
    (hcheck : ∀ sub a, check (.dict sub) ≠ .ok a) (sub : Entries) :
    es.field? name ≠ some (.dict sub) := by
  intro hsub
  rw [Schema.field, hsub] at h
  cases hc : check (.dict sub) with
  | ok a => exact hcheck sub a hc
  | error problems =>
    dsimp only at h
    rw [hc] at h
    cases h

/-- No field of a valid section is a dictionary. -/
theorem Valid.field?_ne_dict {es : Entries} (h : Valid es) {name key : String}
    {fields : List (String × Config.FieldForm)} {form : Config.FieldForm}
    (hform : (name, .structured fields) ∈ Config.forms) (hkey : (key, form) ∈ fields) :
    ∀ sub, (sectionOf es name).field? key ≠ some (.dict sub) := by
  obtain ⟨c, hregistry⟩ := h.registry
  obtain ⟨hmodules, hentryPoints⟩ := registryCheck_eq_ok_iff.1 hregistry
  obtain ⟨c', houtput⟩ := h.output
  have hwidth := outputCheck_eq_ok_iff.1 houtput
  rcases Config.structured_of_mem hform with ⟨-, rfl⟩ | ⟨rfl, rfl⟩ | ⟨rfl, rfl⟩
  · cases hkey
  · rcases List.mem_cons.1 hkey with hkey | hkey
    · cases hkey
      exact ne_dict_of_field hmodules (by rintro _ _ ⟨⟩)
    · cases List.mem_singleton.1 hkey
      exact ne_dict_of_field hentryPoints (by rintro _ _ ⟨⟩)
  · cases List.mem_singleton.1 hkey
    exact ne_dict_of_field hwidth (by rintro _ _ ⟨⟩)

/-- A field that fits in both sources fits as the first of them has it. -/
theorem exists_chosen {α : Type} {upper lower : Entries} {name : String} {default : α}
    {check : Value → Checked α} (hupper : ∃ a, Schema.field upper name default check = .ok a)
    (hlower : ∃ a, Schema.field lower name default check = .ok a) :
    ∃ a, chosen [upper, lower] name default check = .ok a := by
  rw [chosen_pair]
  split
  · exact hupper
  · exact hlower

section Sources

variable {surroundings : Surroundings} {path? : Option Path} {flags environment file : Entries}
  (hflags : Keyed.Distinct flags) (hread : Read surroundings path? environment file)
  (henvironment : Valid environment) (hfile : Valid file)
include hflags hread henvironment hfile

theorem exists_registry (hnone : flags.field? "registry" = none) :
    ∃ c : RegistryConfig,
      sectionField (merged flags environment file) "registry" {} RegistryConfig.check = .ok c ∧
      chosen [sectionOf environment "registry", sectionOf file "registry"] "modules" []
        (Schema.strings .listType) = .ok c.modules ∧
      chosen [sectionOf environment "registry", sectionOf file "registry"] "entry_points" true
        Schema.bool = .ok c.entryPoints := by
  obtain ⟨upper, hupper⟩ := henvironment.registry
  obtain ⟨lower, hlower⟩ := hfile.registry
  obtain ⟨hmodules, hentryPoints⟩ := registryCheck_eq_ok_iff.1 hupper
  obtain ⟨hmodules', hentryPoints'⟩ := registryCheck_eq_ok_iff.1 hlower
  obtain ⟨modules, hmodules⟩ := exists_chosen ⟨_, hmodules⟩ ⟨_, hmodules'⟩
  obtain ⟨entryPoints, hentryPoints⟩ := exists_chosen ⟨_, hentryPoints⟩ ⟨_, hentryPoints'⟩
  have hdistinct := Config.distinct_fromVariables hread.environment
  have hform : ("registry", Config.FieldForm.structured [("modules", .structured []),
      ("entry_points", .plain)]) ∈ Config.forms := by simp [Config.forms]
  have hfields := distinct_section hread.environment hform
  have hcheck : RegistryConfig.check (sectionOf (merged flags environment file) "registry") =
      .ok ⟨modules, entryPoints⟩ := by
    refine registryCheck_eq_ok_iff.2 ⟨?_, ?_⟩
    · rw [field_section hflags hdistinct hnone henvironment.registryTable hfile.registryTable
        hfields "modules" [] (Config.refusesDicts_strings _), hmodules]
    · rw [field_section hflags hdistinct hnone henvironment.registryTable hfile.registryTable
        hfields "entry_points" true Config.refusesDicts_bool, hentryPoints]
  have htable := hasTable_merged hflags hdistinct hnone henvironment.registryTable
    hfile.registryTable
  have hdefault : RegistryConfig.check [] = .ok {} := rfl
  refine ⟨⟨modules, entryPoints⟩, ?_, hmodules, hentryPoints⟩
  rw [sectionField_eq htable hdefault, hcheck]
  rfl

theorem exists_output (hnone : flags.field? "output" = none) :
    ∃ c : OutputConfig,
      sectionField (merged flags environment file) "output" {} OutputConfig.check = .ok c ∧
      chosen [sectionOf environment "output", sectionOf file "output"] "width" 120 Schema.int =
        .ok c.width := by
  obtain ⟨upper, hupper⟩ := henvironment.output
  obtain ⟨lower, hlower⟩ := hfile.output
  obtain ⟨width, hwidth⟩ := exists_chosen ⟨_, outputCheck_eq_ok_iff.1 hupper⟩
    ⟨_, outputCheck_eq_ok_iff.1 hlower⟩
  have hdistinct := Config.distinct_fromVariables hread.environment
  have hform : ("output", Config.FieldForm.structured [("width", .plain)]) ∈ Config.forms := by
    simp [Config.forms]
  have hcheck : OutputConfig.check (sectionOf (merged flags environment file) "output") =
      .ok ⟨width⟩ := by
    rw [outputCheck_eq_ok_iff, field_section hflags hdistinct hnone henvironment.outputTable
      hfile.outputTable (distinct_section hread.environment hform) "width" 120 refusesDicts_int,
      hwidth]
  have htable := hasTable_merged hflags hdistinct hnone henvironment.outputTable hfile.outputTable
  have hdefault : OutputConfig.check [] = .ok {} := rfl
  refine ⟨⟨width⟩, ?_, hwidth⟩
  rw [sectionField_eq htable hdefault, hcheck]
  rfl

end Sources

/-- For every command line and for all sources that are valid the settings are read. Each field of
a section is as the environment has it if it has that field, or else as the file has it if it has
the field, or else the default. The environment has what the variable for the field holds, unless a
variable holds the whole section. The modules to import are those of the registry section and then
those of the command line, each where it first comes. -/
theorem sections_by_source {surroundings : Surroundings} {line : Cli.Line}
    {environment file : Entries}
    (hread : Read surroundings (configFile? surroundings (line.value? Cli.configOption) none)
      environment file) (henvironment : Valid environment) (hfile : Valid file) :
    ∃ settings,
      load surroundings (line.value? Cli.configOption) none (Cli.flagsOf line) = .ok settings ∧
      chosen [sectionOf environment "registry", sectionOf file "registry"] "modules" []
        (Schema.strings .listType) = .ok settings.registry.modules ∧
      chosen [sectionOf environment "registry", sectionOf file "registry"] "entry_points" true
        Schema.bool = .ok settings.registry.entryPoints ∧
      chosen [sectionOf environment "output", sectionOf file "output"] "width" 120
        Schema.int = .ok settings.output.width ∧
      (∀ name fields, (name, .structured fields) ∈ Config.forms →
        (Config.loweredVariables surroundings.environment).lookup (Config.namePrefix ++ name) =
          none → ∀ key form, (key, form) ∈ fields →
        Config.variableValue? (Config.loweredVariables surroundings.environment) name key
          (some form) = .ok ((sectionOf environment name).field? key)) ∧
      settings.actionModules =
        (settings.registry.modules ++ line.values Cli.moduleOption).eraseDups := by
  have hflags := (Cli.allFlags line).distinct_entries
  obtain ⟨registry, hregistry, hmodules, hentryPoints⟩ :=
    exists_registry hflags hread henvironment hfile rfl
  obtain ⟨output, houtput, hwidth⟩ := exists_output hflags hread henvironment hfile rfl
  have hdeclared : extraFields (merged (Cli.allFlags line).entries environment file) = .ok () :=
    declared_merge hfile.declared (declared_merge henvironment.declared rfl)
  let settings : Settings :=
    { configPath? := configFile? surroundings (line.value? Cli.configOption) none,
      json := line.has Cli.jsonOption, quiet := line.has Cli.quietOption,
      verbose := line.has Cli.verboseOption, logJson := line.has Cli.logJsonOption,
      modules := line.values Cli.moduleOption, registry, output }
  refine ⟨settings, ?_, hmodules, hentryPoints, hwidth, fun _ _ hform hwhole _ _ hkey =>
    field?_section hread.environment hform hwhole hkey (henvironment.field?_ne_dict hform hkey),
    actionModules_eq settings⟩
  rw [Cli.flagsOf_eq, load_eq_ok_iff hflags]
  exact ⟨environment, file, hread, follows_allFlags.2 ⟨rfl, rfl, rfl, rfl, rfl⟩,
    ⟨rfl, hregistry, houtput, hdeclared⟩⟩

/-- Surroundings in which a variable and a file have one field each of the same section. -/
def shared : Surroundings :=
  { directory := ["home"]
    environment := [("JACKPROP_REGISTRY__ENTRY_POINTS", "false")]
    files := [(["home", "jackprop.toml"], "[registry]\nmodules = ['shop']\n")] }

/-- The entries that variable stands for. -/
def sharedEntries : Entries := [(.str "registry", .dict [(.str "entry_points", .str "false")])]

theorem filterMapM_ok {α β : Type} {f : α → Except Failure (Option β)} {g : α → Option β}
    {xs : List α} (h : ∀ x ∈ xs, f x = .ok (g x)) : xs.filterMapM f = .ok (xs.filterMap g) := by
  induction xs with
  | nil => rfl
  | cons x xs ih =>
    rw [List.filterMapM_cons, h x List.mem_cons_self, List.filterMap_cons]
    simp only [bind, Except.bind, ih fun y hy => h y (List.mem_cons_of_mem x hy)]
    cases g x <;> rfl

theorem fromVariables_shared : Config.fromVariables shared.environment = .ok sharedEntries := by
  let given := [("jackprop_registry__entry_points", "false")]
  have hlowered : Config.loweredVariables shared.environment = given := by
    simp only [Config.loweredVariables, shared, List.foldl, Config.lowered,
      String.map_eq_internal]
    rfl
  have hnames : Config.declaredNames (.structured [("modules", .structured []),
      ("entry_points", .plain)]) [(.str "entry_points", .str "false")] =
        [(.str "entry_points", .str "false")] := by
    simp only [Config.declaredNames, Config.lowered, String.map_eq_internal]
    rfl
  have hregistry : Config.fieldValue? given "registry" (.structured [("modules",
      .structured []), ("entry_points", .plain)]) =
        .ok (some (.dict [(.str "entry_points", .str "false")])) := by
    rw [← hnames]
    rfl
  have hfields : ∀ f ∈ Config.forms, (do
      return (← Config.fieldValue? given f.1 f.2).map fun v => (Value.str f.1, v)) =
        Except.ok (ε := Failure) (if f.1 = "registry" then sharedEntries.head? else none) := by
    simp only [Config.forms, List.forall_mem_cons]
    refine ⟨rfl, rfl, rfl, rfl, rfl, rfl, ?_, rfl, by simp⟩
    rw [hregistry]
    rfl
  unfold Config.fromVariables
  rw [← Config.loweredVariables, hlowered]
  exact filterMapM_ok hfields

/-- The variable and the file have a field each of one section, and the settings have both. -/
theorem shared_section :
    ∃ line environment file settings,
      Read shared (configFile? shared (line.value? Cli.configOption) none) environment file ∧
      Valid environment ∧ Valid file ∧
      load shared (line.value? Cli.configOption) none (Cli.flagsOf line) = .ok settings ∧
      settings.registry.modules = ["shop"] ∧ settings.registry.entryPoints = false ∧
      settings.output.width = 120 ∧ settings.actionModules = ["shop", "extra"] := by
  let line : Cli.Line :=
    ⟨[⟨Cli.moduleOption, some "extra"⟩, ⟨Cli.moduleOption, some "shop"⟩], ["list"]⟩
  let file : Entries := [(.str "registry", .dict [(.str "modules", .list [.str "shop"])])]
  have hread : Read shared (configFile? shared (line.value? Cli.configOption) none)
      sharedEntries file := by
    refine ⟨fromVariables_shared, ?_⟩
    cbv
  have hfalse : Schema.bool (.str "false") = .ok false := by
    simp only [Schema.bool, Schema.boolOfText, Schema.boolOfText?, String.map_eq_internal]
    rfl
  have hentry : Schema.field (sectionOf sharedEntries "registry") "entry_points" true
      Schema.bool = .ok false := by
    have hfield : Schema.field (sectionOf sharedEntries "registry") "entry_points" true
      Schema.bool = (Schema.bool (.str "false")).inside (.name "entry_points") := rfl
    rw [hfield, hfalse]
    rfl
  have henvironment : Valid sharedEntries := by
    refine ⟨?_, hasTable_none rfl, ⟨⟨[], false⟩, registryCheck_eq_ok_iff.2 ⟨rfl, hentry⟩⟩,
      ⟨{}, rfl⟩, rfl⟩
    rintro v ⟨⟩
    exact ⟨_, rfl⟩
  have hfile : Valid file := by
    refine ⟨?_, hasTable_none rfl, ⟨⟨["shop"], true⟩, rfl⟩, ⟨{}, rfl⟩, rfl⟩
    rintro v ⟨⟩
    exact ⟨_, rfl⟩
  obtain ⟨settings, hload, hmodules, hentryPoints, hwidth, -, hactions⟩ :=
    sections_by_source hread henvironment hfile
  have hshop : settings.registry.modules = ["shop"] := Except.ok.inj (hmodules.symm.trans rfl)
  have hoff : settings.registry.entryPoints = false :=
    Except.ok.inj (hentryPoints.symm.trans hentry)
  have hdefault : settings.output.width = 120 := Except.ok.inj (hwidth.symm.trans rfl)
  rw [hshop] at hactions
  exact ⟨line, sharedEntries, file, settings, hread, henvironment, hfile, hload, hshop, hoff,
    hdefault, hactions⟩

end Settings
end CheckedActions
