import CheckedActions.Cli.Program
import CheckedActions.Proofs.Merging
import CheckedActions.Proofs.Runs

/-!
Which source a setting comes from. Of the flags that are handed over, the environment and the
configuration file, the first that has a field decides it, and the default stands where none has
it. But the program hands over every flag, those that its command line leaves out as false or
empty, and so hides the other sources.
-/

namespace CheckedActions

/-! ### Checks in a row -/

namespace Checked

variable {α β : Type}

theorem both_eq_ok_iff {a : Checked α} {b : Checked β} {x : α} {y : β} :
    a.both b = .ok (x, y) ↔ a = .ok x ∧ b = .ok y := by
  cases a <;> cases b <;> simp [both]

theorem toExcept_eq_ok_iff {a : Checked α} {wording : Wording} {x : α} :
    a.toExcept wording = .ok x ↔ a = .ok x := by
  cases a with
  | error problems =>
    constructor
    · intro h
      nomatch h
    · intro h
      nomatch h
  | ok y =>
    constructor
    · rintro ⟨⟩
      rfl
    · rintro ⟨⟩
      rfl

end Checked

namespace Config

theorem refusesDicts_bool : RefusesDicts Schema.bool := fun _ _ => rfl

theorem refusesDicts_strings (kind : ProblemKind) : RefusesDicts (Schema.strings kind) :=
  fun _ _ => rfl

/-! ### The environment -/

/-- The variables by names in small letters, of those that differ in case the last. -/
def loweredVariables (environment : List (String × String)) : List (String × String) :=
  environment.foldl (fun vs (n, text) => putNamed vs (lowered n) text) []

theorem ofNamed_of_fields {environment : List (String × String)}
    {forms : List (String × FieldForm)} {es : Entries}
    (h : (forms.filterMapM fun (name, form) => do
      return (← fieldValue? environment name form).map fun v => (Value.str name, v)) = .ok es) :
    ∃ xs, es = Entries.ofNamed xs ∧ xs.map (·.1) = forms.map (·.1) ∧
      ∀ name form, (name, form) ∈ forms →
        ∃ v?, (name, v?) ∈ xs ∧ fieldValue? environment name form = .ok v? := by
  induction forms generalizing es with
  | nil =>
    cases h
    exact ⟨[], rfl, rfl, by simp⟩
  | cons f forms ih =>
    rw [List.filterMapM_cons] at h
    obtain ⟨named?, hentry, h⟩ := bind_eq_ok_iff.1 h
    obtain ⟨v?, hv, hentry⟩ := bind_eq_ok_iff.1 hentry
    cases hentry
    have hstep : ∃ xs, es = Entries.ofNamed ((f.1, v?) :: xs) ∧ xs.map (·.1) = forms.map (·.1) ∧
        ∀ name form, (name, form) ∈ forms →
          ∃ v?, (name, v?) ∈ xs ∧ fieldValue? environment name form = .ok v? := by
      cases v? with
      | none =>
        obtain ⟨xs, rfl, hxs⟩ := ih h
        exact ⟨xs, rfl, hxs⟩
      | some v =>
        obtain ⟨rest, hrest, hlast⟩ := bind_eq_ok_iff.1 h
        obtain ⟨xs, rfl, hxs⟩ := ih hrest
        cases hlast
        exact ⟨xs, rfl, hxs⟩
    obtain ⟨xs, rfl, hnames, hxs⟩ := hstep
    refine ⟨(f.1, v?) :: xs, rfl, by simp [hnames], ?_⟩
    intro name form hmem
    rcases List.mem_cons.1 hmem with rfl | hrest
    · exact ⟨v?, List.mem_cons_self, hv⟩
    · obtain ⟨w?, hw, hvalue⟩ := hxs name form hrest
      exact ⟨w?, List.mem_cons_of_mem _ hw, hvalue⟩

theorem distinct_fromVariables {environment : List (String × String)} {es : Entries}
    (h : fromVariables environment = .ok es) : Keyed.Distinct es := by
  obtain ⟨xs, rfl, hnames, -⟩ := ofNamed_of_fields h
  exact Entries.distinct_ofNamed (hnames ▸ by decide)

/-- The environment has for a field what its variables hold. -/
theorem field?_fromVariables {environment : List (String × String)} {es : Entries}
    (h : fromVariables environment = .ok es) {name : String} {form : FieldForm}
    (hform : (name, form) ∈ forms) :
    fieldValue? (loweredVariables environment) name form = .ok (es.field? name) := by
  obtain ⟨xs, rfl, hnames, hxs⟩ := ofNamed_of_fields h
  obtain ⟨v?, hmem, hvalue⟩ := hxs name form hform
  have hdistinct : (xs.map (·.1)).Nodup := hnames ▸ by decide
  rw [Entries.field?_ofNamed hdistinct hmem]
  exact hvalue

end Config

/-! ### Fields of merged sources -/

namespace Settings

/-- A field as the first source has it that has it at all. -/
def chosen {α : Type} (sources : List Entries) (name : String) (default : α)
    (check : Value → Checked α) : Checked α :=
  match sources.findSome? fun es => es.field? name with
  | some v => (check v).inside (.name name)
  | none => .ok default

theorem get?_merged {flags environment : Entries} (hflags : Keyed.Distinct flags)
    (henvironment : Keyed.Distinct environment) (file : Entries) (k : Value) :
    Keyed.get? (merged flags environment file) k =
      ((((Keyed.get? flags k).map (Config.mergeValue (Keyed.get? environment k))).or
        (Keyed.get? environment k)).map (Config.mergeValue (Keyed.get? file k))).or
          (Keyed.get? file k) := by
  have hupper := Config.get?_merge hflags environment k
  have hmerged := Config.get?_merge (Config.distinct_merge henvironment flags) file k
  rw [hupper] at hmerged
  exact hmerged

theorem field_merged {α : Type} {flags environment file : Entries}
    (hflags : Keyed.Distinct flags) (henvironment : Keyed.Distinct environment) (name : String)
    (default : α) {check : Value → Checked α} (hcheck : Config.RefusesDicts check) :
    Schema.field (merged flags environment file) name default check =
      chosen [flags, environment, file] name default check := by
  unfold Schema.field chosen Entries.field?
  rw [get?_merged hflags henvironment]
  cases hf : Keyed.get? flags (.str name) with
  | some v => simp [hf, hcheck.mergeValue]
  | none => cases he : Keyed.get? environment (.str name) with
    | some v => simp [hf, he, hcheck.mergeValue]
    | none => cases hfile : Keyed.get? file (.str name) <;> simp [hf, he, hfile]

/-- The fields that flags can set are as the sources have them, earlier sources before later
ones. -/
structure Follows (s : Settings) (sources : List Entries) : Prop where
  json : chosen sources "json_output" false Schema.bool = .ok s.json
  quiet : chosen sources "quiet" false Schema.bool = .ok s.quiet
  verbose : chosen sources "verbose" false Schema.bool = .ok s.verbose
  logJson : chosen sources "log_json" false Schema.bool = .ok s.logJson
  modules : chosen sources "modules" [] (Schema.strings .tupleType) = .ok s.modules

/-- The rest of the settings comes from merged entries, in which no field is unknown. -/
structure Rests (s : Settings) (path? : Option Path) (es : Entries) : Prop where
  configPath : s.configPath? = path?
  registry : sectionField es "registry" {} RegistryConfig.check = .ok s.registry
  output : sectionField es "output" {} OutputConfig.check = .ok s.output
  declared : extraFields es = .ok ()

theorem check_eq_ok_iff {path? : Option Path} {flags environment file : Entries}
    (hflags : Keyed.Distinct flags) (henvironment : Keyed.Distinct environment) {s : Settings} :
    check path? (merged flags environment file) = .ok s ↔
      s.Follows [flags, environment, file] ∧ s.Rests path? (merged flags environment file) := by
  unfold check
  simp only [field_merged hflags henvironment _ _ Config.refusesDicts_bool,
    field_merged hflags henvironment _ _ (Config.refusesDicts_strings _), map_eq_ok_iff]
  constructor
  · rintro ⟨⟨json, quiet, verbose, logJson, modules, registry, output, ⟨⟩⟩, h, rfl⟩
    simp only [Checked.both_eq_ok_iff] at h
    obtain ⟨hjson, hquiet, hverbose, hlogJson, hmodules, hregistry, houtput, hextra⟩ := h
    exact ⟨⟨hjson, hquiet, hverbose, hlogJson, hmodules⟩, ⟨rfl, hregistry, houtput, hextra⟩⟩
  · rintro ⟨hfollows, hrests⟩
    refine ⟨⟨s.json, s.quiet, s.verbose, s.logJson, s.modules, s.registry, s.output, ()⟩, ?_, ?_⟩
    · simp only [Checked.both_eq_ok_iff]
      exact ⟨hfollows.json, hfollows.quiet, hfollows.verbose, hfollows.logJson, hfollows.modules,
        hrests.registry, hrests.output, hrests.declared⟩
    · rw [← hrests.configPath]

/-- What the environment and a configuration file hold, when both can be read. -/
structure Read (s : Surroundings) (path? : Option Path) (environment file : Entries) : Prop where
  environment : Config.fromVariables s.environment = .ok environment
  file : fileEntries s path? = .ok file

theorem load_eq_ok_iff {s : Surroundings} {given? : Option String} {start? : Option Path}
    {flags : Entries} (hflags : Keyed.Distinct flags) {settings : Settings} :
    load s given? start? flags = .ok settings ↔
      ∃ environment file, Read s (configFile? s given? start?) environment file ∧
        settings.Follows [flags, environment, file] ∧
        settings.Rests (configFile? s given? start?) (merged flags environment file) := by
  unfold load
  simp only [bind_eq_ok_iff, Checked.toExcept_eq_ok_iff]
  constructor
  · rintro ⟨file, hfile, environment, henvironment, hcheck⟩
    have hdistinct := Config.distinct_fromVariables henvironment
    exact ⟨environment, file, ⟨henvironment, hfile⟩, (check_eq_ok_iff hflags hdistinct).1 hcheck⟩
  · rintro ⟨environment, file, ⟨henvironment, hfile⟩, hsettings⟩
    have hdistinct := Config.distinct_fromVariables henvironment
    exact ⟨file, hfile, environment, henvironment, (check_eq_ok_iff hflags hdistinct).2 hsettings⟩

end Settings

/-! ### Flags -/

/-- Flags, each of which can be given or left out. -/
structure Flags where
  json? : Option Bool := none
  quiet? : Option Bool := none
  verbose? : Option Bool := none
  logJson? : Option Bool := none
  modules? : Option (List String) := none

namespace Flags

/-- The flags as they are handed over: those that are given. -/
def entries (f : Flags) : Entries :=
  .ofNamed [("json_output", f.json?.map .bool), ("quiet", f.quiet?.map .bool),
    ("verbose", f.verbose?.map .bool), ("log_json", f.logJson?.map .bool),
    ("modules", f.modules?.map fun names => .tuple (names.map .str))]

theorem distinct_entries (f : Flags) : Keyed.Distinct f.entries :=
  Entries.distinct_ofNamed
    (show ["json_output", "quiet", "verbose", "log_json", "modules"].Nodup by decide)

end Flags

namespace Cli

/-- The flags of a command line, those that are not on it being false or empty. -/
def allFlags (line : Line) : Flags where
  json? := some (line.has jsonOption)
  quiet? := some (line.has quietOption)
  verbose? := some (line.has verboseOption)
  logJson? := some (line.has logJsonOption)
  modules? := some (line.values moduleOption)

theorem flagsOf_eq (line : Line) : flagsOf line = (allFlags line).entries := rfl

end Cli

namespace Schema

theorem items_texts (i : Nat) (names : List String) :
    Checked.items str i (names.map .str) = .ok names := by
  induction names generalizing i with
  | nil => rfl
  | cons name names ih =>
    have hname : (str (.str name)).inside (.index i) = .ok name := rfl
    rw [List.map_cons, Checked.items, hname, ih]
    rfl

end Schema

namespace Settings

/-- The fields that flags can set are as the command line has them. -/
structure OfLine (s : Settings) (line : Cli.Line) : Prop where
  json : s.json = line.has Cli.jsonOption
  quiet : s.quiet = line.has Cli.quietOption
  verbose : s.verbose = line.has Cli.verboseOption
  logJson : s.logJson = line.has Cli.logJsonOption
  modules : s.modules = line.values Cli.moduleOption

/-- Where every flag is handed over, no other source counts. -/
theorem follows_allFlags {s : Settings} {line : Cli.Line} {sources : List Entries} :
    s.Follows ((Cli.allFlags line).entries :: sources) ↔ s.OfLine line := by
  have hbool : ∀ {b c : Bool}, (Except.ok b : Checked Bool) = .ok c ↔ c = b := by simp [eq_comm]
  have hmodules : chosen ((Cli.allFlags line).entries :: sources) "modules" []
      (Schema.strings .tupleType) = .ok (line.values Cli.moduleOption) := by
    have hitems := Schema.items_texts 0 (line.values Cli.moduleOption)
    have hfield : chosen ((Cli.allFlags line).entries :: sources) "modules" []
      (Schema.strings .tupleType) = (Checked.items Schema.str 0
        ((line.values Cli.moduleOption).map .str)).inside (.name "modules") := rfl
    rw [hfield, hitems]
    rfl
  constructor
  · intro h
    have hlast := hmodules.symm.trans h.modules
    exact ⟨hbool.1 h.json, hbool.1 h.quiet, hbool.1 h.verbose, hbool.1 h.logJson,
      (Except.ok.inj hlast).symm⟩
  · rintro ⟨hjson, hquiet, hverbose, hlogJson, hnames⟩
    exact ⟨hbool.2 hjson, hbool.2 hquiet, hbool.2 hverbose, hbool.2 hlogJson,
      hnames ▸ hmodules⟩

/-- Of the flags that are handed over, the environment and the configuration file, the first that
has a field decides it, for whatever flags are given or left out. But the program hands over all
flags: the settings it reads have the fields as its command line has them, whether a flag is on it
or not, and nothing that the environment and the file hold for these fields counts. -/
theorem flags_before_sources (s : Surroundings) :
    (∀ given? start? (flags : Flags) settings,
      load s given? start? flags.entries = .ok settings ↔
        ∃ environment file, Read s (configFile? s given? start?) environment file ∧
          settings.Follows [flags.entries, environment, file] ∧
          settings.Rests (configFile? s given? start?)
            (merged flags.entries environment file)) ∧
    ∀ (line : Cli.Line) settings,
      load s (line.value? Cli.configOption) none (Cli.flagsOf line) = .ok settings ↔
        ∃ environment file,
          Read s (configFile? s (line.value? Cli.configOption) none) environment file ∧
          settings.OfLine line ∧
          settings.Rests (configFile? s (line.value? Cli.configOption) none)
            (merged (Cli.flagsOf line) environment file) := by
  refine ⟨fun given? start? flags settings => load_eq_ok_iff flags.distinct_entries, ?_⟩
  intro line settings
  rw [Cli.flagsOf_eq, load_eq_ok_iff (Cli.allFlags line).distinct_entries]
  simp only [follows_allFlags]

/-- Surroundings in which a variable asks for JSON. -/
def jsonAsked : Surroundings :=
  { directory := [], environment := [("JACKPROP_JSON_OUTPUT", "true")], files := [] }

theorem fromVariables_jsonAsked :
    Config.fromVariables jsonAsked.environment = .ok [(.str "json_output", .str "true")] := by
  have hlowered : Config.loweredVariables jsonAsked.environment =
      [("jackprop_json_output", "true")] := by
    simp only [Config.loweredVariables, jsonAsked, List.foldl, Config.lowered,
      String.map_eq_internal]
    rfl
  unfold Config.fromVariables
  rw [← Config.loweredVariables, hlowered]
  rfl

/-- A variable asks for JSON, no flag is on the command line, and still the settings are not for
JSON. -/
theorem variable_without_effect :
    ∃ line environment settings,
      Cli.readLine Cli.programOptions false none ["list"] = .ok line ∧
      line.has Cli.jsonOption = false ∧ Read jsonAsked none environment [] ∧
      chosen [environment, []] "json_output" false Schema.bool = .ok true ∧
      load jsonAsked none none (Cli.flagsOf line) = .ok settings ∧ settings.json = false := by
  have hvalue : Schema.bool (.str "true") = .ok true := by
    simp only [Schema.bool, Schema.boolOfText, Schema.boolOfText?, String.map_eq_internal]
    rfl
  have hchosen : chosen [[(.str "json_output", .str "true")], []] "json_output" false Schema.bool =
      (Schema.bool (.str "true")).inside (.name "json_output") := rfl
  have hload : load jsonAsked none none (Cli.flagsOf ⟨[], ["list"]⟩) = .ok {} := by
    unfold load
    rw [fromVariables_jsonAsked]
    rfl
  rw [hvalue] at hchosen
  exact ⟨⟨[], ["list"]⟩, _, {}, rfl, rfl, ⟨fromVariables_jsonAsked, rfl⟩, hchosen, hload, rfl⟩

end Settings
end CheckedActions
