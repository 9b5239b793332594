import CheckedActions.Config.Discovery
import CheckedActions.Config.Sections
import CheckedActions.Config.Variables
import CheckedActions.Toml.Reader

/-!
The settings of the program. Flags go over environment variables, these over the configuration
file, and that over the defaults, key by key at every level.
-/

namespace CheckedActions

structure Settings where
  configPath? : Option Path := none
  json : Bool := false
  quiet : Bool := false
  verbose : Bool := false
  logJson : Bool := false
  modules : List String := []
  registry : RegistryConfig := {}
  output : OutputConfig := {}

namespace Settings

/-- The names of the fields, in order. -/
def fieldNames : List String := Config.forms.map (·.1)

/-- A field that is not declared. -/
def extraFields (es : Entries) : Checked Unit :=
  let extras := es.filterMap fun (k, _) => match k with
    | .str name => if fieldNames.contains name then none else some ⟨[.name name], .extraForbidden⟩
    | _ => none
  if extras.isEmpty then .ok () else .error extras

/-- A section of the settings. -/
def sectionField {α : Type} (es : Entries) (name : String) (default : α)
    (check : Entries → Checked α) : Checked α :=
  Schema.field es name default fun v => do check (← Schema.modelEntries v)

/-- Settings from their fields, of which none may be unknown. -/
def check (configPath? : Option Path) (es : Entries) : Checked Settings :=
  let json := Schema.field es "json_output" false Schema.bool
  let quiet := Schema.field es "quiet" false Schema.bool
  let verbose := Schema.field es "verbose" false Schema.bool
  let logJson := Schema.field es "log_json" false Schema.bool
  let modules := Schema.field es "modules" [] (Schema.strings .tupleType)
  let registry := sectionField es "registry" {} RegistryConfig.check
  let output := sectionField es "output" {} OutputConfig.check
  (json.both (quiet.both (verbose.both (logJson.both (modules.both (registry.both
    (output.both (extraFields es)))))))).map
      fun (json, quiet, verbose, logJson, modules, registry, output, _) =>
        { configPath?, json, quiet, verbose, logJson, modules, registry, output }

/-- The modules of the registry section followed by those given by flags, no name twice. -/
def actionModules (s : Settings) : List String :=
  (s.registry.modules ++ s.modules).foldl
    (fun names n => if names.contains n then names else names ++ [n]) []

/-- What a configuration file says. Without a path, or without a file there, it says nothing. -/
def fileEntries (s : Surroundings) (path? : Option Path) : Except Failure Entries :=
  match path? with
  | none => .ok []
  | some p => match s.read? p with
    | none => .ok []
    | some text => match Toml.read text with
      | .ok es => .ok es
      | .error .malformed => .error (.badConfigFile p.toString)
      | .error (.tooManyDigits n) => .error (.tooManyDigits n)

/-- The configuration file in use: the one given, if it exists, or else the one found. -/
def configFile? (s : Surroundings) (given? : Option String) (start? : Option Path) : Option Path :=
  match given? with
  | some text => if text.isEmpty then Config.find? s start? else Config.existing? s text
  | none => Config.find? s start?

/-- All sources merged, the configuration file's path coming from nowhere else. -/
def merged (flags environment file : Entries) : Entries :=
  Config.merge file (Config.merge environment flags)

/-- The settings for the given flags. -/
def load (s : Surroundings) (given? : Option String) (start? : Option Path) (flags : Entries) :
    Except Failure Settings := do
  let path? := configFile? s given? start?
  let file ← fileEntries s path?
  let environment ← Config.fromVariables s.environment
  (check path? (merged flags environment file)).toExcept s.wording

/-- The fields of the settings together with the modules to import. -/
def fields (s : Settings) : List (String × Value) :=
  [("config_path", (s.configPath?.map fun p => Value.str p.toString).getD .null),
   ("json_output", .bool s.json), ("quiet", .bool s.quiet), ("verbose", .bool s.verbose),
   ("log_json", .bool s.logJson), ("modules", .list (s.modules.map .str)),
   ("registry", Value.record s.registry.fields), ("output", Value.record s.output.fields),
   ("action_modules", .list (s.actionModules.map .str))]

end Settings
end CheckedActions
