import CheckedActions.Schema.Check

/-!
The sections of the configuration with their defaults, and the settings of the output.
-/

namespace CheckedActions

/-- Where actions come from. -/
structure RegistryConfig where
  modules : List String := []
  entryPoints : Bool := true

structure OutputConfig where
  width : Int := 120

/-- How results are shown. -/
structure OutputSettings where
  json : Bool := false
  quiet : Bool := false
  verbose : Bool := false
  width? : Option Int := none

namespace RegistryConfig

def check (es : Entries) : Checked RegistryConfig :=
  let modules := Schema.field es "modules" [] (Schema.strings .listType)
  let entryPoints := Schema.field es "entry_points" true Schema.bool
  (modules.both entryPoints).map fun (modules, entryPoints) => { modules, entryPoints }

def fields (c : RegistryConfig) : List (String × Value) :=
  [("modules", .list (c.modules.map .str)), ("entry_points", .bool c.entryPoints)]

end RegistryConfig

namespace OutputConfig

def check (es : Entries) : Checked OutputConfig :=
  (Schema.field es "width" 120 Schema.int).map fun width => { width }

def fields (c : OutputConfig) : List (String × Value) := [("width", .int c.width)]

end OutputConfig

namespace OutputSettings

def check (es : Entries) : Checked OutputSettings :=
  let json := Schema.field es "json_output" false Schema.bool
  let quiet := Schema.field es "quiet" false Schema.bool
  let verbose := Schema.field es "verbose" false Schema.bool
  let width := Schema.field es "width" none (Schema.nullable Schema.int)
  (json.both (quiet.both (verbose.both width))).map
    fun (json, quiet, verbose, width?) => { json, quiet, verbose, width? }

def fields (s : OutputSettings) : List (String × Value) :=
  [("json_output", .bool s.json), ("quiet", .bool s.quiet), ("verbose", .bool s.verbose),
   ("width", (s.width?.map Value.int).getD .null)]

end OutputSettings
end CheckedActions
