import CheckedActions.Action.Basic
import CheckedActions.Action.Binding
import CheckedActions.Action.Descriptor
import CheckedActions.Calendar.Date
import CheckedActions.Calendar.DateTime
import CheckedActions.Calendar.Epoch
import CheckedActions.Calendar.Reader
import CheckedActions.Calendar.Timestamp
import CheckedActions.Call
import CheckedActions.Cli.Command
import CheckedActions.Cli.JsonParameter
import CheckedActions.Cli.Options
import CheckedActions.Cli.Program
import CheckedActions.Config.Discovery
import CheckedActions.Config.Sections
import CheckedActions.Config.Settings
import CheckedActions.Config.Surroundings
import CheckedActions.Config.Variables
import CheckedActions.Display.ErrorTree
import CheckedActions.Display.Report
import CheckedActions.Display.Table
import CheckedActions.Display.Wrap
import CheckedActions.Failure
import CheckedActions.Json.Document
import CheckedActions.Json.Reader
import CheckedActions.Json.Report
import CheckedActions.Json.Sorted
import CheckedActions.Log.Record
import CheckedActions.Log.Setup
import CheckedActions.Main
import CheckedActions.Module.Basic
import CheckedActions.Module.Shelf
import CheckedActions.Named
import CheckedActions.Number.Binary64
import CheckedActions.Number.Decimal
import CheckedActions.Number.Layout
import CheckedActions.Number.Natural
import CheckedActions.Number.Shortest
import CheckedActions.Plugin.Basic
import CheckedActions.Plugin.Roster
import CheckedActions.Proofs.Overlay
import CheckedActions.Proofs.Runs
import CheckedActions.Schema.Check
import CheckedActions.Schema.Problem
import CheckedActions.Schema.WholeNumber
import CheckedActions.Service.Actions
import CheckedActions.Service.Registry
import CheckedActions.Service.Result
import CheckedActions.Text.Blank
import CheckedActions.Text.Cells
import CheckedActions.Text.Coding
import CheckedActions.Text.Printable
import CheckedActions.Text.Quoted
import CheckedActions.Text.Similar
import CheckedActions.Toml.Reader
import CheckedActions.Toml.Scalar
import CheckedActions.Toml.Table
import CheckedActions.Validator.Basic
import CheckedActions.Validator.Label
import CheckedActions.Validator.Workbench
import CheckedActions.Value.Access
import CheckedActions.Value.Basic
import CheckedActions.Value.Field
import CheckedActions.Value.Instant
import CheckedActions.Value.Key
import CheckedActions.Value.Order
import CheckedActions.Value.Pairs
import CheckedActions.Value.Plain
import CheckedActions.Value.Show
import CheckedActions.Value.Tag
import CheckedActions.Proofs.Shapes
import CheckedActions.Proofs.Performing
import CheckedActions.Proofs.PlainTypes
import CheckedActions.Proofs.PlainData
import CheckedActions.Proofs.Boundary
import CheckedActions.Proofs.Endings
import CheckedActions.Proofs.Codes
import CheckedActions.Proofs.Observers
import CheckedActions.Proofs.Names
import CheckedActions.Proofs.Journal
import CheckedActions.Proofs.Sources
import CheckedActions.Proofs.Conduct
import CheckedActions.Proofs.Removal
import CheckedActions.Proofs.Discovery
import CheckedActions.Proofs.Listing
import CheckedActions.Proofs.Displacement
import CheckedActions.Proofs.Merging
import CheckedActions.Proofs.Precedence
import CheckedActions.Proofs.Workbench
import CheckedActions.Proofs.Chains
import CheckedActions.Proofs.Creation
import CheckedActions.Proofs.PlainForms
import CheckedActions.Proofs.Documents
import CheckedActions.Proofs.JsonTexts
import CheckedActions.Proofs.JsonReading
import CheckedActions.Proofs.Numerals
import CheckedActions.Proofs.NumberTexts
import CheckedActions.Proofs.StringTexts
import CheckedActions.Proofs.DocumentTexts
import CheckedActions.Proofs.Meanings
import CheckedActions.Proofs.Printing
import CheckedActions.Proofs.BareTexts
import CheckedActions.Proofs.Reportable
import CheckedActions.Proofs.Showing
import CheckedActions.Proofs.DayNumbers
import CheckedActions.Proofs.Instants
import CheckedActions.Proofs.Rounding
import CheckedActions.Proofs.EpochMillis
import CheckedActions.Proofs.Coercion
import CheckedActions.Proofs.IsoPlaces
import CheckedActions.Proofs.IsoReading
import CheckedActions.Proofs.Timestamps
import CheckedActions.Proofs.StampReading
import CheckedActions.Proofs.Revalidation
import CheckedActions.Proofs.Absence
import CheckedActions.Proofs.Layering
import CheckedActions.Proofs.PlainResults
import CheckedActions.Proofs.StoreBinding
import CheckedActions.Proofs.JsonAcceptance
import CheckedActions.Proofs.ObjectTexts
import CheckedActions.Proofs.Invocations
import CheckedActions.Proofs.SectionVariables
import CheckedActions.Proofs.SectionSources
import CheckedActions.Proofs.Frames
import CheckedActions.Proofs.LogContext
import CheckedActions.Proofs.Labels
import CheckedActions.Proofs.Telling
