import RegistryBundle.Main
import RegistryBundle.Proofs.Certificate.Dates
import RegistryBundle.Proofs.Certificate.Subject
import RegistryBundle.Proofs.CommandLine.Calls
import RegistryBundle.Proofs.CommandLine.ExitCodes
import RegistryBundle.Proofs.CommandLine.Untouched
import RegistryBundle.Proofs.FieldGroup.Dumps
import RegistryBundle.Proofs.FieldGroup.Fields
import RegistryBundle.Proofs.FieldGroup.Groups
import RegistryBundle.Proofs.FieldGroup.Overlay
import RegistryBundle.Proofs.Files.Below
import RegistryBundle.Proofs.Files.Tree
import RegistryBundle.Proofs.Keys.Draws
import RegistryBundle.Proofs.Keys.Likeness
import RegistryBundle.Proofs.Keys.Loaded
import RegistryBundle.Proofs.Keys.Manifest
import RegistryBundle.Proofs.Keys.Parts
import RegistryBundle.Proofs.Keys.Provision
import RegistryBundle.Proofs.Keys.Reloading
import RegistryBundle.Proofs.Keys.Snapshot
import RegistryBundle.Proofs.Keys.Stored
import RegistryBundle.Proofs.Keys.Written
import RegistryBundle.Proofs.Loading
import RegistryBundle.Proofs.Outcome
import RegistryBundle.Proofs.Output
import RegistryBundle.Proofs.Output.Failures
import RegistryBundle.Proofs.Output.Whole
import RegistryBundle.Proofs.Pass.Again
import RegistryBundle.Proofs.Pass.Agreement
import RegistryBundle.Proofs.Pass.BaseDocument
import RegistryBundle.Proofs.Pass.Choices
import RegistryBundle.Proofs.Pass.Draws
import RegistryBundle.Proofs.Pass.EntryOrder
import RegistryBundle.Proofs.Pass.OtherEntries
import RegistryBundle.Proofs.Pass.Overlays
import RegistryBundle.Proofs.Pass.Refusals
import RegistryBundle.Proofs.Pass.RouteCertificate
import RegistryBundle.Proofs.Pass.Run
import RegistryBundle.Proofs.Pass.Secrecy
import RegistryBundle.Proofs.Pass.Series
import RegistryBundle.Proofs.Run.Action
import RegistryBundle.Proofs.Run.Agreement
import RegistryBundle.Proofs.Run.Failures
import RegistryBundle.Proofs.Run.Likeness
import RegistryBundle.Proofs.Run.Steady
import RegistryBundle.Proofs.ScannerConfig
import RegistryBundle.Proofs.Schema.Fits
import RegistryBundle.Proofs.Settings.Login
import RegistryBundle.Proofs.Settings.Sections
import RegistryBundle.Proofs.Settings.Spelling
import RegistryBundle.Proofs.Text.LetterCase
import RegistryBundle.Proofs.Time.Calendar
import RegistryBundle.Proofs.Value.Entries
import RegistryBundle.Proofs.Value.Overlaid
import RegistryBundle.Proofs.Value.Reordered
import RegistryBundle.Proofs.Value.Shown
import RegistryBundle.Proofs.Value.Tables
import RegistryBundle.Proofs.Value.Tree
import RegistryBundle.Proofs.Yaml.Dates
import RegistryBundle.Proofs.Yaml.DoubleQuotes
import RegistryBundle.Proofs.Yaml.Doubles
import RegistryBundle.Proofs.Yaml.Entries
import RegistryBundle.Proofs.Yaml.EntryLine
import RegistryBundle.Proofs.Yaml.EntryOrder
import RegistryBundle.Proofs.Yaml.FirstFault
import RegistryBundle.Proofs.Yaml.Grammar
import RegistryBundle.Proofs.Yaml.Hyphenated
import RegistryBundle.Proofs.Yaml.KeysOnce
import RegistryBundle.Proofs.Yaml.Layout
import RegistryBundle.Proofs.Yaml.Marks
import RegistryBundle.Proofs.Yaml.Plain
import RegistryBundle.Proofs.Yaml.Printed
import RegistryBundle.Proofs.Yaml.Quoted
import RegistryBundle.Proofs.Yaml.ReadEntries
import RegistryBundle.Proofs.Yaml.RoundTrip
import RegistryBundle.Proofs.Yaml.Scalar
import RegistryBundle.Proofs.Yaml.SharedEntries
import RegistryBundle.Proofs.Yaml.SingleQuotes
import RegistryBundle.Proofs.Yaml.Timestamps
import RegistryBundle.Proofs.Yaml.Tokens
import RegistryBundle.Proofs.Yaml.Typed
import RegistryBundle.Proofs.Yaml.Unquoted
import RegistryBundle.Proofs.Yaml.Whole
import RegistryBundle.Proofs.Yaml.WholeNumbers
import RegistryBundle.Proofs.Yaml.Writable
