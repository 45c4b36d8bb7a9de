import ServerUi.Binding.Template
import ServerUi.Binding.ValueTemplate
import ServerUi.Blueprint
import ServerUi.Command.Arguments
import ServerUi.Command.Program
import ServerUi.Command.Work
import ServerUi.Component.Basic
import ServerUi.Component.Builtin
import ServerUi.Component.Host
import ServerUi.Diagnostic
import ServerUi.Dict
import ServerUi.Document.Gate
import ServerUi.Document.Path
import ServerUi.Interaction.Action
import ServerUi.Interaction.Event
import ServerUi.Json.Cursor
import ServerUi.Json.Fault
import ServerUi.Json.Printer
import ServerUi.Json.Reader
import ServerUi.Json.Skip
import ServerUi.Json.Value
import ServerUi.Log.Filter
import ServerUi.Log.Notice
import ServerUi.Log.Watch
import ServerUi.Main
import ServerUi.Mount
import ServerUi.Number.Binary64
import ServerUi.Number.Shortest
import ServerUi.Proofs.Binding.Clean
import ServerUi.Proofs.Binding.Lossless
import ServerUi.Proofs.Binding.Pattern
import ServerUi.Proofs.Binding.Resolution
import ServerUi.Proofs.Binding.Scan
import ServerUi.Proofs.Binding.Token
import ServerUi.Proofs.Blueprint.Attribute
import ServerUi.Proofs.Blueprint.Identity
import ServerUi.Proofs.Blueprint.Interpret
import ServerUi.Proofs.Blueprint.Position
import ServerUi.Proofs.Blueprint.Reads
import ServerUi.Proofs.Blueprint.Replacement
import ServerUi.Proofs.Blueprint.Shape
import ServerUi.Proofs.Blueprint.Shown
import ServerUi.Proofs.Blueprint.Sibling
import ServerUi.Proofs.Blueprint.Stability
import ServerUi.Proofs.Command.Reordering
import ServerUi.Proofs.Command.Strict
import ServerUi.Proofs.Component.Builtin
import ServerUi.Proofs.Diagnostic.Ineffective
import ServerUi.Proofs.Diagnostic.Soundness
import ServerUi.Proofs.Dict.Order
import ServerUi.Proofs.Document.Comparison
import ServerUi.Proofs.Document.Frame
import ServerUi.Proofs.Document.Integer
import ServerUi.Proofs.Document.Lens
import ServerUi.Proofs.Html.Escape
import ServerUi.Proofs.Html.Markup
import ServerUi.Proofs.Html.PlainText
import ServerUi.Proofs.Html.Scanner
import ServerUi.Proofs.Html.StartTag
import ServerUi.Proofs.Interaction.Effect
import ServerUi.Proofs.Json.Order
import ServerUi.Proofs.Log.Warning
import ServerUi.Proofs.Mount.Layer
import ServerUi.Proofs.Number.Decimal
import ServerUi.Proofs.Number.Rounding
import ServerUi.Proofs.Number.Text
import ServerUi.Proofs.Schema.Accepted
import ServerUi.Proofs.Schema.Canonical
import ServerUi.Proofs.Schema.Extension
import ServerUi.Proofs.Schema.Grammar
import ServerUi.Proofs.Schema.Loaded
import ServerUi.Proofs.Schema.Record
import ServerUi.Proofs.Schema.RoundTrip
import ServerUi.Proofs.Session.Run
import ServerUi.Proofs.Text.Excerpt
import ServerUi.Schema.Basic
import ServerUi.Schema.Decode
import ServerUi.Schema.Encode
import ServerUi.Schema.Load
import ServerUi.Schema.LoadError
import ServerUi.Schema.Mismatch
import ServerUi.Schema.Streamed
import ServerUi.Session
import ServerUi.Text.Blank
import ServerUi.Text.Excerpt
import ServerUi.Text.Printable
import ServerUi.Text.Quoted
import ServerUi.View.Basic
import ServerUi.View.Html
