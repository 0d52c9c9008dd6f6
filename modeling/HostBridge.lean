import HostBridge.Binding.Access
import HostBridge.Binding.Builder
import HostBridge.Binding.Cache
import HostBridge.Binding.Claim
import HostBridge.Binding.Debug
import HostBridge.Binding.Description
import HostBridge.Binding.Fault
import HostBridge.Binding.Host
import HostBridge.Binding.Member
import HostBridge.Binding.Mode
import HostBridge.Binding.Policy
import HostBridge.Double
import HostBridge.Double.Decimal
import HostBridge.Double.Pattern
import HostBridge.Engine.Assign
import HostBridge.Engine.Builtin
import HostBridge.Engine.Calculation
import HostBridge.Engine.Coercion
import HostBridge.Engine.CopyIn
import HostBridge.Engine.CopyOut
import HostBridge.Engine.Function
import HostBridge.Engine.Globals
import HostBridge.Engine.Heap
import HostBridge.Engine.Node
import HostBridge.Engine.Numeral
import HostBridge.Engine.Operator
import HostBridge.Engine.Read
import HostBridge.Engine.Rejection
import HostBridge.Engine.Snapshot
import HostBridge.Engine.Specimen
import HostBridge.Engine.Standard
import HostBridge.Engine.Text
import HostBridge.Engine.Value
import HostBridge.File
import HostBridge.File.Directory
import HostBridge.Host.Bag
import HostBridge.Host.Rules
import HostBridge.Host.Types
import HostBridge.Host.Vector
import HostBridge.Host.Workbench
import HostBridge.Json.Fault
import HostBridge.Json.Numeral
import HostBridge.Json.Quoted
import HostBridge.Json.Skip
import HostBridge.Json.Struct
import HostBridge.Log
import HostBridge.Log.Filter
import HostBridge.Log.Logger
import HostBridge.Log.Template
import HostBridge.Loop
import HostBridge.Main
import HostBridge.Program
import HostBridge.Program.Arguments
import HostBridge.Program.Demo
import HostBridge.Proofs.Access
import HostBridge.Proofs.Admission
import HostBridge.Proofs.Agreement
import HostBridge.Proofs.CacheMap
import HostBridge.Proofs.CodeEvolution
import HostBridge.Proofs.Collision
import HostBridge.Proofs.CopyBound
import HostBridge.Proofs.CopyWhole
import HostBridge.Proofs.Declaration
import HostBridge.Proofs.DoubleInteger
import HostBridge.Proofs.Effect
import HostBridge.Proofs.Enumeration
import HostBridge.Proofs.Equality
import HostBridge.Proofs.Evolution
import HostBridge.Proofs.ForeignReceiver
import HostBridge.Proofs.Grouping
import HostBridge.Proofs.IntegerTrip
import HostBridge.Proofs.IntegerView
import HostBridge.Proofs.JobOrder
import HostBridge.Proofs.JsonTree
import HostBridge.Proofs.Keys
import HostBridge.Proofs.ModeAgreement
import HostBridge.Proofs.NormalForm
import HostBridge.Proofs.ObjectShape
import HostBridge.Proofs.OneLevel
import HostBridge.Proofs.Overload
import HostBridge.Proofs.PartialSettings
import HostBridge.Proofs.Position
import HostBridge.Proofs.Property
import HostBridge.Proofs.Redirect
import HostBridge.Proofs.RejectionCount
import HostBridge.Proofs.Reordering
import HostBridge.Proofs.Requests
import HostBridge.Proofs.Restriction
import HostBridge.Proofs.RoundTrip
import HostBridge.Proofs.SettingsText
import HostBridge.Proofs.Skipping
import HostBridge.Proofs.TemplateFault
import HostBridge.Proofs.TemplateGrammar
import HostBridge.Proofs.UnhandledCount
import HostBridge.Proofs.Vector
import HostBridge.Proofs.Walk
import HostBridge.Proofs.Warnings
import HostBridge.Proofs.WorkEvolution
import HostBridge.Proofs.WrittenText
import HostBridge.Record
import HostBridge.Rejection
import HostBridge.Rejection.Callback
import HostBridge.Rejection.Stats
import HostBridge.Script.Engine
import HostBridge.Script.Evaluation
import HostBridge.Script.Expression
import HostBridge.Script.Fault
import HostBridge.Script.Grammar
import HostBridge.Script.Machine
import HostBridge.Script.Method
import HostBridge.Script.Run
import HostBridge.Script.Runtime
import HostBridge.Script.Statement
import HostBridge.Script.Text
import HostBridge.Script.Token
import HostBridge.Script.Work
import HostBridge.Settings
import HostBridge.Settings.Table
import HostBridge.Settings.Text
import HostBridge.Text.Blank
import HostBridge.Text.Hex
import HostBridge.Text.Integer
import HostBridge.Text.NameChar
import HostBridge.Text.Percent
import HostBridge.Text.Surrogate
import HostBridge.Text.Unsigned
import HostBridge.Value
import HostBridge.Value.Text
