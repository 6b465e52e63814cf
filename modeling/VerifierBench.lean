import VerifierBench.Campaign
import VerifierBench.Check.Request
import VerifierBench.Check.Response
import VerifierBench.Check.Service
import VerifierBench.Check.Text
import VerifierBench.CommandLine.Command
import VerifierBench.CommandLine.Grammar
import VerifierBench.CommandLine.Inputs
import VerifierBench.CommandLine.Run
import VerifierBench.Error
import VerifierBench.Fixture.Basic
import VerifierBench.Fixture.Catalogue
import VerifierBench.Fixture.Script
import VerifierBench.Folder
import VerifierBench.Json.Basic
import VerifierBench.Json.Decode
import VerifierBench.Json.Printer
import VerifierBench.Json.Reader
import VerifierBench.Loop.Accumulation
import VerifierBench.Loop.Assertion
import VerifierBench.Loop.Basic
import VerifierBench.Loop.Guarded
import VerifierBench.Loop.Progression
import VerifierBench.Main
import VerifierBench.Number.Binary64
import VerifierBench.Number.Range
import VerifierBench.Number.Scientific
import VerifierBench.Position
import VerifierBench.Proofs.Campaign.Accounting
import VerifierBench.Proofs.Campaign.Combined
import VerifierBench.Proofs.Campaign.Coverage
import VerifierBench.Proofs.Campaign.Detection
import VerifierBench.Proofs.Campaign.Drawn
import VerifierBench.Proofs.Campaign.Faultless
import VerifierBench.Proofs.Campaign.FullCoverage
import VerifierBench.Proofs.Campaign.Repeated
import VerifierBench.Proofs.Campaign.SmallDomain
import VerifierBench.Proofs.Campaign.Sweep
import VerifierBench.Proofs.Campaign.Verdict
import VerifierBench.Proofs.Check.Agreement
import VerifierBench.Proofs.Check.AllFixtures
import VerifierBench.Proofs.Check.Answer
import VerifierBench.Proofs.Check.GridSweep
import VerifierBench.Proofs.Check.RandomWords
import VerifierBench.Proofs.Check.Refusal
import VerifierBench.Proofs.Check.RequestForm
import VerifierBench.Proofs.CommandLine.Inputs
import VerifierBench.Proofs.Fixture.Catalogue
import VerifierBench.Proofs.Fixture.CounterProgram
import VerifierBench.Proofs.Fixture.Literal
import VerifierBench.Proofs.Fixture.Script
import VerifierBench.Proofs.Fixture.Verdict
import VerifierBench.Proofs.Json.Faithful
import VerifierBench.Proofs.Json.Form
import VerifierBench.Proofs.Json.Text
import VerifierBench.Proofs.Loop.Checked
import VerifierBench.Proofs.Loop.ClosedForm
import VerifierBench.Proofs.Loop.CrossCheck
import VerifierBench.Proofs.Loop.Divergence
import VerifierBench.Proofs.Loop.Exit
import VerifierBench.Proofs.Loop.Progression
import VerifierBench.Proofs.Loop.Trace
import VerifierBench.Proofs.Loop.Wraparound
import VerifierBench.Proofs.Report.CheckResult
import VerifierBench.Proofs.Report.Explanation
import VerifierBench.Proofs.Report.Judgement
import VerifierBench.Proofs.Report.Oracle
import VerifierBench.Proofs.Report.Session
import VerifierBench.Proofs.Settings.Arguments
import VerifierBench.Proofs.Settings.Layers
import VerifierBench.Proofs.Settings.Lookup
import VerifierBench.Proofs.Settings.Precedence
import VerifierBench.Proofs.Settings.Spelling
import VerifierBench.Proofs.Source.Enumeration
import VerifierBench.Proofs.Source.Grid
import VerifierBench.Proofs.Source.Interleaving
import VerifierBench.Proofs.Source.Odometer
import VerifierBench.Proofs.Source.Stream
import VerifierBench.Proofs.Text.Blank
import VerifierBench.Proofs.Text.Fields
import VerifierBench.Proofs.Text.Listing
import VerifierBench.Proofs.Text.Numeral
import VerifierBench.Proofs.Tree.Attempts
import VerifierBench.Proofs.Tree.Choice
import VerifierBench.Proofs.Tree.Conjuncts
import VerifierBench.Proofs.Tree.Extrema
import VerifierBench.Proofs.Tree.FaultText
import VerifierBench.Proofs.Tree.Injection
import VerifierBench.Proofs.Tree.Leaves
import VerifierBench.Proofs.Tree.ProgramReader
import VerifierBench.Proofs.Tree.ProgramText
import VerifierBench.Proofs.Tree.PublishedFault
import VerifierBench.Proofs.Tree.Refusal
import VerifierBench.Proofs.Tree.RelativeOrder
import VerifierBench.Proofs.Tree.Shape
import VerifierBench.Proofs.Wire.Fault
import VerifierBench.Report.CheckResult
import VerifierBench.Report.File
import VerifierBench.Report.Oracle
import VerifierBench.Report.Sink
import VerifierBench.Settings.Layers
import VerifierBench.Settings.Preferences
import VerifierBench.Settings.Value
import VerifierBench.Source.Basic
import VerifierBench.Source.Grid
import VerifierBench.Source.WordStream
import VerifierBench.Text.Blank
import VerifierBench.Text.Fields
import VerifierBench.Text.Numeral
import VerifierBench.Toml.Basic
import VerifierBench.Toml.Moment
import VerifierBench.Toml.Numeral
import VerifierBench.Toml.Quoted
import VerifierBench.Toml.Reader
import VerifierBench.Tree.Cascade
import VerifierBench.Tree.Decision
import VerifierBench.Tree.Injection
import VerifierBench.Tree.Program
import VerifierBench.Tree.Reader
import VerifierBench.Wire.Loop
import VerifierBench.Wire.Tree
