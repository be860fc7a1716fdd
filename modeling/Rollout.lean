import Rollout.Cluster.Client
import Rollout.Cluster.Objects
import Rollout.Cluster.Pod
import Rollout.Cluster.Store
import Rollout.Cluster.Wait
import Rollout.CommandLine.Arguments
import Rollout.CommandLine.Command
import Rollout.CommandLine.Execute
import Rollout.Failure
import Rollout.Fault
import Rollout.Files.Packaged
import Rollout.Files.Path
import Rollout.Files.Tree
import Rollout.Http.Exchange
import Rollout.Http.Message
import Rollout.Json.Access
import Rollout.Json.Display
import Rollout.Json.Printer
import Rollout.Json.Reader
import Rollout.Json.Value
import Rollout.Main
import Rollout.Number.Binary64
import Rollout.Number.Decimal
import Rollout.Number.Input
import Rollout.Pom.Descriptor
import Rollout.Pom.Edit
import Rollout.Pom.Fragment
import Rollout.Pom.Layout
import Rollout.Pom.OnDisk
import Rollout.Pom.View
import Rollout.Project.Build
import Rollout.Project.Copy
import Rollout.Proofs.Pom.Outline
import Rollout.Scenario.Context
import Rollout.Scenario.Expectation
import Rollout.Scenario.Run
import Rollout.Scenario.Steps
import Rollout.Settings.Booster
import Rollout.Settings.Catalog
import Rollout.Settings.Form
import Rollout.Settings.Harness
import Rollout.Text.Blank
import Rollout.Text.Case
import Rollout.Text.Lines
import Rollout.Text.Markup
import Rollout.Text.Pieces
import Rollout.Text.Ranges
import Rollout.Text.ShellWords
import Rollout.Text.Word
import Rollout.World.Event
import Rollout.World.Pause
import Rollout.World.Process
import Rollout.World.World
import Rollout.Xml.Dtd
import Rollout.Xml.DtdReader
import Rollout.Xml.Indent
import Rollout.Xml.Names
import Rollout.Xml.Node
import Rollout.Xml.Printer
import Rollout.Xml.Reader
import Rollout.Xml.Scan
import Rollout.Proofs.Pom.Pin
import Rollout.Proofs.Pom.Kept
import Rollout.Proofs.Pom.Frame
import Rollout.Proofs.Xml.Marks
import Rollout.Proofs.Xml.Parts
import Rollout.Proofs.Xml.Outside
import Rollout.Proofs.Xml.Content
import Rollout.Proofs.Xml.Doctype
import Rollout.Proofs.Xml.RootText
import Rollout.Proofs.Xml.Reading
import Rollout.Proofs.Xml.Values
import Rollout.Proofs.Pom.Split
import Rollout.Proofs.Xml.Escapes
import Rollout.Proofs.Xml.Sound
import Rollout.Proofs.Xml.Written
import Rollout.Proofs.Xml.Pieces
import Rollout.Proofs.Xml.ReadBack
import Rollout.Proofs.Xml.Prefixes
import Rollout.Proofs.Xml.Declarations
import Rollout.Proofs.Xml.Astray
import Rollout.Proofs.Pom.RoundTrip
import Rollout.Proofs.Pom.Names
import Rollout.Proofs.Cluster.Listing
import Rollout.Proofs.Cluster.Newest
import Rollout.Proofs.Cluster.Poll
import Rollout.Proofs.Cluster.Cancel
import Rollout.Proofs.Cluster.Moment
import Rollout.Proofs.Cluster.Order
import Rollout.Proofs.Pom.Views
import Rollout.Proofs.Pom.Configuration
import Rollout.Proofs.Pom.Sequence
import Rollout.Proofs.Files.Places
import Rollout.Proofs.Project.Paths
import Rollout.Proofs.World.Courses
import Rollout.Proofs.Cluster.Calls
import Rollout.Proofs.Scenario.Steps
import Rollout.Proofs.Scenario.Plans
import Rollout.Proofs.Scenario.Words
import Rollout.Proofs.Scenario.Teardown
import Rollout.Proofs.Scenario.Removal
import Rollout.Proofs.Scenario.Trace
import Rollout.Proofs.Files.Entries
import Rollout.Proofs.Files.Ways
import Rollout.Proofs.Project.Copies
import Rollout.Proofs.Xml.RootTag
import Rollout.Proofs.Pom.Settled
import Rollout.Proofs.Pom.FileEdits
import Rollout.Proofs.Project.Suites
import Rollout.Proofs.Project.Isolation
import Rollout.Proofs.Pom.Commute
import Rollout.Proofs.Pom.History
import Rollout.Proofs.Project.Clones
import Rollout.Proofs.Project.Reach
import Rollout.Proofs.Text.Pieces
import Rollout.Proofs.Text.Replacing
import Rollout.Proofs.Pom.Units
import Rollout.Proofs.Pom.Repeats
import Rollout.Proofs.Project.Atomic
import Rollout.Proofs.Xml.Layout
import Rollout.Proofs.Pom.LaidOut
import Rollout.Proofs.Xml.Inserted
import Rollout.Proofs.Pom.Remarks
import Rollout.Proofs.Pom.Template
import Rollout.Proofs.Xml.Typed
import Rollout.Proofs.Pom.Annotation
import Rollout.Proofs.Pom.Seen
import Rollout.Proofs.Xml.Front
import Rollout.Proofs.Xml.Gaps
import Rollout.Proofs.Xml.Lookahead
import Rollout.Proofs.Xml.Reread
import Rollout.Proofs.Xml.LineEnds
import Rollout.Proofs.Pom.Additions
import Rollout.Proofs.Pom.Retexted
import Rollout.Proofs.Pom.Readable
import Rollout.Proofs.Http.Search
import Rollout.Proofs.Http.Sending
import Rollout.Proofs.Scenario.Asking
import Rollout.Proofs.Text.Markup
import Rollout.Proofs.Scenario.Tracking
import Rollout.Proofs.Cluster.ConfigMaps
import Rollout.Proofs.Text.ShellWords
import Rollout.Proofs.Scenario.Commands
import Rollout.Proofs.Scenario.Answers
import Rollout.Proofs.Scenario.Health
import Rollout.Proofs.Scenario.Recovery
import Rollout.Proofs.Number.Values
import Rollout.Proofs.Settings.Forms
import Rollout.Proofs.Settings.Accepted
