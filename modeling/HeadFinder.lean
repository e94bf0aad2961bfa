import HeadFinder.Acceptance
import HeadFinder.Calendar.Date
import HeadFinder.Calendar.Timestamp
import HeadFinder.CommandLine.Help
import HeadFinder.CommandLine.Misuse
import HeadFinder.CommandLine.Request
import HeadFinder.CommandLine.Run
import HeadFinder.CommandLine.Switch
import HeadFinder.CommandLine.Token
import HeadFinder.Criterion
import HeadFinder.Discovery
import HeadFinder.Failure
import HeadFinder.Head
import HeadFinder.History
import HeadFinder.Json.Printer
import HeadFinder.Json.Reader
import HeadFinder.Json.Value
import HeadFinder.Main
import HeadFinder.Markup.Declarations
import HeadFinder.Markup.Document
import HeadFinder.Markup.Element
import HeadFinder.Markup.Entity
import HeadFinder.Markup.Fault
import HeadFinder.Markup.Misc
import HeadFinder.Markup.Name
import HeadFinder.Markup.Namespace
import HeadFinder.Markup.Reader
import HeadFinder.Markup.Tag
import HeadFinder.Markup.Token
import HeadFinder.Numeral.Binary64
import HeadFinder.Numeral.Fraction
import HeadFinder.Numeral.Integer
import HeadFinder.Numeral.Number
import HeadFinder.Numeral.Power
import HeadFinder.Numeral.Shortest
import HeadFinder.Ordered
import HeadFinder.Pattern.Basic
import HeadFinder.Pattern.Glob
import HeadFinder.Pattern.Grouping
import HeadFinder.Place
import HeadFinder.Preferences
import HeadFinder.Project
import HeadFinder.Proofs.Acceptance
import HeadFinder.Proofs.Access
import HeadFinder.Proofs.Alike
import HeadFinder.Proofs.Calendar.Milliseconds
import HeadFinder.Proofs.Calendar.Moments
import HeadFinder.Proofs.Canonical
import HeadFinder.Proofs.CommandLine.Lines
import HeadFinder.Proofs.CommandLine.Replay
import HeadFinder.Proofs.Discovery.Abort
import HeadFinder.Proofs.Discovery.Account
import HeadFinder.Proofs.Discovery.Busy
import HeadFinder.Proofs.Discovery.Conduct
import HeadFinder.Proofs.Discovery.Containment
import HeadFinder.Proofs.Discovery.Course
import HeadFinder.Proofs.Discovery.Disorder
import HeadFinder.Proofs.Discovery.Ends
import HeadFinder.Proofs.Discovery.Exactness
import HeadFinder.Proofs.Discovery.Filter
import HeadFinder.Proofs.Discovery.Fixed
import HeadFinder.Proofs.Discovery.Guards
import HeadFinder.Proofs.Discovery.Heads
import HeadFinder.Proofs.Discovery.Isolation
import HeadFinder.Proofs.Discovery.Mirror
import HeadFinder.Proofs.Discovery.Once
import HeadFinder.Proofs.Discovery.Parting
import HeadFinder.Proofs.Discovery.Paths
import HeadFinder.Proofs.Discovery.Pruning
import HeadFinder.Proofs.Discovery.Record
import HeadFinder.Proofs.Discovery.Service
import HeadFinder.Proofs.Discovery.Steps
import HeadFinder.Proofs.Discovery.Tour
import HeadFinder.Proofs.Discovery.Truncation
import HeadFinder.Proofs.Discovery.Warrant
import HeadFinder.Proofs.History.Clean
import HeadFinder.Proofs.History.Commit
import HeadFinder.Proofs.History.Listing
import HeadFinder.Proofs.History.Outcome
import HeadFinder.Proofs.History.Pinning
import HeadFinder.Proofs.History.Snapshots
import HeadFinder.Proofs.History.Trees
import HeadFinder.Proofs.Join
import HeadFinder.Proofs.Json.Members
import HeadFinder.Proofs.Json.Numbers
import HeadFinder.Proofs.Json.RoundTrip
import HeadFinder.Proofs.Json.Soundness
import HeadFinder.Proofs.Json.Strings
import HeadFinder.Proofs.Markup.Reading
import HeadFinder.Proofs.Markup.Tags
import HeadFinder.Proofs.Markup.Writing
import HeadFinder.Proofs.Numeral.Integer
import HeadFinder.Proofs.Numeral.Quotients
import HeadFinder.Proofs.Numeral.Rounding
import HeadFinder.Proofs.Ordered
import HeadFinder.Proofs.Path
import HeadFinder.Proofs.Pattern.Covering
import HeadFinder.Proofs.Pattern.Gathering
import HeadFinder.Proofs.Pattern.Grouping
import HeadFinder.Proofs.Pattern.Language
import HeadFinder.Proofs.Pattern.Lists
import HeadFinder.Proofs.Pattern.Merging
import HeadFinder.Proofs.Pattern.Order
import HeadFinder.Proofs.Pattern.Partition
import HeadFinder.Proofs.Pattern.Tokens
import HeadFinder.Proofs.Preferences.Files
import HeadFinder.Proofs.Preferences.Settings
import HeadFinder.Proofs.Project.Ends
import HeadFinder.Proofs.Project.Includes
import HeadFinder.Proofs.Project.Lookup
import HeadFinder.Proofs.Project.Mirror
import HeadFinder.Proofs.Project.Sessions
import HeadFinder.Proofs.Project.Trouble
import HeadFinder.Proofs.Report.Lines
import HeadFinder.Proofs.Roster
import HeadFinder.Proofs.Subversion.Addresses
import HeadFinder.Proofs.Subversion.Agreement
import HeadFinder.Proofs.Subversion.Answers
import HeadFinder.Proofs.Subversion.Diagnostics
import HeadFinder.Proofs.Subversion.Failures
import HeadFinder.Proofs.Subversion.Opening
import HeadFinder.Proofs.Subversion.Recorded
import HeadFinder.Proofs.Subversion.Targets
import HeadFinder.Proofs.Text.Blank
import HeadFinder.Proofs.Text.Percent
import HeadFinder.Proofs.Text.Pieces
import HeadFinder.Proofs.Text.Search
import HeadFinder.Proofs.Text.Trim
import HeadFinder.Proofs.Text.Utf8
import HeadFinder.Receiver
import HeadFinder.Report
import HeadFinder.Report.Highlight
import HeadFinder.Session
import HeadFinder.Subversion.Client
import HeadFinder.Subversion.Connection
import HeadFinder.Subversion.Diagnostic
import HeadFinder.Subversion.Info
import HeadFinder.Subversion.Recording
import HeadFinder.Subversion.Transcript
import HeadFinder.Text.Basic
import HeadFinder.Text.Blank
import HeadFinder.Text.Digit
import HeadFinder.Text.Hex
import HeadFinder.Text.Percent
import HeadFinder.Text.Printable
import HeadFinder.Text.Quoted
import HeadFinder.Text.Ranges
import HeadFinder.Text.Utf8
import HeadFinder.Text.Word
import HeadFinder.Tree
