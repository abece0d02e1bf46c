import Dialogue.Catalog
import Dialogue.CommandLine.Demo
import Dialogue.CommandLine.Disk
import Dialogue.CommandLine.Dump
import Dialogue.CommandLine.Linter
import Dialogue.CommandLine.Loading
import Dialogue.CommandLine.Printout
import Dialogue.CommandLine.Shell
import Dialogue.CommandLine.Tool
import Dialogue.Editor.Desk
import Dialogue.Editor.Preview
import Dialogue.Editor.Sample
import Dialogue.Entries
import Dialogue.Interpolation
import Dialogue.Json.Basic
import Dialogue.Json.Conversion
import Dialogue.Json.Numeral
import Dialogue.Json.Parsing
import Dialogue.Json.Printer
import Dialogue.Json.ReadError
import Dialogue.Json.Reading
import Dialogue.Json.Scan
import Dialogue.Json.Skipping
import Dialogue.Json.Stored
import Dialogue.Json.Writing
import Dialogue.Layout.Basic
import Dialogue.Layout.Config
import Dialogue.Layout.Coordinate
import Dialogue.Layout.Form
import Dialogue.Layout.Graph
import Dialogue.Layout.LongestPath
import Dialogue.Main
import Dialogue.Markup.Form
import Dialogue.Markup.Span
import Dialogue.Markup.Tag
import Dialogue.Markup.Wrap
import Dialogue.Number.Binary64
import Dialogue.Number.Power
import Dialogue.Number.Shortest
import Dialogue.Number.Written
import Dialogue.Play.Form
import Dialogue.Play.Session
import Dialogue.Play.Snapshot
import Dialogue.Play.Walk
import Dialogue.Review.Annotation
import Dialogue.Review.Issue
import Dialogue.Review.Lint
import Dialogue.Review.Vocabulary
import Dialogue.Ron.Numeral
import Dialogue.Ron.Printer
import Dialogue.Ron.ReadError
import Dialogue.Ron.Reading
import Dialogue.Ron.Scan
import Dialogue.Ron.Skipping
import Dialogue.Shape.Basic
import Dialogue.Shape.Readers
import Dialogue.Shape.Stored
import Dialogue.SortedMap
import Dialogue.Story.Choice
import Dialogue.Story.Form
import Dialogue.Story.Gate
import Dialogue.Story.Loading
import Dialogue.Story.Portrait
import Dialogue.Story.Tree
import Dialogue.Story.World
import Dialogue.Text.Blank
import Dialogue.Text.Integer
import Dialogue.Text.Lines
import Dialogue.Text.Lowercase
import Dialogue.Text.Padding
import Dialogue.Text.Place
import Dialogue.Text.Quoted
import Dialogue.Text.Ranges
import Dialogue.Text.Search
import Dialogue.Text.Unprintable
import Dialogue.Proofs.Play.Step
import Dialogue.Proofs.Review.Findings
import Dialogue.Proofs.Play.Certificate
import Dialogue.Proofs.Layout.Reach
import Dialogue.Proofs.Layout.Discovery
import Dialogue.Proofs.Layout.Traversal
import Dialogue.Proofs.Layout.Placement
import Dialogue.Proofs.Play.Coverage
import Dialogue.Proofs.Review.Mention
import Dialogue.Proofs.Play.Agreement
import Dialogue.Proofs.Play.Indistinguishable
import Dialogue.Proofs.Play.Seeding
import Dialogue.Proofs.Play.Unwritten
import Dialogue.Proofs.Json.Quoted
import Dialogue.Proofs.Json.Reads
import Dialogue.Proofs.Play.Offers
import Dialogue.Proofs.Play.Transcript
import Dialogue.Proofs.Json.Whole
import Dialogue.Proofs.Json.Listing
import Dialogue.Proofs.Shape.Fit
import Dialogue.Proofs.Json.RoundTrip
import Dialogue.Proofs.Story.Saving
import Dialogue.Proofs.Play.Parking
import Dialogue.Proofs.Play.LifeCycle
import Dialogue.Proofs.Play.Playability
import Dialogue.Proofs.Layout.Visit
import Dialogue.Proofs.Layout.Trail
import Dialogue.Proofs.Layout.Marks
import Dialogue.Proofs.Layout.ForwardEdge
import Dialogue.Proofs.Layout.Depth
import Dialogue.Proofs.Layout.Locality
import Dialogue.Proofs.Layout.Edge
import Dialogue.Proofs.Markup.Reading
import Dialogue.Proofs.Markup.Stability
import Dialogue.Proofs.Markup.Selection
import Dialogue.Proofs.Interpolation.Token
import Dialogue.Proofs.Interpolation.Split
import Dialogue.Proofs.Interpolation.Idempotence
import Dialogue.Proofs.Markup.Filling
import Dialogue.Proofs.Review.Report
import Dialogue.Proofs.Editor.Refinement
import Dialogue.Proofs.Editor.TagLabel
import Dialogue.Proofs.Json.Stepping
import Dialogue.Proofs.Json.Readers
import Dialogue.Proofs.Story.Acceptance
import Dialogue.Proofs.Json.Agreement
import Dialogue.Proofs.Json.Sorting
import Dialogue.Proofs.Story.Reordering
import Dialogue.Proofs.Story.Parsed
import Dialogue.Proofs.Story.Priority
import Dialogue.Proofs.Play.Consequence
import Dialogue.Proofs.Play.Selection
import Dialogue.Proofs.Layout.Levels
import Dialogue.Proofs.Layout.Position
import Dialogue.Proofs.Layout.Drawing
import Dialogue.Proofs.Layout.Packing
import Dialogue.Proofs.Story.Openness
import Dialogue.Proofs.Play.Exploration
import Dialogue.Proofs.Layout.Standing
import Dialogue.Proofs.Layout.Course
import Dialogue.Proofs.Layout.Numbering
