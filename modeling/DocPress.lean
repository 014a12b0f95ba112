import DocPress.CommandLine.Session
import DocPress.Main
import DocPress.Proofs.Document.Clear
import DocPress.Proofs.Document.Content
import DocPress.Proofs.Document.RoundTrip
import DocPress.Proofs.Document.Footnotes
import DocPress.Proofs.Flatten.Script
import DocPress.Proofs.Flatten.Shift
import DocPress.Proofs.Flatten.Stitched
import DocPress.Proofs.Latex.FixedPoint
import DocPress.Proofs.Latex.Counting
import DocPress.Proofs.Latex.References
import DocPress.Proofs.Text.Lines
import DocPress.Proofs.Keyed.Latest
import DocPress.Proofs.Flatten.Calls
import DocPress.Proofs.Flatten.Guard
import DocPress.Proofs.Flatten.Cycle
import DocPress.Proofs.Flatten.Nested
import DocPress.Proofs.Flatten.Contents
import DocPress.Proofs.Catalog.Wrapped
import DocPress.Proofs.Heading.Rendered
import DocPress.Proofs.Flatten.Landmark
import DocPress.Proofs.Flatten.Language
import DocPress.Proofs.Catalog.Written
import DocPress.Proofs.Document.Single
import DocPress.Proofs.Tree.Written
import DocPress.Proofs.Latex.Single
import DocPress.Proofs.Run.Single
import DocPress.Proofs.Run.Process
import DocPress.Proofs.Heading.Levels
import DocPress.Proofs.Catalog.Fitted
import DocPress.Proofs.Heading.Untouched
import DocPress.Proofs.Contents.Listed
import DocPress.Proofs.Catalog.Substituted
import DocPress.Proofs.Latex.Columns
import DocPress.Proofs.Catalog.Longest
import DocPress.Proofs.Flatten.Untargeted
