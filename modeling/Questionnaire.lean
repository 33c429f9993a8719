import Questionnaire.Text.Blank
import Questionnaire.Text.Utf16
import Questionnaire.Text.Colour
import Questionnaire.SortedMap
import Questionnaire.Decimal.Layout
import Questionnaire.Json.Decode
import Questionnaire.Package.Decode
import Questionnaire.Package.Encode
import Questionnaire.Field.Synthesis
import Questionnaire.Field.Serial
import Questionnaire.Reference.Graph
import Questionnaire.Form.Basic
import Questionnaire.Step.Serial
import Questionnaire.Pattern.Reader
import Questionnaire.Answer.Check
import Questionnaire.Answer.Records
import Questionnaire.Session.Run
import Questionnaire.Submission.Document
import Questionnaire.Review
import Questionnaire.Report.Outline
import Questionnaire.Report.Verdict
import Questionnaire.Toml.Reader
import Questionnaire.Settings
import Questionnaire.CommandLine.Arguments
import Questionnaire.CommandLine.Host
import Questionnaire.CommandLine.Run
import Questionnaire.CommandLine.Folder
import Questionnaire.Main
import Questionnaire.Proofs.Step.Order
import Questionnaire.Reference.Serial
import Questionnaire.Proofs.Answer.Records
import Questionnaire.Proofs.Session.Outcome
import Questionnaire.Proofs.Session.Runs
import Questionnaire.Proofs.Session.Position
import Questionnaire.Proofs.Session.Edits
import Questionnaire.Proofs.Session.Soundness
import Questionnaire.Proofs.Reference.DepthFirst
import Questionnaire.Proofs.Step.Assembly
import Questionnaire.Proofs.Session.Submission
import Questionnaire.Proofs.Session.Parents
import Questionnaire.Proofs.Submission.Ending
import Questionnaire.Proofs.Submission.Placement
import Questionnaire.Proofs.Submission.Review
import Questionnaire.Proofs.Submission.Occurrences
import Questionnaire.Proofs.Session.Occurrences
import Questionnaire.Session.Attempt
import Questionnaire.Proofs.Session.Nesting
import Questionnaire.Proofs.Session.Attempts
import Questionnaire.Proofs.Session.Deletion
import Questionnaire.Proofs.Session.Cancelling
import Questionnaire.Proofs.Session.Saving
import Questionnaire.Proofs.Session.Judgements
import Questionnaire.Proofs.Session.Undisturbed
import Questionnaire.Proofs.Session.Provenance
import Questionnaire.Proofs.Session.Return
import Questionnaire.Proofs.Step.Circles
import Questionnaire.Proofs.Step.Depth
import Questionnaire.Proofs.Step.Dependencies
import Questionnaire.Proofs.Session.Stops
import Questionnaire.Proofs.Step.Shape
import Questionnaire.Proofs.Json.Values
import Questionnaire.Proofs.Json.Reads
import Questionnaire.Proofs.Package.RoundTrip
import Questionnaire.Proofs.Json.Text
import Questionnaire.Proofs.Step.RoundTrip
import Questionnaire.Proofs.Json.Places
import Questionnaire.Proofs.Json.Containment
import Questionnaire.Proofs.Package.Containment
import Questionnaire.Proofs.Answer.RoundTrip
import Questionnaire.Proofs.Reference.Graph
import Questionnaire.Proofs.Step.Hints
import Questionnaire.Proofs.Step.Tree
import Questionnaire.Proofs.Step.Paths
import Questionnaire.Proofs.Answer.Judging
import Questionnaire.Proofs.Step.Renumbering
import Questionnaire.Proofs.Step.Aliases
import Questionnaire.Proofs.Step.Gathering
import Questionnaire.Proofs.Page.Layout
import Questionnaire.Proofs.Step.Growth
import Questionnaire.Proofs.Overlay.Projection
import Questionnaire.Proofs.Field.Cardinality
import Questionnaire.Proofs.Reference.Target
import Questionnaire.Proofs.Step.Languages
