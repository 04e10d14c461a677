import Calculator.Command.Call
import Calculator.Evaluation
import Calculator.Event.Journal
import Calculator.Main
import Calculator.Proofs.Command.Batch
import Calculator.Proofs.Command.Consistency
import Calculator.Proofs.Command.Dialogue
import Calculator.Proofs.Command.JsonBatch
import Calculator.Proofs.Evaluation.Arithmetic
import Calculator.Proofs.Evaluation.Containment
import Calculator.Proofs.Evaluation.Extension
import Calculator.Proofs.Evaluation.FirstError
import Calculator.Proofs.Evaluation.Frames
import Calculator.Proofs.Evaluation.Nesting
import Calculator.Proofs.Evaluation.OnePass
import Calculator.Proofs.Evaluation.Overflow
import Calculator.Proofs.Evaluation.Pointing
import Calculator.Proofs.Evaluation.SameOutcome
import Calculator.Proofs.Event.Appending
import Calculator.Proofs.Event.Clipping
import Calculator.Proofs.Event.Emission
import Calculator.Proofs.Event.KeyOrder
import Calculator.Proofs.Event.Locking
import Calculator.Proofs.Event.Observation
import Calculator.Proofs.Event.Warnings
import Calculator.Proofs.Settings.Refusal
import Calculator.Proofs.Source.LongestMatch
import Calculator.Proofs.Source.Progress
import Calculator.Settings
import Calculator.Template.Render
import Calculator.Vocabulary
import Calculator.Proofs.Event.Limit
import Calculator.Proofs.Template.Parts
import Calculator.Proofs.Template.Rendering
import Calculator.Proofs.Command.Presenting
import Calculator.Proofs.Text.Unstyled
