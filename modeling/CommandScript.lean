import CommandScript.Main
import CommandScript.Worker
import CommandScript.Workbench.Session
import CommandScript.Proofs.ListText.RoundTrip
import CommandScript.Proofs.Script.WrittenList
import CommandScript.Proofs.Evaluation.Run
import CommandScript.Proofs.Evaluation.Trace
import CommandScript.Proofs.Evaluation.StackRestoration
import CommandScript.Proofs.Number.Numeral
import CommandScript.Proofs.Table.Related
import CommandScript.Proofs.Value.Coherence
import CommandScript.Proofs.Value.Meaning
import CommandScript.Proofs.Evaluation.Agreement
import CommandScript.Proofs.Evaluation.Alike
import CommandScript.Proofs.Evaluation.AlikePlain
import CommandScript.Proofs.Evaluation.AlikeControl
import CommandScript.Proofs.Evaluation.CachedForms
import CommandScript.Proofs.Scope.Variables
import CommandScript.Proofs.Evaluation.Isolation
import CommandScript.Proofs.Evaluation.Signals
import CommandScript.Proofs.Value.ConversionHistory
import CommandScript.Proofs.Evaluation.NoFault
import CommandScript.Proofs.Value.Forms
import CommandScript.Proofs.Value.KeptObjects
import CommandScript.Proofs.Script.Completion
import CommandScript.Proofs.Script.Trimmed
import CommandScript.Proofs.Shell.Gathered
import CommandScript.Proofs.Command.Dispatch
import CommandScript.Proofs.Command.Registry
import CommandScript.Proofs.Calendar.Gregorian
import CommandScript.Proofs.Table.Members
import CommandScript.Proofs.Value.Literals
import CommandScript.Proofs.Evaluation.Custody
import CommandScript.Proofs.Evaluation.CustodyPlain
import CommandScript.Proofs.Evaluation.LiteralIsolation
import CommandScript.Proofs.Value.Additions
import CommandScript.Proofs.Evaluation.Atomic
import CommandScript.Proofs.Evaluation.LastError
import CommandScript.Proofs.Evaluation.InRange
import CommandScript.Proofs.Evaluation.Termination
import CommandScript.Proofs.Scope.Version
import CommandScript.Proofs.Number.FloatNumeral
import CommandScript.Proofs.Value.NumberForms
import CommandScript.Proofs.Worker.Serialised
import CommandScript.Proofs.ListText.Descent
import CommandScript.Proofs.Script.DescentScan
import CommandScript.Proofs.Script.Bracketed
import CommandScript.Proofs.Evaluation.Binding
import CommandScript.Proofs.Value.Wording
import CommandScript.Proofs.Value.DeepCopy
import CommandScript.Proofs.Evaluation.NewExceptions
import CommandScript.Proofs.Evaluation.Active
import CommandScript.Proofs.Evaluation.ErrorTrace
import CommandScript.Proofs.Number.Grammar
import CommandScript.Proofs.Table.HashText
import CommandScript.Proofs.Value.KnownTexts
import CommandScript.Proofs.Evaluation.KnownTexts
import CommandScript.Proofs.Evaluation.Foreach
import CommandScript.Proofs.Evaluation.Branches
import CommandScript.Proofs.Value.Count
import CommandScript.Proofs.Evaluation.Arithmetic
import CommandScript.Proofs.Script.NormalForm
import CommandScript.Proofs.Evaluation.WordValues
