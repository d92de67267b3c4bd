import AuroraLint.CharClass
import AuroraLint.Main
import AuroraLint.Workspace.Program
import AuroraLint.Proofs.Classification
import AuroraLint.Proofs.Lossless
import AuroraLint.Proofs.Located
import AuroraLint.Proofs.Checked
import AuroraLint.Proofs.Checked.Findings
import AuroraLint.Proofs.Balance
import AuroraLint.Proofs.Symbols
import AuroraLint.Proofs.Scoping
import AuroraLint.Proofs.Respelled
import AuroraLint.Proofs.LineByLine
import AuroraLint.Proofs.Matching
import AuroraLint.Proofs.ReadBack
import AuroraLint.Proofs.Continued
import AuroraLint.Proofs.LineEndings
import AuroraLint.Proofs.Severity
import AuroraLint.Proofs.ExitStatus
import AuroraLint.Proofs.Addressing
import AuroraLint.Proofs.Returns.Append
import AuroraLint.Proofs.LoopBinding
import AuroraLint.Proofs.DeclaredNames
import AuroraLint.Proofs.PubHints
import AuroraLint.Proofs.FunctionScopes
import AuroraLint.Proofs.ClassScopes
import AuroraLint.Proofs.Returns.Nested
import AuroraLint.Proofs.InitialTypes
import AuroraLint.Proofs.Signatures
import AuroraLint.Proofs.LiteralCalls
import AuroraLint.Proofs.Members
import AuroraLint.Proofs.LiteralTypes
import AuroraLint.Proofs.OpenStrings
import AuroraLint.Proofs.Printed
import AuroraLint.Proofs.Accounting
import AuroraLint.Proofs.LineSlices
import AuroraLint.Proofs.ScopeHistory
import AuroraLint.Proofs.WorkingDirectory
import AuroraLint.Proofs.FindingPattern
import AuroraLint.Proofs.ListDepth
import AuroraLint.Proofs.CursorRuns
import AuroraLint.Proofs.TypeNames
