import StaticCheck.Proofs.Analysis.Noninterference
import StaticCheck.Proofs.Analysis.Online
import StaticCheck.Proofs.Analysis.Renaming
import StaticCheck.Proofs.Analysis.Reordering
import StaticCheck.Proofs.Analysis.Trail
import StaticCheck.Proofs.Registry.Remainder
import StaticCheck.Proofs.Tree.Composite
import StaticCheck.Proofs.Tree.Grouping
import StaticCheck.Proofs.Tree.Mentions
import StaticCheck.Proofs.Tree.Writing
import StaticCheck.Proofs.Violation.Message
import StaticCheck.Session
