import LegacyBasic.Cursor
import LegacyBasic.FileTree
import LegacyBasic.Main
import LegacyBasic.Statement.Describe
import LegacyBasic.Proofs.ConcreteSyntax
import LegacyBasic.Proofs.Rules
import LegacyBasic.Proofs.Soundness
import LegacyBasic.Proofs.Relabeling
import LegacyBasic.Proofs.Completeness
import LegacyBasic.Proofs.Lexemes
import LegacyBasic.Proofs.Scanning
import LegacyBasic.Proofs.Printing
import LegacyBasic.Proofs.Desugaring
import LegacyBasic.Proofs.Rereading
import LegacyBasic.Proofs.SecondPass
import LegacyBasic.Proofs.Tiling
import LegacyBasic.Proofs.Faults
import LegacyBasic.Proofs.Concatenation
import LegacyBasic.Proofs.LetterCase
import LegacyBasic.Proofs.Alternatives
import LegacyBasic.Proofs.Failing
import LegacyBasic.Proofs.ArgumentLists
import LegacyBasic.Proofs.Schedules
import LegacyBasic.Proofs.Paths
import LegacyBasic.Proofs.FileTrees
import LegacyBasic.Proofs.CompileCommand
import LegacyBasic.Proofs.ReturnExpansion
import LegacyBasic.Proofs.TokenKinds
import LegacyBasic.Proofs.Readings
import LegacyBasic.Proofs.Keywords
import LegacyBasic.Proofs.Layout
import LegacyBasic.Proofs.Resolution
import LegacyBasic.Proofs.Documents
