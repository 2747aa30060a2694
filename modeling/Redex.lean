import Redex.Main
import Redex.Session
import Redex.Proofs.Prelude.Compilation
import Redex.Proofs.Prelude.Resolution
import Redex.Proofs.ReadBack
import Redex.Proofs.Reduction.Comparison
import Redex.Proofs.Reduction.Completeness
import Redex.Proofs.Reduction.NormalOrder
import Redex.Proofs.Reduction.Tracing
import Redex.Proofs.Reduction.Uniqueness
import Redex.Proofs.Shadowing
import Redex.Proofs.Syntax.Legibility
import Redex.Proofs.KeptNames
import Redex.Proofs.Letters
import Redex.Proofs.Reduction.Iteration
import Redex.Proofs.Reduction.FirstRedex
import Redex.Proofs.Prelude.Numerals
import Redex.Proofs.Reduction.Budget
import Redex.Proofs.Reduction.Replacement
import Redex.Proofs.Reduction.Bindings
import Redex.Proofs.Syntax.Refusal
import Redex.Proofs.NameSearch
import Redex.Proofs.Json
import Redex.Proofs.Prelude.Blame
import Redex.Proofs.Syntax.Tiling
import Redex.Proofs.Command.ExitStatus
