import Unwire.Main
import Unwire.Proofs.ConstructorArguments
import Unwire.Proofs.Interleaving
import Unwire.Proofs.LineComments
import Unwire.Proofs.ScaffoldSync
import Unwire.Proofs.SecondUpdate
import Unwire.Proofs.SetupBounds
import Unwire.Proofs.StaleReferences
import Unwire.Scaffold
import Unwire.Proofs.EditOrder
import Unwire.Proofs.StaleGrowth
import Unwire.Proofs.Convergence
import Unwire.Proofs.InSync
import Unwire.Proofs.CursorWalk
import Unwire.Proofs.LeadingTrivia
import Unwire.Proofs.SeparatorPolicies
import Unwire.Proofs.PathNames
import Unwire.Proofs.SharedSpecs
import Unwire.Proofs.ExactCollection
import Unwire.Proofs.Positions
import Unwire.Proofs.ArgumentGrammar
import Unwire.Proofs.JsonForms
import Unwire.Proofs.TreeWalks
