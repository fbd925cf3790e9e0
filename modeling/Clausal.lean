import Clausal.Formula.Evaluation
import Clausal.Main
import Clausal.Proofs.Atoms
import Clausal.Proofs.Balance
import Clausal.Proofs.Conservation
import Clausal.Proofs.Decoding
import Clausal.Proofs.Entries
import Clausal.Proofs.Enumeration
import Clausal.Proofs.Equivalence
import Clausal.Proofs.Extension
import Clausal.Proofs.Framing
import Clausal.Proofs.Grammar.Context
import Clausal.Proofs.Grammar.Phrase
import Clausal.Proofs.Legibility
import Clausal.Proofs.Limit
import Clausal.Proofs.Meaning
import Clausal.Proofs.Misfit
import Clausal.Proofs.Node.Obtained
import Clausal.Proofs.Parts
import Clausal.Proofs.Passes
import Clausal.Proofs.Polarity
import Clausal.Proofs.Rereading
import Clausal.Proofs.Signs
import Clausal.Proofs.Size
import Clausal.Proofs.Spacing
import Clausal.Proofs.Termination
