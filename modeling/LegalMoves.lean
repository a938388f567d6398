import LegalMoves.Compiled
import LegalMoves.Game.Reader
import LegalMoves.Game.Writer
import LegalMoves.History
import LegalMoves.Lists
import LegalMoves.Rule.Calls
import LegalMoves.Rule.Chains
import LegalMoves.Rule.Plan
import LegalMoves.Rule.Text
import LegalMoves.Snapshot.Calls
import LegalMoves.Snapshot.Play
import LegalMoves.Proofs.Queue
import LegalMoves.Proofs.Streaming
import LegalMoves.Proofs.Preparation
import LegalMoves.Proofs.Provenance
import LegalMoves.Proofs.Existence
import LegalMoves.Proofs.Front
import LegalMoves.Proofs.Flow
import LegalMoves.Proofs.Needed
import LegalMoves.Proofs.ShortCircuit
import LegalMoves.Proofs.NoRepetition
import LegalMoves.Proofs.Reachability
import LegalMoves.Proofs.Staticness
import LegalMoves.Proofs.Capabilities
import LegalMoves.Proofs.Erasure
import LegalMoves.Proofs.Validation
import LegalMoves.Proofs.Spelling
import LegalMoves.Proofs.Numerals
import LegalMoves.Proofs.Grammar
import LegalMoves.Proofs.ReadBack
import LegalMoves.Proofs.Drafts
import LegalMoves.Proofs.Loading
import LegalMoves.Proofs.Grouping
import LegalMoves.Proofs.FirstGame
import LegalMoves.Proofs.Steps
import LegalMoves.Proofs.Provision
import LegalMoves.Proofs.Symmetry
import LegalMoves.Proofs.Visits
import LegalMoves.Proofs.Situations
import LegalMoves.Proofs.Fingerprints
import LegalMoves.Proofs.Enumeration
import LegalMoves.Proofs.Placement
import LegalMoves.Proofs.Lines
import LegalMoves.Proofs.Attributes
import LegalMoves.Proofs.Removal
import LegalMoves.Proofs.Lookahead
import LegalMoves.Proofs.Pulls
