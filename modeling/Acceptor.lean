import Acceptor.Description.Examples
import Acceptor.Main
import Acceptor.Sampling.Words
import Acceptor.Version
import Acceptor.Proofs.Ascending
import Acceptor.Proofs.OrderedMap
import Acceptor.Proofs.Rows
import Acceptor.Proofs.Automaton
import Acceptor.Proofs.Batch
import Acceptor.Proofs.Builder
import Acceptor.Proofs.Calls
import Acceptor.Proofs.Meaning
import Acceptor.Proofs.Prediction
import Acceptor.Proofs.RoundTrip
import Acceptor.Proofs.Origin
import Acceptor.Proofs.Reachability
import Acceptor.Proofs.Routes
import Acceptor.Proofs.LineFault
import Acceptor.Proofs.Grammar
import Acceptor.Proofs.FirstFault
import Acceptor.Proofs.Additions
import Acceptor.Proofs.LifeCycle
import Acceptor.Proofs.Recording
import Acceptor.Proofs.Rearrangement
import Acceptor.Proofs.CanonicalForm
import Acceptor.Proofs.Layout
import Acceptor.Proofs.Equality
import Acceptor.Proofs.Renaming
import Acceptor.Proofs.Verdicts
import Acceptor.Proofs.Pruning
import Acceptor.Proofs.Priority
import Acceptor.Proofs.Misfit
import Acceptor.Proofs.Paths
import Acceptor.Proofs.Simulation
import Acceptor.Proofs.Adjacency
import Acceptor.Proofs.Edits
import Acceptor.Proofs.MissingLine
import Acceptor.Proofs.Admission
import Acceptor.Proofs.ContentLines
import Acceptor.Proofs.LogLevel
import Acceptor.Proofs.Ranks
import Acceptor.Proofs.Saving
import Acceptor.Proofs.Header
import Acceptor.Proofs.Overwriting
