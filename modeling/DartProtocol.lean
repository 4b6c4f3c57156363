import DartProtocol.ConversationFlow
import DartProtocol.ConversationOrder
import DartProtocol.DecoderAgreement
import DartProtocol.FirstContact
import DartProtocol.FloodLimit
import DartProtocol.FreshPeer
import DartProtocol.NackCapacity
import DartProtocol.NackRepair
import DartProtocol.ProbeCoverage
import DartProtocol.RelayCache
import DartProtocol.RelayFraming
import DartProtocol.Retransmission
import DartProtocol.RosterAgreement
import DartProtocol.RotationEpochs
import DartProtocol.Routing
import DartProtocol.RustCleanup
import DartProtocol.RustNumbers
import DartProtocol.RustRoster
import DartProtocol.SentNumbers
import DartProtocol.SharedFunctions
