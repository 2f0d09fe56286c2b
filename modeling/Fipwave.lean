import Fipwave.TurnToken
import Fipwave.PacketAssembly
import Fipwave.ResetInertness
import Fipwave.CandidateSelection
import Fipwave.ReportChain
import Fipwave.NativeWork
import Fipwave.ReadinessProofs
import Fipwave.PacketForwarding
import Fipwave.EnvelopeBijection
import Fipwave.FwavRoundTrip
import Fipwave.FragmentInverse
import Fipwave.ImageDelivery
import Fipwave.SessionDeadline
import Fipwave.BrowserFrames
import Fipwave.GateAgreement
import Fipwave.EvidenceProvenance
import Fipwave.ImageSends
import Fipwave.CandidateCommitment
import Fipwave.HandshakeRoundTrip
import Fipwave.ReportRoundTrip
import Fipwave.SerialTransmissions
import Fipwave.EvidenceIsolation
import Fipwave.SessionRetirement
import Fipwave.BurstDetection
import Fipwave.EnqueueTotality
import Fipwave.CyrinxMetadata
import Fipwave.AttestationLimits
import Fipwave.WorkerGenerations
import Fipwave.QueueAccounts
import Fipwave.BitwiseChecksum
import Fipwave.DisplayedSession
import Fipwave.ImageUpload
import Fipwave.AuthenticatedSender
import Fipwave.SecureHash
import Fipwave.NativeDigest
import Fipwave.AttestationParsing
import Fipwave.ControlResponse
import Fipwave.ControlClient
import Fipwave.ControlSerialization
import Fipwave.DoubleRounding
import Fipwave.PingPatterns
import Fipwave.PingResult
import Fipwave.TextPatterns
import Fipwave.FipsTransport
import Fipwave.TransportMoves
import Fipwave.TransportOrder
import Fipwave.PeerReconciler
import Fipwave.WorkerLink
import Fipwave.LabelledStream
import Fipwave.AckSoundness
import Fipwave.AcceptedPackets
import Fipwave.BrowserPage
import Fipwave.PacketCarriage
import Fipwave.PacketJourney
