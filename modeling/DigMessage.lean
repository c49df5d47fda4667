import DigMessage.FixedWidth
import DigMessage.Streamable
import DigMessage.Encodings
import DigMessage.Envelope
import DigMessage.EnvelopeCodec
import DigMessage.EnvelopeVersion
import DigMessage.Fallible
import DigMessage.Registry
import DigMessage.Primitives
import DigMessage.SenderWindow
import DigMessage.WindowShift
import DigMessage.SeenCounters
import DigMessage.ReplayGuard
import DigMessage.ReplayRuns
import DigMessage.Seal
import DigMessage.Transcript
import DigMessage.SealRoundTrip
import DigMessage.SealTamper
import DigMessage.StreamSession
import DigMessage.StreamEndpoint
import DigMessage.EndpointSteps
import DigMessage.EndpointTrace
import DigMessage.FailedCalls
import DigMessage.EndpointBinding
import DigMessage.SessionDeadline
import DigMessage.Lists
import DigMessage.StreamPair
import DigMessage.StreamDelivery
import DigMessage.Relay
import DigMessage.RelayProjection
import DigMessage.RelaySchedule
import DigMessage.EndpointRestart
import DigMessage.RelayDelivery
import DigMessage.RelayBackpressure
import DigMessage.RelayPowerless
import DigMessage.RelayResets
import DigMessage.SessionReuse
import DigMessage.SelfAddressed
import DigMessage.StreamOrder
import DigMessage.Link
import DigMessage.LinkProjection
import DigMessage.LinkSchedule
import DigMessage.LinkLifecycle
import DigMessage.StreamFlow
import DigMessage.LinkFlow
import DigMessage.GuardIsolation
import DigMessage.GuardEviction
import DigMessage.WindowWidth
import DigMessage.OpenGates
import DigMessage.KeyHolder
import DigMessage.EnvelopeShape
import DigMessage.RecipientReplay
import DigMessage.SessionTrace
import DigMessage.SessionClosed
import DigMessage.StreamIsolation
import DigMessage.StreamCap
import DigMessage.ChunkLimits
import DigMessage.Pipe
import DigMessage.StreamPipe
import DigMessage.LinkPipe
import DigMessage.EndpointCounters
import DigMessage.StreamableSize
import DigMessage.FrameSize
import DigMessage.LinkDrain
import DigMessage.LinkExchange
import DigMessage.LinkConversation
import DigMessage.GuardReorder
import DigMessage.Inbox
import DigMessage.MessageBand
import DigMessage.Network
import DigMessage.SealKeys
import DigMessage.RelayFrames
import DigMessage.Wire
