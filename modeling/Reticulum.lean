import Reticulum.Resource.Advertise
import Reticulum.Link.Closure
import Reticulum.Resource.Chain
import Reticulum.Channel.StreamRuns
import Reticulum.Channel.FailedSend
import Reticulum.Transport.Authentic
import Reticulum.Transport.ValidatedCache
import Reticulum.Transport.AnnounceCaps
import Reticulum.Transport.TunnelProof
import Reticulum.Transport.Emissions
import Reticulum.Transport.OwnPacing
import Reticulum.Transport.LocalClients
import Reticulum.Destination.Announce
import Reticulum.Ble.Carriage
import Reticulum.Ble.Lifecycle
import Reticulum.Interfaces.Resync
import Reticulum.Interfaces.TcpLifecycle
import Reticulum.Interfaces.Server
import Reticulum.Interfaces.RadioQueue
import Reticulum.Interfaces.BackboneLock
import Reticulum.Interfaces.PostExchange
import Reticulum.Interfaces.PostDrain
import Reticulum.Interfaces.PostCadence
import Reticulum.Discovery.StampCaches
import Reticulum.Discovery.AutoconnectRuns
import Reticulum.Interfaces.AutoPeersRuns
import Reticulum.Interfaces.PostRegistration
import Reticulum.Discovery.ConfigInjection
import Reticulum.Destination.Decryption
import Reticulum.Destination.KnownDestinations
import Reticulum.Transport.InterfaceEdges
import Reticulum.Transport.LinkMtu
import Reticulum.Transport.RouteUse
import Reticulum.Transport.TunnelRestart
import Reticulum.Transport.AnnounceCache
import Reticulum.Interfaces.RNodeReadings
import Reticulum.Channel.Window
import Reticulum.Channel.Codec
import Reticulum.Resource.Payload
import Reticulum.Link.MtuArithmetic
import Reticulum.Link.RequestIds
import Reticulum.Resource.SentParts
import Reticulum.Resource.HashmapArithmetic
import Reticulum.Transport.NoRelay
import Reticulum.Link.Serving
import Reticulum.Transport.PathDiscovery
import Reticulum.Interfaces.StreamDelivery
