import Enlace.State.Atomic
import Enlace.SlotOrder
import Enlace.Relay.SlotWrite
import Enlace.DedupWindow
import Enlace.Health
import Enlace.Agent
import Enlace.Peer.Delivery
import Enlace.Peer.Allowlist
import Enlace.Peer.Scope
import Enlace.Peer.CardCodec
import Enlace.Domains
import Enlace.Relay.History
import Enlace.Iroh.Topic
import Enlace.Lite.AcceptRouting
import Enlace.Quic.Close
import Enlace.Quic.Forgery
import Enlace.Lite.Credit
import Enlace.Quic.Nonce
import Enlace.Quic.FlowControl
import Enlace.Lite.OpenStreams
import Enlace.Lite.Application
import Enlace.Lite.ReadLoop
import Enlace.Gossip.Subscriptions
import Enlace.Gossip.Accept
import Enlace.Pkarr.Lookup
import Enlace.Iroh.Pending
import Enlace.Quic.Reassembly
import Enlace.Quic.CryptoStream
import Enlace.Gossip.ViewBounds
import Enlace.Gossip.SelfWrites
import Enlace.Gossip.Dials
import Enlace.Pkarr.Publish
