import SlabFlux.Core.BackpressureValve
import SlabFlux.Core.EpochReclamation.Safety
import SlabFlux.Core.IngressPolicer
import SlabFlux.Core.MpmcConduit.Safety
import SlabFlux.Core.MpmcPool
import SlabFlux.Core.OrderedDiffusion.Sequential
import SlabFlux.Core.ShardedConduit.Law
import SlabFlux.Core.SpscConduit.Invalidate
import SlabFlux.Net.Defragmenter.Completeness
import SlabFlux.Net.Defragmenter.Presence
import SlabFlux.Net.Defragmenter.Separation
import SlabFlux.Net.Ipv6Defragmenter.Refusal
import SlabFlux.Net.Ipv6Gateway
import SlabFlux.Net.Quic.Safety
import SlabFlux.Net.Reassembly.FinPosition
import SlabFlux.Net.Reassembly.Stream
import SlabFlux.Net.SynCookie.Soundness
import SlabFlux.Net.Tcp.AddressTimeout
import SlabFlux.Net.Tcp.Congestion.Recovery
import SlabFlux.Net.Tcp.FlightBounds
import SlabFlux.Net.Tcp.ReceiveWindow.Bounds
import SlabFlux.Net.Tcp.RoundTripTime
import SlabFlux.Net.Tcp.Scoreboard
import SlabFlux.Net.Tcp.StatelessHandshake
import SlabFlux.Net.Tcp.Stranding
import SlabFlux.Net.Tcp.TransmitRings.Accounting
import SlabFlux.Net.Tls.RoundTrip
import SlabFlux.Net.Tls.Sending
import SlabFlux.Security.Handshake.Agreement
import SlabFlux.Security.Handshake.ClientAuthentication
import SlabFlux.Security.Handshake.ServerAuthentication
import SlabFlux.Security.Sha256
import SlabFlux.Pipeline.SingleCall
import SlabFlux.Transport.Hpack.Huffman
import SlabFlux.Transport.Hpack.Integers
import SlabFlux.Transport.Http2.Demultiplexing
import SlabFlux.Transport.StreamDefragmenter.Delivery
import SlabFlux.Dist.CausalSequencer.Delivery
import SlabFlux.Io.DurableJournal.Durability
import SlabFlux.Io.ShmDuplex.Delivery
