import PionTransport.Bridges.Closing
import PionTransport.Bridges.Mirror
import PionTransport.Bridges.Reordering
import PionTransport.Deadlines.Contract
import PionTransport.Deadlines.Firing
import PionTransport.Deadlines.Observers
import PionTransport.Dpipe.Delivery
import PionTransport.Netchange.Checks
import PionTransport.Netchange.Difference
import PionTransport.Netctx.Cancellation
import PionTransport.PacketIO.Admission
import PionTransport.Replay.Agreement
import PionTransport.Replay.Distance
import PionTransport.Replay.History
import PionTransport.Replay.Positions
import PionTransport.Replay.Recorded
import PionTransport.Replay.Register
import PionTransport.Replay.Unaccepted
import PionTransport.Udp.BatchConn
import PionTransport.Udp.Demux
import PionTransport.Udp.Draining
import PionTransport.Udp.Lifetime
import PionTransport.Udp.Wakeups
import PionTransport.Vnet.Assignment
import PionTransport.Vnet.Dispatch
import PionTransport.Vnet.Ephemeral
import PionTransport.Vnet.Isolation
import PionTransport.Vnet.Lifecycle
import PionTransport.Vnet.Lineage
import PionTransport.Vnet.LossBlocks
import PionTransport.Vnet.OneToOne
import PionTransport.Vnet.Pairing
import PionTransport.Vnet.ProxyLifetime
import PionTransport.Vnet.Resolution
import PionTransport.Vnet.Shaping
import PionTransport.Vnet.Stranding
import PionTransport.Vnet.Unblocking
import PionTransport.Xor.Agreement
