import PionTransport.Vnet.Addr

/-!
# Chunks

A chunk is a UDP or a TCP packet of the virtual network. Times are integer
nanoseconds. Cloning a UDP chunk drops its `duplicate` mark, cloning a TCP
chunk keeps it; nothing else differs between a chunk and its clone.
-/

namespace PionTransport.Vnet

/-- The networks a chunk can belong to. -/
inductive Network
  | udp
  | tcp
  deriving DecidableEq, Repr

/-- The network's name. -/
def Network.string : Network → String
  | .udp => "udp"
  | .tcp => "tcp"

/-- The fields of `chunkIP`. -/
structure ChunkIP where
  timestamp : Int
  sourceIP : IPv4
  destinationIP : IPv4
  tag : String
  duplicate : Bool
  deriving DecidableEq, Repr

/-- The fields of `chunkUDP`. -/
structure ChunkUDP extends ChunkIP where
  sourcePort : UInt16
  destinationPort : UInt16
  userData : List UInt8
  deriving DecidableEq, Repr

/-- The fields of `chunkTCP`. -/
structure ChunkTCP extends ChunkIP where
  sourcePort : UInt16
  destinationPort : UInt16
  flags : UInt8
  userData : List UInt8
  seqNum : UInt32
  ackNum : UInt32
  deriving DecidableEq, Repr

/-- The two implementations of the `Chunk` interface. -/
inductive Chunk
  | udp (c : ChunkUDP)
  | tcp (c : ChunkTCP)
  deriving DecidableEq, Repr

/-- `tcpFlag.String`. -/
def tcpFlagString (f : UInt8) : String :=
  let names := [(0x01, "FIN"), (0x02, "SYN"), (0x04, "RST"), (0x08, "PSH"), (0x10, "ACK")]
  "-".intercalate ((names.filter fun name => f &&& name.1 ≠ 0).map Prod.snd)

namespace Chunk

/-- `Network`. -/
def network : Chunk → Network
  | udp _ => .udp
  | tcp _ => .tcp

/-- `SourceAddr`. -/
def sourceAddr : Chunk → Addr
  | udp c => ⟨c.sourceIP, c.sourcePort⟩
  | tcp c => ⟨c.sourceIP, c.sourcePort⟩

/-- `DestinationAddr`. -/
def destinationAddr : Chunk → Addr
  | udp c => ⟨c.destinationIP, c.destinationPort⟩
  | tcp c => ⟨c.destinationIP, c.destinationPort⟩

/-- `getSourceIP`. -/
def getSourceIP (c : Chunk) : IPv4 := c.sourceAddr.ip

/-- `getDestinationIP`. -/
def getDestinationIP (c : Chunk) : IPv4 := c.destinationAddr.ip

/-- `UserData`. -/
def userData : Chunk → List UInt8
  | udp c => c.userData
  | tcp c => c.userData

/-- `Tag`. -/
def tag : Chunk → String
  | udp c => c.tag
  | tcp c => c.tag

/-- `getTimestamp`. -/
def getTimestamp : Chunk → Int
  | udp c => c.timestamp
  | tcp c => c.timestamp

/-- `setTimestamp` at time `now`. -/
def setTimestamp (now : Int) : Chunk → Chunk
  | udp c => udp { c with timestamp := now }
  | tcp c => tcp { c with timestamp := now }

/-- `Clone`. -/
def clone : Chunk → Chunk
  | udp c => udp { c with duplicate := false }
  | tcp c => tcp c

/-- `isDuplicate`. -/
def isDuplicate : Chunk → Bool
  | udp c => c.duplicate
  | tcp c => c.duplicate

/-- `markDuplicate`. -/
def markDuplicate : Chunk → Chunk
  | udp c => udp { c with duplicate := true }
  | tcp c => tcp { c with duplicate := true }

/-- `String`. -/
def string : Chunk → String
  | udp c =>
    "udp chunk " ++ c.tag ++ " " ++ (udp c).sourceAddr.string ++ " => " ++
      (udp c).destinationAddr.string
  | tcp c =>
    "tcp " ++ tcpFlagString c.flags ++ " chunk " ++ c.tag ++ " " ++ (tcp c).sourceAddr.string ++
      " => " ++ (tcp c).destinationAddr.string

/-- The chunk with another source. -/
def withSource (addr : Addr) : Chunk → Chunk
  | udp c => udp { c with sourceIP := addr.ip, sourcePort := addr.port }
  | tcp c => tcp { c with sourceIP := addr.ip, sourcePort := addr.port }

/-- The chunk with another destination. -/
def withDestination (addr : Addr) : Chunk → Chunk
  | udp c => udp { c with destinationIP := addr.ip, destinationPort := addr.port }
  | tcp c => tcp { c with destinationIP := addr.ip, destinationPort := addr.port }

/-- `setSourceAddr`, which fails on an address that does not resolve. -/
def setSourceAddr (c : Chunk) (address : String) : Option Chunk :=
  (resolveAddr address).map fun addr => c.withSource addr

/-- `setDestinationAddr`. -/
def setDestinationAddr (c : Chunk) (address : String) : Option Chunk :=
  (resolveAddr address).map fun addr => c.withDestination addr

section Fields

variable (c : Chunk) (addr : Addr) (now : Int)

/-- A copy keeps the network. -/
@[simp] theorem network_clone : c.clone.network = c.network := by cases c <;> rfl
/-- A copy keeps the source. -/
@[simp] theorem sourceAddr_clone : c.clone.sourceAddr = c.sourceAddr := by cases c <;> rfl
/-- A copy keeps the destination. -/
@[simp] theorem destinationAddr_clone : c.clone.destinationAddr = c.destinationAddr := by
  cases c <;> rfl
/-- A copy keeps the data. -/
@[simp] theorem userData_clone : c.clone.userData = c.userData := by cases c <;> rfl
/-- A copy keeps the tag. -/
@[simp] theorem tag_clone : c.clone.tag = c.tag := by cases c <;> rfl

/-- A new source keeps the network. -/
@[simp] theorem network_withSource : (c.withSource addr).network = c.network := by cases c <;> rfl
/-- A new source is the source. -/
@[simp] theorem sourceAddr_withSource : (c.withSource addr).sourceAddr = addr := by cases c <;> rfl
/-- A new source keeps the destination. -/
@[simp] theorem destinationAddr_withSource :
    (c.withSource addr).destinationAddr = c.destinationAddr := by cases c <;> rfl
/-- A new source keeps the data. -/
@[simp] theorem userData_withSource : (c.withSource addr).userData = c.userData := by
  cases c <;> rfl
/-- A new source keeps the tag. -/
@[simp] theorem tag_withSource : (c.withSource addr).tag = c.tag := by cases c <;> rfl

/-- A new destination keeps the network. -/
@[simp] theorem network_withDestination : (c.withDestination addr).network = c.network := by
  cases c <;> rfl
/-- A new destination keeps the source. -/
@[simp] theorem sourceAddr_withDestination :
    (c.withDestination addr).sourceAddr = c.sourceAddr := by cases c <;> rfl
/-- A new destination is the destination. -/
@[simp] theorem destinationAddr_withDestination :
    (c.withDestination addr).destinationAddr = addr := by cases c <;> rfl
/-- A new destination keeps the data. -/
@[simp] theorem userData_withDestination : (c.withDestination addr).userData = c.userData := by
  cases c <;> rfl
/-- A new destination keeps the tag. -/
@[simp] theorem tag_withDestination : (c.withDestination addr).tag = c.tag := by cases c <;> rfl

/-- A time stamp keeps the network. -/
@[simp] theorem network_setTimestamp : (c.setTimestamp now).network = c.network := by
  cases c <;> rfl
/-- A time stamp keeps the source. -/
@[simp] theorem sourceAddr_setTimestamp : (c.setTimestamp now).sourceAddr = c.sourceAddr := by
  cases c <;> rfl
/-- A time stamp keeps the destination. -/
@[simp] theorem destinationAddr_setTimestamp :
    (c.setTimestamp now).destinationAddr = c.destinationAddr := by cases c <;> rfl
/-- A time stamp keeps the data. -/
@[simp] theorem userData_setTimestamp : (c.setTimestamp now).userData = c.userData := by
  cases c <;> rfl
/-- A time stamp keeps the tag. -/
@[simp] theorem tag_setTimestamp : (c.setTimestamp now).tag = c.tag := by cases c <;> rfl

/-- A marked chunk is a duplicate. -/
@[simp] theorem isDuplicate_markDuplicate : c.markDuplicate.isDuplicate = true := by
  cases c <;> rfl
/-- A new source keeps the mark. -/
@[simp] theorem isDuplicate_withSource : (c.withSource addr).isDuplicate = c.isDuplicate := by
  cases c <;> rfl
/-- A new destination keeps the mark. -/
@[simp] theorem isDuplicate_withDestination :
    (c.withDestination addr).isDuplicate = c.isDuplicate := by cases c <;> rfl
/-- A time stamp keeps the mark. -/
@[simp] theorem isDuplicate_setTimestamp : (c.setTimestamp now).isDuplicate = c.isDuplicate := by
  cases c <;> rfl

end Fields

end Chunk

end PionTransport.Vnet
