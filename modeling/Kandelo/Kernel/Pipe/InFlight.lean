import Kandelo.Kernel.File.Host
import Kandelo.Lib.Slots

/-!
# Sockets, and descriptors in flight

Sockets of `crates/kernel/src/socket.rs`, and the descriptors that messages between
sockets carry (`crates/kernel/src/pipe.rs`): what is kept of a description until a receiver gets one
of its own, and what is kept of that if nobody will. Indices and counts are numbers without a bound.
-/

namespace Kandelo.Kernel.Descriptor

/-- `FileId`, with the kinds of files in the kernel that are opened by name; `lock.rs:24-40`. -/
inductive FileId
  | Host (dev ino : Nat)
  | ProcFsRegular (objectId : Nat)
  | SyntheticRegular (objectId : Nat)

end Kandelo.Kernel.Descriptor

namespace Kandelo.Kernel.Pipe

open File

/-! ### Sockets -/

/-- `SocketDomain`; `socket.rs:64-68`. -/
inductive SocketDomain
  | Unix
  | Inet
  | Inet6
  deriving DecidableEq

/-- `SocketType`; `socket.rs:72-75`. -/
inductive SocketType
  | Stream
  | Dgram
  deriving DecidableEq

/-- `SocketState`; `socket.rs:79-87`. -/
inductive SocketState
  | Unbound
  | Bound
  | Listening
  | Connecting
  | Connected
  | Closed
  deriving DecidableEq

/-- `Ipv4MulticastMembership`; `socket.rs:183-191`. -/
structure Ipv4MulticastMembership where
  group : Vector UInt8 4
  interfaceAddr : Vector UInt8 4
  anySource : Bool
  blockedSources : List (Vector UInt8 4)
  includedSources : List (Vector UInt8 4)
  deriving DecidableEq

/-- `SocketInfo`, without the datagrams and the out-of-band byte that are queued;
`socket.rs:609-683`. -/
structure SocketInfo where
  domain : SocketDomain
  sockType : SocketType
  protocol : BitVec 32
  state : SocketState
  peerIdx : Option Nat
  recvBufIdx : Option Nat
  sendBufIdx : Option Nat
  shutRd : Bool
  shutWr : Bool
  hostNetHandle : Option (BitVec 32)
  options : List (BitVec 32 × BitVec 32 × BitVec 32)
  lingerOnoff : BitVec 32
  lingerSeconds : BitVec 32
  bindDevice : Option (List UInt8)
  tcpCongestion : List UInt8
  bindAddr : Vector UInt8 4
  bindAddr6 : Vector UInt8 16
  bindPort : BitVec 16
  peerAddr : Vector UInt8 4
  peerAddr6 : Vector UInt8 16
  peerPort : BitVec 16
  listenBacklog : List Nat
  sharedBacklogIdx : Option Nat
  acceptWakeIdx : Option (BitVec 32)
  ipv4MulticastMemberships : List Ipv4MulticastMembership
  globalPipes : Bool
  recvTimeoutUs : BitVec 64
  sendTimeoutUs : BitVec 64
  bindPath : Option (List UInt8)
  connectError : BitVec 32
  deriving DecidableEq

/-- `SocketInfo::new`; `socket.rs:687-723`. -/
def SocketInfo.new (domain : SocketDomain) (sockType : SocketType) (protocol : BitVec 32) :
    SocketInfo where
  domain
  sockType
  protocol
  state := .Unbound
  peerIdx := none
  recvBufIdx := none
  sendBufIdx := none
  shutRd := false
  shutWr := false
  hostNetHandle := none
  options := []
  lingerOnoff := 0
  lingerSeconds := 0
  bindDevice := none
  tcpCongestion := [0x63, 0x75, 0x62, 0x69, 0x63]
  bindAddr := .replicate 4 0
  bindAddr6 := .replicate 16 0
  bindPort := 0
  peerAddr := .replicate 4 0
  peerAddr6 := .replicate 16 0
  peerPort := 0
  listenBacklog := []
  sharedBacklogIdx := none
  acceptWakeIdx := none
  ipv4MulticastMemberships := []
  globalPipes := true
  recvTimeoutUs := 0
  sendTimeoutUs := 0
  bindPath := none
  connectError := 0

/-! ### Descriptors in flight -/

/-- `InFlightPipeRefKind`; `pipe.rs:42-47`. -/
inductive RefKind
  | Path
  | Read (fifoReadOnly : Bool)
  | Write
  | ReadWrite
  deriving DecidableEq

/-- `InFlightSocket`; `pipe.rs:187-201`. -/
structure InFlightSocket where
  domain : UInt8
  sockType : UInt8
  protocol : BitVec 32
  state : UInt8
  sendBufIdx : Option Nat
  recvBufIdx : Option Nat
  globalPipes : Bool
  shutRd : Bool
  shutWr : Bool
  bindAddr : Vector UInt8 4
  bindPort : BitVec 16
  peerAddr : Vector UInt8 4
  peerPort : BitVec 16

/-- `InFlightFd`, without the offset; `pipe.rs:53-72`. -/
structure InFlightFd where
  ofdId : Nat
  fileId : Option Descriptor.FileId
  fileType : FileType
  statusFlags : BitVec 32
  hostHandle : Int
  path : List UInt8
  pipeRefKind : Option RefKind
  socket : Option InFlightSocket
  ownsReference : Bool

variable (fd : InFlightFd)

/-- The pipe that a queued socket receives from; `pipe.rs:1430-1441`. -/
def InFlightFd.receives : Option Nat :=
  if fd.fileType = .Socket then
    fd.socket.bind fun s => if s.globalPipes then s.recvBufIdx else none
  else none

/-- `DeferredInFlightFdRelease`; `pipe.rs:206-217`. -/
structure DeferredRelease where
  ofdId : Nat
  fileType : FileType
  hostHandle : Int
  pipeRefKind : Option RefKind
  socketSendIdx : Option Nat
  socketRecvIdx : Option Nat
  socketDomain : Option UInt8
  socketType : Option UInt8
  socketGlobalPipes : Bool

/-- `release_metadata`; `pipe.rs:96-111`. -/
def InFlightFd.releaseMetadata : DeferredRelease where
  ofdId := fd.ofdId
  fileType := fd.fileType
  hostHandle := fd.hostHandle
  pipeRefKind := fd.pipeRefKind
  socketSendIdx := fd.socket.bind (·.sendBufIdx)
  socketRecvIdx := fd.socket.bind (·.recvBufIdx)
  socketDomain := fd.socket.map (·.domain)
  socketType := fd.socket.map (·.sockType)
  socketGlobalPipes := fd.socket.any (·.globalPipes)

end Kandelo.Kernel.Pipe
