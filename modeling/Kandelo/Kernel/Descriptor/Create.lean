import Kandelo.Kernel.Descriptor.Open

/-!
# Creating pipes and sockets

`sys_pipe`, `sys_socket` and `sys_socketpair` of `crates/kernel/src/syscalls.rs`.
-/

namespace Kandelo.Kernel.Descriptor

open Lib
open Kandelo.Kernel.Path
open File (FileType oRdonly oWronly oRdwr)
open Pipe

/-- `PipeTable::alloc` of a new buffer. -/
def allocPipe : Sys Nat :=
  Effect.query fun w => (.ok w.pipes.nextSlot, { w with pipes := w.pipes.alloc .new })

variable (info : SocketInfo)

/-- `SocketTable::alloc`; `socket.rs:822-832`. -/
def allocSocket : Sys Nat :=
  Effect.query fun w => (.ok w.sockets.firstFree, { w with sockets := w.sockets.insert info })

/-- Change a socket through `SocketTable::get_mut`. -/
def modifySocket (i : Nat) (f : SocketInfo → SocketInfo) : Sys Unit :=
  change fun w => { w with sockets := w.sockets.update i f }

/-- The two descriptors of a pipe, or none; `syscalls.rs:4818-4835`. -/
def installPipe (readOfd writeOfd : Nat) : Sys (Nat × Nat) :=
  let undo (e : Errno) : Sys (Nat × Nat) := do
    dropRef readOfd
    dropRef writeOfd
    throw e
  allocFdOr readOfd 0
    (fun readFd => allocFdOr writeOfd 0 (fun writeFd => pure (readFd, writeFd)) fun e => do
      freeFd readFd
      undo e)
    undo

/-- A new pipe; `syscalls.rs:4801-4837`. -/
def createPipe : Sys (Nat × Nat) := do
  let pipe ← allocPipe
  let readOfd ← createOfd .Pipe oRdonly (slotHandle pipe) (bytes "/dev/pipe")
  let writeOfd ← createOfd .Pipe oWronly (slotHandle pipe) (bytes "/dev/pipe")
  installPipe readOfd writeOfd

/-- `sys_pipe`; `syscalls.rs:4792-4838`. -/
def sysPipe : Sys (Nat × Nat) := do
  let w ← world
  match w.task.forkChild, w.forkPipeReplay with
  | true, fds :: rest =>
    -- a forked child that starts over is given the pipes it has inherited
    change fun w => { w with forkPipeReplay := rest }
    pure fds
  | _, _ => createPipe

/-- Flags of the type of a socket; `lib.rs:684-685`. -/
def sockNonblock : BitVec 32 := 0o4000

/-- `SOCK_CLOEXEC`. -/
def sockCloexec : BitVec 32 := 0o2000000

variable (sockType : BitVec 32)

/-- Flags of the description of a socket; `syscalls.rs:8101-8104, 8172-8175`. -/
def socketStatus : BitVec 32 :=
  if has sockType sockNonblock then oRdwr ||| oNonblock else oRdwr

/-- Flags of the descriptor of a socket; `syscalls.rs:8113-8117, 8192-8196`. -/
def socketFdFlags : BitVec 32 :=
  if has sockType sockCloexec then fdCloexec else 0

/-- The domain that a number stands for; `syscalls.rs:8084-8089`. -/
def socketDomain (domain : BitVec 32) : Except Errno SocketDomain :=
  if domain = 1 then .ok .Unix
  else if domain = 2 then .ok .Inet
  else if domain = 10 then .ok .Inet6
  else .error .EAFNOSUPPORT

/-- The type that a number stands for, without its flags; `syscalls.rs:8091-8096`. -/
def socketType : Except Errno SocketType :=
  if sockType &&& ~~~(sockNonblock ||| sockCloexec) = 1 then .ok .Stream
  else if sockType &&& ~~~(sockNonblock ||| sockCloexec) = 2 then .ok .Dgram
  else .error .EPROTOTYPE

/-- `sys_socket`; `syscalls.rs:8074-8121`. -/
def sysSocket (domain sockType protocol : BitVec 32) : Sys Nat := do
  let dom ← Effect.ofExcept (socketDomain domain)
  let stype ← Effect.ofExcept (socketType sockType)
  let sock ← allocSocket (.new dom stype protocol)
  let ofd ← createOfd .Socket (socketStatus sockType) (slotHandle sock) (bytes "/dev/socket")
  allocFd ofd (socketFdFlags sockType)

/-- The type of a pair; `syscalls.rs:8138-8142`. -/
def pairType : Except Errno SocketType :=
  if sockType &&& ~~~(sockNonblock ||| sockCloexec) = 1 then .ok .Stream else .error .EPROTOTYPE

variable (stype : SocketType)

/-- A connected socket over two pipes; `syscalls.rs:8150-8162`. -/
def connected (send recv : Nat) : SocketInfo :=
  { SocketInfo.new .Unix stype 0 with
    state := .Connected, sendBufIdx := some send, recvBufIdx := some recv, globalPipes := true }

/-- The sockets and descriptions of a pair; `syscalls.rs:8144-8190`. -/
def createPair (statusFlags : BitVec 32) : Sys (Nat × Nat) := do
  let bufAb ← allocPipe
  let bufBa ← allocPipe
  let sockA ← allocSocket (connected stype bufAb bufBa)
  let sockB ← allocSocket (connected stype bufBa bufAb)
  modifySocket sockA fun s => { s with peerIdx := some sockB }
  modifySocket sockB fun s => { s with peerIdx := some sockA }
  let ofdA ← createOfd .Socket statusFlags (slotHandle sockA) (bytes "/dev/socket")
  let ofdB ← createOfd .Socket statusFlags (slotHandle sockB) (bytes "/dev/socket")
  pure (ofdA, ofdB)

/-- `sys_socketpair`; `syscalls.rs:8124-8201`. -/
def sysSocketpair (domain sockType : BitVec 32) : Sys (Nat × Nat) :=
  if domain ≠ 1 then throw .EAFNOSUPPORT
  else do
    let stype ← Effect.ofExcept (pairType sockType)
    let (ofdA, ofdB) ← createPair stype (socketStatus sockType)
    let fd0 ← allocFd ofdA (socketFdFlags sockType)
    let fd1 ← allocFd ofdB (socketFdFlags sockType)
    pure (fd0, fd1)

end Kandelo.Kernel.Descriptor
