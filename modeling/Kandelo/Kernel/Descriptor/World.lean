import Kandelo.Kernel.Descriptor.FdTable
import Kandelo.Kernel.Path.Resolve
import Kandelo.Kernel.Pipe.Table

/-!
# What opening a file reads and changes

The tables of a process and of the kernel that `open`, `pipe`, `socket` and
`socketpair` put new entries into, and the host, whose answers may depend on everything it was
asked before. Each operation on a table is a computation on the whole state.
-/

namespace Kandelo.Kernel.Descriptor

open Lib List
open Lib.Effect (exec)
open Kandelo.Kernel.Path (Bytes bytes slash Stat)
open File (FileType)
open Pipe (PipeTable SocketInfo)

/-! ### Tables -/

/-- `VirtualDevice`; `syscalls.rs:84-94`. -/
inductive VirtualDevice
  | Null
  | Zero
  | Urandom
  | Full
  | Fb0
  | Mice
  | Dsp
  | DriRenderD128
  | DriCard0
  deriving DecidableEq

namespace VirtualDevice

/-- `VirtualDevice::host_handle`; `syscalls.rs:98-110`. -/
def hostHandle : VirtualDevice → Int
  | Null => -1
  | Zero => -2
  | Urandom => -3
  | Full => -4
  | Fb0 => -5
  | Mice => -6
  | Dsp => -7
  | DriRenderD128 => -8
  | DriCard0 => -9

/-- Devices with one owner at a time; `syscalls.rs:2644-2652`. -/
def hasOwner : VirtualDevice → Bool
  | Fb0 | Mice | Dsp => true
  | Null | Zero | Urandom | Full | DriRenderD128 | DriCard0 => false

end VirtualDevice

/-- The variants of `DriOfdState` that opening a device sets; `ofd.rs:264-271`. -/
inductive DriOfdState
  | RenderNode
  | Card

/-- The fields of `OpenFileDesc` that opening sets to more than a constant; `ofd.rs:274-299`. -/
structure OpenFileDesc where
  ofdId : Nat
  fileId : Option FileId
  fileType : FileType
  statusFlags : BitVec 32
  hostHandle : Int
  refCount : Nat
  path : Bytes
  dirHostHandle : Int
  driState : Option DriOfdState

/-- `OfdTable::dec_ref`; `ofd.rs:464-478`. -/
def decRef (t : Slots OpenFileDesc) (i : Nat) : Slots OpenFileDesc :=
  match t.get i with
  | none => t
  | some o =>
    if o.refCount - 1 = 0 then t.clear i
    else t.update i fun o => { o with refCount := o.refCount - 1 }

/-- The fields of `PtyPair` that opening reads or sets; `pty.rs:18-31`. -/
structure PtyPair where
  isLocked : Bool
  masterRefs : Nat
  slaveRefs : Nat

/-- `MAX_PTYS`; `pty.rs:8`. -/
def maxPtys : Nat := 64

/-- The array of pairs; `pty.rs:162-167`. -/
structure PtyTable where
  slots : Slots PtyPair
  len : slots.length = maxPtys

namespace PtyTable

/-- The terminal in a slot. -/
def get (t : PtyTable) (i : Nat) : Option PtyPair := t.slots.get i

/-- Change a pair through `get_pty`; `pty.rs:186-191`. -/
def update (t : PtyTable) (i : Nat) (f : PtyPair → PtyPair) : PtyTable where
  slots := t.slots.update i f
  len := by rw [Slots.update, length_modify, t.len]

/-- `alloc_pty`; `pty.rs:174-183`. -/
def alloc (t : PtyTable) : Option (Nat × PtyTable) :=
  if h : t.slots.firstFree < t.slots.length then
    some (t.slots.firstFree, {
      slots := t.slots.insert ⟨true, 0, 0⟩
      len := by rw [Slots.insert, Slots.put, if_pos h, length_set, t.len] })
  else none

end PtyTable

/-- An entry of `SharedBackingTable`; `descriptor_backing.rs:22-29`. -/
structure SharedBacking (α : Type) where
  refs : Nat
  value : α

/-- `SharedBackingTable::release`; `descriptor_backing.rs:97-110`. -/
def release {α : Type} (t : Slots (SharedBacking α)) (i : Nat) : Slots (SharedBacking α) :=
  match t.get i with
  | none => t
  | some b => if 1 < b.refs then t.update i fun b => { b with refs := b.refs - 1 } else t.clear i

/-! ### The host -/

/-- The fields of the metadata of an open file that opening reads. -/
structure LiveStat where
  mode : BitVec 32
  dev : Nat
  ino : Nat

/-- A call to the host about a file, with its answer. -/
inductive FileCall
  | stat (path : Bytes) (answer : Except Errno Stat)
  | openFile (path : Bytes) (oflags mode : BitVec 32) (answer : Except Errno Int)
  | chown (path : Bytes) (uid gid : Nat) (answer : Except Errno Unit)
  | fstat (handle : Int) (answer : Except Errno LiveStat)
  | close (handle : Int)

/-- Handles that were opened and not closed, by the calls, last call first. -/
def held : List FileCall → List Int
  | [] => []
  | .openFile _ _ _ (.ok handle) :: calls => handle :: held calls
  | .close handle :: calls => (held calls).erase handle
  | .openFile _ _ _ (.error _) :: calls | .stat .. :: calls | .chown .. :: calls
  | .fstat .. :: calls => held calls

/-- What the host was asked. -/
structure History where
  lookups : Path.Trace
  calls : List FileCall

/-- The host, as the answers to the next question after the questions before it. -/
structure Host extends Path.Host where
  stat : History → Bytes → Except Errno Stat
  openFile : History → Bytes → BitVec 32 → BitVec 32 → Except Errno Int
  chown : History → Bytes → Nat → Nat → Except Errno Unit
  fstat : History → Int → Except Errno LiveStat

/-! ### The state -/

/-- What `procfs_open` makes of an entry; `procfs.rs:585-669`. -/
inductive ProcfsKind
  | symlink
  | dir (valid : Except Errno Unit)
  | file (objectId : Option Nat) (content : Except Errno Bytes)

/-- What the calls read and leave alone: the process, the thread, whether it has a signal with a
handler to take, the tree of procfs and the names of FIFOs. -/
structure Task where
  pid : Nat
  tid : Nat
  uid : Nat
  gid : Nat
  euid : Nat
  egid : Nat
  cwd : Bytes
  umask : BitVec 32
  forkChild : Bool
  caughtSignal : Bool
  procfs : Bytes → Option (Path.ProcfsEntry × ProcfsKind)
  procfs_path : ∀ path, (procfs path).isSome = true → Path.isProcfsNamespacePath path = true
  fifos : Bytes → Option Nat

/-- A process with the tables that it shares with others. -/
structure World where
  task : Task
  fds : FdTable
  ofds : Slots OpenFileDesc
  sockets : Slots SocketInfo
  forkPipeReplay : List (Nat × Nat)
  pipes : PipeTable
  ptys : PtyTable
  owners : VirtualDevice → Option Nat
  procfsBufs : Slots (SharedBacking Bytes)
  syntheticRegulars : Slots (SharedBacking Unit)
  nextOfdId : Nat
  history : History

/-- A process with so many descriptors at most, in a kernel where nothing is open. -/
def World.idle (maxFds : Nat) : World where
  task := ⟨1, 1, 0, 0, 0, 0, bytes "/", 0, false, false, fun _ => none, nofun, fun _ => none⟩
  fds := .withMax maxFds
  ofds := []
  sockets := []
  forkPipeReplay := []
  pipes := ⟨[], [], nofun, nodup_nil⟩
  ptys := ⟨List.replicate maxPtys none, length_replicate⟩
  owners _ := none
  procfsBufs := []
  syntheticRegulars := []
  nextOfdId := 1
  history := ⟨[], []⟩

/-- Calls of the kernel. -/
abbrev Sys (α : Type) := Effect Errno World α

/-- Read the state. -/
def world : Sys World := Effect.query fun w => (.ok w, w)

variable (f : World → World)

/-- Change the state. -/
def change : Sys Unit := Effect.query fun w => (.ok (), f w)

variable (w : World)

lemma exec_world_bind {α : Type} (g : World → Sys α) (w : World) :
    exec (world >>= g) w = exec (g w) w := rfl

lemma exec_change_bind {α : Type} {g : Unit → Sys α} (w : World) :
    exec (change f >>= g) w = exec (g ()) (f w) := rfl

/-! ### Operations on the tables -/

variable (ofd : Nat) (flags : BitVec 32)

/-- `FdTable::alloc` of the process. -/
def allocFd : Sys Nat :=
  Effect.query fun w =>
    match w.fds.alloc ofd flags with
    | .ok (fd, fds) => (.ok fd, { w with fds })
    | .error e => (.error e, w)

/-- What follows an allocation that works, and what an error is answered with. -/
def allocFdOr {α : Type} (ofd : Nat) (flags : BitVec 32) (ok : Nat → Sys α) (undo : Errno → Sys α) :
    Sys α :=
  Effect.query fun w =>
    match w.fds.alloc ofd flags with
    | .ok (fd, fds) => exec (ok fd) { w with fds }
    | .error e => exec (undo e) w

variable (fileType : FileType) (statusFlags : BitVec 32) (hostHandle : Int) (path : Bytes)

/-- `OfdTable::create`; `ofd.rs:373-400`. -/
def createOfd : Sys Nat :=
  Effect.query fun w =>
    let ofd : OpenFileDesc :=
      ⟨w.nextOfdId, none, fileType, statusFlags, hostHandle, 1, path, -1, none⟩
    (.ok w.ofds.firstFree, { w with ofds := w.ofds.insert ofd, nextOfdId := w.nextOfdId + 1 })

/-- The state with a new description in the first free slot. -/
def World.withOfd (w : World) (fileType : FileType) (statusFlags : BitVec 32) (hostHandle : Int)
    (path : Bytes) : World :=
  { w with
    ofds := w.ofds.insert
      ⟨w.nextOfdId, none, fileType, statusFlags, hostHandle, 1, path, -1, none⟩
    nextOfdId := w.nextOfdId + 1 }

lemma exec_createOfd_bind {α : Type} (g : Nat → Sys α) (w : World) :
    exec (createOfd fileType statusFlags hostHandle path >>= g) w =
      exec (g w.ofds.firstFree) (w.withOfd fileType statusFlags hostHandle path) := rfl

variable (i : Nat)

/-- Change a description through `OfdTable::get_mut`. -/
def modifyOfd (f : OpenFileDesc → OpenFileDesc) : Sys Unit :=
  change fun w => { w with ofds := w.ofds.update i f }

/-- `OfdTable::inc_ref`; `ofd.rs:456-460`. -/
def incRef : Sys Unit := modifyOfd i fun o => { o with refCount := o.refCount + 1 }

/-- `OfdTable::dec_ref` of the process. -/
def dropRef : Sys Unit := change fun w => { w with ofds := decRef w.ofds i }

/-- Change a pipe. -/
def modifyPipe (f : Pipe.PipeBuffer → Pipe.PipeBuffer) : Sys Unit :=
  change fun w => { w with pipes := w.pipes.update i f }

/-! ### Questions to the host -/

/-- A lookup of a path, with its questions to the host in the history. -/
def lookup {α : Type} (x : Path.Lookup α) : Sys α :=
  Effect.query fun w =>
    ((exec x w.history.lookups).1,
      { w with history := { w.history with lookups := (exec x w.history.lookups).2 } })

/-- The world with a call of the host more in its history. -/
def World.record (c : FileCall) : World :=
  { w with history := { w.history with calls := c :: w.history.calls } }

variable (host : Host) (path : Bytes)

/-- `HostIO::host_stat`. -/
def hostStat : Sys Stat :=
  Effect.query fun w => (host.stat w.history path, w.record (.stat path (host.stat w.history path)))

/-- `HostIO::host_open`. -/
def hostOpen (oflags mode : BitVec 32) : Sys Int :=
  Effect.query fun w =>
    let answer := host.openFile w.history path oflags mode
    (answer, w.record (.openFile path oflags mode answer))

/-- `HostIO::host_chown`. -/
def hostChown (uid gid : Nat) : Sys Unit :=
  Effect.query fun w =>
    let answer := host.chown w.history path uid gid
    (answer, w.record (.chown path uid gid answer))

/-- `HostIO::host_fstat`. -/
def hostFstat (handle : Int) : Sys LiveStat :=
  Effect.query fun w =>
    (host.fstat w.history handle, w.record (.fstat handle (host.fstat w.history handle)))

/-- `HostIO::host_close`, whose answer is not read. -/
def hostClose (handle : Int) : Sys Unit := change fun w => w.record (.close handle)

end Kandelo.Kernel.Descriptor
