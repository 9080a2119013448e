import Kandelo.Kernel.Descriptor.World
import Kandelo.Kernel.Pipe.Flight
import Kandelo.Lib.ShareCount

/-!
# What descriptors in flight hold

A descriptor that is sent with a message holds what a description holds: ends of
pipes, a handle of the host, a side of a terminal, or a backing. It is retained when the message is
sent, handed over when it is received, and released after it was dropped: `InFlightFd` of
`crates/kernel/src/pipe.rs`. A drop only notes what is to be released, and the notes are worked off
later, which may drop further messages.
-/

namespace Kandelo.Kernel.Rights

open Lib
open Kandelo.Kernel.Descriptor (PtyTable PtyPair SharedBacking)
open File (FileType)
open Pipe

/-! ### Backings -/

/-- The tables of backings; `descriptor_backing.rs:207-213`. -/
inductive Backing
  | EventFds
  | TimerFds
  | SignalFds
  | MemFds
  | ProcfsBufs
  | SyntheticRegulars
  deriving DecidableEq

/-- `PROCFS_BUF_BASE`; `procfs.rs:22`. -/
def procfsBufBase : Int := 200

/-- `SYNTHETIC_REGULAR_HANDLE_BASE`; `descriptor_backing.rs:217`. -/
def syntheticRegularHandleBase : Int := 1000000000

variable (handle : Int)

/-- `is_procfs_buf_handle`; `procfs.rs:27-30`. -/
def isProcfsBufHandle : Bool :=
  handle ≤ -procfsBufBase && -syntheticRegularHandleBase < handle

/-- `is_synthetic_regular_handle`; `descriptor_backing.rs:265-267`. -/
def isSyntheticRegularHandle : Bool := handle ≤ -syntheticRegularHandleBase

/-- `negative_handle_idx`; `descriptor_backing.rs:280-289`. -/
def negativeHandleIdx : Option Nat :=
  if 0 ≤ handle then none else some (-handle - 1).toNat

/-- The table of a description with a backing, and the index if the handle has one;
`descriptor_backing.rs:296-303, 432-455`. -/
def backingOf (fileType : FileType) (handle : Int) : Option (Backing × Option Nat) :=
  match fileType with
  | .EventFd => some (.EventFds, negativeHandleIdx handle)
  | .TimerFd => some (.TimerFds, negativeHandleIdx handle)
  | .SignalFd => some (.SignalFds, negativeHandleIdx handle)
  | .MemFd => some (.MemFds, negativeHandleIdx handle)
  | .Regular =>
    if isProcfsBufHandle handle then
      some (.ProcfsBufs, some (-(handle + procfsBufBase)).toNat)
    else if isSyntheticRegularHandle handle then
      some (.SyntheticRegulars, some (-(handle + syntheticRegularHandleBase)).toNat)
    else none
  | .Directory | .Pipe | .CharDevice | .Socket | .Epoll | .PtyMaster | .PtySlave => none

/-! ### The tables of the machine -/

/-- The tables that descriptors in flight count in, the notes of what is to be released, last first,
and what the release of a last reference asks for: handles to close on the host, and descriptions
whose locks go. -/
structure Machine where
  pipes : PipeTable
  handles : ShareCount Int
  ptys : PtyTable
  backings : Backing → Slots (SharedBacking Unit)
  ofdRefs : Nat → Nat
  reserved : Nat
  records : List DeferredRelease
  hostCloses : List Int
  unlocked : List Nat

/-- The pipe of a negative handle. -/
def pipeIdx : Nat := (-(handle + 1)).toNat

namespace Machine

variable (m : Machine)

/-- `get_pty`; `pty.rs:186-191`. -/
def pty (handle : Int) : Option PtyPair :=
  if 0 ≤ handle then m.ptys.get handle.toNat else none

/-- `free_pty`; `pty.rs:194-198`. -/
def freePty (t : PtyTable) (i : Nat) : PtyTable where
  slots := t.slots.clear i
  len := by rw [Slots.clear, List.length_set, t.len]

/-! ### Dropping -/

/-- `release_in_flight_ofd`; `ofd.rs:69-82`. -/
def releaseOfd (id : Nat) : Machine :=
  { m with ofdRefs := Function.update m.ofdRefs id (m.ofdRefs id - 1) }

/-- `Drop` of an entry: what it owns is noted; `pipe.rs:175-183`. -/
def dropEntry (fd : InFlightFd) : Machine :=
  if fd.ownsReference then
    let m := m.releaseOfd fd.ofdId
    { m with reserved := m.reserved - 1, records := fd.releaseMetadata :: m.records }
  else m

/-- Drop several descriptors in flight. -/
def dropEntries (fds : List InFlightFd) : Machine := fds.foldl dropEntry m

end Machine

variable (t : PipeTable)

/-- The batches in a pipe. -/
def queueOf (i : Nat) : List (List InFlightFd) := (t.get i).elim [] (·.ancillaryFds)

/-- The messages that are gone after a change, pipe by pipe. -/
def dropped (t' : PipeTable) : List (List InFlightFd) :=
  (List.range t.slots.length).flatMap fun i => if queueOf t' i = [] then queueOf t i else []

/-- All descriptors in flight. -/
def queued : List InFlightFd :=
  (List.range t.slots.length).flatMap fun i => (queueOf t i).flatten

namespace Machine

variable (m : Machine)

/-- A change to the pipes; the messages that are gone are dropped. -/
def setPipes (t : PipeTable) : Machine :=
  dropEntries { m with pipes := t } (dropped m.pipes t).flatten

/-- `collect_unreachable_ancillary`, with the drops; `pipe.rs:1413-1468`. -/
def collect : Machine := m.setPipes m.pipes.collectUnreachableAncillary

/-- `free_if_closed`, with the drops; `pipe.rs:1381-1384`. -/
def freeIfClosed (i : Nat) : Machine :=
  (m.setPipes (m.pipes.freeFullyClosed i)).collect

/-- Close an end of a pipe, and free the pipe if it was the last. -/
def closeEnd (i : Nat) (close : PipeBuffer → PipeBuffer) : Machine :=
  (m.setPipes (m.pipes.update i close)).freeIfClosed i

/-! ### Releasing -/

/-- `ReleasedInFlightFd`; `pipe.rs:219-224`. -/
structure Released where
  ofdId : Nat
  finalOfdReference : Bool
  hostClose : Option Int

/-- `release_for_ofd`, with whether it was the last reference; `descriptor_backing.rs:461-486`. -/
def releaseBacking (b : Backing) (i : Option Nat) : Bool × Machine :=
  match i with
  | none => (false, m)
  | some i =>
    (((m.backings b).get i).any fun e => e.refs ≤ 1,
      { m with
        backings := Function.update m.backings b (Descriptor.release (m.backings b) i) })

/-- A reference to a side of a terminal less; the terminal goes with the last;
`pipe.rs:425-437`. -/
def releasePty (handle : Int) (less : PtyPair → PtyPair) : Machine :=
  match m.pty handle with
  | none => m
  | some pty =>
    let ptys := m.ptys.update handle.toNat less
    if 0 < (less pty).masterRefs ∨ 0 < (less pty).slaveRefs then { m with ptys }
    else { m with ptys := freePty ptys handle.toNat }

variable (r : DeferredRelease)

/-- The sockets whose read end discards what is still sent to it; `pipe.rs:413-414`. -/
def orderly : Bool :=
  r.socketType = some 0 && (r.socketDomain = some 1 || r.socketDomain = some 2)

/-- `release_deferred_in_flight_resource`; `pipe.rs:371-448`. -/
def releaseDeferred : Released × Machine :=
  match backingOf r.fileType r.hostHandle with
  | some (b, i) =>
    let (last, m) := m.releaseBacking b i
    (⟨r.ofdId, last, none⟩, m)
  | none =>
    match r.fileType with
    | .Regular | .Directory | .CharDevice =>
      if 0 ≤ r.hostHandle then
        let (last, handles) := m.handles.drop r.hostHandle
        (⟨r.ofdId, last, if last then some r.hostHandle else none⟩, { m with handles })
      else (⟨r.ofdId, false, none⟩, m)
    | .Pipe =>
      if 0 ≤ r.hostHandle then
        let (last, handles) := m.handles.drop r.hostHandle
        (⟨r.ofdId, false, if last then some r.hostHandle else none⟩, { m with handles })
      else
        (⟨r.ofdId, false, none⟩, m.closeEnd (pipeIdx r.hostHandle) fun p =>
          r.pipeRefKind.elim p p.releaseInFlightReference)
    | .Socket =>
      if r.socketGlobalPipes then
        let m := r.socketSendIdx.elim m fun i => m.closeEnd i (·.releaseInFlightWriter)
        let m := r.socketRecvIdx.elim m fun i => m.closeEnd i fun p =>
          if orderly r then p.releaseInFlightReaderOrderly else p.releaseInFlightReader
        (⟨r.ofdId, false, none⟩, m)
      else (⟨r.ofdId, false, none⟩, m)
    | .PtyMaster =>
      (⟨r.ofdId, false, none⟩,
        m.releasePty r.hostHandle fun p => { p with masterRefs := p.masterRefs - 1 })
    | .PtySlave =>
      (⟨r.ofdId, false, none⟩,
        m.releasePty r.hostHandle fun p => { p with slaveRefs := p.slaveRefs - 1 })
    | .EventFd | .Epoll | .TimerFd | .SignalFd | .MemFd => (⟨r.ofdId, false, none⟩, m)

/-- What the loop does with the answer; `syscalls.rs:2837-2842`. -/
def settle (released : Released) : Machine :=
  { m with
    unlocked := if released.finalOfdReference then released.ofdId :: m.unlocked else m.unlocked
    hostCloses := released.hostClose.elim m.hostCloses (· :: m.hostCloses) }

/-- Release one record. -/
def releaseNext (rest : List DeferredRelease) : Machine :=
  let (released, m) := { m with records := rest }.releaseDeferred r
  m.settle released

/-- Rounds of `drain_deferred_scm_rights_releases`, with the notes that were worked off;
`syscalls.rs:2831-2844`. -/
def drainLoop : Nat → Machine → List DeferredRelease × Machine
  | 0, m => ([], m)
  | rounds + 1, m =>
    match m.records with
    | [] => ([], m)
    | r :: rest =>
      let (log, m) := drainLoop rounds (m.releaseNext r rest)
      (r :: log, m)

/-- How many notes there are, and can still come. -/
def weight : Nat := m.records.length + (queued m.pipes).length

/-- `drain_deferred_scm_rights_releases`. Each round works off a note, and none is made twice, so
there are no more rounds than notes that can come. -/
def drain : List DeferredRelease × Machine := m.drainLoop m.weight

end Machine

end Kandelo.Kernel.Rights
