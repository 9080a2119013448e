import Kandelo.Kernel.Descriptor.FifoOutcome
import Kandelo.Lib.Fleet

/-!
# Processes around a named pipe

Any number of processes open, inherit and close the ends of one named pipe, in any
order, while they use other files and other pipes. A step is one call of one process, run on the
tables of that process and on the table of pipes that all of them share.
-/

namespace Kandelo.Kernel.Pipe

namespace PipeBuffer

variable (p : PipeBuffer) (pid : Nat)

/-- The opens of a process that wait, in the order of the threads. -/
def processWaiters : List (Nat × FifoOpenWaiter) :=
  (p.fifoOpenWaiters.filter fun x => x.1 >>> 32 = pid).mergeSort fun x y => x.1 ≤ y.1

/-- `cancel_fifo_opens_for_process`; `pipe.rs:818-829`. -/
def cancelFifoOpensForProcess : PipeBuffer :=
  (p.processWaiters pid).foldl (fun p x => p.cancelFifoOpen x.1 x.2.side) p

end PipeBuffer

namespace PipeTable

/-- One round of `cancel_fifo_opens_for_process`; `pipe.rs:1531-1536`. -/
def cancelFifoOpensAt (pid : Nat) (t : PipeTable) (i : Nat) : PipeTable :=
  (t.update i fun p => if p.isFifo then p.cancelFifoOpensForProcess pid else p).freeIfClosed i

/-- `cancel_fifo_opens_for_process`; `pipe.rs:1528-1539`. -/
def cancelFifoOpensForProcess (t : PipeTable) (pid : Nat) : PipeTable :=
  (List.range t.slots.length).foldl (cancelFifoOpensAt pid) t

/-- The numbers that the waiting opens of a process have reserved. -/
def reservedFds (t : PipeTable) (pid : Nat) : List Nat :=
  t.slots.entries.flatMap fun p =>
    if p.isFifo then (p.processWaiters pid).map (·.2.reservedFd) else []

end PipeTable

end Kandelo.Kernel.Pipe

namespace Kandelo.Kernel.Descriptor

open Lib
open Lib.Effect
open Kandelo.Kernel.Path (Bytes)
open Pipe

/-! ### References of descriptions in the table -/

/-- Change the pipe of a description by the reference that the description holds. -/
def changeReference (op : PipeBuffer → RefKind → PipeBuffer) (t : PipeTable) (o : OpenFileDesc) :
    PipeTable :=
  match o.pipeIdx with
  | none => t
  | some i => t.update i fun p =>
      match p.referenceKind o.statusFlags with
      | none => p
      | some k => op p k

/-- A copy of a description takes its reference; `process_table.rs:154-164`. -/
def bumpOfd : PipeTable → OpenFileDesc → PipeTable := changeReference PipeBuffer.addReference

variable (t : PipeTable) (o : OpenFileDesc)

/-- A description of a process that is removed gives its reference back;
`process_table.rs:376-386`. -/
def retireOfd : PipeTable :=
  match o.pipeIdx with
  | none => t
  | some i => (changeReference PipeBuffer.closeReference t o).freeIfClosed i

/-- A description that is closed gives its reference back; `syscalls.rs:3031-3042`. -/
def releaseOfd : PipeTable :=
  match o.pipeIdx with
  | none => t
  | some i => if (t.get i).isSome then retireOfd t o else t

/-- A description that is closed, if there is one, gives its reference back. -/
def releaseGone : Option OpenFileDesc → PipeTable
  | none => t
  | some o => releaseOfd t o

/-! ### Steps -/

/-- The processes with their tables, and the pipes. -/
structure Machine where
  procs : Fleet Nat Tables
  pipes : PipeTable

namespace Machine

/-- How many descriptions hold a reference of each kind to the named pipe. -/
def held (m : Machine) (f : Nat) (k : RefKind) : Nat :=
  m.procs.total fun t => t.ofds.count (holds f k)

/-- A thread of the process sees this state. -/
structure Shows (m : Machine) (pid : Nat) (w : World) : Prop where
  live : pid ∈ m.procs.live
  task : w.task.pid = pid ∧ w.task.pid < 2 ^ 32 ∧ w.task.tid < 2 ^ 32
  tables : (⟨w.fds, w.ofds⟩ : Tables) = m.procs.state pid
  pipes : w.pipes = m.pipes

/-- The machine after a call of the process. -/
def store (m : Machine) (pid : Nat) (w : World) : Machine :=
  ⟨m.procs.set pid ⟨w.fds, w.ofds⟩, w.pipes⟩

/-- One call of one process around the named pipe `f`. -/
inductive Step (f : Nat) (m : Machine) : Machine → Prop
  /-- An open of the named pipe by a thread that does not wait for one. -/
  | opens {pid : Nat} {w w' : World} {host : Host} {path : Bytes} {oflags : BitVec 32}
      {exclusiveCreate : Bool} {r : Except Errno Nat} (shows' : m.Shows pid w)
      (named : (m.pipes.get f).isSome = true) (idle : w.pendingFifoOpen = none)
      (run : exec (openFifo host f path oflags exclusiveCreate) w = (r, w')) :
      Step f m (m.store pid w')
  /-- The same open again, by the thread that waits for it. -/
  | resumes {pid : Nat} {w w' : World} {waiter : FifoOpenWaiter} {r : Except Errno (Option Nat)}
      (shows' : m.Shows pid w) (pending : w.pendingFifoOpen = some (f, waiter))
      (run : exec resumeFifoOpen w = (r, w')) : Step f m (m.store pid w')
  /-- A thread that waits is cancelled or exits. -/
  | cancels {pid : Nat} {w w' : World} {waiter : FifoOpenWaiter} {r : Except Errno Unit}
      (shows' : m.Shows pid w) (pending : w.pendingFifoOpen = some (f, waiter))
      (run : exec (cancelFifoOpenForOwner f w.fifoOpenOwner waiter) w = (r, w')) :
      Step f m (m.store pid w')
  /-- `exec` gives up the opens of all threads; `syscalls.rs:2325-2332`. -/
  | execs {pid : Nat} (live : pid ∈ m.procs.live) :
      Step f m ⟨m.procs.set pid ⟨(m.pipes.reservedFds pid).foldl FdTable.releaseReserved
        (m.procs.state pid).fds, (m.procs.state pid).ofds⟩, m.pipes.cancelFifoOpensForProcess pid⟩
  | dups {pid : Nat} (fd : Nat) (live : pid ∈ m.procs.live) :
      Step f m ⟨m.procs.set pid ((m.procs.state pid).dup fd).2, m.pipes⟩
  | dups2 {pid : Nat} (old new : Nat) (live : pid ∈ m.procs.live) :
      Step f m ⟨m.procs.set pid ((m.procs.state pid).dup2 old new).2.2,
        releaseGone m.pipes ((m.procs.state pid).dup2 old new).2.1⟩
  | closes {pid : Nat} (fd : Nat) (live : pid ∈ m.procs.live) :
      Step f m ⟨m.procs.set pid ((m.procs.state pid).close fd).2,
        releaseGone m.pipes (Tables.freed ((m.procs.state pid).close fd).1)⟩
  | forks {pid child : Nat} (live : pid ∈ m.procs.live) (fresh : child ∉ m.procs.live) :
      Step f m ⟨m.procs.add child (m.procs.state pid).fork,
        (m.procs.state pid).fork.ofds.entries.foldl bumpOfd m.pipes⟩
  | spawns {pid child : Nat} (live : pid ∈ m.procs.live) (fresh : child ∉ m.procs.live) :
      Step f m ⟨m.procs.add child (m.procs.state pid).spawn,
        (m.procs.state pid).spawn.ofds.entries.foldl bumpOfd m.pipes⟩
  /-- A process that has not heard of the pipe appears. -/
  | creates {pid : Nat} {t : Tables} (fresh : pid ∉ m.procs.live)
      (unheld : ∀ i o, t.ofds.get i = some o → o.pipeIdx ≠ some f) (counted : t.Counted) :
      Step f m ⟨m.procs.add pid t, m.pipes⟩
  /-- A process is removed; `process_table.rs:355-387`. -/
  | removes {pid : Nat} (live : pid ∈ m.procs.live) :
      Step f m ⟨m.procs.remove pid, (m.procs.state pid).ofds.entries.foldl retireOfd
        (m.pipes.cancelFifoOpensForProcess pid)⟩
  /-- A process opens something else, with a descriptor or for want of one without. -/
  | describes {pid : Nat} {o : OpenFileDesc} {fds : FdTable} (live : pid ∈ m.procs.live)
      (other : o.pipeIdx ≠ some f) (new : o.refCount = 1)
      (descriptor : fds = (m.procs.state pid).fds ∨ ∃ fd flags,
        (m.procs.state pid).fds.alloc (m.procs.state pid).ofds.firstFree flags = .ok (fd, fds)) :
      Step f m ⟨m.procs.set pid ⟨fds, (m.procs.state pid).ofds.insert o⟩, m.pipes⟩
  /-- Other pipes come, change and go, and the named pipe is linked or unlinked. -/
  | elsewhere {t : PipeTable} (same : ∀ p', t.get f = some p' → ∃ p, m.pipes.get f = some p ∧
      p' = { p with data := p'.data, fifoNames := p'.fifoNames, ancillaryFds := p'.ancillaryFds }) :
      Step f m { m with pipes := t }

/-- The pipe has just been made: nobody has it open. -/
structure Initial (f : Nat) (m : Machine) : Prop where
  buffer : m.pipes.get f = some PipeBuffer.newFifo
  unheld : ∀ pid ∈ m.procs.live, ∀ i o, (m.procs.state pid).ofds.get i = some o → o.pipeIdx ≠ some f
  counted : ∀ pid ∈ m.procs.live, (m.procs.state pid).Counted

/-- The machine after any number of steps. -/
inductive Reachable (f : Nat) : Machine → Prop
  | init {m : Machine} : Initial f m → Reachable f m
  | step {m m' : Machine} : Reachable f m → Step f m m' → Reachable f m'

end Machine

end Kandelo.Kernel.Descriptor
