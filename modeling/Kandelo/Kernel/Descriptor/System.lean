import Kandelo.Kernel.Descriptor.Opened
import Kandelo.Lib.Fleet

/-!
# Processes that share files

Processes with their descriptors, descriptions and epoll instances, the
descriptors in flight between them, and what the kernel has asked of the host. A step is one system
call of one process, or the removal of a process; it says what becomes of every description that a
call creates, copies or lets go.
-/

namespace Kandelo.Kernel.Descriptor

open Lib
open Lib.Effect
open Kandelo.Kernel.Path (Bytes bytes)
open File (FileType oPath oRdwr)

/-! ### Epoll instances -/

/-- `EpollInterest`; `process.rs:442-448`. -/
structure EpollInterest where
  fd : Nat
  events : BitVec 32
  data : BitVec 64

/-- `EpollInstance`; `process.rs:450-462`. -/
structure EpollInstance where
  interests : List EpollInterest

/-- `Vec::swap_remove`. -/
def swapRemove {α : Type} (l : List α) (i : Nat) : List α :=
  match l.getLast? with
  | none => l
  | some last => (l.set i last).dropLast

/-- What `sys_epoll_ctl` does to an instance; `syscalls.rs:13191-13220`. -/
def EpollInstance.ctl (ep : EpollInstance) (op : Int) (fd : Nat) (events : BitVec 32)
    (data : BitVec 64) : Except Errno EpollInstance :=
  if op = 1 then
    if ep.interests.any (·.fd = fd) then .error .EEXIST
    else .ok ⟨ep.interests ++ [⟨fd, events, data⟩]⟩
  else if op = 2 then
    match ep.interests.findIdx? (·.fd = fd) with
    | none => .error .ENOENT
    | some i => .ok ⟨swapRemove ep.interests i⟩
  else if op = 3 then
    match ep.interests.findIdx? (·.fd = fd) with
    | none => .error .ENOENT
    | some i => .ok ⟨ep.interests.set i ⟨fd, events, data⟩⟩
  else .error .EINVAL

/-- The slot of a kernel table that a negative handle stands for. -/
def slotOf (handle : Int) : Option Nat := if handle < 0 then some (-(handle + 1)).toNat else none

/-- The fields of `Process` that name files. -/
structure Process where
  tables : Tables
  epolls : Slots EpollInstance

namespace Process

variable (p : Process)

/-- `sys_epoll_create1`; `syscalls.rs:13106-13155`. -/
def sysEpollCreate1 (ofdId : Nat) (flags : BitVec 32) : Except Errno Nat × Process :=
  if flags &&& ~~~oCloexec ≠ 0 then (.error .EINVAL, p)
  else
    let slot := p.epolls.firstFree
    let o : OpenFileDesc :=
      ⟨ofdId, none, .Epoll, oRdwr, slotHandle slot, 1, bytes "/dev/epoll", -1, none⟩
    let ofds := p.tables.ofds.insert o
    match p.tables.fds.alloc p.tables.ofds.firstFree
      (if has flags oCloexec then fdCloexec else 0) with
    | .ok (fd, fds) => (.ok fd, ⟨⟨fds, ofds⟩, p.epolls.insert ⟨[]⟩⟩)
    | .error e =>
      (.error e, ⟨⟨p.tables.fds, decRef ofds p.tables.ofds.firstFree⟩,
        (p.epolls.insert ⟨[]⟩).clear slot⟩)

/-- `sys_epoll_ctl`; `syscalls.rs:13160-13221`. -/
def sysEpollCtl (epfd : Nat) (op : Int) (fd : Nat) (events : BitVec 32) (data : BitVec 64) :
    Except Errno Process := do
  let entry ← p.tables.fds.get epfd
  let o ← (p.tables.ofds.get entry.ofdRef).elim (.error .EBADF) .ok
  if o.fileType ≠ .Epoll then throw .EINVAL
  else
    let _ ← p.tables.fds.get fd
    let slot ← (slotOf o.hostHandle).elim (.error .EBADF) .ok
    let ep ← (p.epolls.get slot).elim (.error .EBADF) .ok
    let ep ← ep.ctl op fd events data
    pure { p with epolls := p.epolls.update slot fun _ => ep }

/-- The instance of a description that is closed goes; `syscalls.rs:3143-3148`. -/
def forgetEpoll (o : OpenFileDesc) : Process :=
  match o.fileType, slotOf o.hostHandle with
  | .Epoll, some slot => { p with epolls := p.epolls.clear slot }
  | _, _ => p

end Process

/-- A descriptor that stays open over `exec`. -/
def FdTable.clearCloexec (t : FdTable) (fd : Nat) : FdTable where
  entries := t.entries.update fd fun e => { e with fdFlags := e.fdFlags &&& ~~~fdCloexec }
  reserved := t.reserved
  maxFds := t.maxFds
  reserved_lt := by
    intro i hi
    rw [Slots.update, List.length_modify]
    exact t.reserved_lt i hi

/-! ### Holders -/

variable (o : OpenFileDesc)

/-- The host handle that the description owns. -/
def OpenFileDesc.handle : Option Int :=
  if o.ownsHandle then some o.hostHandle else none

/-- The directory iterator of the host that a description stores. -/
def OpenFileDesc.iterator : Option Int :=
  if 0 ≤ o.dirHostHandle then some o.dirHostHandle else none

/-- The description that is sent with a message: the receiver gets one with these fields;
`wasm_api.rs:6608-6617`, `ofd.rs:402-428`. -/
def OpenFileDesc.transit : OpenFileDesc :=
  { o with refCount := 1, dirHostHandle := -1, driState := none }

/-- A call of `host_closedir`, and how many other descriptions stored the iterator at that time. -/
structure DirClose where
  handle : Int
  sharers : Nat

/-- The processes, the descriptors in flight, the counts of shared handles, the calls to the host
about files, the directory iterators that are open on the host, and those that were closed. -/
structure System where
  procs : Fleet Nat Process
  inFlight : List OpenFileDesc
  refs : ShareCount Int
  calls : List FileCall
  dirs : Finset Int
  dirCloses : List DirClose

namespace System

variable (s : System) (h : Int)

/-- How many descriptions and descriptors in flight hold a handle. -/
def holders : Nat :=
  s.procs.total (fun p => p.tables.ofds.count fun o => o.handle = some h) +
    s.inFlight.countP fun o => o.handle = some h

/-- How many descriptions have the iterator. -/
def readers : Nat :=
  s.procs.total fun p => p.tables.ofds.count fun o => o.iterator = some h

variable (os : List OpenFileDesc)

/-- `host_handle_fork_ref` for each handle; `ofd.rs:117-124`, `process_table.rs:167-176`,
`pipe.rs:289-298`. -/
def retain : System :=
  { s with refs := (os.filterMap OpenFileDesc.handle).foldl ShareCount.share s.refs }

/-- `host_handle_close_ref` for each handle, and `host_close` for those that nobody holds any more;
`ofd.rs:126-142`. -/
def release : System :=
  { s with
    refs := (ShareCount.dropAll (os.filterMap OpenFileDesc.handle) s.refs).2
    calls := ((ShareCount.dropAll (os.filterMap OpenFileDesc.handle) s.refs).1.map
      FileCall.close).reverse ++ s.calls }

/-- `host_closedir`. -/
def closeDir (sharers : Nat) : System :=
  { s with dirs := s.dirs.erase h, dirCloses := ⟨h, sharers⟩ :: s.dirCloses }

/-- Close the iterators of descriptions that are gone. -/
def closeDirs : System :=
  (os.filterMap OpenFileDesc.iterator).foldl (fun s h => s.closeDir h (s.readers h)) s

variable (pid : Nat)

/-- The system with another process `pid`. -/
def setProc (p : Process) : System := { s with procs := s.procs.set pid p }

/-- The tables of a process. -/
def tables (s : System) (pid : Nat) : Tables := (s.procs.state pid).tables

/-- The system with other tables of a process. -/
def setTables (t : Tables) : System :=
  s.setProc pid { s.procs.state pid with tables := t }

/-! ### Calls of one process -/

/-- What goes with the last descriptor of a description; `syscalls.rs:3017-3212`. -/
def letGo : Option OpenFileDesc → System
  | none => s
  | some o =>
    match o.fileType with
    | .Regular | .Directory | .CharDevice => (s.closeDirs [o]).release [o]
    | .Pipe => s.release [o]
    | .Epoll => s.setProc pid ((s.procs.state pid).forgetEpoll o)
    | .Socket | .EventFd | .TimerFd | .SignalFd | .MemFd | .PtyMaster | .PtySlave => s

variable (fd : Nat)

/-- `sys_close`. -/
def sysClose : System :=
  (s.setTables pid ((s.tables pid).close fd).2).letGo pid
    (Tables.freed ((s.tables pid).close fd).1)

/-- `sys_dup`. -/
def sysDup : System := s.setTables pid ((s.tables pid).dup fd).2

/-- `sys_dup2`. -/
def sysDup2 (old new : Nat) : Except Errno Nat × System :=
  (((s.tables pid).dup2 old new).1,
    (s.setTables pid ((s.tables pid).dup2 old new).2.2).letGo pid ((s.tables pid).dup2 old new).2.1)

/-- What an open of the process sees, with the rest of the kernel as in `env`. -/
def view (env : World) : World :=
  { env with
    fds := (s.tables pid).fds
    ofds := (s.tables pid).ofds
    history := { env.history with calls := s.calls } }

/-- An open, with what it sees and asks. -/
structure Opening where
  env : World
  host : Host
  path : Bytes
  oflags : BitVec 32
  mode : BitVec 32

variable (a : Opening)

/-- The open, on what the process sees. -/
def Opening.run (s : System) (pid : Nat) : Except Errno Nat × World :=
  exec (sysOpen a.host a.path a.oflags a.mode) (s.view pid a.env)

/-- `sys_open` by a process. -/
def openFile : Except Errno Nat × System :=
  ((a.run s pid).1,
    { s.setTables pid (a.run s pid).2.tables with calls := (a.run s pid).2.history.calls })

/-- The description of a descriptor that is not for its path only; `ofd.rs:305-307`. -/
def ioDescription : Option (Nat × OpenFileDesc) := do
  let entry ← ((s.tables pid).fds.get fd).toOption
  let o ← (s.tables pid).ofds.get entry.ofdRef
  if has o.statusFlags oPath then none else some (entry.ofdRef, o)

variable (i : Nat)

/-- Store an iterator, or a mark that there is none. -/
def setDir (h : Int) : System :=
  s.setTables pid { s.tables pid with
    ofds := (s.tables pid).ofds.update i fun o => { o with dirHostHandle := h } }

/-- `host_opendir` has given out an iterator, which is stored. -/
def openDir (h : Int) : System :=
  { s.setDir pid i h with dirs := insert h s.dirs }

/-- How far a call reads a directory: the host may have no more entries, and then entries of the
kernel may be left for another call. -/
inductive Listing
  | more
  | ended (pending : Bool)

/-- Read on with an iterator; `syscalls.rs:6618-6701`. -/
def readDir (h : Int) : Listing → System
  | .more => s
  | .ended pending =>
    (s.closeDir h (s.readers h - 1)).setDir pid i (if pending then -3 else -2)

/-- `sys_getdents64` as far as iterators go, with the answer of `host_opendir` if it is asked;
`syscalls.rs:6375-6709`. -/
def sysGetdents64 (answer : Except Errno Int) (listing : Listing) : System :=
  match s.ioDescription pid fd with
  | none => s
  | some (i, o) =>
    if o.fileType ≠ .Directory then s
    else if o.dirHostHandle < -1 then
      -- directories of the kernel, and what it adds to those of the host
      match listing with
      | .more => s
      | .ended _ => s.setDir pid i (-2)
    else if o.dirHostHandle = -1 then
      match answer with
      | .error _ => s
      | .ok h => (s.openDir pid i h).readDir pid i h listing
    else s.readDir pid i o.dirHostHandle listing

/-- Close the iterator of a description and start over; `syscalls.rs:3927-3931`. -/
def rewind (o : OpenFileDesc) : System :=
  match o.iterator with
  | none => s.setDir pid i (-1)
  | some h => (s.closeDir h (s.readers h - 1)).setDir pid i (-1)

/-- `sys_lseek` as far as iterators go; `syscalls.rs:3892-3966`. -/
def sysLseek (offset : Int) (seekSet : Bool) (answer : Except Errno Int) : System :=
  match s.ioDescription pid fd with
  | none => s
  | some (i, o) =>
    if o.fileType ≠ .Directory ∨ seekSet = false ∨ offset < 0 then s
    else
      match answer with
      | .ok h => if 0 < offset then (s.rewind pid i o).openDir pid i h else s.rewind pid i o
      | .error _ => s.rewind pid i o

/-- `sys_epoll_create1` by a process. -/
def sysEpollCreate1 (s : System) (pid ofdId : Nat) (flags : BitVec 32) : System :=
  s.setProc pid ((s.procs.state pid).sysEpollCreate1 ofdId flags).2

/-- `sys_epoll_ctl` by a process; a failed one changes nothing. -/
def sysEpollCtl (s : System) (pid epfd : Nat) (op : Int) (fd : Nat) (events : BitVec 32)
    (data : BitVec 64) : System :=
  match (s.procs.state pid).sysEpollCtl epfd op fd events data with
  | .ok p => s.setProc pid p
  | .error _ => s

/-- The open descriptors of a process. -/
def openFds : List Nat :=
  (List.range (s.tables pid).fds.entries.length).filter fun fd =>
    ((s.tables pid).fds.entries.get fd).isSome

/-- `cleanup_process_for_exit`; `syscalls.rs:7216-7234`. -/
def exit : System := (s.openFds pid).foldl (sysClose · pid) s

/-! ### Processes -/

/-- `remove_process_inner`; `process_table.rs:355-446`, `wasm_api.rs:1530-1543`. -/
def remove (s : System) (pid : Nat) : System :=
  (({ s with procs := s.procs.remove pid }).closeDirs (s.tables pid).ofds.entries).release
    (s.tables pid).ofds.entries

/-- A child with these tables, which holds what they name; `process_table.rs:130-243`. -/
def adopt (child : Nat) (t : Tables) : System :=
  { s with procs := s.procs.add child ⟨t, []⟩ }.retain t.ofds.entries

/-- `fork`: the child has no epoll instances; `fork.rs:1503-1543`. -/
def fork (s : System) (pid child : Nat) : System := s.adopt child (s.tables pid).fork

/-- The actions of `posix_spawn`, with what those see and answer that go to the host;
`spawn.rs:70-87`. -/
inductive FileAction
  | Open (fd : Nat) (a : Opening)
  | Close (fd : Nat)
  | Dup2 (srcfd fd : Nat)
  | Chdir (answer : Except Errno Unit)
  | Fchdir (answer : Except Errno Unit)

/-- One round of `apply_spawn_file_actions`; `process_table.rs:1152-1212`. -/
def applyAction (child : Nat) : FileAction → Except Errno Unit × System
  | .Close fd => (.ok (), s.sysClose child fd)
  | .Dup2 srcfd fd =>
    if srcfd = fd then
      match (s.tables child).fds.get fd with
      | .error e => (.error e, s)
      | .ok _ => (.ok (), s.setTables child
          { s.tables child with fds := (s.tables child).fds.clearCloexec fd })
    else ((s.sysDup2 child srcfd fd).1.map fun _ => (), (s.sysDup2 child srcfd fd).2)
  | .Open fd a =>
    match s.openFile child a with
    | (.error e, s) => (.error e, s)
    | (.ok opened, s) =>
      if opened = fd then (.ok (), s)
      else ((s.sysDup2 child opened fd).1.map fun _ => (),
        (s.sysDup2 child opened fd).2.sysClose child opened)
  | .Chdir answer | .Fchdir answer => (answer, s)

/-- The actions in their order; `process_table.rs:1144-1212`. -/
def applyActions (s : System) (child : Nat) : List FileAction → Except Errno Unit × System
  | [] => (.ok (), s)
  | a :: as =>
    match s.applyAction child a with
    | (.error e, s) => (.error e, s)
    | (.ok _, s) => s.applyActions child as

/-- The descriptors that do not stay open over `exec`; `process_table.rs:1214-1236`. -/
def cloexecFds : List Nat :=
  (s.openFds pid).filter fun fd =>
    ((s.tables pid).fds.entries.get fd).any fun e => has e.fdFlags fdCloexec

/-- `spawn_child`: the child has copies of all tables but no epoll instances, and is removed if one
of its actions fails; `process_table.rs:986-1138`. -/
def spawn (s : System) (pid child : Nat) (actions : List FileAction) : System :=
  match (s.adopt child (s.tables pid).spawn).applyActions child actions with
  | (.error _, s) => s.remove child
  | (.ok _, s) => (s.cloexecFds child).foldl (sysClose · child) s

/-! ### Descriptors in messages -/

/-- The descriptors of a message that are open; `wasm_api.rs:6547-6681`. -/
def extractScmRights (fds : List Nat) : List OpenFileDesc :=
  fds.filterMap fun fd => do
    let entry ← ((s.tables pid).fds.get fd).toOption
    let o ← (s.tables pid).ofds.get entry.ofdRef
    some o.transit

/-- Some of the descriptors are retained, until one cannot be, and are queued or let go;
`wasm_api.rs:6740-6784`. -/
def send (queued : Bool) : System :=
  if queued then { s.retain os with inFlight := s.inFlight ++ os } else (s.retain os).release os

/-- `install_scm_rights_fds`: the tables, and what found no descriptor; `socket` says which slot a
socket gets, if the message has its data; `syscalls.rs:2850-2927`. -/
def installScmRightsFds (socket : OpenFileDesc → Option Nat) :
    Tables → List OpenFileDesc → Tables × List OpenFileDesc
  | t, [] => (t, [])
  | t, o :: os =>
    match if o.fileType = .Socket then (socket o).map slotHandle else some o.hostHandle with
    | none =>
      let (t, dropped) := installScmRightsFds socket t os
      (t, o :: dropped)
    | some hostHandle =>
      match t.fds.alloc t.ofds.firstFree 0 with
      | .ok (_, fds) => installScmRightsFds socket ⟨fds, t.ofds.insert { o with hostHandle }⟩ os
      | .error _ =>
        let (t, dropped) := installScmRightsFds socket
          ⟨t.fds, decRef (t.ofds.insert { o with hostHandle }) t.ofds.firstFree⟩ os
        (t, o :: dropped)

/-- Take a batch out of the queues: what fits is installed, and the rest is let go;
`wasm_api.rs:6862-6890`. -/
def receive (before batch after : List OpenFileDesc) (capacity : Nat)
    (socket : OpenFileDesc → Option Nat) : System :=
  ({ s with inFlight := before ++ after }.setTables pid
      (installScmRightsFds socket (s.tables pid) (batch.take capacity)).1).release
    (batch.drop capacity ++ (installScmRightsFds socket (s.tables pid) (batch.take capacity)).2)

/-- Descriptions in flight are dropped. -/
def discard (before batch after : List OpenFileDesc) : System :=
  { s with inFlight := before ++ after }.release batch

/-! ### Runs -/

/-- The handle that the host gives the open, if it gives one, is not open already. -/
def Fresh : Prop :=
  ∀ h, .opened h :: handleEvents s.calls <:+ handleEvents (a.run s pid).2.history.calls →
    0 ≤ h ∧ s.holders h = 0 ∧ ShareCount.closesSince h (handleEvents s.calls) ≠ some 0

/-- The opens among the actions meet a condition, each in the state in which it is made. -/
def ActionsMeet (Q : System → Nat → Opening → Prop) : System → Nat → List FileAction → Prop
  | _, _, [] => True
  | s, child, a :: as =>
    (∀ fd o, a = .Open fd o → Q s child o) ∧
      ∀ u s', s.applyAction child a = (.ok u, s') → s'.ActionsMeet Q child as

/-- A system call, or the removal of a process. -/
inductive Op
  | openFile (pid : Nat) (a : Opening)
  | dup (pid fd : Nat)
  | dup2 (pid old new : Nat)
  | close (pid fd : Nat)
  | getdents64 (pid fd : Nat) (answer : Except Errno Int) (listing : Listing)
  | lseek (pid fd : Nat) (offset : Int) (seekSet : Bool) (answer : Except Errno Int)
  | epollCreate1 (pid ofdId : Nat) (flags : BitVec 32)
  | epollCtl (pid epfd : Nat) (op : Int) (fd : Nat) (events : BitVec 32) (data : BitVec 64)
  | fork (pid child : Nat)
  | spawn (pid child : Nat) (actions : List FileAction)
  | exit (pid : Nat)
  | remove (pid : Nat)
  | send (pid : Nat) (fds : List Nat) (retained : Nat) (queued : Bool)
  | receive (pid : Nat) (before batch after : List OpenFileDesc) (capacity : Nat)
      (socket : OpenFileDesc → Option Nat)
  | discard (before batch after : List OpenFileDesc)

/-- What an operation does to the system. -/
def step : Op → System
  | .openFile pid a => (s.openFile pid a).2
  | .dup pid fd => s.sysDup pid fd
  | .dup2 pid old new => (s.sysDup2 pid old new).2
  | .close pid fd => s.sysClose pid fd
  | .getdents64 pid fd answer listing => s.sysGetdents64 pid fd answer listing
  | .lseek pid fd offset seekSet answer => s.sysLseek pid fd offset seekSet answer
  | .epollCreate1 pid ofdId flags => s.sysEpollCreate1 pid ofdId flags
  | .epollCtl pid epfd op fd events data => s.sysEpollCtl pid epfd op fd events data
  | .fork pid child => s.fork pid child
  | .spawn pid child actions => s.spawn pid child actions
  | .exit pid => s.exit pid
  | .remove pid => s.remove pid
  | .send pid fds retained queued => s.send ((s.extractScmRights pid fds).take retained) queued
  | .receive pid before batch after capacity socket =>
    s.receive pid before batch after capacity socket
  | .discard before batch after => s.discard before batch after

/-- When the operation can happen: the process is there and a child is not, the host gives out what
is not in use, a batch is queued, and a message is queued only with all that it carries, which
cannot be an epoll instance. -/
def Possible : Op → Prop
  | .openFile pid a => pid ∈ s.procs.live ∧ s.Fresh pid a
  | .dup pid _ | .dup2 pid _ _ | .close pid _ | .epollCreate1 pid _ _ | .epollCtl pid _ _ _ _ _
  | .exit pid | .remove pid => pid ∈ s.procs.live
  | .getdents64 pid _ answer _ => pid ∈ s.procs.live ∧ ∀ h, answer = .ok h → 0 ≤ h ∧ h ∉ s.dirs
  | .lseek pid fd _ _ answer => pid ∈ s.procs.live ∧ ∀ h, answer = .ok h → 0 ≤ h ∧
      (h ∈ s.dirs → ∃ i o, s.ioDescription pid fd = some (i, o) ∧ o.iterator = some h)
  | .fork pid child => pid ∈ s.procs.live ∧ child ∉ s.procs.live
  | .spawn pid child actions => pid ∈ s.procs.live ∧ child ∉ s.procs.live ∧
      (s.adopt child (s.tables pid).spawn).ActionsMeet Fresh child actions
  | .send pid fds retained queued => pid ∈ s.procs.live ∧ (queued = true →
      (s.extractScmRights pid fds).length ≤ retained ∧
        ∀ o ∈ s.extractScmRights pid fds, o.fileType ≠ .Epoll)
  | .receive pid before batch after _ _ =>
    pid ∈ s.procs.live ∧ s.inFlight = before ++ batch ++ after
  | .discard before batch after => s.inFlight = before ++ batch ++ after

/-- Nothing was sent and nothing asked of the host; no description stores an iterator or names an
epoll instance. -/
structure Initial (s : System) : Prop where
  counted : ∀ pid ∈ s.procs.live, (s.tables pid).Counted
  plain : ∀ pid ∈ s.procs.live, ∀ i o, (s.tables pid).ofds.get i = some o →
    o.dirHostHandle < 0 ∧ o.fileType ≠ .Epoll
  empty : s.inFlight = [] ∧ s.calls = [] ∧ s.dirs = ∅ ∧ s.dirCloses = []
  unshared : s.refs = fun _ => none

/-- One process without descriptors. -/
def bare : System where
  procs := ⟨{1}, fun _ => ⟨⟨.withMax 1024, []⟩, []⟩⟩
  inFlight := []
  refs := fun _ => none
  calls := []
  dirs := ∅
  dirCloses := []

lemma initial_bare : Initial bare where
  counted := nofun
  plain := nofun
  empty := ⟨rfl, rfl, rfl, rfl⟩
  unshared := rfl

/-- The system after any number of operations that meet `P`. -/
inductive ReachedBy (P : System → Op → Prop) : System → Prop
  | init {s : System} : Initial s → ReachedBy P s
  | step {s : System} (op : Op) : ReachedBy P s → s.Possible op → P s op → ReachedBy P (s.step op)

end System

end Kandelo.Kernel.Descriptor
