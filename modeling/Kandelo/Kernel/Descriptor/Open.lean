import Kandelo.Kernel.Descriptor.World

/-!
# Opening a file

`sys_open` of `crates/kernel/src/syscalls.rs`. The name is resolved first. What
it then names decides how the description is made: an alias of a descriptor, a device or a
terminal, a named pipe, an entry of procfs or devfs, a file of the kernel, or a file of the host.
-/

namespace Kandelo.Kernel.Descriptor

open Lib
open Lib.Effect (exec)
open Kandelo.Kernel.Path
open File (FileType oAccmode oRdonly oWronly oRdwr oPath)
open Pipe

/-! ### Flags -/

/-- Flags of `open`; `lib.rs:598-612`. -/
def oCreat : BitVec 32 := 0o100

/-- `O_EXCL`. -/
def oExcl : BitVec 32 := 0o200

/-- `O_TRUNC`. -/
def oTrunc : BitVec 32 := 0o1000

/-- `O_NONBLOCK`. -/
def oNonblock : BitVec 32 := 0o4000

/-- `O_DIRECTORY`. -/
def oDirectory : BitVec 32 := 0o200000

/-- `O_NOFOLLOW`. -/
def oNofollow : BitVec 32 := 0o400000

/-- `O_CLOEXEC`. -/
def oCloexec : BitVec 32 := 0o2000000

/-- `O_CLOFORK`. -/
def oClofork : BitVec 32 := 0o40000000

/-- `FD_CLOEXEC` and `FD_CLOFORK`; `lib.rs:620-621`. -/
def fdCloexec : BitVec 32 := 1

/-- `FD_CLOFORK`. -/
def fdClofork : BitVec 32 := 2

/-- Some bit of `flag` is set. -/
def has (flags flag : BitVec 32) : Bool := flags &&& flag ≠ 0

/-- `CREATION_FLAGS`; `syscalls.rs:32-33`. -/
def creationFlags : BitVec 32 :=
  oCreat ||| oExcl ||| oTrunc ||| oCloexec ||| oClofork ||| oDirectory ||| oNofollow

variable (oflags : BitVec 32)

/-- Flags of the description: `oflags & !CREATION_FLAGS`. -/
def statusOf : BitVec 32 := oflags &&& ~~~creationFlags

/-- `oflags_to_fd_flags`; `syscalls.rs:43-52`. -/
def oflagsToFdFlags : BitVec 32 :=
  (if has oflags oCloexec then fdCloexec else 0) ||| (if has oflags oClofork then fdClofork else 0)

/-! ### Permissions -/

variable (w : World)

/-- The identity that path lookups check. -/
def World.caller : Caller where
  pid := w.task.pid
  uid := w.task.uid
  gid := w.task.gid
  euid := w.task.euid
  egid := w.task.egid
  procfs := fun path => (w.task.procfs path).map Prod.fst
  fifo := fun path => (w.task.fifos path).map fun i => (w.pipes.get i).isSome
  procfs_path := fun path h => w.task.procfs_path path (by rwa [Option.isSome_map] at h)

variable (K : Caller)

/-- `resolve_namespace_path`, with as many iterations as a path can need;
`syscalls.rs:2151-2158`. -/
def resolveNamespacePath (host : Path.Host) (o : PathResolveOptions) (path cwd : Bytes) :
    Lookup ResolvedNamespacePath := do
  match ← resolveNamespacePathFrom K host o (enoughFuel path cwd) path cwd with
  | some r => pure r
  | none => throw .ELOOP

variable (path : Bytes)

/-- `parent_path`; `syscalls.rs:2181-2189`. -/
def parentPath : Bytes :=
  match path.reverse.findIdx? (· == slash) with
  | none => [slash]
  | some fromEnd =>
    if path.length - 1 - fromEnd = 0 then [slash] else path.take (path.length - 1 - fromEnd)

/-- `check_access`; `syscalls.rs:1748-1754`. -/
def checkAccess (st : Stat) (amode : BitVec 32) : Lookup Unit :=
  if hasAccessForIds K.euid K.egid st amode then pure () else throw .EACCES

/-- `check_search_dir`; `syscalls.rs:2191-2197`. -/
def checkSearchDir (host : Path.Host) (path : Bytes) : Lookup Unit := do
  let st ← namespaceLstatRaw K host path
  checkSearch K .follow st

/-- The loop of `check_search_dir_chain`; `syscalls.rs:2210-2215`. -/
def checkSearchDirs (K : Caller) (host : Path.Host) : Bytes → List Bytes → Lookup Unit
  | _, [] => pure ()
  | current, component :: rest => do
    checkSearchDir K host (current ++ slash :: component)
    checkSearchDirs K host (current ++ slash :: component) rest

/-- `check_search_dir_chain`; `syscalls.rs:2204-2217`. -/
def checkSearchDirChain (host : Path.Host) (dir : Bytes) : Lookup Unit := do
  checkSearchDir K host [slash]
  if dir = [slash] then pure () else checkSearchDirs K host [] (Segments.parts slash dir)

/-- `check_search_path`; `syscalls.rs:2199-2202`. -/
def checkSearchPath (host : Path.Host) (path : Bytes) : Lookup Unit :=
  checkSearchDirChain K host (parentPath path)

/-- `R_OK`. -/
def rOk : BitVec 32 := 4

/-- `W_OK`. -/
def wOk : BitVec 32 := 2

/-- `check_parent_writable`; `syscalls.rs:2219-2224`. -/
def checkParentWritable (host : Path.Host) (path : Bytes) : Lookup Unit := do
  checkSearchDirChain K host (parentPath path)
  let st ← namespaceLstatRaw K host (parentPath path)
  checkAccess K st (wOk ||| xOk)

/-- `open_access_mask`; `syscalls.rs:2241-2261`. -/
def openAccessMask (st : Stat) : BitVec 32 :=
  if has oflags oPath then if st.IsDir then xOk else 0
  else
    let amode :=
      if oflags &&& oAccmode = oWronly then wOk
      else if oflags &&& oAccmode = oRdwr then rOk ||| wOk
      else rOk
    let amode := if has oflags oTrunc then amode ||| wOk else amode
    if st.IsDir then amode ||| xOk else amode

variable (host : Host)

/-- `check_open_permissions`: whether the file will be created; `syscalls.rs:2263-2286`. -/
def checkOpenPermissions (path : Bytes) (oflags : BitVec 32) : Sys Bool := do
  let w ← world
  lookup (checkSearchPath w.caller host.toHost path)
  match ← Effect.attempt (hostStat host path) with
  | .ok st =>
    if has oflags oCreat && st.IsDir then throw .EISDIR
    else do
      lookup (checkAccess w.caller st (openAccessMask oflags st))
      pure false
  | .error .ENOENT =>
    if has oflags oCreat then do
      lookup (checkParentWritable w.caller host.toHost path)
      pure true
    else pure false
  | .error e => throw e

/-! ### Aliases, devices and terminals -/

variable (ofd : Nat)

/-- Another descriptor for a description; `syscalls.rs:2636-2639, 2708-2720`. -/
def share (oflags : BitVec 32) : Sys Nat := do
  incRef ofd
  allocFd ofd (oflagsToFdFlags oflags)

variable (fd : Nat)

/-- A name for a descriptor that is open; `syscalls.rs:2633-2640`. -/
def openDevFd (oflags : BitVec 32) : Sys Nat := do
  let w ← world
  let entry ← Effect.ofExcept (w.fds.get fd)
  share entry.ofdRef oflags

/-- `match_virtual_device`; `syscalls.rs:150-163`. -/
def matchVirtualDevice : Option VirtualDevice :=
  [("/dev/null", .Null), ("/dev/console", .Null), ("/dev/zero", .Zero),
    ("/dev/urandom", .Urandom), ("/dev/random", .Urandom), ("/dev/full", .Full),
    ("/dev/fb0", .Fb0), ("/dev/input/mice", .Mice), ("/dev/dsp", .Dsp),
    ("/dev/dri/renderD128", .DriRenderD128), ("/dev/dri/card0", .DriCard0)].findSome?
    fun (name, dev) => if path = bytes name then some dev else none

variable (dev : VirtualDevice)

/-- `acquire_fb0_or_busy`, `acquire_mice_or_busy` and `acquire_dsp_or_busy`;
`syscalls.rs:241-255, 294-307, 334-347`. -/
def acquireOrBusy : Sys Unit :=
  Effect.query fun w =>
    match w.owners dev with
    | some pid => if pid = w.task.pid then (.ok (), w) else (.error .EBUSY, w)
    | none =>
      (.ok (), { w with owners := fun d => if d = dev then some w.task.pid else w.owners d })

/-- The state of a graphics device; `syscalls.rs:547-556`. -/
def VirtualDevice.driState : VirtualDevice → Option DriOfdState
  | .DriRenderD128 => some .RenderNode
  | .DriCard0 => some .Card
  | .Null | .Zero | .Urandom | .Full | .Fb0 | .Mice | .Dsp => none

/-- `install_dri_state_on_open`; `syscalls.rs:546-562`. -/
def installDriStateOnOpen (dev : VirtualDevice) : Sys Unit :=
  match dev.driState with
  | some state => modifyOfd ofd fun o => { o with driState := some state }
  | none => pure ()

/-- A description for a device and its descriptor; `syscalls.rs:2653-2663`. -/
def openDeviceNode (path : Bytes) (oflags : BitVec 32) : Sys Nat := do
  let ofd ← createOfd .CharDevice (statusOf oflags) dev.hostHandle path
  installDriStateOnOpen ofd dev
  allocFd ofd (oflagsToFdFlags oflags)

/-- A device of the kernel; `syscalls.rs:2643-2664`. -/
def openDevice (path : Bytes) (oflags : BitVec 32) : Sys Nat := do
  if dev.hasOwner then acquireOrBusy dev
  openDeviceNode dev path oflags

/-- The master of a new terminal; `syscalls.rs:2667-2678`. -/
def openPtmx (oflags : BitVec 32) : Sys Nat := do
  let w ← world
  match w.ptys.alloc with
  | none => throw .ENOSPC
  | some (pty, ptys) =>
    change fun w =>
      { w with ptys := ptys.update pty fun p => { p with masterRefs := p.masterRefs + 1 } }
    let ofd ← createOfd .PtyMaster (statusOf oflags) pty path
    allocFd ofd (oflagsToFdFlags oflags)

/-- `parse_ascii_usize`; a number that does not fit is no index either; `syscalls.rs:68-80`. -/
def parseAsciiUsize (digits : Bytes) : Option Nat :=
  if digits = [] then none
  else digits.foldlM
    (fun val b => if b < 48 ∨ b > 57 then none else some (val * 10 + (b.toNat - 48))) 0

/-- The slave of a terminal; `syscalls.rs:2681-2696`. -/
def openPts (oflags : BitVec 32) : Sys Nat := do
  match parseAsciiUsize (path.drop 9) with
  | none => throw .ENOENT
  | some pty =>
    let w ← world
    match w.ptys.get pty with
    | none => throw .ENOENT
    | some pair =>
      if pair.isLocked then throw .EIo
      else
        change fun w =>
          { w with ptys := w.ptys.update pty fun p => { p with slaveRefs := p.slaveRefs + 1 } }
        let ofd ← createOfd .PtySlave (statusOf oflags) pty path
        allocFd ofd (oflagsToFdFlags oflags)

/-- The description of the controlling terminal: a terminal that is open, or standard input;
`syscalls.rs:2701-2715`. -/
def World.controllingTty : Option Nat :=
  match (w.fds.entries.filterMap id).find? fun e =>
      (w.ofds.get e.ofdRef).any fun o => o.fileType = .PtySlave with
  | some entry => some entry.ofdRef
  | none => (w.fds.entries.get 0).map FdEntry.ofdRef

/-- The controlling terminal; `syscalls.rs:2699-2722`. -/
def openTty : Sys Nat := do
  let w ← world
  match w.controllingTty with
  | none => throw .ENxio
  | some ofd => share ofd oflags

/-! ### Named pipes -/

/-- `fifo_open_owner`; `syscalls.rs:2309-2313`. -/
def World.fifoOpenOwner : Nat :=
  w.task.pid <<< 32 ||| (if w.task.tid = 0 then w.task.pid else w.task.tid)

/-- The handle of a slot of a kernel table. -/
def slotHandle (i : Nat) : Int := -((i : Int) + 1)

/-- The reference of one side before it is published; `syscalls.rs:2354-2360, 2533-2542`. -/
def endpointKind : FifoOpenSide → RefKind
  | .Reader => .Read false
  | .Writer => .Write

variable (pipe : Nat)

/-- Take a reference to a pipe back; `syscalls.rs:2351-2364`. -/
def withdrawPipe (kind : RefKind) : Sys Unit :=
  change fun w => { w with pipes := w.pipes.withdraw pipe kind }

/-- `FdTable::install_reserved` of the process. -/
def installReservedFd (ofd : Nat) (flags : BitVec 32) : Sys Nat :=
  Effect.query fun w =>
    match w.fds.installReserved fd ofd flags with
    | .ok fds => (.ok fd, { w with fds })
    | .error e => (.error e, w)

/-- `FdTable::release_reserved` of the process. -/
def releaseReservedFd : Sys Unit := change fun w => { w with fds := w.fds.releaseReserved fd }

/-- `FdTable::free` of the process. -/
def freeFd : Sys Unit := change fun w => { w with fds := w.fds.free fd }

/-- A descriptor whose number is reserved or not yet chosen; `syscalls.rs:2379-2385`. -/
def installFd (flags : BitVec 32) : Option Nat → Sys Nat
  | some fd => installReservedFd fd ofd flags
  | none => allocFd ofd flags

/-- Publish the side of a pipe that was opened, if the pipe is still there;
`syscalls.rs:2388-2394, 2560-2568`. -/
def publish (ofd fd : Nat) (f : PipeBuffer → PipeBuffer) : Sys Nat := do
  let w ← world
  if (w.pipes.get pipe).isNone then
    freeFd fd
    dropRef ofd
    throw .EIo
  else
    modifyPipe pipe f
    pure fd

/-- `install_fifo_open`; `syscalls.rs:2366-2405`. -/
def installFifoOpen (path : Bytes) (statusFlags fdFlags : BitVec 32) (side : FifoOpenSide)
    (reservedFd : Option Nat) : Sys Nat := do
  let ofd ← createOfd .Pipe statusFlags (slotHandle pipe) path
  match ← Effect.attempt (installFd ofd fdFlags reservedFd) with
  | .ok fd => publish pipe ofd fd (·.publishFifoOpen side)
  | .error e =>
    dropRef ofd
    match reservedFd with
    | some fd => releaseReservedFd fd
    | none => pure ()
    withdrawPipe pipe (endpointKind side)
    throw e

/-- `cancel_fifo_open_for_owner`, for the waiter that was found; `syscalls.rs:2315-2324`,
`pipe.rs:1519-1526`. -/
def cancelFifoOpenForOwner (owner : Nat) (waiter : FifoOpenWaiter) : Sys Unit := do
  modifyPipe pipe (·.cancelFifoOpen owner waiter.side)
  change fun w => { w with pipes := w.pipes.freeIfClosed pipe }
  releaseReservedFd waiter.reservedFd

/-- The open that the thread waits for, if any: its pipe and its entry there. -/
def World.pendingFifoOpen : Option (Nat × FifoOpenWaiter) := do
  let pipe ← w.pipes.findFifoOpen w.fifoOpenOwner
  let p ← w.pipes.get pipe
  let waiter ← p.waiter w.fifoOpenOwner
  pure (pipe, waiter)

/-- `resume_fifo_open`; `syscalls.rs:2410-2436`. -/
def resumeFifoOpen : Sys (Option Nat) := do
  let w ← world
  match w.pendingFifoOpen with
  | none => pure none
  | some (pipe, waiter) =>
    if w.task.caughtSignal then
      cancelFifoOpenForOwner pipe w.fifoOpenOwner waiter
      throw .EINTR
    else if waiter.ready then
      modifyPipe pipe (·.dropWaiter w.fifoOpenOwner)
      let fd ← installFifoOpen pipe waiter.path waiter.statusFlags waiter.fdFlags waiter.side
        (some waiter.reservedFd)
      pure (some fd)
    else throw .EAGAIN

/-- Give up the description and the reference of an open that has no descriptor;
`syscalls.rs:2471-2478, 2570-2577`. -/
def abandonFifoOpen (ofd : Nat) (kind : RefKind) (e : Errno) : Sys Nat := do
  dropRef ofd
  withdrawPipe pipe kind
  throw e

/-- Open a named pipe with `O_PATH`; `syscalls.rs:2454-2480`. -/
def openFifoPath (path : Bytes) (oflags : BitVec 32) : Sys Nat := do
  let w ← world
  lookup (checkSearchPath w.caller host.toHost path)
  if (w.pipes.get pipe).isNone then throw .EIo
  else
    modifyPipe pipe (·.addReference .Path)
    let ofd ← createOfd .Pipe (statusOf oflags) (slotHandle pipe) path
    allocFdOr ofd (oflagsToFdFlags oflags) pure (abandonFifoOpen pipe ofd .Path)

/-- Open both ends; `syscalls.rs:2543-2579`. -/
def openFifoReadWrite (path : Bytes) (oflags : BitVec 32) : Sys Nat := do
  modifyPipe pipe (·.addReference .ReadWrite)
  let ofd ← createOfd .Pipe (statusOf oflags) (slotHandle pipe) path
  allocFdOr ofd (oflagsToFdFlags oflags)
    (publish pipe ofd · PipeBuffer.publishFifoReadWriteOpen) (abandonFifoOpen pipe ofd .ReadWrite)

/-- Open one end; `syscalls.rs:2533-2542, 2580-2589`. -/
def openFifoEnd (path : Bytes) (oflags : BitVec 32) (side : FifoOpenSide) : Sys Nat := do
  modifyPipe pipe (·.addReference (endpointKind side))
  installFifoOpen pipe path (statusOf oflags) (oflagsToFdFlags oflags) side none

/-- Whether the other side of a named pipe is there, as far as it has to be;
`syscalls.rs:2495-2507`. -/
def fifoReady (p : PipeBuffer) : Except Errno Bool :=
  if oflags &&& oAccmode = oRdonly then .ok (has oflags oNonblock || p.isWriteEndOpen)
  else if oflags &&& oAccmode = oWronly then
    if has oflags oNonblock && !p.hasReaders then .error .ENxio else .ok p.hasReaders
  else .ok true

/-- Reserve a number and an end for an open that has to wait; `syscalls.rs:2508-2530`. -/
def waitFifoOpen (path : Bytes) (oflags : BitVec 32) (side : FifoOpenSide) : Sys Nat := do
  let w ← world
  if w.task.caughtSignal then throw .EINTR
  else
    let (fd, fds) ← Effect.ofExcept w.fds.reserve
    let waiter := ⟨side, path, statusOf oflags, oflagsToFdFlags oflags, fd, false⟩
    match (w.pipes.get pipe).bind (·.reserveFifoOpen w.fifoOpenOwner waiter) with
    | none =>
      change fun w => { w with fds := fds.releaseReserved fd }
      throw .EIo
    | some p =>
      change fun w => { w with fds, pipes := w.pipes.update pipe fun _ => p }
      throw .EAGAIN

/-- The end of a named pipe that is opened. -/
def accessSide : FifoOpenSide :=
  if oflags &&& oAccmode = oRdonly then .Reader else .Writer

/-- Open a named pipe for reading or writing; `syscalls.rs:2481-2590`. -/
def openFifoEnds (path : Bytes) (oflags : BitVec 32) : Sys Nat := do
  let _ ← checkOpenPermissions host path oflags
  if oflags &&& oAccmode = oAccmode then throw .EINVAL
  else
    let w ← world
    match w.pipes.get pipe with
    | none => throw .EIo
    | some p =>
      let ready ← Effect.ofExcept (fifoReady oflags p)
      if !ready then waitFifoOpen pipe path oflags (accessSide oflags)
      else if oflags &&& oAccmode = oRdwr then openFifoReadWrite pipe path oflags
      else openFifoEnd pipe path oflags (accessSide oflags)

/-- `try_open_fifo` for a name that is a FIFO; `syscalls.rs:2438-2590`. -/
def openFifo (path : Bytes) (oflags : BitVec 32) (exclusiveCreate : Bool) : Sys Nat :=
  if exclusiveCreate then throw .EEXIST
  else if has oflags oDirectory then throw .ENOTDIR
  else if has oflags oPath then openFifoPath host pipe path oflags
  else openFifoEnds host pipe path oflags

/-! ### Files of the kernel -/

/-- `procfs_open`; `procfs.rs:585-671`. -/
def procfsOpen (kind : ProcfsKind) (path : Bytes) (oflags : BitVec 32) : Sys Nat :=
  if has oflags (oWronly ||| oRdwr) then throw .EACCES
  else
    match kind with
    | .symlink => throw .ELOOP
    | .dir valid => do
      Effect.ofExcept valid
      let ofd ← createOfd .Directory (statusOf oflags) (-150) path
      modifyOfd ofd fun o => { o with dirHostHandle := -150 }
      allocFdOr ofd (oflagsToFdFlags oflags) pure fun e => do
        dropRef ofd
        throw e
    | .file objectId content => do
      let objectId ← Effect.ofExcept (objectId.elim (.error .EINVAL) .ok)
      let content ← Effect.ofExcept content
      let w ← world
      let buf := w.procfsBufs.firstFree
      change fun w => { w with procfsBufs := w.procfsBufs.insert ⟨1, content⟩ }
      let ofd ← createOfd .Regular (statusOf oflags) (-(200 + buf)) path
      modifyOfd ofd fun o => { o with fileId := some (.ProcFsRegular objectId) }
      allocFdOr ofd (oflagsToFdFlags oflags) pure fun e => do
        dropRef ofd
        change fun w => { w with procfsBufs := release w.procfsBufs buf }
        throw e

/-- `devfs_open_dir`; `devfs.rs:79-98`. -/
def devfsOpenDir (oflags : BitVec 32) : Sys Nat := do
  let ofd ← createOfd .Directory (oflags &&& ~~~(oCreat ||| oExcl ||| oTrunc)) (-160) path
  modifyOfd ofd fun o => { o with dirHostHandle := -160 }
  allocFd ofd (if has oflags oCloexec then fdCloexec else 0)

/-- A read-only file that the kernel makes up, with its backing; `syscalls.rs:2742-2771`,
`descriptor_backing.rs:261-264`. -/
def openSynthetic (oflags : BitVec 32) : Sys Nat :=
  if has oflags oDirectory then throw .ENOTDIR
  else if oflags &&& oAccmode ≠ oRdonly then throw .EACCES
  else do
    let w ← world
    let backing := w.syntheticRegulars.firstFree
    change fun w => { w with syntheticRegulars := w.syntheticRegulars.insert ⟨1, ()⟩ }
    let ofd ← createOfd .Regular (statusOf oflags) (-(1000000000 + backing)) path
    modifyOfd ofd fun o => { o with fileId := some (.SyntheticRegular 1) }
    allocFdOr ofd (oflagsToFdFlags oflags) pure fun e => do
      dropRef ofd
      change fun w => { w with syntheticRegulars := release w.syntheticRegulars backing }
      throw e

/-! ### Files of the host -/

/-- The metadata of an open handle, which is closed if the host does not give them;
`syscalls.rs:2786-2792`. -/
def liveStat (handle : Int) : Sys LiveStat := do
  match ← Effect.attempt (hostFstat host handle) with
  | .ok stat => pure stat
  | .error e =>
    hostClose handle
    throw e

variable (created : Bool)

/-- A file that was created belongs to the caller; `syscalls.rs:2776-2778`. -/
def chownCreated (path : Bytes) : Sys Unit := do
  let w ← world
  if created then hostChown host path w.task.euid w.task.egid else pure ()

/-- The description of a host file and its descriptor; `syscalls.rs:2793-2819`. -/
def describeHandle (oflags : BitVec 32) (handle : Int) (stat : LiveStat) : Sys Nat := do
  let fileType : FileType :=
    if has oflags oDirectory || stat.mode &&& sIfmt = sIfdir then .Directory else .Regular
  let ofd ← createOfd fileType (statusOf oflags) handle path
  if stat.ino ≠ 0 then modifyOfd ofd fun o => { o with fileId := some (.Host stat.dev stat.ino) }
  allocFd ofd (oflagsToFdFlags oflags)

/-- What follows once the host has opened the file; `syscalls.rs:2776-2819`. -/
def openHandle (path : Bytes) (oflags : BitVec 32) (handle : Int) : Sys Nat := do
  chownCreated host created path
  let stat ← liveStat host handle
  describeHandle path oflags handle stat

/-- A file of the host; `syscalls.rs:2773-2819`. -/
def openHostFile (path : Bytes) (oflags mode : BitVec 32) : Sys Nat := do
  let created ← checkOpenPermissions host path oflags
  let handle ← hostOpen host path oflags mode
  openHandle host created path oflags handle

/-! ### The call -/

/-- What a resolved path names, in the order of the tests; `syscalls.rs:2633-2742`. -/
inductive Target
  | devFd (fd : Nat)
  | device (dev : VirtualDevice)
  | ptmx
  | pts
  | tty
  | fifo (pipe : Nat)
  | procfs (kind : ProcfsKind)
  | devfsDir
  | synthetic
  | hostFile

/-- What the path is, in the order in which `sys_open` asks. -/
def Task.target (task : Task) (path : Bytes) : Target :=
  match matchDevFd path, matchVirtualDevice path with
  | some fd, _ => .devFd fd
  | none, some dev => .device dev
  | none, none =>
    if path = bytes "/dev/ptmx" then .ptmx
    else if (bytes "/dev/pts/").isPrefixOf path then .pts
    else if path = bytes "/dev/tty" then .tty
    else
      match task.fifos path, task.procfs path with
      | some pipe, _ => .fifo pipe
      | none, some (_, kind) => .procfs kind
      | none, none =>
        if !isHostBackedDevfsPath path && path ∈ devfsDirs then .devfsDir
        else if path = bytes "/etc/mtab" then .synthetic
        else .hostFile

/-- Exclusive creation is asked for; `syscalls.rs:2608`. -/
def exclusiveCreate : Bool := has oflags oCreat && has oflags oExcl

/-- `sys_open` of each kind of target. -/
def openTarget (path : Bytes) (oflags mode : BitVec 32) : Target → Sys Nat
  | .devFd fd => openDevFd fd oflags
  | .device dev => openDevice dev path oflags
  | .ptmx => openPtmx path oflags
  | .pts => openPts path oflags
  | .tty => openTty oflags
  | .fifo pipe => openFifo host pipe path oflags (exclusiveCreate oflags)
  | .procfs kind => procfsOpen kind path oflags
  | .devfsDir => devfsOpenDir path oflags
  | .synthetic => openSynthetic path oflags
  | .hostFile => openHostFile host path oflags mode

/-- Options of the resolution; `syscalls.rs:2609-2617`. -/
def openOptions : PathResolveOptions where
  followFinalSymlink := !has oflags oNofollow && !exclusiveCreate oflags
  allowMissingFinal := has oflags oCreat
  allowMissingDirectory := false
  useRealIds := false

/-- A link that was not followed is an error; `syscalls.rs:2619-2629`. -/
def refuseLink (stat : Option Stat) : Except Errno Unit :=
  if stat.any fun st => st.IsLink then
    if exclusiveCreate oflags then .error .EEXIST
    else if has oflags oNofollow then .error .ELOOP
    else .ok ()
  else .ok ()

/-- The mode with which a file is created; `syscalls.rs:2603-2607`. -/
def World.effectiveMode (oflags mode : BitVec 32) : BitVec 32 :=
  if has oflags oCreat then mode &&& ~~~w.task.umask else mode

/-- `sys_open` after a pending open; `syscalls.rs:2603-2820`. -/
def openFresh (path : Bytes) (oflags mode : BitVec 32) : Sys Nat := do
  let w ← world
  let entry ← lookup
    (resolveNamespacePath w.caller host.toHost (openOptions oflags) path w.task.cwd)
  Effect.ofExcept (refuseLink oflags entry.stat)
  openTarget host entry.path oflags (w.effectiveMode oflags mode) (w.task.target entry.path)

/-- `sys_open`; `syscalls.rs:2593-2820`. -/
def sysOpen (path : Bytes) (oflags mode : BitVec 32) : Sys Nat := do
  match ← resumeFifoOpen with
  | some fd => pure fd
  | none => openFresh host path oflags mode

end Kandelo.Kernel.Descriptor
