import Kandelo.Kernel.Errno
import Kandelo.Kernel.Signal.State

/-!
# Signals of a process

The process-level signal operations of `crates/kernel/src/process.rs`,
`crates/kernel/src/signal.rs`, `crates/kernel/src/syscalls.rs` and
`crates/kernel/src/wasm_api.rs`. A process owns one shared pending set, a directed set for
its main thread, one for each worker, and its POSIX timers. Wait events and wakeups, which no
signal operation reads, are not part of the record.
-/

namespace Kandelo.Kernel.Signal

open Lib

/-- Lifecycle state; `process.rs:341-352`. -/
inductive ProcessState
  | running
  | stopped
  | exited
  | limbo
  deriving DecidableEq

/-- Kernel-facing notification mode of a timer; `process.rs:509-511`. Any other
number is kept as it is. -/
inductive SigevNotify
  | signal
  | none
  | threadId
  | other (mode : Nat)
  deriving DecidableEq

/-- Notification fields of a POSIX timer; `process.rs:481-504`. -/
structure PosixTimerState where
  sigevSigno : Nat
  sigevValue : Int
  sigevNotify : SigevNotify
  sigevTid : Nat
  notificationPending : Bool
  overrunCurrent : Int
  overrunLast : Int

/-- A worker thread's signal state. -/
structure ThreadInfo where
  tid : Nat
  signals : PerThreadSignalState

/-- Alternate signal stack; `process.rs:632-637`. -/
structure AltStack where
  sp : Nat
  flags : Nat
  size : Nat
  depth : Nat

namespace AltStack

/-- No alternate stack: `SS_DISABLE`. -/
def disabled : AltStack := ⟨0, 2, 0, 0⟩

/-- Enter a handler that asked for `SA_ONSTACK`; only the first entry switches stacks;
`wasm_api.rs:2251-2271,2288-2293`. -/
def enter (a : AltStack) (saFlags : Nat) : (Nat × Nat) × AltStack :=
  if saFlags &&& 0x08000000 ≠ 0 ∧ a.flags &&& 2 = 0 ∧ a.sp ≠ 0 then
    (if a.depth = 0 then (a.sp % 2 ^ 32, a.size % 2 ^ 32) else (0, 0),
      { a with depth := a.depth + 1, flags := a.flags ||| 1 })
  else ((0, 0), a)

end AltStack

/-- Signal-related fields of a process; `crates/kernel/src/process.rs`. -/
structure Process where
  pid : Nat
  uid : Nat
  state : ProcessState
  signals : SignalState
  mainThreadSignals : PerThreadSignalState
  threads : List ThreadInfo
  nextTid : Nat
  sigsuspendSavedMask : Option SigMask
  posixTimers : List (Option PosixTimerState)
  altStack : AltStack

/-- Largest `i32`, where an overrun count saturates. -/
def i32Max : Int := 2 ^ 31 - 1

namespace Process

/-- A process without signals. -/
def new (pid uid : Nat) : Process where
  pid
  uid
  state := .running
  signals := .new
  mainThreadSignals := .new
  threads := []
  nextTid := 0
  sigsuspendSavedMask := none
  posixTimers := []
  altStack := .disabled

/-! ### Threads -/

variable (p : Process) (tid : Nat)

/-- Thread 0 and the process id both name the main thread;
`process.rs:1029-1031`. -/
def isMainThread : Bool := tid = 0 || tid = p.pid

/-- First worker with this id; `process.rs:1013-1015`. -/
def getThread : Option ThreadInfo := p.threads.find? fun t => t.tid = tid

variable (f : PerThreadSignalState → PerThreadSignalState)

/-- Update the first worker with this id, through `get_thread_mut`. -/
def updateThread : Process :=
  match Slice.modifyFirst (fun t => t.tid = tid) (fun t => { t with signals := f t.signals })
    p.threads with
  | some threads => { p with threads }
  | none => p

lemma updateThread_eq : ∃ threads, p.updateThread tid f = { p with threads } ∧
    ∀ t ∈ threads, t ∈ p.threads ∨ ∃ u ∈ p.threads, t = { u with signals := f u.signals } := by
  unfold updateThread
  split
  · next threads hthreads =>
    refine ⟨threads, rfl, fun t ht => ?_⟩
    obtain ⟨before, u, after, hp, -, rfl⟩ := Slice.modifyFirst_eq_some hthreads
    simp only [List.mem_append, List.mem_cons] at ht
    grind
  · exact ⟨p.threads, rfl, fun _ => .inl⟩

/-- Every pending set of the process: shared, main thread, workers. -/
def queues : List PendingSet :=
  p.signals.toPendingSet :: p.mainThreadSignals.toPendingSet ::
    p.threads.map (·.signals.toPendingSet)

/-- Update every worker, `for thread in &mut self.threads`. -/
def mapThreads : Process :=
  { p with threads := p.threads.map fun t => { t with signals := f t.signals } }

/-- The state of signals sent to a thread. -/
def directed : Option PerThreadSignalState :=
  if p.isMainThread tid then some p.mainThreadSignals else (p.getThread tid).map (·.signals)

/-- The process with that state changed. -/
def updateDirected : Process :=
  if p.isMainThread tid then { p with mainThreadSignals := f p.mainThreadSignals }
  else p.updateThread tid f

/-- Names the live leader or a worker; `process.rs:1036-1038`. -/
def isLiveExplicitTid : Bool :=
  tid ≠ 0 && (tid = p.pid || (p.getThread tid).isSome)

/-- Next thread id; `process.rs:987-995`. -/
def allocTid : Nat × Process :=
  let tid := if p.nextTid = 0 then p.pid + 1 else p.nextTid
  (tid, { p with nextTid := tid + 1 })

/-- Replace an element by the last one, `Vec::swap_remove`. -/
def swapRemove {α : Type} (xs : List α) (idx : Nat) : List α :=
  match xs.getLast? with
  | none => []
  | some last => (xs.set idx last).dropLast

/-- Forget a worker; `process.rs:1003-1010`. -/
def removeThread : Process :=
  match p.threads.findIdx? fun t => t.tid = tid with
  | some idx => { p with threads := swapRemove p.threads idx }
  | none => p

/-! ### Masks -/

/-- Effective blocked mask; `process.rs:1041-1049`. -/
def blockedFor : SigMask :=
  if p.isMainThread tid then p.signals.blocked
  else
    match p.getThread tid with
    | some t => t.signals.blocked
    | none => p.signals.blocked

/-- Replace a blocked mask, falling back to the process mask for an unknown thread;
`process.rs:1052-1067`. -/
def setBlockedFor (blocked : SigMask) : Process :=
  if p.isMainThread tid then { p with signals := { p.signals with blocked } }
  else if (p.getThread tid).isSome then p.updateThread tid fun t => { t with blocked }
  else { p with signals := { p.signals with blocked } }

/-- Saved mask of an interrupted wait; `process.rs:1361-1368`. -/
def sigsuspendSavedMaskFor : Option SigMask :=
  if p.isMainThread tid then p.sigsuspendSavedMask
  else (p.getThread tid).bind (·.signals.sigsuspendSavedMask)

/-- Replace the saved mask; `process.rs:1371-1377`. -/
def setSigsuspendSavedMaskFor (val : Option SigMask) : Process :=
  if p.isMainThread tid then { p with sigsuspendSavedMask := val }
  else p.updateThread tid fun t => { t with sigsuspendSavedMask := val }

/-- Put a saved mask back in force, if there is one. -/
def restoreSavedMask : Process :=
  match p.sigsuspendSavedMaskFor tid with
  | some saved => (p.setSigsuspendSavedMaskFor tid none).setBlockedFor tid saved
  | none => p

/-- Shared and directed pending bits; `process.rs:1072-1079`. -/
def pendingFor : SigMask :=
  p.signals.pending ||| ((p.directed tid).map (·.pending)).getD 0

/-- Pending and not blocked; `process.rs:1139-1143`. -/
def deliverableFor : SigMask := p.pendingFor tid &&& ~~~ p.blockedFor tid

/-- Pending in any queue; `process.rs:1102-1113`. -/
def signalPendingAnywhere (sig : Nat) : Bool :=
  if sig = 0 ∨ sig ≥ nsig then false
  else
    decide (SigMask.Has p.signals.pending sig) ||
      decide (SigMask.Has p.mainThreadSignals.pending sig)
      || p.threads.any fun t => decide (SigMask.Has t.signals.pending sig)

/-- Next signal the thread would take; `process.rs:1148-1160`. -/
def nextDeliverableSignal : Option Nat :=
  if p.state = .stopped then if p.signalPendingAnywhere sigKill then some sigKill else none
  else
    let deliverable := p.deliverableFor tid
    if deliverable = 0 then none
    else
      let signum := lowestSignal deliverable
      if signum < nsig then some signum else none

/-! ### Generation -/

variable (signum : Nat)

/-- Clear a signal in every worker and the main thread; `process.rs:1249-1254`. -/
def clearDirectedSignal : Process :=
  let clear (t : PerThreadSignalState) : PerThreadSignalState :=
    { t with toPendingSet := t.clearPending signum }
  { p with mainThreadSignals := clear p.mainThreadSignals }.mapThreads clear

/-- The process without a pending shared signal. -/
def clearShared : Process :=
  { p with signals := { p.signals with toPendingSet := p.signals.clearPending signum } }

/-- Clear a signal in every queue; `process.rs:918-921`. -/
def clearSignalEverywhere : Process :=
  (p.clearShared signum).clearDirectedSignal signum

/-- Stop a running process; `process.rs:844-861`. -/
def recordStop : Bool × Process :=
  if p.state ≠ .running then (false, p) else (true, { p with state := .stopped })

/-- Resume a stopped process; `process.rs:865-881`. -/
def recordContinue : Process :=
  if p.state ≠ .stopped then p else { p with state := .running }

/-- Record an exit; `process.rs:884-915`. -/
def recordExit : Process :=
  if p.state = .exited ∨ p.state = .limbo then p else { p with state := .exited }

/-- The signals that stop. -/
def stopSignals : List Nat := [sigStop, sigTstp, sigTtin, sigTtou]

/-- Job-control effects of generating a signal; `process.rs:925-943`. -/
def prepareSignalGeneration : Process :=
  if signum = 0 ∨ signum ≥ nsig then p
  else if signum = sigCont then (stopSignals.foldl clearSignalEverywhere p).recordContinue
  else if signum ∈ stopSignals then p.clearSignalEverywhere sigCont
  else p

/-- Replace the shared state by the outcome of an operation on it. -/
def onShared {β : Type} (p : Process) (f : SignalState → β × SignalState) : β × Process :=
  let r := f p.signals
  (r.1, { p with signals := r.2 })

/-- Generate a process-wide signal; `process.rs:945-948`. -/
def raiseSignal : Bool × Process :=
  (p.prepareSignalGeneration signum).onShared (·.raise signum)

variable (siValue : Int)

/-- Generate a process-wide signal with a value; `process.rs:950-953`. -/
def raiseSignalWithValue : Bool × Process :=
  (p.prepareSignalGeneration signum).onShared (·.raiseWithValue signum siValue)

/-- Generate a directed signal: prepare, discard an ignored signal, queue on the target. -/
def raiseDirected (raise : PerThreadSignalState → Bool × PerThreadSignalState) : Bool × Process :=
  let p := p.prepareSignalGeneration signum
  if signum = 0 ∨ signum ≥ nsig then (false, p)
  else if shouldDiscardPending signum (p.signals.getHandler signum) then (true, p)
  else
    match p.directed tid with
    | some t => ((raise t).1, p.updateDirected tid fun t => (raise t).2)
    | none => (false, p)

/-- Directed `tkill`; `process.rs:1177-1193`. -/
def raiseForThread : Bool × Process :=
  p.raiseDirected tid signum (·.raise signum)

/-- Directed `sigqueue`; `process.rs:1196-1218`. -/
def raiseForThreadWithValue : Bool × Process :=
  p.raiseDirected tid signum (·.raiseWithValue signum siValue)

/-- Directed timer notification; `process.rs:1222-1245`. -/
def raiseTimerForThread (timerId : Nat) : Bool × Process :=
  p.raiseDirected tid signum fun t =>
    let r := t.raiseTimer signum siValue timerId
    (r.1, { t with toPendingSet := r.2 })

/-! ### Acceptance -/

/-- Consume one instance, the thread's own before a shared one;
`process.rs:1258-1282`. -/
def consumeSignalFor : Option PendingSignalInfo × Process :=
  match (p.directed tid).filter (·.isPending signum) with
  | some t =>
    (some (t.consumePendingInfo signum).1,
      p.updateDirected tid fun t => { t with toPendingSet := (t.consumePendingInfo signum).2 })
  | none =>
    if SigMask.Has p.signals.pending signum then
      let r := p.signals.consumePendingInfo signum
      (some r.1, { p with signals := { p.signals with toPendingSet := r.2 } })
    else (none, p)

variable (timerId : Nat)

/-- The signal of a timer. -/
def timerSigno : Option Nat :=
  (p.posixTimers[timerId]?.join).map (·.sigevSigno)

/-- The process with a timer changed. -/
def updateTimer (f : PosixTimerState → PosixTimerState) : Process :=
  { p with posixTimers := p.posixTimers.modify timerId (·.map f) }

/-- Accept a notification and take its overrun count; `process.rs:1285-1294`. -/
def acceptPosixTimerNotification : Option Int × Process :=
  match p.posixTimers[timerId]?.join with
  | none => (none, p)
  | some timer =>
    if !timer.notificationPending then (none, p)
    else
      (some timer.overrunCurrent, p.updateTimer timerId fun t =>
        { t with
          notificationPending := false
          overrunLast := t.overrunCurrent
          overrunCurrent := 0 })

/-- What a thread is told about an accepted instance. -/
structure SigInfo where
  signum : Nat
  siValue : Int
  siCode : Int
  word1 : Int
  word2 : Int

/-- The two `siginfo` words of a consumed instance, accepting its timer notification. -/
def sigInfoOf (info : PendingSignalInfo) : SigInfo × Process :=
  match info.timerId with
  | some timerId =>
    let r := p.acceptPosixTimerNotification timerId
    (⟨signum, info.siValue, info.siCode, timerId, r.1.getD 0⟩, r.2)
  | none => (⟨signum, info.siValue, info.siCode, p.pid, p.uid⟩, p)

/-- Consume one pending instance; `signal.rs:160-178`. -/
def dequeueSignalFor : SigInfo × Process :=
  if p.state = .stopped ∧ signum = sigKill then
    (⟨signum, 0, 0, p.pid, p.uid⟩, p.clearSignalEverywhere signum)
  else
    let r := p.consumeSignalFor tid signum
    r.2.sigInfoOf signum (r.1.getD .none)

variable (mask : SigMask)

/-- Wait for a signal of a set; `syscalls.rs:7038-7068`. -/
def sysSigtimedwait : Option SigInfo × Process :=
  let pendingInMask := p.pendingFor tid &&& mask
  if pendingInMask = 0 then (none, p)
  else
    let signum := lowestSignal pendingInMask
    if signum < nsig then
      match p.consumeSignalFor tid signum with
      | (none, p) => (none, p)
      | (some info, p) =>
        let r := p.sigInfoOf signum info
        (some r.1, r.2)
    else (none, p)

/-- Outcome of a default action; `signal.rs:77-81`. -/
inductive DefaultSignalOutcome
  | continue
  | stopped
  | exited
  deriving DecidableEq

/-- Terminate by a signal: saved masks are dropped and the exit recorded;
`signal.rs:102-116`. -/
def terminateProcessBySignal : Process :=
  let p := p.mapThreads fun t => { t with sigsuspendSavedMask := none }
  { p with sigsuspendSavedMask := none }.recordExit

/-- Default action of a consumed signal; `signal.rs:137-157`. -/
def applyDefaultSignalAction : DefaultSignalOutcome × Process :=
  match defaultAction signum with
  | .terminate | .coreDump => (.exited, p.terminateProcessBySignal)
  | .stop =>
    let r := p.recordStop
    (if r.1 then .stopped else .continue, r.2)
  | .continue | .ignore => (.continue, p)

/-- Syscall-boundary delivery; `signal.rs:195-224`. The loop runs on fuel. -/
def deliverLoop : Nat → Nat → Process → Option Process
  | 0, _, _ => none
  | fuel + 1, tid, p =>
    match p.nextDeliverableSignal tid with
    | none => some p
    | some signum =>
      let next (p : Process) : Option Process :=
        if p.state = .stopped ∨ p.state = .exited then some p else deliverLoop fuel tid p
      match (p.signals.getAction signum).handler with
      | .handler _ => some p
      | .default =>
        let r := (p.dequeueSignalFor tid signum).2.applyDefaultSignalAction signum
        if r.1 ≠ .continue then some r.2 else next r.2
      | .ignore => next (p.dequeueSignalFor tid signum).2

/-- What the guest glue reads about a caught signal; `wasm_api.rs:2268-2293`. -/
structure DeliveredSignal where
  info : SigInfo
  handlerIndex : Nat
  flags : Nat
  oldMask : SigMask
  altSp : Nat
  altSize : Nat

/-- Enter a handler: the saved mask is put back, then the action's mask and the signal itself are
blocked; `wasm_api.rs:2238-2295`. -/
def enterHandler (index : Nat) (action : SignalAction) : DeliveredSignal × Process :=
  let r := p.dequeueSignalFor tid signum
  let p := r.2.restoreSavedMask tid
  let oldMask := p.blockedFor tid
  let p := p.setBlockedFor tid (oldMask ||| action.mask ||| sigBit signum)
  let alt := p.altStack.enter action.flags
  (⟨r.1, index, action.flags, oldMask, alt.1.1, alt.1.2⟩, { p with altStack := alt.2 })

/-- Dequeue for the guest glue; `wasm_api.rs:2220-2310`. The loop runs on fuel. -/
def kernelDequeueSignal : Nat → Nat → Process → Option (Option DeliveredSignal × Process)
  | 0, _, _ => none
  | fuel + 1, tid, p =>
    match p.nextDeliverableSignal tid with
    | none => some (none, p)
    | some signum =>
      let action := p.signals.getAction signum
      match action.handler with
      | .handler index =>
        let r := p.enterHandler tid signum index action
        some (some r.1, r.2)
      | .default =>
        let r := (p.dequeueSignalFor tid signum).2.applyDefaultSignalAction signum
        if r.1 ≠ .continue then some (none, r.2) else kernelDequeueSignal fuel tid r.2
      | .ignore => kernelDequeueSignal fuel tid (p.dequeueSignalFor tid signum).2

/-! ### Dispositions and masks -/

/-- The timers that have an instance of the signal pending. -/
def pendingTimerIds : List Nat :=
  let ids (q : PendingSet) : List Nat :=
    (q.rtQueue.filter fun e => e.signum = signum).filterMap (·.timerId)
  ids p.signals.toPendingSet ++ ids p.mainThreadSignals.toPendingSet ++
    p.threads.flatMap fun t => ids t.signals.toPendingSet

/-- Discard every instance of a signal, accepting the timers'; `process.rs:1318-1346`. -/
def discardPendingSignal : Process :=
  (p.pendingTimerIds signum).foldl (fun p t => (p.acceptPosixTimerNotification t).2)
    (p.clearSignalEverywhere signum)

/-- The checks of `sigaction`, and what a new handler discards. -/
def installAction (p : Process) (sig : Nat) (handler : SignalHandler)
    (install : SignalState → Option SignalState) : Except Errno Process :=
  if sig = 0 ∨ sig ≥ nsig then .error .EINVAL
  else if sig = sigKill ∨ sig = sigStop then .error .EINVAL
  else
    let discard := shouldDiscardPending sig handler
    let p := if discard then p.discardPendingSignal sig else p
    match install p.signals with
    | none => .error .EINVAL
    | some signals =>
      let p := { p with signals }
      .ok (if discard then p.clearDirectedSignal sig else p)

/-- Handler named by a guest value: `SIG_DFL` is 0 and `SIG_IGN` is 1. -/
def handlerOf : Nat → SignalHandler
  | 0 => .default
  | 1 => .ignore
  | ptr => .handler ptr

/-- Install an action; `syscalls.rs:7109-7155`. -/
def sysSigaction (sig handlerVal flags : Nat) (mask : SigMask) : Except Errno Process :=
  p.installAction sig (handlerOf handlerVal) fun s =>
    (s.setAction sig ⟨handlerOf handlerVal, flags, mask⟩).map (·.2)

/-- Install a handler; `syscalls.rs:7159-7189`. -/
def sysSignal (sig handlerVal : Nat) : Except Errno Process :=
  p.installAction sig (handlerOf handlerVal) fun s =>
    (s.setHandler sig (handlerOf handlerVal)).map (·.2)

/-- The two signals that cannot be blocked. -/
def sigGuard : SigMask := sigBit sigKill ||| sigBit sigStop

/-- How `sigprocmask` combines its set with the mask. -/
inductive MaskHow
  | block
  | unblock
  | setMask

/-- Change the calling thread's mask; `syscalls.rs:7201-7217`. -/
def sysSigprocmask (how : MaskHow) (set : SigMask) : Process :=
  let old := p.blockedFor tid
  let new := match how with
    | .block => old ||| set
    | .unblock => old &&& ~~~ set
    | .setMask => set
  p.setBlockedFor tid (new &&& ~~~ sigGuard)

/-- First entry of a waiting call: save the mask and install a temporary one;
`syscalls.rs:7083-7089,12981-12985,13017-13021`. -/
def installTemporaryMask : Process :=
  match p.sigsuspendSavedMaskFor tid with
  | none =>
    (p.setSigsuspendSavedMaskFor tid (some (p.blockedFor tid))).setBlockedFor tid
    (mask &&& ~~~ sigGuard)
  | some _ => p

/-- Suspend under a temporary mask; `syscalls.rs:7075-7097`. -/
def sysSigsuspend : Errno × Process :=
  let p := p.installTemporaryMask tid mask
  (if p.deliverableFor tid ≠ 0 then .EINTR else .EAGAIN, p)

/-- A call with a temporary mask installs it. -/
def enterWait : Option SigMask → Process
  | some mask => p.installTemporaryMask tid mask
  | none => p

/-- Wait under a temporary mask, `ppoll` and `pselect6`; `syscalls.rs:12968-13033`.
The wait itself does not touch signal state; `wait` is its outcome. -/
def sysPpoll (mask : Option SigMask) (wait : Except Errno Nat) : Except Errno Nat × Process :=
  let p := p.enterWait tid mask
  if mask.isSome ∧ p.deliverableFor tid ≠ 0 then (.error .EINTR, p)
  else
    match wait with
    | .error .EAGAIN => (wait, p)
    | _ => (wait, if p.deliverableFor tid = 0 then p.restoreSavedMask tid else p)

/-- Clear the mask of a fork child; `wasm_api.rs:1892-1902`. -/
def kernelResetSignalMask : Process :=
  { p with signals := { p.signals with blocked := 0 }, sigsuspendSavedMask := none }

/-! ### Timers -/

/-- Kernel signal number of a notification; `process.rs:513-523`. -/
def normalizePosixTimerSigno (notify : SigevNotify) (signo : Nat) : Except Errno Nat :=
  match notify with
  | .none => .ok 0
  | .signal | .threadId => if 1 ≤ signo ∧ signo ≤ 64 then .ok signo else .error .EINVAL
  | .other _ => .error .EINVAL

/-- Notification a guest asks for. -/
structure SigEvent where
  value : Int
  signo : Nat
  notify : SigevNotify
  tid : Nat

/-- Notification of a timer created without one: `SIGALRM`. -/
def SigEvent.default : SigEvent := ⟨0, 14, .signal, 0⟩

/-- Put a timer in the first free slot, or a new one. -/
def placeTimer (timers : List (Option PosixTimerState)) (timer : PosixTimerState) :
    Nat × List (Option PosixTimerState) :=
  match timers.findIdx? Option.isNone with
  | some i => (i, timers.set i (some timer))
  | none => (timers.length, timers ++ [some timer])

/-- Create a timer on a supported clock; `wasm_api.rs:9854-9935`. -/
def timerCreate (sevp : Option SigEvent) : Except Errno (Nat × Process) :=
  let ev := sevp.getD .default
  match normalizePosixTimerSigno ev.notify ev.signo with
  | .error e => .error e
  | .ok signo =>
    if ev.notify = .threadId ∧ !p.isLiveExplicitTid ev.tid then .error .EINVAL
    else
      let r := placeTimer p.posixTimers ⟨signo, ev.value, ev.notify, ev.tid, false, 0, 0⟩
      .ok (r.1, { p with posixTimers := r.2 })

/-- Queue one expiration; `wasm_api.rs:9953-9998`. -/
def queuePosixTimerFire : Except Errno Nat × Process :=
  match p.posixTimers[timerId]?.join with
  | none => (.error .EINVAL, p)
  | some timer =>
    if timer.sigevNotify = .none then (.error .EAGAIN, p)
    else if shouldDiscardPending timer.sigevSigno (p.signals.getHandler timer.sigevSigno) then
      (.error .EAGAIN, p)
    else if timer.notificationPending then
      (.error .EAGAIN, p.updateTimer timerId fun t =>
        { t with overrunCurrent := min (t.overrunCurrent + 1) i32Max })
    else
      let p := p.updateTimer timerId fun t => { t with notificationPending := true }
      match timer.sigevNotify with
      | .signal =>
        let q := (p.signals.raiseTimer timer.sigevSigno timer.sigevValue timerId).2
        (.ok 0, { p with signals := { p.signals with toPendingSet := q } })
      | .threadId =>
        let r := p.raiseTimerForThread timer.sigevTid timer.sigevSigno timer.sigevValue timerId
        if r.1 then (.ok timer.sigevTid, r.2)
        else (.error .ESRCH,
          r.2.updateTimer timerId fun t => { t with notificationPending := false })
      | _ => (.error .EINVAL, p)

/-- Purge a timer's notifications; `process.rs:1349-1358`. -/
def removePosixTimerNotification : Process :=
  let remove (t : PerThreadSignalState) : PerThreadSignalState :=
    { t with toPendingSet := (t.removeTimerInfo timerId).2 }
  { p with
    signals := { p.signals with toPendingSet := (p.signals.removeTimerInfo timerId).2 }
    mainThreadSignals := remove p.mainThreadSignals }.mapThreads remove

/-- Delete a timer; `wasm_api.rs:10122-10139`. -/
def timerDelete : Except Errno Process :=
  match p.posixTimers[timerId]?.join with
  | none => .error .EINVAL
  | some _ =>
    let p := p.removePosixTimerNotification timerId
    .ok { p with posixTimers := p.posixTimers.set timerId none }

/-- Interval hook of older hosts; `process.rs:1299-1316`. -/
def noteLegacyPosixTimerIntervalFire : Bool × Process :=
  match p.posixTimers[timerId]?.join with
  | none => (false, p)
  | some timer =>
    if timer.sigevSigno = 0 ∨ timer.sigevSigno ≥ nsig then (false, p)
    else
      let pending := decide (SigMask.Has p.signals.pending timer.sigevSigno)
      (pending, p.updateTimer timerId fun t =>
        { t with overrunLast := if pending then min (t.overrunLast + 1) i32Max else 0 })

/-! ### Threads and images -/

variable (callerTid : Nat)

/-- Create a worker with the caller's mask; `syscalls.rs:12952-12963`. -/
def sysClone : Nat × Process :=
  let r := p.allocTid
  let blocked := r.2.blockedFor callerTid
  (r.1, { r.2 with threads := r.2.threads ++ [⟨r.1, { PerThreadSignalState.new with blocked }⟩] })

/-- Replace the image in place; `syscalls.rs:713-790`. -/
def commitExecState : Except Errno Process :=
  if p.state = .exited ∨ p.state = .limbo then .error .ESRCH
  else
    let caller : Except Errno Process :=
      if p.isMainThread callerTid then .ok p
      else
        match p.getThread callerTid with
        | none => .error .ESRCH
        | some t =>
          .ok { p with
            signals := { p.signals with blocked := t.signals.blocked }
            mainThreadSignals := t.signals }
    caller.map fun p =>
      let p := { p with
        signals := p.signals.resetDispositionsForExec
        threads := []
        nextTid := 0
        sigsuspendSavedMask := none
        altStack := .disabled }
      let p := (List.range p.posixTimers.length).foldl removePosixTimerNotification p
      { p with posixTimers := [] }

/-- Longest directed queue a serialized image may carry; `fork.rs:53`. -/
def maxDirectedSignalQueue : Nat := 65536

variable (t : PerThreadSignalState)

/-- Write and read back a directed set; `fork.rs:242-292`. A timer id that does
not fit an `i32` cannot be read back, and the mask and saved mask are not written. -/
def roundTripDirected : Except Errno PerThreadSignalState :=
  if t.rtQueue.length > maxDirectedSignalQueue then .error .E2BIG
  else if t.rtQueue.any fun e =>
      decide (e.signum = 0 ∨ e.signum ≥ nsig ∨ ¬ SigMask.Has t.pending e.signum) then .error .EINVAL
  else if t.rtQueue.any fun e => e.timerId.any fun id => decide ((id : Int) > i32Max) then
    .error .EINVAL
  else .ok { PerThreadSignalState.new with pending := t.pending, rtQueue := t.rtQueue }

/-- Drop the notifications of the timers an image leaves behind;
`fork.rs:294-307`. -/
def discardLegacyExecTimerNotifications : PerThreadSignalState :=
  let signums := (t.rtQueue.filter fun e => e.timerId.isSome).map (·.signum)
  let kept : PendingSet :=
    { t.toPendingSet with rtQueue := t.rtQueue.filter fun e => e.timerId.isNone }
  { t with toPendingSet := signums.foldl PendingSet.clearBitIfDrained kept }

/-- Dispositions of a serialized image: only ignored signals below 64 are kept;
`fork.rs:1583-1596,1761-1768`. -/
def legacyHandlers (s : SignalState) (i : Nat) : SignalHandler :=
  if 0 < i ∧ i < 64 ∧ (s.actions i).handler = .ignore then .ignore else .default

/-- The process of a serialized image; `fork.rs:1557-1970`. -/
def legacyImage (main : PerThreadSignalState) : Process :=
  { Process.new p.pid p.uid with
    signals := .fromPartsWithPending (legacyHandlers p.signals) p.signals.blocked p.signals.pending
    mainThreadSignals := discardLegacyExecTimerNotifications main }

/-- Rebuild the process from a serialized image, in the state it is in;
`process_table.rs:816-831`. -/
def legacyExec : Except Errno Process :=
  (roundTripDirected p.mainThreadSignals).bind fun main =>
    if p.state = .exited ∨ p.state = .limbo then .error .ESRCH
    else .ok { p.legacyImage main with state := p.state }

/-- The child of a fork: dispositions and mask, nothing pending;
`fork.rs:1113,1503-1523`. -/
def forkChild (pid : Nat) : Process :=
  { Process.new pid p.uid with signals := .fromActions p.signals.actions p.signals.blocked }

/-- Install a handler where it is allowed, `let _ = set_handler(..)`. -/
def setHandlerIgnoringError (s : SignalState) (sig : Nat) (handler : SignalHandler) : SignalState :=
  match s.setHandler sig handler with
  | some r => r.2
  | none => s

/-- The child of a spawn; `process_table.rs:1065-1110`. -/
def spawnChild (pid : Nat) (sigmask : Option SigMask) (sigdef : Option SigMask) : Process :=
  let numbers := List.range' 1 64
  let ignored := numbers.filter fun sig => (p.signals.actions sig).handler = .ignore
  let base := ignored.foldl (setHandlerIgnoringError · · .ignore)
    { SignalState.new with blocked := p.signals.blocked }
  let masked := { base with blocked := sigmask.getD base.blocked }
  let defaulted := numbers.filter fun sig => decide (SigMask.Has (sigdef.getD 0) sig)
  { Process.new pid p.uid with
    signals := defaulted.foldl (setHandlerIgnoringError · · .default) masked }

end Process

end Kandelo.Kernel.Signal
