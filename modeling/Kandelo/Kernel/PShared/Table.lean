import Kandelo.Kernel.Errno
import Mathlib.Logic.Function.Basic

/-!
# Primitives that processes share

The mutexes, condition variables and barriers of `crates/kernel/src/pshared.rs`,
which processes name by a number. A call that would block returns `EAGAIN` and is made again by the
host. Maps from numbers are functions, and a process is its number.
-/

namespace Kandelo.Kernel.PShared

/-- `PSharedMutex`; `pshared.rs:39-46`. The owner is 0 if there is none. -/
structure PSharedMutex where
  owner : Nat
  recursiveCount : Nat
  mtype : Nat

/-- `CondWaiter`; `pshared.rs:54-58`. -/
structure CondWaiter where
  pid : Nat
  mutexId : UInt32
  signaled : Bool
  deriving DecidableEq

/-- `BarrierWaiter`; `pshared.rs:66-74`. -/
structure BarrierWaiter where
  pid : Nat
  isSerial : Bool
  released : Bool

/-- `PSharedBarrier`; `pshared.rs:76-79`. -/
structure PSharedBarrier where
  count : UInt32
  waiters : List BarrierWaiter

/-- `PSharedTable`, with the waiters of each condition variable; `pshared.rs:88-93`. -/
structure PSharedTable where
  mutexes : UInt32 → Option PSharedMutex
  conds : UInt32 → Option (List CondWaiter)
  barriers : UInt32 → Option PSharedBarrier
  nextId : UInt32

/-- The type of a recursive mutex; `pshared.rs:29`. -/
def mutexTypeRecursive : Nat := 1

/-- The type of a mutex that checks for errors; `pshared.rs:30`. -/
def mutexTypeErrorcheck : Nat := 2

/-- `PTHREAD_BARRIER_SERIAL_THREAD`; `pshared.rs:35`. -/
def pthreadBarrierSerialThread : Int := -1

namespace PSharedTable

/-- `PSharedTable::new`; `pshared.rs:96-103`. -/
def new : PSharedTable := ⟨fun _ => none, fun _ => none, fun _ => none, 1⟩

variable (t : PSharedTable)

/-- `alloc_id`, which wraps and skips zero; `pshared.rs:105-113`. -/
def allocId : UInt32 × PSharedTable :=
  (t.nextId, { t with nextId := if t.nextId + 1 = 0 then 1 else t.nextId + 1 })

/-! ### Mutexes -/

variable (id : UInt32)

/-- The table with a mutex replaced. -/
def setMutex (m : PSharedMutex) : PSharedTable :=
  { t with mutexes := Function.update t.mutexes id (some m) }

/-- `mutex_init`; `pshared.rs:119-130`. -/
def mutexInit (mtype : Nat) : UInt32 × PSharedTable :=
  let (id, t) := t.allocId
  (id, t.setMutex id ⟨0, 0, mtype % 16⟩)

/-- `mutex_destroy`; `pshared.rs:132-139`. -/
def mutexDestroy : Except Errno Unit × PSharedTable :=
  match t.mutexes id with
  | none => (.error .EINVAL, t)
  | some m =>
    if m.owner ≠ 0 then (.error .EBUSY, t)
    else (.ok (), { t with mutexes := Function.update t.mutexes id none })

variable (pid : Nat)

/-- `mutex_trylock`; `pshared.rs:141-159`. -/
def mutexTrylock : Except Errno Unit × PSharedTable :=
  match t.mutexes id with
  | none => (.error .EINVAL, t)
  | some m =>
    if m.owner = 0 then (.ok (), t.setMutex id { m with owner := pid, recursiveCount := 0 })
    else if m.owner = pid then
      if m.mtype = mutexTypeRecursive then
        -- `saturating_add`
        (.ok (), t.setMutex id { m with recursiveCount := min (m.recursiveCount + 1) (2 ^ 32 - 1) })
      else if m.mtype = mutexTypeErrorcheck then (.error .EDEADLK, t)
      else (.error .EBUSY, t)
    else (.error .EBUSY, t)

/-- `mutex_lock`; `pshared.rs:162-168`. -/
def mutexLock : Except Errno Unit × PSharedTable :=
  match t.mutexTrylock id pid with
  | (.error .EBUSY, t) => (.error .EAGAIN, t)
  | r => r

/-- `mutex_unlock`; `pshared.rs:170-182`. -/
def mutexUnlock : Except Errno Unit × PSharedTable :=
  match t.mutexes id with
  | none => (.error .EINVAL, t)
  | some m =>
    if m.owner ≠ pid then (.error .EPERM, t)
    else if m.mtype = mutexTypeRecursive ∧ 0 < m.recursiveCount then
      (.ok (), t.setMutex id { m with recursiveCount := m.recursiveCount - 1 })
    else (.ok (), t.setMutex id { m with owner := 0, recursiveCount := 0 })

/-! ### Condition variables -/

/-- The table with the waiters of a condition replaced. -/
def setCond (waiters : List CondWaiter) : PSharedTable :=
  { t with conds := Function.update t.conds id (some waiters) }

/-- `cond_init`; `pshared.rs:188-197`. -/
def condInit : UInt32 × PSharedTable :=
  let (id, t) := t.allocId
  (id, t.setCond id [])

/-- `cond_destroy`; `pshared.rs:199-206`. -/
def condDestroy : Except Errno Unit × PSharedTable :=
  match t.conds id with
  | none => (.error .EINVAL, t)
  | some waiters =>
    if waiters ≠ [] then (.error .EBUSY, t)
    else (.ok (), { t with conds := Function.update t.conds id none })

variable (condId mutexId : UInt32)

/-- `cond_wait_begin`: the mutex is let go before the condition variable is looked up;
`pshared.rs:215-235`. -/
def condWaitBegin (pid : Nat) : Except Errno Unit × PSharedTable :=
  match t.mutexes mutexId with
  | none => (.error .EINVAL, t)
  | some m =>
    if m.owner ≠ pid then (.error .EPERM, t)
    else
      let t := t.setMutex mutexId { m with owner := 0, recursiveCount := 0 }
      match t.conds condId with
      | none => (.error .EINVAL, t)
      | some waiters =>
        if waiters.any (·.pid = pid) then (.ok (), t)
        else (.ok (), t.setCond condId (waiters ++ [⟨pid, mutexId, false⟩]))

/-- `cond_wait_check`; `pshared.rs:241-270`. -/
def condWaitCheck (pid : Nat) : Except Errno Unit × PSharedTable :=
  match t.conds condId with
  | none => (.error .EINVAL, t)
  | some waiters =>
    match waiters.find? (·.pid = pid) with
    | none => (.error .EINVAL, t)
    | some w =>
      if w.mutexId ≠ mutexId then (.error .EINVAL, t)
      else if !w.signaled then (.error .EAGAIN, t)
      else
        match t.mutexes mutexId with
        | none => (.error .EINVAL, t)
        | some m =>
          if m.owner ≠ 0 ∧ m.owner ≠ pid then (.error .EAGAIN, t)
          else
            (.ok (),
              (t.setMutex mutexId { m with owner := pid, recursiveCount := 0 }).setCond condId
              (waiters.eraseP (·.pid = pid)))

/-- `cond_wait_abort`; `pshared.rs:275-279`. -/
def condWaitAbort (pid : Nat) : PSharedTable :=
  match t.conds condId with
  | none => t
  | some waiters => t.setCond condId (waiters.filter (·.pid ≠ pid))

/-- Mark the first waiter that is not marked, and say which it was. -/
def signalFirst : List CondWaiter → Option Nat × List CondWaiter
  | [] => (none, [])
  | w :: ws =>
    if w.signaled then
      let (marked, ws) := signalFirst ws
      (marked, w :: ws)
    else (some w.pid, { w with signaled := true } :: ws)

/-- `cond_signal`; `pshared.rs:284-293`. -/
def condSignal : Except Errno Nat × PSharedTable :=
  match t.conds condId with
  | none => (.error .EINVAL, t)
  | some waiters =>
    (.ok ((signalFirst waiters).1.getD 0), t.setCond condId (signalFirst waiters).2)

/-- `cond_broadcast`; `pshared.rs:296-306`. -/
def condBroadcast : Except Errno Nat × PSharedTable :=
  match t.conds condId with
  | none => (.error .EINVAL, t)
  | some waiters =>
    (.ok (waiters.countP (!·.signaled)),
      t.setCond condId (waiters.map fun w => { w with signaled := true }))

/-! ### Barriers -/

variable (b : PSharedBarrier)

/-- The table with a barrier replaced. -/
def setBarrier : PSharedTable :=
  { t with barriers := Function.update t.barriers id (some b) }

/-- `barrier_init`; `pshared.rs:312-325`. -/
def barrierInit (count : UInt32) : Except Errno UInt32 × PSharedTable :=
  if count = 0 then (.error .EINVAL, t)
  else
    let (id, t) := t.allocId
    (.ok id, t.setBarrier id ⟨count, []⟩)

/-- `barrier_destroy`; `pshared.rs:327-334`. -/
def barrierDestroy : Except Errno Unit × PSharedTable :=
  match t.barriers id with
  | none => (.error .EINVAL, t)
  | some b =>
    if b.waiters ≠ [] then (.error .EBUSY, t)
    else (.ok (), { t with barriers := Function.update t.barriers id none })

/-- A barrier when a process that is not waiting arrives; `pshared.rs:356-376`. -/
def arrive (pid : Nat) : Except Errno Int × PSharedBarrier :=
  if UInt32.ofNat (b.waiters.length + 1) = b.count then
    -- the last arrival is marked serial, and its entry is consumed at once
    (.ok pthreadBarrierSerialThread,
      { b with waiters := b.waiters.map fun w => { w with released := true } })
  else (.error .EAGAIN, { b with waiters := b.waiters ++ [⟨pid, false, false⟩] })

/-- A barrier when a process calls, again or for the first time; `pshared.rs:340-376`. -/
def call (pid : Nat) : Except Errno Int × PSharedBarrier :=
  match b.waiters.find? (·.pid = pid) with
  | some w =>
    if w.released then
      (.ok (if w.isSerial then pthreadBarrierSerialThread else 0),
        { b with waiters := b.waiters.eraseP (·.pid = pid) })
    else (.error .EAGAIN, b)
  | none => arrive b pid

/-- `barrier_wait`; `pshared.rs:340-377`. -/
def barrierWait : Except Errno Int × PSharedTable :=
  match t.barriers id with
  | none => (.error .EINVAL, t)
  | some b => ((call b pid).1, t.setBarrier id (call b pid).2)

/-! ### Cleanup -/

/-- `cleanup_process`; `pshared.rs:385-401`. -/
def cleanupProcess : PSharedTable :=
  { t with
    mutexes := fun id => (t.mutexes id).map fun m =>
      if m.owner = pid then { m with owner := 0, recursiveCount := 0 } else m
    conds := fun id => (t.conds id).map fun waiters => waiters.filter (·.pid ≠ pid)
    barriers := fun id => (t.barriers id).map fun b =>
      { b with waiters := b.waiters.filter (·.pid ≠ pid) } }

end PSharedTable

end Kandelo.Kernel.PShared
