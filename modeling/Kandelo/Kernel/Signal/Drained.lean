import Kandelo.Kernel.Signal.Sync

/-!
# What signals leave alone

Generating, accepting and discarding signals changes what is pending, the timers
and the state of the process; dispositions, masks and threads stay as they are. Everything that
stays is the process with nothing pending.
-/

namespace Kandelo.Kernel.Signal

open Lib

variable {f : PerThreadSignalState → PerThreadSignalState} (t : PerThreadSignalState)

/-- The state without its pending signals. -/
def PerThreadSignalState.drained : PerThreadSignalState :=
  { t with toPendingSet := .empty }

namespace Process

/-- The process with nothing pending, without timers, and running. -/
def drained (p : Process) : Process :=
  { p with
    state := .running
    signals := { p.signals with toPendingSet := .empty }
    mainThreadSignals := p.mainThreadSignals.drained
    threads := p.threads.map fun t => { t with signals := t.signals.drained }
    posixTimers := [] }

variable {p p' : Process}

/-! ### What can be read off -/

lemma actions_of_drained (h : p'.drained = p.drained) : p'.signals.actions = p.signals.actions :=
  congrArg (fun q => q.signals.actions) h

/-! ### Building blocks -/

variable (tid : Nat)

@[simp] lemma drained_setTimers (posixTimers : List (Option PosixTimerState)) :
    { p with posixTimers }.drained = p.drained := rfl

lemma drained_mapThreads (hf : ∀ t, (f t).drained = t.drained) :
    (p.mapThreads f).drained = p.drained := by
  simp [mapThreads, drained, hf]

lemma drained_updateThread (hf : ∀ t, (f t).drained = t.drained) :
    (p.updateThread tid f).drained = p.drained := by
  unfold updateThread
  split
  · next threads hthreads =>
    obtain ⟨before, t, after, hp, -, rfl⟩ := Slice.modifyFirst_eq_some hthreads
    simp [drained, hp, hf]
  · rfl

lemma drained_updateDirected (hf : ∀ t, (f t).drained = t.drained) :
    (p.updateDirected tid f).drained = p.drained := by
  unfold updateDirected
  split
  · simp [drained, hf]
  · exact drained_updateThread tid hf

variable (timerId : Nat)

@[simp] lemma drained_updateTimer (f : PosixTimerState → PosixTimerState) :
    (p.updateTimer timerId f).drained = p.drained := rfl

/-! ### Generation -/

variable (signum : Nat)

@[simp] lemma drained_clearDirectedSignal : (p.clearDirectedSignal signum).drained = p.drained := by
  unfold clearDirectedSignal
  exact drained_mapThreads fun _ => rfl

@[simp] lemma drained_clearShared : (p.clearShared signum).drained = p.drained := rfl

@[simp] lemma drained_clearSignalEverywhere :
    (p.clearSignalEverywhere signum).drained = p.drained := by
  rw [clearSignalEverywhere, drained_clearDirectedSignal, drained_clearShared]

@[simp] lemma drained_recordContinue : p.recordContinue.drained = p.drained := by
  unfold recordContinue
  split <;> rfl

@[simp] lemma drained_recordStop : p.recordStop.2.drained = p.drained := by
  unfold recordStop
  split <;> rfl

@[simp] lemma drained_recordExit : p.recordExit.drained = p.drained := by
  unfold recordExit
  split <;> rfl

@[simp] lemma drained_prepareSignalGeneration :
    (p.prepareSignalGeneration signum).drained = p.drained := by
  unfold prepareSignalGeneration
  split
  · rfl
  split
  · simp [stopSignals]
  split
  · exact drained_clearSignalEverywhere _
  · rfl

lemma drained_onShared {β : Type} {f : SignalState → β × SignalState}
    (hf : ∀ s, ∃ q, (f s).2 = { s with toPendingSet := q }) :
    (p.onShared f).2.drained = p.drained := by
  obtain ⟨q, hq⟩ := hf p.signals
  simp only [onShared, hq]
  rfl

variable (s : SignalState)

lemma raiseInternal_eq (signum : Nat) (siValue siCode : Int) :
    ∃ q, (s.raiseInternal signum siValue siCode).2 = { s with toPendingSet := q } := by
  unfold SignalState.raiseInternal
  split
  · exact ⟨s.toPendingSet, rfl⟩
  split
  · exact ⟨s.toPendingSet, rfl⟩
  · exact ⟨_, rfl⟩

lemma drained_raiseInternal (signum : Nat) (siValue siCode : Int) :
    (t.raiseInternal signum siValue siCode).2.drained = t.drained := by
  unfold PerThreadSignalState.raiseInternal
  split <;> rfl

lemma drained_raiseDirected (signum : Nat)
    {raise : PerThreadSignalState → Bool × PerThreadSignalState}
    (hr : ∀ t, (raise t).2.drained = t.drained) :
    (p.raiseDirected tid signum raise).2.drained = p.drained := by
  unfold raiseDirected
  dsimp only
  split
  · exact drained_prepareSignalGeneration signum
  split
  · exact drained_prepareSignalGeneration signum
  split
  · exact (drained_updateDirected tid hr).trans (drained_prepareSignalGeneration signum)
  · exact drained_prepareSignalGeneration signum

/-! ### Acceptance -/

lemma dequeue_eq : ∃ q, s.dequeue.2 = { s with toPendingSet := q } := by
  unfold SignalState.dequeue
  dsimp only
  split
  · exact ⟨s.toPendingSet, rfl⟩
  · exact ⟨_, rfl⟩

lemma drained_dequeue : t.dequeue.2.drained = t.drained := by
  have hone : ∀ signum, (t.consumeOne signum).2.drained = t.drained := by
    intro signum
    unfold PerThreadSignalState.consumeOne
    split <;> rfl
  unfold PerThreadSignalState.dequeue
  dsimp only
  split
  · rfl
  split
  · rfl
  · have := hone (lowestSignal (t.pending &&& ~~~ t.blocked))
    split <;> next heq => rw [heq] at this; exact this

@[simp] lemma drained_consumeSignalFor (signum : Nat) :
    (p.consumeSignalFor tid signum).2.drained = p.drained := by
  unfold consumeSignalFor
  split
  · exact drained_updateDirected tid fun _ => rfl
  · split <;> rfl

@[simp] lemma drained_acceptPosixTimerNotification :
    (p.acceptPosixTimerNotification timerId).2.drained = p.drained := by
  unfold acceptPosixTimerNotification
  split
  · rfl
  · split <;> rfl

@[simp] lemma drained_sigInfoOf (info : PendingSignalInfo) :
    (p.sigInfoOf signum info).2.drained = p.drained := by
  unfold sigInfoOf
  split
  · exact drained_acceptPosixTimerNotification _
  · rfl

@[simp] lemma drained_dequeueSignalFor (signum : Nat) :
    (p.dequeueSignalFor tid signum).2.drained = p.drained := by
  unfold dequeueSignalFor
  split
  · exact drained_clearSignalEverywhere signum
  · rw [drained_sigInfoOf, drained_consumeSignalFor]

@[simp] lemma drained_discardPendingSignal : (p.discardPendingSignal signum).drained = p.drained :=
  Fold.foldl_keeps (I := fun q : Process => q.drained = p.drained)
    (fun _ t _ hq => (drained_acceptPosixTimerNotification t).trans hq)
    (drained_clearSignalEverywhere signum)

/-! ### Timers -/

@[simp] lemma drained_queuePosixTimerFire :
    (p.queuePosixTimerFire timerId).2.drained = p.drained := by
  have hraise : ∀ (p : Process) (tid signum : Nat) (v : Int),
      (p.raiseTimerForThread tid signum v timerId).2.drained = p.drained :=
    fun p tid signum v => drained_raiseDirected tid signum fun _ => rfl
  unfold queuePosixTimerFire
  split
  · rfl
  split
  · rfl
  split
  · rfl
  split
  · rfl
  dsimp only
  split
  · rfl
  · split
    · rw [hraise, drained_updateTimer]
    · rw [drained_updateTimer, hraise, drained_updateTimer]
  · rfl

@[simp] lemma drained_noteLegacyPosixTimerIntervalFire :
    (p.noteLegacyPosixTimerIntervalFire timerId).2.drained = p.drained := by
  unfold noteLegacyPosixTimerIntervalFire
  split
  · rfl
  · split <;> rfl

@[simp] lemma drained_removePosixTimerNotification :
    (p.removePosixTimerNotification timerId).drained = p.drained := by
  unfold removePosixTimerNotification
  exact drained_mapThreads fun _ => rfl

lemma drained_timerDelete {timerId : Nat} (h : p.timerDelete timerId = .ok p') :
    p'.drained = p.drained := by
  unfold timerDelete at h
  split at h
  · cases h
  · cases h
    rw [drained_setTimers, drained_removePosixTimerNotification]

/-! ### Images -/

/-- The thread that calls `exec` becomes the main thread. -/
def asMain (p : Process) (t : PerThreadSignalState) : Process :=
  { p with
    signals := { p.signals with blocked := t.blocked }
    mainThreadSignals := t }

/-- The process once `exec` has left everything of the old image but its timers. -/
def newImage (p : Process) : Process :=
  { p with
    signals := p.signals.resetDispositionsForExec
    threads := []
    nextTid := 0
    sigsuspendSavedMask := none
    altStack := .disabled }

/-- All timers are deleted. -/
def dropTimers (p : Process) : Process :=
  { (List.range p.posixTimers.length).foldl removePosixTimerNotification p with posixTimers := [] }

lemma commitExecState_ok {tid : Nat} (h : p.commitExecState tid = .ok p') :
    ∃ q, (q = p ∨ ∃ t ∈ p.threads, q = p.asMain t.signals) ∧ p' = q.newImage.dropTimers := by
  unfold commitExecState at h
  split at h
  · cases h
  dsimp only at h
  split at h
  · cases h
    exact ⟨p, .inl rfl, rfl⟩
  split at h
  · cases h
  next t ht =>
  cases h
  exact ⟨_, .inr ⟨t, List.mem_of_find?_eq_some ht, rfl⟩, rfl⟩

@[simp] lemma drained_dropTimers : p.dropTimers.drained = p.drained :=
  Fold.foldl_keeps (I := fun q : Process => q.drained = p.drained)
    (fun _ t _ hq => (drained_removePosixTimerNotification t).trans hq) rfl

/-! ### Delivery -/

lemma drained_applyDefaultSignalAction :
    (p.applyDefaultSignalAction signum).2.drained = p.drained ∨
      (p.applyDefaultSignalAction signum).2 = p.terminateProcessBySignal := by
  unfold applyDefaultSignalAction
  split
  · exact .inr rfl
  · exact .inr rfl
  · exact .inl drained_recordStop
  · exact .inl rfl
  · exact .inl rfl

/-! ### Operations -/

/-- Operations that touch nothing but what is pending, the timers and the state. -/
def Op.onlySignals : Op → Bool
  | .raise _ | .raiseWithValue .. | .raiseForThread ..
  | .raiseForThreadWithValue .. | .raiseShared _
  | .clearShared _ | .timerCreate _ | .timerFire _ | .timerIntervalFire _ | .timerDelete _
  | .sigtimedwait .. | .consume .. | .dequeueShared | .dequeueDirected _ | .exit => true
  | _ => false

lemma drained_step {op : Op} (hop : op.onlySignals = true) (h : p.step op = some p') :
    p'.drained = p.drained := by
  unfold Process.step at h
  cases op with try cases h
  | raise signum =>
    exact (drained_onShared fun s => raiseInternal_eq s signum 0 0).trans
      (drained_prepareSignalGeneration signum)
  | raiseWithValue signum v =>
    exact (drained_onShared fun s => raiseInternal_eq s signum v (-1)).trans
      (drained_prepareSignalGeneration signum)
  | raiseForThread tid signum =>
    exact drained_raiseDirected tid signum fun t => drained_raiseInternal t signum 0 0
  | raiseForThreadWithValue tid signum v =>
    exact drained_raiseDirected tid signum fun t => drained_raiseInternal t signum v (-1)
  | raiseShared signum => exact drained_onShared fun s => raiseInternal_eq s signum 0 0
  | clearShared => rfl
  | timerCreate sevp =>
    cases hc : p.timerCreate sevp with
    | error => rfl
    | ok =>
      unfold timerCreate at hc
      dsimp only at hc
      split at hc
      · cases hc
      split at hc <;> cases hc
      rfl
  | timerFire timerId => exact drained_queuePosixTimerFire timerId
  | timerIntervalFire timerId => exact drained_noteLegacyPosixTimerIntervalFire timerId
  | timerDelete =>
    exact okOr_rule (I := fun q => q.drained = p.drained) rfl fun q hq => drained_timerDelete hq
  | sigtimedwait tid mask =>
    exact sysSigtimedwait_rule (I := fun q => q.drained = p.drained) rfl
      (drained_consumeSignalFor tid)
      (fun _ signum info hq => (drained_sigInfoOf signum info).trans hq)
  | consume tid signum => exact drained_dequeueSignalFor tid signum
  | dequeueShared => exact drained_onShared dequeue_eq
  | dequeueDirected tid => exact drained_updateDirected tid drained_dequeue
  | exit => exact drained_recordExit
  | _ => cases hop

end Process

end Kandelo.Kernel.Signal
