import Kandelo.Kernel.Signal.Delivery
import Kandelo.Kernel.Signal.Pending

/-!
# Masks and queues stay in step

Every signal operation of a process keeps all its pending sets sound with
respect to the process's own timers, and so does every run of operations. Timer creation,
deletion and exec change the timers themselves; all other operations are covered by one
invariant with the timers' signal numbers held fixed.
-/

namespace Kandelo.Kernel.Signal

open Lib PendingSet

variable {fuel handlerVal timerId tid sig : Nat} {p' : Process} {t : PerThreadSignalState}
  {f : PerThreadSignalState → PerThreadSignalState}

/-- All pending sets of the process are sound for the signal numbers `signo`, which are those of
its timers. -/
structure Process.Sound (signo : Nat → Option Nat) (p : Process) : Prop where
  shared : PendingSet.Sound signo p.signals.toPendingSet
  main : PendingSet.Sound signo p.mainThreadSignals.toPendingSet
  workers : ∀ t ∈ p.threads, PendingSet.Sound signo t.signals.toPendingSet
  timers : p.timerSigno = signo

lemma Process.legacyExec_ok {p : Process} (h : p.legacyExec = .ok p') :
    ∃ main, roundTripDirected p.mainThreadSignals = .ok main ∧
      p' = { p.legacyImage main with state := p.state } := by
  unfold legacyExec at h
  cases hmain : roundTripDirected p.mainThreadSignals with
  | error =>
    rw [hmain] at h
    cases h
  | ok main =>
    rw [hmain, Except.bind] at h
    dsimp only at h
    split at h
    · cases h
    · cases h
      exact ⟨main, rfl, rfl⟩

namespace Process.Sound

variable {signo : Nat → Option Nat} {p : Process} {s : SignalState}

/-! ### Building blocks -/

section

variable (h : Sound signo p)

include h

lemma setShared (hs : PendingSet.Sound signo s.toPendingSet) :
    Sound signo { p with signals := s } :=
  ⟨hs, h.main, h.workers, h.timers⟩

lemma setMain (ht : PendingSet.Sound signo t.toPendingSet) :
    Sound signo { p with mainThreadSignals := t } :=
  ⟨h.shared, ht, h.workers, h.timers⟩

lemma setState (state : ProcessState) : Sound signo { p with state } :=
  ⟨h.shared, h.main, h.workers, h.timers⟩

lemma setSavedMask (m : Option SigMask) : Sound signo { p with sigsuspendSavedMask := m } :=
  ⟨h.shared, h.main, h.workers, h.timers⟩

section

variable
  (hf : ∀ t, PendingSet.Sound signo t.toPendingSet → PendingSet.Sound signo (f t).toPendingSet)

include hf

lemma updateThread (tid : Nat) : Sound signo (p.updateThread tid f) := by
  obtain ⟨threads, heq, hthreads⟩ := p.updateThread_eq tid f
  rw [heq]
  refine ⟨h.shared, h.main, fun t ht => ?_, h.timers⟩
  rcases hthreads t ht with ht | ⟨u, hu, rfl⟩
  · exact h.workers t ht
  · exact hf _ (h.workers u hu)

lemma mapThreads : Sound signo (p.mapThreads f) := by
  refine ⟨h.shared, h.main, ?_, h.timers⟩
  intro x hx
  obtain ⟨t, ht, rfl⟩ := List.mem_map.mp hx
  exact hf _ (h.workers t ht)

lemma updateDirected (tid : Nat) : Sound signo (p.updateDirected tid f) := by
  unfold Process.updateDirected
  split
  · exact h.setMain (hf _ h.main)
  · exact h.updateThread hf tid

end

lemma updateTimer (timerId : Nat) {f : PosixTimerState → PosixTimerState}
    (hf : ∀ t, (f t).sigevSigno = t.sigevSigno) : Sound signo (p.updateTimer timerId f) := by
  refine ⟨h.shared, h.main, h.workers, ?_⟩
  rw [← h.timers]
  funext i
  unfold Process.timerSigno Process.updateTimer
  rw [List.getElem?_modify]
  by_cases hi : timerId = i
  · subst hi
    cases p.posixTimers[timerId]? with
    | none => simp
    | some slot => cases slot <;> simp [hf]
  · simp [hi]

end

/-! ### Masks -/

lemma masksKeep (tid : Nat) : MasksKeep tid (Sound signo) :=
  masksKeep_of (fun _ _ _ _ h => ⟨h.shared, h.main, h.workers, h.timers⟩)
    fun _ _ hf h => h.updateThread (fun t ht => (hf t).symm ▸ ht) tid

/-! ### Generation -/

lemma clearDirectedSignal (h : Sound signo p) (signum : Nat) :
    Sound signo (p.clearDirectedSignal signum) := by
  unfold Process.clearDirectedSignal
  apply mapThreads
  · exact h.setMain (h.main.clearPending signum)
  · exact fun _ ht => ht.clearPending signum

lemma clearShared (h : Sound signo p) (signum : Nat) : Sound signo (p.clearShared signum) :=
  h.setShared (h.shared.clearPending signum)

lemma clearSignalEverywhere (h : Sound signo p) (signum : Nat) :
    Sound signo (p.clearSignalEverywhere signum) :=
  (h.clearShared signum).clearDirectedSignal signum

lemma prepareSignalGeneration (h : Sound signo p) (signum : Nat) :
    Sound signo (p.prepareSignalGeneration signum) := by
  unfold Process.prepareSignalGeneration
  split
  · exact h
  split
  · have hclear : Sound signo (stopSignals.foldl Process.clearSignalEverywhere p) :=
      Fold.foldl_keeps (I := Sound signo) (fun _ _ _ hq => hq.clearSignalEverywhere _) h
    unfold recordContinue
    split
    · exact hclear
    · exact hclear.setState _
  · split
    · exact h.clearSignalEverywhere _
    · exact h

lemma shared_raiseInternal (h : PendingSet.Sound signo s.toPendingSet) {signum : Nat}
    {siValue siCode : Int} :
    PendingSet.Sound signo (s.raiseInternal signum siValue siCode).2.toPendingSet := by
  unfold SignalState.raiseInternal
  split
  · exact h
  next hs =>
  split
  · exact h
  · exact h.generate (by unfold Valid; omega) siValue siCode

lemma directed_raiseInternal (h : PendingSet.Sound signo t.toPendingSet) (signum : Nat)
    (siValue siCode : Int) :
    PendingSet.Sound signo (t.raiseInternal signum siValue siCode).2.toPendingSet := by
  unfold PerThreadSignalState.raiseInternal
  split
  · exact h
  · next hs => exact h.generate (by unfold Valid; unfold nsig at hs; omega) siValue siCode

section

variable (h : Sound signo p)

include h

lemma onShared_raiseInternal (signum : Nat) (siValue siCode : Int) :
    Sound signo (p.onShared (·.raiseInternal signum siValue siCode)).2 :=
  h.setShared (shared_raiseInternal h.shared)

lemma raiseDirected (tid signum : Nat)
    (raise : PerThreadSignalState → Bool × PerThreadSignalState)
    (hr : ∀ t, PendingSet.Sound signo t.toPendingSet →
      PendingSet.Sound signo (raise t).2.toPendingSet) :
    Sound signo (p.raiseDirected tid signum raise).2 := by
  have hp := h.prepareSignalGeneration signum
  unfold Process.raiseDirected
  dsimp only
  split
  · exact hp
  split
  · exact hp
  split
  · exact hp.updateDirected hr tid
  · exact hp

/-! ### Acceptance -/

lemma consumeSignalFor (tid signum : Nat) : Sound signo (p.consumeSignalFor tid signum).2 := by
  unfold Process.consumeSignalFor
  split
  · exact h.updateDirected (fun t ht => ht.consumePendingInfo signum) tid
  split
  · exact h.setShared (h.shared.consumePendingInfo signum)
  · exact h

lemma acceptPosixTimerNotification (timerId : Nat) :
    Sound signo (p.acceptPosixTimerNotification timerId).2 := by
  unfold Process.acceptPosixTimerNotification
  split
  · exact h
  split
  · exact h
  · exact h.updateTimer timerId fun _ => rfl

lemma sigInfoOf (signum : Nat) (info : PendingSignalInfo) :
    Sound signo (p.sigInfoOf signum info).2 := by
  unfold Process.sigInfoOf
  split
  · exact h.acceptPosixTimerNotification _
  · exact h

lemma dequeueSignalFor (tid signum : Nat) : Sound signo (p.dequeueSignalFor tid signum).2 := by
  unfold Process.dequeueSignalFor
  split
  · exact h.clearSignalEverywhere signum
  · exact (h.consumeSignalFor tid signum).sigInfoOf signum _

lemma applyDefaultSignalAction (signum : Nat) :
    Sound signo (p.applyDefaultSignalAction signum).2 := by
  have hterm : Sound signo p.terminateProcessBySignal := by
    have hq : Sound signo (p.mapThreads fun t => { t with sigsuspendSavedMask := none }) :=
      h.mapThreads fun _ ht => ht
    unfold terminateProcessBySignal recordExit
    dsimp only
    split
    · exact hq.setSavedMask none
    · exact (hq.setSavedMask none).setState _
  have hstop : Sound signo p.recordStop.2 := by
    unfold recordStop
    split
    · exact h
    · exact h.setState _
  unfold Process.applyDefaultSignalAction
  split
  · exact hterm
  · exact hterm
  · exact hstop
  · exact h
  · exact h

lemma deliverLoop (hrun : deliverLoop fuel tid p = some p') : Sound signo p' :=
  (consumed_of_deliverLoop hrun).rule (fun _ signum hq _ => hq.dequeueSignalFor tid signum)
    (fun _ signum hq => hq.applyDefaultSignalAction signum) h

lemma kernelDequeueSignal {out : Option DeliveredSignal}
    (hrun : kernelDequeueSignal fuel tid p = some (out, p')) : Sound signo p' :=
  kernelDequeueSignal_rule (masksKeep tid) (fun _ signum hq => hq.dequeueSignalFor tid signum)
    (fun _ signum hq => hq.applyDefaultSignalAction signum) hrun h

/-! ### Dispositions and timers -/

lemma discardPendingSignal (signum : Nat) : Sound signo (p.discardPendingSignal signum) :=
  Fold.foldl_keeps (I := Sound signo) (fun _ t _ hq => hq.acceptPosixTimerNotification t)
    (h.clearSignalEverywhere signum)

end

lemma shared_setAction {s' : SignalState} {sig : Nat} {action old : SignalAction}
    (hset : s.setAction sig action = some (old, s')) (h : PendingSet.Sound signo s.toPendingSet) :
    PendingSet.Sound signo s'.toPendingSet := by
  obtain ⟨-, rfl⟩ := setAction_ok hset
  split
  · exact h.clearPending sig
  · exact h

section

variable (h : Sound signo p)

include h

lemma installs (hrun : Installs sig p p') : Sound signo p' :=
  hrun.rule h (fun _ hq => hq.discardPendingSignal sig) (fun _ hq => hq.clearDirectedSignal sig)
    fun _ _ _ _ hset hq => hq.setShared (shared_setAction hset hq.shared)

lemma removePosixTimerNotification (timerId : Nat) :
    Sound signo (p.removePosixTimerNotification timerId) := by
  unfold Process.removePosixTimerNotification
  apply mapThreads
  · exact ⟨h.shared.removeTimerInfo timerId, h.main.removeTimerInfo timerId, h.workers, h.timers⟩
  · exact fun _ ht => ht.removeTimerInfo timerId

lemma queuePosixTimerFire (timerId : Nat) : Sound signo (p.queuePosixTimerFire timerId).2 := by
  unfold Process.queuePosixTimerFire
  split
  · exact h
  next timer htimer =>
  -- the expiration carries the number of the timer it names
  have hsigno : signo timerId = some timer.sigevSigno := by
    rw [← h.timers, timerSigno, htimer]
    rfl
  split
  · exact h
  split
  · exact h
  split
  · exact h.updateTimer timerId fun _ => rfl
  have hq : Sound signo (p.updateTimer timerId fun t => { t with notificationPending := true }) :=
    h.updateTimer timerId fun _ => rfl
  dsimp only
  split
  · exact hq.setShared (hq.shared.raiseTimer hsigno timer.sigevValue)
  · have hr := hq.raiseDirected timer.sigevTid timer.sigevSigno
      (fun t => ((t.raiseTimer timer.sigevSigno timer.sigevValue timerId).1,
        { t with toPendingSet := (t.raiseTimer timer.sigevSigno timer.sigevValue timerId).2 }))
      (fun t ht => ht.raiseTimer hsigno timer.sigevValue)
    split
    · exact hr
    · exact hr.updateTimer timerId fun _ => rfl
  · exact hq

lemma noteLegacyPosixTimerIntervalFire (timerId : Nat) :
    Sound signo (p.noteLegacyPosixTimerIntervalFire timerId).2 := by
  unfold Process.noteLegacyPosixTimerIntervalFire
  split
  · exact h
  split
  · exact h
  · exact h.updateTimer timerId fun _ => rfl

/-! ### Operations that change the timers -/

lemma retime {timers : List (Option PosixTimerState)}
    (hs : ∀ q ∈ p.queues, ∀ e ∈ q.rtQueue, ∀ t, e.timerId = some t →
      { p with posixTimers := timers }.timerSigno t = signo t) :
    Sound { p with posixTimers := timers }.timerSigno { p with posixTimers := timers } where
  shared := h.shared.of_signo (hs _ (by simp [queues]))
  main := h.main.of_signo (hs _ (by simp [queues]))
  workers t ht := (h.workers t ht).of_signo
    (hs _ (by simp only [queues, List.mem_cons, List.mem_map]; exact .inr (.inr ⟨t, ht, rfl⟩)))
  timers := rfl

lemma of_mem_queues {q : PendingSet} (hq : q ∈ p.queues) : PendingSet.Sound signo q := by
  simp only [queues, List.mem_cons, List.mem_map] at hq
  rcases hq with rfl | rfl | ⟨t, ht, rfl⟩
  · exact h.shared
  · exact h.main
  · exact h.workers t ht

lemma timerCreate {sevp : Option SigEvent} (hrun : p.timerCreate sevp = .ok (timerId, p')) :
    Sound p'.timerSigno p' := by
  unfold Process.timerCreate at hrun
  dsimp only at hrun
  split at hrun
  · cases hrun
  split at hrun
  · cases hrun
  cases hrun
  apply h.retime
  intro q hq e he t ht
  have howned := (h.of_mem_queues hq).owned e he t ht
  rw [howned]
  rw [← h.timers] at howned
  unfold timerSigno placeTimer at *
  split
  · next i hi =>
    obtain ⟨hlt, hnone, -⟩ := List.findIdx?_eq_some_iff_getElem.mp hi
    have hne : i ≠ t := by
      rintro rfl
      rw [List.getElem?_eq_getElem hlt, Option.isNone_iff_eq_none.mp hnone] at howned
      cases howned
    rw [List.getElem?_set_ne hne]
    exact howned
  · have hlt : t < p.posixTimers.length := by
      by_contra hge
      rw [List.getElem?_eq_none (by omega)] at howned
      cases howned
    rw [List.getElem?_append_left hlt]
    exact howned

end

lemma queues_removePosixTimerNotification (t : Nat) :
    (p.removePosixTimerNotification t).queues = p.queues.map fun q => (q.removeTimerInfo t).2 := by
  simp [Process.queues, Process.removePosixTimerNotification, Process.mapThreads]

/-- No queue has an instance of the timer. -/
def Forgotten (t : Nat) (p : Process) : Prop := ∀ q ∈ p.queues, ∀ e ∈ q.rtQueue, e.timerId ≠ some t

lemma forgotten_remove {t : Nat} : Forgotten t (p.removePosixTimerNotification t) := by
  intro q hq e he
  rw [queues_removePosixTimerNotification] at hq
  obtain ⟨q, -, rfl⟩ := List.mem_map.mp hq
  rw [rtQueue_removeTimerInfo] at he
  simpa using (List.mem_filter.mp he).2

lemma Forgotten.remove {t : Nat} (h : Forgotten t p) (t' : Nat) :
    Forgotten t (p.removePosixTimerNotification t') := by
  intro q hq e he
  rw [queues_removePosixTimerNotification] at hq
  obtain ⟨r, hr, rfl⟩ := List.mem_map.mp hq
  rw [rtQueue_removeTimerInfo] at he
  exact h r hr e (List.mem_filter.mp he).1

lemma timerDelete (h : Sound signo p)
    (hrun : p.timerDelete timerId = .ok p') : Sound p'.timerSigno p' := by
  unfold Process.timerDelete at hrun
  split at hrun
  · cases hrun
  cases hrun
  have hr := h.removePosixTimerNotification timerId
  apply hr.retime
  intro q hq e he t ht
  have hne : timerId ≠ t := by
    rintro rfl
    exact forgotten_remove q hq e he ht
  rw [← hr.timers]
  unfold timerSigno
  rw [List.getElem?_set_ne hne]

lemma commitExecState (h : Sound signo p)
    (hrun : p.commitExecState tid = .ok p') : Sound p'.timerSigno p' := by
  -- the image that is left once the timers' notifications are purged
  have hpurge : ∀ {q : Process}, Sound signo q → Sound
      { (List.range q.posixTimers.length).foldl Process.removePosixTimerNotification q with
        posixTimers := [] }.timerSigno
      { (List.range q.posixTimers.length).foldl Process.removePosixTimerNotification q with
        posixTimers := [] } := by
    intro q hq
    have hf : Sound signo
        ((List.range q.posixTimers.length).foldl Process.removePosixTimerNotification q) :=
      Fold.foldl_keeps (I := Sound signo) (fun _ t _ h => h.removePosixTimerNotification t) hq
    apply hf.retime
    intro s hs e he t ht
    -- an instance of a timer could only be that of a live one, and those were purged
    have howned := (hf.of_mem_queues hs).owned e he t ht
    have hlt : t < q.posixTimers.length := by
      by_contra hge
      rw [← hq.timers, timerSigno, List.getElem?_eq_none (by omega)] at howned
      cases howned
    have hgone : Forgotten t
        ((List.range q.posixTimers.length).foldl Process.removePosixTimerNotification q) :=
      Fold.foldl_reaches (I := fun _ => True) (fun _ _ _ => trivial) (fun _ t' h => h.remove t')
        (List.mem_range.mpr hlt) (fun _ _ => forgotten_remove) trivial
    exact absurd ht (hgone s hs e he)
  have himage : ∀ {q : Process}, Sound signo q → Sound signo { q with
      signals := q.signals.resetDispositionsForExec
      threads := []
      nextTid := 0
      sigsuspendSavedMask := none
      altStack := .disabled } :=
    fun hq => ⟨hq.shared, hq.main, by simp, hq.timers⟩
  unfold Process.commitExecState at hrun
  split at hrun
  · cases hrun
  split at hrun
  · cases hrun
    exact hpurge (himage h)
  split at hrun
  · cases hrun
  next t ht =>
  cases hrun
  have hmem : t ∈ p.threads := List.mem_of_find?_eq_some ht
  exact hpurge (himage ⟨h.shared, h.workers t hmem, h.workers, h.timers⟩)

/-! ### New processes -/

lemma fresh {pid uid : Nat} {state : ProcessState} {signals : SignalState}
    {main : PerThreadSignalState} (hs : PendingSet.Sound (fun _ => none) signals.toPendingSet)
    (hm : PendingSet.Sound (fun _ => none) main.toPendingSet) :
    Sound (fun _ => none) { new pid uid with state, signals, mainThreadSignals := main } :=
  ⟨hs, hm, by simp [new], rfl⟩

lemma roundTripDirected_ok {t' : PerThreadSignalState}
    (h : roundTripDirected t = .ok t') : t'.toPendingSet = t.toPendingSet := by
  unfold roundTripDirected at h
  split at h
  · cases h
  split at h
  · cases h
  split at h
  · cases h
  cases h
  rfl

lemma legacyExec (h : Sound signo p) (hrun : p.legacyExec = .ok p') : Sound (fun _ => none) p' := by
  obtain ⟨main, hmain, rfl⟩ := legacyExec_ok hrun
  apply fresh
  · exact sound_ofMask
  have hsync : PendingSet.Synced main.toPendingSet := by
    rw [roundTripDirected_ok hmain]
    exact h.main.toSynced
  exact hsync.discardTimers

lemma forkChild (pid : Nat) : Sound (fun _ => none) (p.forkChild pid) :=
  fresh sound_empty sound_empty

lemma spawnChild (pid : Nat) (sigmask sigdef : Option SigMask) :
    Sound (fun _ => none) (p.spawnChild pid sigmask sigdef) := by
  have hkeeps {s : SignalState} (hs : PendingSet.Sound (fun _ => none) s.toPendingSet) :=
    setHandlers_rule (J := fun s => PendingSet.Sound (fun _ => none) s.toPendingSet)
      (fun _ _ _ _ _ => shared_setAction) hs
  apply fresh
  · apply hkeeps
    exact hkeeps sound_empty _ _
  · exact sound_empty

lemma removeThread (h : Sound signo p) (tid : Nat) : Sound signo (p.removeThread tid) := by
  obtain ⟨threads, hsub, heq⟩ := p.removeThread_eq
  rw [heq]
  exact ⟨h.shared, h.main, fun t ht => h.workers t (hsub ht), h.timers⟩

lemma sysClone (h : Sound signo p) (tid : Nat) : Sound signo (p.sysClone tid).2 := by
  refine ⟨h.shared, h.main, ?_, h.timers⟩
  intro t ht
  rcases List.mem_append.mp ht with ht | ht
  · exact h.workers t ht
  · rw [List.mem_singleton.mp ht]
    exact sound_empty

end Process.Sound

namespace Process

/-! ### Runs -/

/-- The operations that touch a process's signal state. A delivery loop that returned is given
with the number of its iterations. -/
inductive Op
  | raise (signum : Nat)
  | raiseWithValue (signum : Nat) (siValue : Int)
  | raiseForThread (tid signum : Nat)
  | raiseForThreadWithValue (tid signum : Nat) (siValue : Int)
  /-- A kernel-internal `signals.raise`, such as `SIGPIPE`. -/
  | raiseShared (signum : Nat)
  /-- `signals.clear`, by a send that suppresses `SIGPIPE`. -/
  | clearShared (signum : Nat)
  | timerCreate (sevp : Option SigEvent)
  | timerFire (timerId : Nat)
  | timerIntervalFire (timerId : Nat)
  | timerDelete (timerId : Nat)
  | sigaction (sig handlerVal flags : Nat) (mask : SigMask)
  | signal (sig handlerVal : Nat)
  | sigprocmask (tid : Nat) (how : MaskHow) (set : SigMask)
  | sigsuspend (tid : Nat) (mask : SigMask)
  | ppoll (tid : Nat) (mask : Option SigMask) (wait : Except Errno Nat)
  | resetSignalMask
  | sigtimedwait (tid : Nat) (mask : SigMask)
  | consume (tid signum : Nat)
  | dequeueShared
  | dequeueDirected (tid : Nat)
  | deliver (fuel tid : Nat)
  | dequeueSignal (fuel tid : Nat)
  | clone (callerTid : Nat)
  | threadExit (tid : Nat)
  | exit
  | exec (callerTid : Nat)
  | legacyExec
  /-- Continue in the child of a fork. -/
  | forkChild (pid : Nat)
  /-- Continue in the child of a spawn. -/
  | spawnChild (pid : Nat) (sigmask sigdef : Option SigMask)

variable (p : Process)

/-- The state a successful operation leaves; a failed one changes nothing. -/
def okOr : Except Errno Process → Process
  | .ok p' => p'
  | .error _ => p

/-- One operation. There is no result when a delivery loop was cut off. -/
def step : Op → Option Process
  | .raise signum => some (p.raiseSignal signum).2
  | .raiseWithValue signum v => some (p.raiseSignalWithValue signum v).2
  | .raiseForThread tid signum => some (p.raiseForThread tid signum).2
  | .raiseForThreadWithValue tid signum v => some (p.raiseForThreadWithValue tid signum v).2
  | .raiseShared signum => some (p.onShared (·.raise signum)).2
  | .clearShared signum => some (p.clearShared signum)
  | .timerCreate sevp => some (p.okOr ((p.timerCreate sevp).map (·.2)))
  | .timerFire timerId => some (p.queuePosixTimerFire timerId).2
  | .timerIntervalFire timerId => some (p.noteLegacyPosixTimerIntervalFire timerId).2
  | .timerDelete timerId => some (p.okOr (p.timerDelete timerId))
  | .sigaction sig handlerVal flags mask => some (p.okOr (p.sysSigaction sig handlerVal flags mask))
  | .signal sig handlerVal => some (p.okOr (p.sysSignal sig handlerVal))
  | .sigprocmask tid how set => some (p.sysSigprocmask tid how set)
  | .sigsuspend tid mask => some (p.sysSigsuspend tid mask).2
  | .ppoll tid mask wait => some (p.sysPpoll tid mask wait).2
  | .resetSignalMask => some p.kernelResetSignalMask
  | .sigtimedwait tid mask => some (p.sysSigtimedwait tid mask).2
  | .consume tid signum => some (p.dequeueSignalFor tid signum).2
  | .dequeueShared => some (p.onShared (·.dequeue)).2
  | .dequeueDirected tid => some (p.updateDirected tid (·.dequeue.2))
  | .deliver fuel tid => deliverLoop fuel tid p
  | .dequeueSignal fuel tid => (kernelDequeueSignal fuel tid p).map (·.2)
  | .clone callerTid => some (p.sysClone callerTid).2
  | .threadExit tid => some (p.removeThread tid)
  | .exit => some p.recordExit
  | .exec callerTid => some (p.okOr (p.commitExecState callerTid))
  | .legacyExec => some (p.okOr p.legacyExec)
  | .forkChild pid => some (p.forkChild pid)
  | .spawnChild pid sigmask sigdef => some (p.spawnChild pid sigmask sigdef)

/-- States reached from a fresh process by any sequence of operations. -/
inductive Reachable : Process → Prop
  | new (pid uid : Nat) : Reachable (Process.new pid uid)
  | step {p p' : Process} (op : Op) : Reachable p → p.step op = some p' → Reachable p'

/-- Queued instances agree with the timers they are from. -/
def Consistent : Prop := Sound p.timerSigno p

variable {signo : Nat → Option Nat} {p : Process}

lemma Sound.consistent (h : Sound signo p) : p.Consistent := by
  unfold Consistent
  rw [h.timers]
  exact h

lemma okOr_rule {I : Process → Prop} {r : Except Errno Process} (hp : I p)
    (hr : ∀ q, r = .ok q → I q) : I (p.okOr r) := by
  cases r with
  | error => exact hp
  | ok q => exact hr q rfl

lemma shared_dequeue {s : SignalState} (h : PendingSet.Sound signo s.toPendingSet) :
    PendingSet.Sound signo s.dequeue.2.toPendingSet := by
  unfold SignalState.dequeue
  dsimp only
  split
  · exact h
  · exact h.consumePendingInfo _

lemma directed_dequeue (h : PendingSet.Sound signo t.toPendingSet) :
    PendingSet.Sound signo t.dequeue.2.toPendingSet := by
  have hone : ∀ s, PendingSet.Sound signo (t.consumeOne s).2.toPendingSet := by
    intro s
    unfold PerThreadSignalState.consumeOne
    split
    · exact h.consumePendingInfo s
    · exact h
  unfold PerThreadSignalState.dequeue
  dsimp only
  split
  · exact h
  split
  · exact h
  have := hone (lowestSignal (t.pending &&& ~~~ t.blocked))
  split <;> next heq => rw [heq] at this; exact this

lemma Consistent.step {op : Op} (h : p.Consistent) (hstep : p.step op = some p') :
    p'.Consistent := by
  cases op with try cases hstep
  | deliver => exact (Sound.deliverLoop h hstep).consistent
  | dequeueSignal =>
    obtain ⟨⟨out, q⟩, hrun, rfl⟩ := Option.map_eq_some_iff.mp hstep
    exact (Sound.kernelDequeueSignal h hrun).consistent
  | timerCreate sevp =>
    cases hc : p.timerCreate sevp with
    | error => exact h
    | ok => exact Sound.timerCreate h hc
  | timerDelete => exact okOr_rule h fun q hq => Sound.timerDelete h hq
  | exec => exact okOr_rule h fun q hq => Sound.commitExecState h hq
  | legacyExec => exact okOr_rule h fun q hq => (Sound.legacyExec h hq).consistent
  | sigaction =>
    exact okOr_rule h fun q hq => (Sound.installs h (installs_sysSigaction hq)).consistent
  | signal => exact okOr_rule h fun q hq => (Sound.installs h (installs_sysSignal hq)).consistent
  | forkChild pid => exact (Sound.forkChild pid).consistent
  | spawnChild pid sigmask sigdef => exact (Sound.spawnChild pid sigmask sigdef).consistent
  | raise signum | raiseWithValue signum _ =>
    exact ((Sound.prepareSignalGeneration h signum).onShared_raiseInternal signum _ _).consistent
  | raiseForThread tid signum | raiseForThreadWithValue tid signum _ =>
    exact (Sound.raiseDirected h tid signum _
      fun t ht => Sound.directed_raiseInternal ht signum _ _).consistent
  | raiseShared signum => exact (Sound.onShared_raiseInternal h signum 0 0).consistent
  | clearShared signum => exact (Sound.clearShared h signum).consistent
  | timerFire timerId => exact (Sound.queuePosixTimerFire h timerId).consistent
  | timerIntervalFire timerId => exact (Sound.noteLegacyPosixTimerIntervalFire h timerId).consistent
  | sigprocmask tid => exact ((Sound.masksKeep tid).blocked _ _ h).consistent
  | sigsuspend tid mask => exact ((Sound.masksKeep tid).installTemporaryMask h mask).consistent
  | ppoll tid mask wait => exact ((Sound.masksKeep tid).sysPpoll h mask wait).consistent
  | resetSignalMask =>
    have hq : Sound p.timerSigno p.kernelResetSignalMask := ⟨h.shared, h.main, h.workers, h.timers⟩
    exact hq.consistent
  | sigtimedwait tid mask =>
    exact (sysSigtimedwait_rule (I := Sound p.timerSigno) h (Sound.consumeSignalFor h tid)
      (fun _ signum info hq => hq.sigInfoOf signum info)).consistent
  | consume tid signum => exact (Sound.dequeueSignalFor h tid signum).consistent
  | dequeueShared => exact (Sound.setShared h (shared_dequeue h.shared)).consistent
  | dequeueDirected tid =>
    exact (Sound.updateDirected h (fun t ht => directed_dequeue ht) tid).consistent
  | clone tid => exact (Sound.sysClone h tid).consistent
  | threadExit tid => exact (Sound.removeThread h tid).consistent
  | exit =>
    unfold recordExit
    split
    · exact h
    · exact (Sound.setState h _).consistent

lemma Reachable.consistent (h : Reachable p) : p.Consistent := by
  induction h with
  | new => exact (Sound.fresh sound_empty sound_empty).consistent
  | step op _ hstep ih => exact ih.step hstep

/-- In every reachable state, in the shared set and in every thread's, a signal's bit is set exactly
when an instance of it is queued, a standard signal has at most one instance that no timer owns,
and every instance carries a signal number. -/
theorem queues_synced_of_reachable {p : Process} (h : Reachable p) {q : PendingSet}
    (hq : q ∈ p.queues) :
    (∀ s, 1 ≤ s → s ≤ 64 → (SigMask.Has q.pending s ↔ ∃ e ∈ q.rtQueue, e.signum = s)) ∧
    (∀ s, s < 32 → (q.rtQueue.filter fun e => e.signum = s && e.timerId.isNone).length ≤ 1) ∧
    ∀ e ∈ q.rtQueue, 1 ≤ e.signum ∧ e.signum ≤ 64 := by
  have hs := (h.consistent.of_mem_queues hq).toSynced
  refine ⟨fun s h1 h64 => hs.pending_iff s ⟨h1, h64⟩, fun s hlt => ?_, hs.valid⟩
  rw [← List.countP_eq_length_filter]
  exact hs.coalesced s hlt

/-- A timer's notification queued behind a `kill` of the same standard signal. -/
theorem queues_synced_timer_and_kill :
    ∃ p q, Reachable p ∧ q ∈ p.queues ∧
      q.rtQueue = [⟨10, 0, 0, none⟩, ⟨10, 7, -2, some 0⟩] ∧ SigMask.Has q.pending 10 := by
  have h0 := Reachable.new 5 0
  have h1 := Reachable.step (.raise 10) h0 rfl
  have h2 := Reachable.step (.timerCreate (some ⟨7, 10, .signal, 0⟩)) h1 rfl
  have h3 := Reachable.step (.timerFire 0) h2 rfl
  refine ⟨_, _, h3, List.mem_cons_self, by rfl, ?_⟩
  apply ((queues_synced_of_reachable h3 List.mem_cons_self).1 10 (by decide) (by decide)).mpr
  exact ⟨⟨10, 0, 0, none⟩, List.mem_cons_self, rfl⟩

/-! ### Runs under a condition -/

variable {ok : Process → Op → Prop} {I : Process → Prop} {p : Process}

/-- Signals that the kernel raises on its own; `crates/shared/src/lib.rs`. -/
def sigPipe : Nat := 13

/-- `SIGXFSZ`. -/
def sigXfsz : Nat := 25

/-- Operations as the kernel calls them: `signals.raise` only for `SIGPIPE`, `SIGXFSZ` and
`SIGWINCH`, `signals.clear` only for `SIGPIPE`, and `dequeue` of a pending set not at all. -/
def Op.Called : Op → Prop
  | .raiseShared signum => signum = sigPipe ∨ signum = sigXfsz ∨ signum = sigWinch
  | .clearShared signum => signum = sigPipe
  | .dequeueShared | .dequeueDirected _ => False
  | _ => True

/-- States reached from a fresh process by operations that each meet a condition on the state
before them. -/
inductive ReachedBy (ok : Process → Op → Prop) : Process → Prop
  | new (pid uid : Nat) : ReachedBy ok (Process.new pid uid)
  | step {p p' : Process} (op : Op) : ReachedBy ok p → ok p op →
      p.step op = some p' → ReachedBy ok p'

lemma ReachedBy.reachable (h : ReachedBy ok p) : Reachable p := by
  induction h with
  | new pid uid => exact .new pid uid
  | step op _ _ hstep ih => exact .step op ih hstep

lemma ReachedBy.rule (hnew : ∀ pid uid, I (Process.new pid uid))
    (hstep : ∀ p op p', Reachable p → I p → ok p op → p.step op = some p' → I p')
    (h : ReachedBy ok p) : I p := by
  induction h with
  | new pid uid => exact hnew pid uid
  | step op hp hok hop ih => exact hstep _ op _ hp.reachable ih hok hop

end Process

end Kandelo.Kernel.Signal
