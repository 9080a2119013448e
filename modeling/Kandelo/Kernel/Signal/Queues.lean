import Kandelo.Kernel.Signal.Drained

/-!
# Queues that only get shorter

Apart from generation no operation queues a signal: every instance of a queue
afterwards was in a queue before. Generation adds instances of one signal.
-/

namespace Kandelo.Kernel.Signal

open Lib List PendingSet

namespace Process

variable {signum tid sig : Nat} {f : PerThreadSignalState → PerThreadSignalState}
  {p p' p'' : Process} {q : PendingSet}

/-- An instance of the signal waits in some queue. -/
def Queued (p : Process) (signum : Nat) : Prop := ∃ q ∈ p.queues, q.queued signum = true

/-- The queues of the threads. -/
def directedQueues (p : Process) : List PendingSet :=
  p.mainThreadSignals.toPendingSet :: p.threads.map (·.signals.toPendingSet)

lemma mem_queues : q ∈ p.queues ↔ q = p.signals.toPendingSet ∨ q ∈ p.directedQueues := mem_cons

/-- Every instance was there before: a shared one in the shared set, a directed one in some
thread's. -/
structure Fewer (p p' : Process) : Prop where
  shared : p'.signals.rtQueue ⊆ p.signals.rtQueue
  directed : ∀ q' ∈ p'.directedQueues, ∃ q ∈ p.directedQueues, q'.rtQueue ⊆ q.rtQueue

lemma fewer_refl (p : Process) : Fewer p p :=
  ⟨List.Subset.refl _, fun q hq => ⟨q, hq, List.Subset.refl _⟩⟩

lemma Fewer.trans (h : Fewer p p') (h' : Fewer p' p'') : Fewer p p'' := by
  refine ⟨List.Subset.trans h'.shared h.shared, ?_⟩
  intro q'' hq''
  obtain ⟨q', hq', hsub'⟩ := h'.directed q'' hq''
  obtain ⟨q, hq, hsub⟩ := h.directed q' hq'
  exact ⟨q, hq, List.Subset.trans hsub' hsub⟩

lemma Fewer.exists_queue (h : Fewer p p') {q' : PendingSet} (hq' : q' ∈ p'.queues) :
    ∃ q ∈ p.queues, q'.rtQueue ⊆ q.rtQueue := by
  rcases mem_queues.mp hq' with rfl | hq'
  · exact ⟨_, mem_queues.mpr (.inl rfl), h.shared⟩
  · obtain ⟨q, hq, hsub⟩ := h.directed q' hq'
    exact ⟨q, mem_queues.mpr (.inr hq), hsub⟩

lemma Fewer.queued (h : Fewer p p') (hs : p'.Queued signum) : p.Queued signum := by
  obtain ⟨q', hq', hs'⟩ := hs
  obtain ⟨q, hq, hsub⟩ := h.exists_queue hq'
  obtain ⟨e, he, hes⟩ := queued_iff.mp hs'
  exact ⟨q, hq, queued_iff.mpr ⟨e, hsub he, hes⟩⟩

lemma fewer_of_queues (h : p'.queues = p.queues) : Fewer p p' := by
  obtain ⟨hshared, hdirected⟩ := cons.inj h
  refine ⟨fun e he => ?_, fun q hq => ⟨q, ?_, List.Subset.refl _⟩⟩
  · rw [← hshared]
    exact he
  · change q ∈ _ :: _
    rw [← hdirected]
    exact hq

/-! ### Building blocks -/

lemma fewer_of (hshared : p'.signals.rtQueue ⊆ p.signals.rtQueue)
    (hmain : p'.mainThreadSignals.rtQueue ⊆ p.mainThreadSignals.rtQueue)
    (hworkers : ∀ t' ∈ p'.threads, ∃ t ∈ p.threads, t'.signals.rtQueue ⊆ t.signals.rtQueue) :
    Fewer p p' := by
  refine ⟨hshared, ?_⟩
  intro q hq
  simp only [directedQueues, mem_cons, mem_map] at hq
  rcases hq with rfl | ⟨t', ht', rfl⟩
  · exact ⟨_, mem_cons_self, hmain⟩
  · obtain ⟨t, ht, hsub⟩ := hworkers t' ht'
    exact ⟨t.signals.toPendingSet, mem_cons_of_mem _ (mem_map_of_mem ht), hsub⟩

lemma workers_refl : ∀ t' ∈ p.threads, ∃ t ∈ p.threads, t'.signals.rtQueue ⊆ t.signals.rtQueue :=
  fun t ht => ⟨t, ht, List.Subset.refl _⟩

lemma fewer_setPending (h : q.rtQueue ⊆ p.signals.rtQueue) :
    Fewer p { p with signals := { p.signals with toPendingSet := q } } :=
  fewer_of h (List.Subset.refl _) workers_refl

lemma fewer_mapThreads (hf : ∀ t, (f t).rtQueue ⊆ t.rtQueue) : Fewer p (p.mapThreads f) := by
  refine fewer_of (fun _ h => h) (fun _ h => h) ?_
  intro t' ht'
  obtain ⟨t, ht, rfl⟩ := mem_map.mp ht'
  exact ⟨t, ht, hf t.signals⟩

variable (tid)

lemma fewer_updateThread (hf : ∀ t, (f t).rtQueue ⊆ t.rtQueue) :
    Fewer p (p.updateThread tid f) := by
  obtain ⟨threads, heq, hthreads⟩ := updateThread_eq p tid f
  rw [heq]
  refine fewer_of (fun _ h => h) (fun _ h => h) fun t ht => ?_
  rcases hthreads t ht with ht | ⟨u, hu, rfl⟩
  · exact ⟨t, ht, List.Subset.refl _⟩
  · exact ⟨u, hu, hf u.signals⟩

/-! ### Masks -/

lemma masksKeep_fewer : MasksKeep tid (Fewer p) :=
  masksKeep_of (fun _ _ _ _ h => h.trans (fewer_of_queues rfl))
    fun _ _ hf h => h.trans (fewer_updateThread tid fun t => by rw [hf t]; exact List.Subset.refl _)

/-! ### Discarding -/

lemma clearPending_subset : (q.clearPending signum).rtQueue ⊆ q.rtQueue := by
  unfold clearPending
  split
  · exact filter_subset_self _
  · exact List.Subset.refl _

lemma fewer_clearDirectedSignal : Fewer p (p.clearDirectedSignal signum) := by
  unfold clearDirectedSignal
  refine Fewer.trans ?_ (fewer_mapThreads fun t => clearPending_subset)
  exact fewer_of (List.Subset.refl _) clearPending_subset workers_refl

lemma fewer_clearShared : Fewer p (p.clearShared signum) := fewer_setPending clearPending_subset

lemma fewer_clearSignalEverywhere (signum : Nat) : Fewer p (p.clearSignalEverywhere signum) :=
  fewer_clearShared.trans fewer_clearDirectedSignal

lemma not_queued_clearPending (q : PendingSet) (h : Valid signum) :
    (q.clearPending signum).queued signum = false := by
  unfold Valid at h
  unfold clearPending nsig
  rw [if_pos (by omega)]
  simp [queued]

lemma not_queued_clearSignalEverywhere (h : Valid signum) :
    ¬ (p.clearSignalEverywhere signum).Queued signum := by
  rintro ⟨q, hq, hqs⟩
  have hclear : ∃ q0 : PendingSet, q = q0.clearPending signum := by
    simp only [clearSignalEverywhere, clearDirectedSignal, mapThreads, queues,
      mem_cons, map_map, mem_map] at hq
    rcases hq with rfl | rfl | ⟨t, -, rfl⟩
    · exact ⟨_, rfl⟩
    · exact ⟨_, rfl⟩
    · exact ⟨_, rfl⟩
  obtain ⟨q0, rfl⟩ := hclear
  rw [not_queued_clearPending q0 h] at hqs
  cases hqs

/-! ### Acceptance -/

lemma consumePendingInfo_subset (q : PendingSet) (signum : Nat) :
    (q.consumePendingInfo signum).2.rtQueue ⊆ q.rtQueue := by
  unfold consumePendingInfo
  split
  · exact List.Subset.refl _
  · rw [rtQueue_clearBitIfDrained]
    exact eraseP_subset

lemma fewer_consumeSignalFor (signum : Nat) : Fewer p (p.consumeSignalFor tid signum).2 := by
  unfold consumeSignalFor
  split
  · dsimp only [updateDirected]
    have hsub (t : PendingSet) := consumePendingInfo_subset t signum
    split
    · exact fewer_of (List.Subset.refl _) (hsub _) workers_refl
    · exact fewer_updateThread tid fun t => hsub _
  split
  · exact fewer_setPending (consumePendingInfo_subset _ signum)
  · exact fewer_refl p

variable (timerId : Nat)

lemma queues_acceptPosixTimerNotification :
    (p.acceptPosixTimerNotification timerId).2.queues = p.queues := by
  unfold acceptPosixTimerNotification
  split
  · rfl
  · split <;> rfl

variable (signum)

lemma fewer_sigInfoOf (info : PendingSignalInfo) : Fewer p (p.sigInfoOf signum info).2 := by
  unfold sigInfoOf
  split
  · exact fewer_of_queues (queues_acceptPosixTimerNotification _)
  · exact fewer_refl p

lemma fewer_dequeueSignalFor (signum : Nat) : Fewer p (p.dequeueSignalFor tid signum).2 := by
  unfold dequeueSignalFor
  split
  · exact fewer_clearSignalEverywhere signum
  · exact (fewer_consumeSignalFor tid signum).trans (fewer_sigInfoOf signum _)

lemma fewer_discardPendingSignal : Fewer p (p.discardPendingSignal signum) := by
  refine Fold.foldl_keeps (I := Fewer p) ?_ (fewer_clearSignalEverywhere signum)
  intro q id _ hq
  exact hq.trans (fewer_of_queues (queues_acceptPosixTimerNotification id))

lemma fewer_terminateProcessBySignal : Fewer p p.terminateProcessBySignal := by
  have hexit : ∀ q : Process, q.recordExit.queues = q.queues := by
    intro q
    unfold recordExit
    split <;> rfl
  refine Fewer.trans ?_ (fewer_of_queues (hexit _))
  refine fewer_of (fun _ h => h) (fun _ h => h) ?_
  intro t' ht'
  obtain ⟨t, ht, rfl⟩ := mem_map.mp ht'
  exact ⟨t, ht, List.Subset.refl _⟩

lemma fewer_applyDefaultSignalAction : Fewer p (p.applyDefaultSignalAction signum).2 := by
  unfold applyDefaultSignalAction
  split
  · exact fewer_terminateProcessBySignal
  · exact fewer_terminateProcessBySignal
  · unfold recordStop
    split <;> exact fewer_of_queues rfl
  · exact fewer_refl p
  · exact fewer_refl p

variable {signum} {tid} {s : SignalState}

lemma Consumed.fewer (h : Consumed tid p p') : Fewer p p' :=
  h.rule (fun _ signum hq _ => hq.trans (fewer_dequeueSignalFor tid signum))
    (fun _ signum hq => hq.trans (fewer_applyDefaultSignalAction signum)) (fewer_refl p)

lemma fewer_kernelDequeueSignal {fuel : Nat} {out : Option DeliveredSignal}
    (h : kernelDequeueSignal fuel tid p = some (out, p')) : Fewer p p' :=
  kernelDequeueSignal_rule (masksKeep_fewer tid)
    (fun _ signum hq => hq.trans (fewer_dequeueSignalFor tid signum))
    (fun _ signum hq => hq.trans (fewer_applyDefaultSignalAction signum)) h (fewer_refl p)

/-! ### Dispositions -/

lemma setAction_subset {s' : SignalState} {action old : SignalAction}
    (h : s.setAction sig action = some (old, s')) : s'.rtQueue ⊆ s.rtQueue := by
  obtain ⟨-, rfl⟩ := setAction_ok h
  split
  · exact clearPending_subset
  · exact List.Subset.refl _

lemma fewer_installs (h : Installs sig p p') : Fewer p p' := by
  refine h.rule (fewer_refl p) (fun _ hq => hq.trans (fewer_discardPendingSignal sig))
    (fun _ hq => hq.trans fewer_clearDirectedSignal) ?_
  intro q action old signals hset hq
  exact hq.trans (fewer_of (setAction_subset hset) (fun _ h => h) workers_refl)

/-! ### Timers -/

lemma removeTimerInfo_subset {timerId : Nat} :
    (q.removeTimerInfo timerId).2.rtQueue ⊆ q.rtQueue := by
  rw [rtQueue_removeTimerInfo]
  exact filter_subset_self _

lemma fewer_removePosixTimerNotification : Fewer p (p.removePosixTimerNotification timerId) := by
  unfold removePosixTimerNotification
  refine Fewer.trans ?_ (fewer_mapThreads fun t => removeTimerInfo_subset)
  exact fewer_of removeTimerInfo_subset removeTimerInfo_subset workers_refl

lemma fewer_timerDelete {timerId : Nat} (h : p.timerDelete timerId = .ok p') : Fewer p p' := by
  unfold timerDelete at h
  split at h
  · cases h
  · cases h
    exact (fewer_removePosixTimerNotification timerId).trans (fewer_of_queues rfl)

lemma queues_timerCreate {sevp : Option SigEvent} {r : Nat × Process}
    (h : p.timerCreate sevp = .ok r) : r.2.queues = p.queues := by
  unfold timerCreate at h
  dsimp only at h
  split at h
  · cases h
  split at h
  · cases h
  · cases h
    rfl

lemma queues_noteLegacyPosixTimerIntervalFire :
    (p.noteLegacyPosixTimerIntervalFire timerId).2.queues = p.queues := by
  unfold noteLegacyPosixTimerIntervalFire
  split
  · rfl
  · split <;> rfl

/-! ### Threads and images -/

lemma fewer_sysClone : Fewer p (p.sysClone tid).2 := by
  refine ⟨fun _ h => h, ?_⟩
  intro q hq
  simp only [sysClone, directedQueues, map_append, mem_cons, mem_append,
    map_cons, map_nil, not_mem_nil, or_false] at hq
  rcases hq with rfl | hq | rfl
  · exact ⟨_, mem_cons_self, List.Subset.refl _⟩
  · exact ⟨q, mem_cons_of_mem _ hq, List.Subset.refl _⟩
  · exact ⟨_, mem_cons_self, nil_subset _⟩

lemma fewer_removeThread : Fewer p (p.removeThread tid) := by
  obtain ⟨threads, hsub, heq⟩ := p.removeThread_eq
  rw [heq]
  exact fewer_of (fun _ h => h) (fun _ h => h) fun t ht => ⟨t, hsub ht, List.Subset.refl _⟩

lemma fewer_asMain {t : ThreadInfo} (ht : t ∈ p.threads) : Fewer p (p.asMain t.signals) := by
  refine ⟨fun _ h => h, ?_⟩
  intro q hq
  simp only [directedQueues, mem_cons] at hq
  rcases hq with rfl | hq
  · exact ⟨t.signals.toPendingSet, mem_cons_of_mem _ (mem_map_of_mem ht), List.Subset.refl _⟩
  · exact ⟨q, mem_cons_of_mem _ hq, List.Subset.refl _⟩

lemma fewer_newImage : Fewer p p.newImage :=
  fewer_of (fun _ h => h) (fun _ h => h) fun _ ht => absurd ht not_mem_nil

lemma fewer_dropTimers : Fewer p p.dropTimers := by
  have hfold : Fewer p ((range p.posixTimers.length).foldl removePosixTimerNotification p) :=
    Fold.foldl_keeps (I := Fewer p)
      (fun q id _ hq => hq.trans (fewer_removePosixTimerNotification id)) (fewer_refl p)
  exact ⟨hfold.shared, hfold.directed⟩

lemma fewer_commitExecState (h : p.commitExecState tid = .ok p') : Fewer p p' := by
  obtain ⟨q, hq, rfl⟩ := commitExecState_ok h
  have hfewer : Fewer p q := by
    rcases hq with rfl | ⟨t, ht, rfl⟩
    · exact fewer_refl _
    · exact fewer_asMain ht
  exact (hfewer.trans fewer_newImage).trans fewer_dropTimers

lemma fewer_fresh (hshared : p'.signals.rtQueue = []) (hmain : p'.mainThreadSignals.rtQueue = [])
    (hworkers : p'.threads = []) : Fewer p p' := by
  apply fewer_of
  · rw [hshared]
    exact nil_subset _
  · rw [hmain]
    exact nil_subset _
  · rw [hworkers]
    exact fun _ ht => absurd ht not_mem_nil

lemma setHandlers_subset {sigs : List Nat} (handler : SignalHandler) :
    (sigs.foldl (setHandlerIgnoringError · · handler) s).rtQueue ⊆ s.rtQueue :=
  setHandlers_rule (J := fun s' => s'.rtQueue ⊆ s.rtQueue)
    (fun _ _ _ _ _ hset hs => List.Subset.trans (setAction_subset hset) hs) (List.Subset.refl _) _ _

lemma fewer_spawnChild {pid : Nat} {sigmask sigdef : Option SigMask} :
    Fewer p (p.spawnChild pid sigmask sigdef) := by
  apply fewer_fresh _ rfl rfl
  apply subset_nil.mp
  exact List.Subset.trans (setHandlers_subset _) (setHandlers_subset _)

lemma queued_legacyExec (h : p.Consistent) (hrun : p.legacyExec = .ok p')
    (hs : Valid signum) (hq : p'.Queued signum) : p.Queued signum := by
  obtain ⟨main, hmain, rfl⟩ := legacyExec_ok hrun
  obtain ⟨q, hq, hqs⟩ := hq
  obtain ⟨e, he, rfl⟩ := queued_iff.mp hqs
  simp only [queues, mem_cons, legacyImage, Process.new, map_nil, not_mem_nil, or_false] at hq
  rcases hq with rfl | rfl
  · obtain ⟨sig, hsig, rfl⟩ := mem_map.mp he
    have hbit : SigMask.Has p.signals.pending sig := of_decide_eq_true (mem_filter.mp hsig).2
    exact ⟨_, mem_cons_self, queued_iff.mpr ((h.shared.pending_iff sig hs).mp hbit)⟩
  · simp only [discardLegacyExecTimerNotifications, rtQueue_foldl_clearBitIfDrained,
      Sound.roundTripDirected_ok hmain] at he
    refine ⟨_, mem_cons_of_mem _ mem_cons_self, queued_iff.mpr ⟨e, ?_, rfl⟩⟩
    exact mem_of_mem_filter he

/-! ### Operations -/

/-- Whether the operation generates a signal. -/
def Op.generates : Op → Bool
  | .raise _ | .raiseWithValue .. | .raiseForThread ..
  | .raiseForThreadWithValue .. | .raiseShared _
  | .timerFire _ => true
  | _ => false

lemma queued_okOr {r : Except Errno Process}
    (hr : ∀ p', r = .ok p' → p'.Queued signum → p.Queued signum)
    (h : (p.okOr r).Queued signum) : p.Queued signum := by
  cases r with
  | error => exact h
  | ok p' => exact hr p' rfl h

lemma queued_of_step {op : Op} (hc : p.Consistent) (hop : op.generates = false)
    (hcalled : op.Called) (hstep : p.step op = some p') (hs : Valid signum)
    (h : p'.Queued signum) : p.Queued signum := by
  cases op with try cases hstep
  | raise | raiseWithValue | raiseForThread | raiseForThreadWithValue | raiseShared | timerFire =>
    cases hop
  | dequeueShared | dequeueDirected => exact hcalled.elim
  | clearShared signum => exact fewer_clearShared.queued h
  | timerCreate sevp =>
    cases hc : p.timerCreate sevp with
    | error =>
      rw [hc] at h
      exact h
    | ok =>
      rw [hc] at h
      exact (fewer_of_queues (queues_timerCreate hc)).queued h
  | timerIntervalFire timerId =>
    exact (fewer_of_queues (queues_noteLegacyPosixTimerIntervalFire timerId)).queued h
  | timerDelete => exact queued_okOr (fun q hq => (fewer_timerDelete hq).queued) h
  | sigaction =>
    exact queued_okOr (fun q hq => (fewer_installs (installs_sysSigaction hq)).queued) h
  | signal => exact queued_okOr (fun q hq => (fewer_installs (installs_sysSignal hq)).queued) h
  | sigprocmask tid => exact ((masksKeep_fewer tid).blocked _ _ (fewer_refl p)).queued h
  | sigsuspend tid mask =>
    exact ((masksKeep_fewer tid).installTemporaryMask (fewer_refl p) mask).queued h
  | ppoll tid mask wait => exact ((masksKeep_fewer tid).sysPpoll (fewer_refl p) mask wait).queued h
  | resetSignalMask => exact (fewer_of_queues rfl).queued h
  | sigtimedwait tid mask =>
    exact (sysSigtimedwait_rule (fewer_refl p) (fewer_consumeSignalFor tid)
      (fun _ signum info hq => hq.trans (fewer_sigInfoOf signum info))).queued h
  | consume tid signum => exact (fewer_dequeueSignalFor tid signum).queued h
  | deliver => exact (consumed_of_deliverLoop hstep).fewer.queued h
  | dequeueSignal =>
    obtain ⟨⟨out, q⟩, hrun, rfl⟩ := Option.map_eq_some_iff.mp hstep
    exact (fewer_kernelDequeueSignal hrun).queued h
  | clone tid => exact fewer_sysClone.queued h
  | threadExit tid => exact fewer_removeThread.queued h
  | exit =>
    have hexit : p.recordExit.queues = p.queues := by
      unfold recordExit
      split <;> rfl
    exact (fewer_of_queues hexit).queued h
  | exec => exact queued_okOr (fun q hq => (fewer_commitExecState hq).queued) h
  | legacyExec => exact queued_okOr (fun q hq => queued_legacyExec hc hq hs) h
  | forkChild => exact (fewer_fresh rfl rfl rfl).queued h
  | spawnChild pid sigmask sigdef => exact fewer_spawnChild.queued h

end Process

end Kandelo.Kernel.Signal
