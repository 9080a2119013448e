import Kandelo.Kernel.Signal.JobControl

/-!
# Notifications of timers

A timer that notifies the process as a whole remembers that its last notification
is still queued, and only counts expirations until it is accepted. Accepting one, deleting the timer
and ignoring the signal keep the two in step; dropping pending signals for job control does not look
at timers.
-/

namespace Kandelo.Kernel.Signal

open Lib List Option PendingSet

variable {e : RtSigEntry} {signum : Nat} {siValue siCode : Int}

/-! ### One pending set -/

namespace PendingSet

variable {q : PendingSet} {timerId : Nat}

/-- The timers that own an instance, once for each. -/
def notes (q : PendingSet) : List Nat := q.rtQueue.filterMap (·.timerId)

lemma mem_notes : timerId ∈ q.notes ↔ ∃ e ∈ q.rtQueue, e.timerId = some timerId := mem_filterMap

lemma notes_push_plain (he : e.timerId = none) : (q.push e).notes = q.notes := by
  simp [notes, push, he]

lemma notes_push_timer (he : e.timerId = some timerId) :
    (q.push e).notes = q.notes ++ [timerId] := by
  simp [notes, push, he]

lemma notes_generate : (q.generate signum siValue siCode).notes = q.notes := by
  unfold generate
  dsimp only
  split
  · exact notes_push_plain rfl
  split
  · next rtQueue hsome =>
    obtain ⟨before, e, after, hq, -, rfl⟩ := Slice.modifyFirst_eq_some hsome
    -- coalescing rewrites the value and the code of an entry, never its owner
    have howner : (if siCode ≠ 0 then { e with siValue, siCode } else e).timerId = e.timerId := by
      split <;> rfl
    simp only [notes, setBit, hq, filterMap_append, filterMap_cons, howner]
  · exact notes_push_plain rfl

lemma notes_raiseTimer (hs : Valid signum) (siValue : Int) (timerId : Nat) :
    (q.raiseTimer signum siValue timerId).2.notes = q.notes ++ [timerId] := by
  unfold Valid at hs
  unfold raiseTimer
  rw [if_neg (show ¬ (signum = 0 ∨ signum ≥ nsig) by unfold nsig; omega)]
  rw [notes_push_timer rfl]
  split
  · exact congrArg (· ++ [timerId]) (notes_push_plain rfl)
  · rfl

lemma notes_clearPending (h : ∀ e ∈ q.rtQueue, e.signum = signum → e.timerId = none) :
    (q.clearPending signum).notes = q.notes := by
  unfold clearPending
  split
  · simp only [notes, filterMap_filter]
    apply filterMap_congr
    intro e he
    by_cases hs : e.signum = signum
    · simp [h e he hs]
    · simp [hs]
  · rfl

lemma count_notes_consumePendingInfo (signum timerId : Nat) :
    q.notes.count timerId = (q.consumePendingInfo signum).2.notes.count timerId +
      if (q.consumePendingInfo signum).1.timerId = some timerId then 1 else 0 := by
  unfold consumePendingInfo
  split
  · rfl
  have hnotes : ∀ s : PendingSet, (s.clearBitIfDrained signum).notes = s.notes := by
    intro s
    rw [notes, rtQueue_clearBitIfDrained]
    rfl
  rw [hnotes]
  cases hfind : q.rtQueue.find? fun e => e.signum = signum with
  | none =>
    have hnone : q.rtQueue.eraseP (fun e => e.signum = signum) = q.rtQueue :=
      eraseP_of_forall_not (find?_eq_none.mp hfind)
    simp [hnone, PendingSignalInfo.none]
  | some e =>
    obtain ⟨hes, before, after, hq, hbefore⟩ := find?_eq_some_iff_append.mp hfind
    have herase : (before ++ e :: after).eraseP (fun e => e.signum = signum) = before ++ after := by
      rw [eraseP_append_right _ (by simpa using hbefore)]
      simp [hes]
    simp only [notes, hq, herase, filterMap_append, filterMap_cons, count_append]
    obtain hid | ⟨id, hid⟩ := eq_none_or_eq_some e.timerId
    · simp [hid]
    · simp only [hid, count_cons, some.injEq, beq_iff_eq]
      omega

lemma notes_removeTimerInfo (timerId : Nat) :
    (q.removeTimerInfo timerId).2.notes = q.notes.filter (· ≠ timerId) := by
  rw [notes, rtQueue_removeTimerInfo, notes, filterMap_filter, filter_filterMap]
  apply filterMap_congr
  intro e _
  cases e.timerId with
  | none => simp
  | some id => by_cases h : id = timerId <;> simp [Option.filter]

end PendingSet

namespace Process

variable {p p' p'' : Process} {timerId tid : Nat} {f : PerThreadSignalState → PerThreadSignalState}
  {q : PendingSet}

/-! ### Timers and their notes -/

/-- How a timer notifies, and with which signal. -/
def kind (p : Process) (timerId : Nat) : Option (SigevNotify × Nat) :=
  (p.posixTimers[timerId]?.join).map fun t => (t.sigevNotify, t.sigevSigno)

/-- The timer notifies the process as a whole and waits for its notification to be accepted. -/
def awaits (p : Process) (timerId : Nat) : Bool :=
  (p.posixTimers[timerId]?.join).any fun t =>
    decide (t.sigevNotify = .signal) && t.notificationPending

/-- Instances that belong to the timer, over all queues. -/
def noteCount (p : Process) (timerId : Nat) : Nat :=
  (p.queues.map fun q => q.notes.count timerId).sum

/-- Timers that notify the process as a whole have exactly one instance queued while they wait for
it to be accepted, and none otherwise. -/
def Accounted (p : Process) : Prop :=
  ∀ timerId timer, p.posixTimers[timerId]?.join = some timer → timer.sigevNotify = .signal →
    p.noteCount timerId = if timer.notificationPending then 1 else 0

/-- A timer waits for an instance of the signal to be delivered. -/
def Awaiting (p : Process) (signum : Nat) : Prop :=
  ∃ timerId, p.awaits timerId = true ∧ p.kind timerId = some (.signal, signum)

/-- The notes are where they belong: those of a waiting timer in the shared set, those of a timer
that notifies one thread elsewhere. -/
structure Noted (p : Process) : Prop where
  shared : ∀ timerId, p.signals.notes.count timerId = if p.awaits timerId then 1 else 0
  directed : ∀ q ∈ p.directedQueues, ∀ timerId ∈ q.notes,
    ∃ signum, p.kind timerId = some (.threadId, signum)
  valid : ∀ timerId signum, p.kind timerId = some (.signal, signum) → Valid signum

lemma kind_of_awaits (h : p.awaits timerId = true) :
    ∃ signum, p.kind timerId = some (.signal, signum) := by
  obtain ⟨t, ht, hsig⟩ := (any_eq_true _ _).mp h
  unfold kind
  rw [ht]
  simp only [Bool.and_eq_true, decide_eq_true_eq] at hsig
  exact ⟨t.sigevSigno, by rw [map_some, hsig.1]⟩

lemma timerSigno_of_kind {notify : SigevNotify}
    (h : p.kind timerId = some (notify, signum)) : p.timerSigno timerId = some signum := by
  obtain ⟨t, ht, heq⟩ := map_eq_some_iff.mp h
  unfold timerSigno
  rw [ht, map_some, ← (Prod.mk.inj heq).2]

lemma Noted.not_mem_directed (h : p.Noted) (hk : p.kind timerId = some (.signal, signum))
    (hq : q ∈ p.directedQueues) : timerId ∉ q.notes := by
  intro hmem
  obtain ⟨signum', hk'⟩ := h.directed q hq timerId hmem
  rw [hk] at hk'
  cases hk'

lemma Noted.accounted (h : p.Noted) : p.Accounted := by
  intro timerId timer ht hn
  have hk : p.kind timerId = some (.signal, timer.sigevSigno) := by
    unfold kind
    rw [ht, map_some, hn]
  have hdirected : (p.directedQueues.map fun q => q.notes.count timerId).sum = 0 := by
    rw [List.sum_eq_zero_iff_forall_eq_nat]
    intro n hmem
    obtain ⟨q, hq, rfl⟩ := mem_map.mp hmem
    exact count_eq_zero.mpr (h.not_mem_directed hk hq)
  have hawaits : p.awaits timerId = timer.notificationPending := by simp [awaits, ht, hn]
  change p.signals.notes.count timerId +
    (p.directedQueues.map fun q => q.notes.count timerId).sum = _
  rw [hdirected, h.shared, hawaits, Nat.add_zero]

lemma Noted.awaiting_of_mem (h : p.Noted) (hc : p.Consistent)
    (he : e ∈ p.signals.rtQueue) (ht : e.timerId = some timerId) :
    p.awaits timerId = true ∧ p.kind timerId = some (.signal, e.signum) := by
  have hcount : 0 < p.signals.notes.count timerId := count_pos_iff.mpr (mem_notes.mpr ⟨e, he, ht⟩)
  have hawaits : p.awaits timerId = true := by
    rw [h.shared] at hcount
    by_contra hne
    rw [if_neg hne] at hcount
    exact absurd hcount (Nat.lt_irrefl 0)
  obtain ⟨signum, hk⟩ := kind_of_awaits hawaits
  have hsigno := (timerSigno_of_kind hk).symm.trans (hc.shared.owned e he timerId ht)
  rw [hk, some.inj hsigno]
  exact ⟨hawaits, rfl⟩

/-- A timer that waits although nothing of its own is queued: every later expiration is only
counted. -/
def Wedged (timerId : Nat) (p : Process) : Prop :=
  p.awaits timerId = true ∧ ∀ q ∈ p.queues, timerId ∉ q.notes

lemma Wedged.not_accounted (h : Wedged timerId p) : ¬ p.Accounted := by
  intro ha
  obtain ⟨t, ht, hsig⟩ := (any_eq_true _ _).mp h.1
  simp only [Bool.and_eq_true, decide_eq_true_eq] at hsig
  have hcount := ha timerId t ht hsig.1
  rw [hsig.2, if_pos rfl] at hcount
  have hzero : p.noteCount timerId = 0 := by
    unfold noteCount
    rw [List.sum_eq_zero_iff_forall_eq_nat]
    intro n hmem
    obtain ⟨q, hq, rfl⟩ := mem_map.mp hmem
    exact count_eq_zero.mpr (h.2 q hq)
  omega

/-! ### What timers do not notice -/

lemma Fewer.directed_notes (h : Fewer p p') :
    ∀ q' ∈ p'.directedQueues, ∃ q ∈ p.directedQueues, q'.notes ⊆ q.notes := by
  intro q' hq'
  obtain ⟨q, hq, hsub⟩ := h.directed q' hq'
  exact ⟨q, hq, filterMap_subset _ hsub⟩

lemma mem_directedQueues_updateDirected (hq : q ∈ (p.updateDirected tid f).directedQueues) :
    q ∈ p.directedQueues ∨
      ∃ t : PerThreadSignalState, t.toPendingSet ∈ p.directedQueues ∧ q = (f t).toPendingSet := by
  unfold updateDirected at hq
  split at hq
  · rcases mem_cons.mp hq with rfl | hq
    · exact .inr ⟨_, mem_cons_self, rfl⟩
    · exact .inl (mem_cons_of_mem _ hq)
  obtain ⟨threads, heq, hthreads⟩ := updateThread_eq p tid f
  rw [heq] at hq
  simp only [directedQueues, mem_cons, List.mem_map] at hq ⊢
  rcases hq with rfl | ⟨t, ht, rfl⟩
  · exact .inl (.inl rfl)
  rcases hthreads t ht with ht | ⟨u, hu, rfl⟩
  · exact .inl (.inr ⟨t, ht, rfl⟩)
  · exact .inr ⟨u.signals, .inr ⟨u, hu, rfl⟩, rfl⟩

/-- No notification is added, taken or accepted; threads may lose some of theirs. -/
structure Unnoticed (p p' : Process) : Prop where
  shared : p'.signals.notes = p.signals.notes
  directed : ∀ q' ∈ p'.directedQueues, ∃ q ∈ p.directedQueues, q'.notes ⊆ q.notes
  timers : p'.posixTimers = p.posixTimers

namespace Unnoticed

lemma refl (p : Process) : Unnoticed p p := ⟨rfl, fun q hq => ⟨q, hq, List.Subset.refl _⟩, rfl⟩

section

variable (h : Unnoticed p p')

include h

lemma trans (h' : Unnoticed p' p'') : Unnoticed p p'' := by
  refine ⟨h'.shared.trans h.shared, ?_, h'.timers.trans h.timers⟩
  intro q'' hq''
  obtain ⟨q', hq', hsub'⟩ := h'.directed q'' hq''
  obtain ⟨q, hq, hsub⟩ := h.directed q' hq'
  exact ⟨q, hq, List.Subset.trans hsub' hsub⟩

lemma kind : p'.kind = p.kind := by
  funext timerId
  unfold Process.kind
  rw [h.timers]

lemma awaits : p'.awaits = p.awaits := by
  funext timerId
  unfold Process.awaits
  rw [h.timers]

lemma awaiting : p'.Awaiting signum ↔ p.Awaiting signum := by
  unfold Awaiting
  rw [h.kind, h.awaits]

lemma noted (hp : p.Noted) : p'.Noted where
  shared := by
    rw [h.shared, h.awaits]
    exact hp.shared
  directed q' hq' timerId hmem := by
    obtain ⟨q, hq, hsub⟩ := h.directed q' hq'
    rw [h.kind]
    exact hp.directed q hq timerId (hsub hmem)
  valid := by
    rw [h.kind]
    exact hp.valid

lemma wedged (hp : Wedged timerId p) : Wedged timerId p' := by
  refine ⟨by rw [h.awaits]; exact hp.1, ?_⟩
  intro q' hq' hmem
  rcases mem_queues.mp hq' with rfl | hq'
  · rw [h.shared] at hmem
    exact hp.2 _ (mem_queues.mpr (.inl rfl)) hmem
  · obtain ⟨q, hq, hsub⟩ := h.directed q' hq'
    exact hp.2 q (mem_queues.mpr (.inr hq)) (hsub hmem)

end

lemma of_fewer (h : Fewer p p') (hs : p'.signals.rtQueue = p.signals.rtQueue)
    (ht : p'.posixTimers = p.posixTimers) : Unnoticed p p' :=
  ⟨by unfold notes; rw [hs], h.directed_notes, ht⟩

lemma of_queues (h : p'.queues = p.queues) (ht : p'.posixTimers = p.posixTimers) : Unnoticed p p' :=
  of_fewer (fewer_of_queues h) (congrArg rtQueue (cons.inj h).1) ht

lemma updateDirected (tid : Nat) (hf : ∀ t : PerThreadSignalState, (f t).notes ⊆ t.notes) :
    Unnoticed p (p.updateDirected tid f) := by
  obtain ⟨hs, ht⟩ := signals_updateDirected (p := p) f
  refine ⟨by rw [hs], ?_, ht⟩
  intro q hq
  rcases mem_directedQueues_updateDirected hq with hq | ⟨t, ht, rfl⟩
  · exact ⟨q, hq, List.Subset.refl _⟩
  · exact ⟨_, ht, hf t⟩

lemma setSignals {signals : SignalState} (h : signals.notes = p.signals.notes) :
    Unnoticed p { p with signals } :=
  ⟨h, fun q hq => ⟨q, hq, List.Subset.refl _⟩, rfl⟩

lemma masksKeep (tid : Nat) : MasksKeep tid (Unnoticed p) := by
  refine masksKeep_of (fun _ _ _ _ h => h.trans (of_queues rfl rfl)) fun q f hf h => h.trans ?_
  refine of_fewer (fewer_updateThread tid fun t => by rw [hf t]; exact List.Subset.refl _) ?_ ?_
  all_goals
    unfold updateThread
    split <;> rfl

lemma recordExit : Unnoticed p p.recordExit := by
  unfold Process.recordExit
  split
  · exact refl p
  · exact of_queues rfl rfl

lemma recordContinue : Unnoticed p p.recordContinue := by
  unfold Process.recordContinue
  split
  · exact refl p
  · exact of_queues rfl rfl

lemma applyDefaultSignalAction (signum : Nat) :
    Unnoticed p (p.applyDefaultSignalAction signum).2 := by
  refine of_fewer (fewer_applyDefaultSignalAction signum) ?_ ?_
  all_goals
    unfold Process.applyDefaultSignalAction terminateProcessBySignal Process.recordExit recordStop
    split
    · dsimp only
      split <;> rfl
    · dsimp only
      split <;> rfl
    · split <;> rfl
    · rfl
    · rfl

lemma onShared_raise : Unnoticed p (p.onShared (·.raiseInternal signum siValue siCode)).2 := by
  apply setSignals
  unfold SignalState.raiseInternal
  dsimp only
  split
  · rfl
  split
  · rfl
  · exact notes_generate

lemma raiseDirected (tid signum : Nat) {raise : PerThreadSignalState → Bool × PerThreadSignalState}
    (hr : ∀ t : PerThreadSignalState, (raise t).2.notes ⊆ t.notes) :
    Unnoticed (p.prepareSignalGeneration signum) (p.raiseDirected tid signum raise).2 := by
  unfold Process.raiseDirected
  dsimp only
  split
  · exact refl _
  split
  · exact refl _
  split
  · exact updateDirected tid hr
  · exact refl _

lemma notes_raiseInternal {t : PerThreadSignalState} :
    (t.raiseInternal signum siValue siCode).2.notes ⊆ t.notes := by
  unfold PerThreadSignalState.raiseInternal
  split
  · exact List.Subset.refl _
  rw [notes_generate]
  exact List.Subset.refl _

lemma clearDirectedSignal (signum : Nat) : Unnoticed p (p.clearDirectedSignal signum) :=
  of_fewer fewer_clearDirectedSignal rfl rfl

lemma sysClone (tid : Nat) : Unnoticed p (p.sysClone tid).2 := of_fewer fewer_sysClone rfl rfl

lemma removeThread (tid : Nat) : Unnoticed p (p.removeThread tid) := by
  refine of_fewer fewer_removeThread ?_ ?_
  all_goals
    unfold Process.removeThread
    split <;> rfl

/-! ### Dropping signals -/

lemma clearShared (hp : p.Noted) (hc : p.Consistent) (h : ¬ p.Awaiting signum) :
    Unnoticed p (p.clearShared signum) := by
  refine setSignals (notes_clearPending ?_)
  intro e he hes
  cases ht : e.timerId with
  | none => rfl
  | some timerId =>
    obtain ⟨hawaits, hk⟩ := hp.awaiting_of_mem hc he ht
    rw [hes] at hk
    exact absurd ⟨timerId, hawaits, hk⟩ h

lemma clearSignalEverywhere (hp : p.Noted) (hc : p.Consistent)
    (h : ¬ p.Awaiting signum) : Unnoticed p (p.clearSignalEverywhere signum) :=
  (clearShared hp hc h).trans (clearDirectedSignal signum)

lemma prepareSignalGeneration (hp : p.Noted) (hc : p.Consistent)
    (h : ∀ c ∈ cancelled signum, ¬ p.Awaiting c) :
    Unnoticed p (p.prepareSignalGeneration signum) := by
  unfold Process.prepareSignalGeneration
  split
  · exact refl p
  split
  · next hcont =>
    rw [cancelled, if_pos hcont] at h
    -- no clearing changes what the timers wait for
    have hfold : Unnoticed p (stopSignals.foldl Process.clearSignalEverywhere p) ∧
        (stopSignals.foldl Process.clearSignalEverywhere p).Consistent := by
      apply Fold.foldl_keeps (I := fun q : Process => Unnoticed p q ∧ q.Consistent) _ ⟨refl p, hc⟩
      rintro q s hs ⟨hq, hqc⟩
      have hs' : ¬ q.Awaiting s := by
        rw [hq.awaiting]
        exact h s hs
      exact ⟨hq.trans (clearSignalEverywhere (hq.noted hp) hqc hs'),
        (Sound.clearSignalEverywhere hqc s).consistent⟩
    exact hfold.1.trans recordContinue
  · next hcont =>
    split
    · next hstop =>
      rw [cancelled, if_neg hcont, if_pos hstop] at h
      exact clearSignalEverywhere hp hc (h sigCont (mem_singleton_self _))
    · exact refl p

end Unnoticed

end Process

end Kandelo.Kernel.Signal
