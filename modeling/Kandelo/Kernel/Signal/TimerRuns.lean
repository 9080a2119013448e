import Kandelo.Kernel.Signal.TimerAccounting

/-!
# Timers over whole runs

Each timer that notifies the process as a whole is accounted for as long as no
signal it waits for is dropped. Job control drops signals, and so do a send that suppresses
`SIGPIPE` and the delivery of `SIGKILL` to a stopped process; the timer is not told.
-/

namespace Kandelo.Kernel.Signal

open List Option PendingSet

namespace Process

variable {signum : Nat} {out : Option DeliveredSignal} {p p' : Process} {timerId fuel tid : Nat}
  {f : PosixTimerState → PosixTimerState} {siValue : Int}

/-- The signal has a handler. -/
def catches (p : Process) (signum : Nat) : Bool :=
  match (p.signals.getAction signum).handler with
  | .handler _ => true
  | _ => false

/-- The signals whose instances the operation drops without looking at timers. -/
def dropped (p : Process) : Op → List Nat
  | .raise s | .raiseWithValue s _ | .raiseForThread _ s | .raiseForThreadWithValue _ s _ =>
    cancelled s
  | .timerFire timerId =>
    match p.posixTimers[timerId]?.join with
    | none => []
    | some timer =>
      if timer.sigevNotify = .threadId ∧ p.discards timer.sigevSigno = false ∧
          timer.notificationPending = false then cancelled timer.sigevSigno
      else []
  | .clearShared s => [s]
  | .consume _ s => if p.state = .stopped ∧ s = sigKill then [sigKill] else []
  | .deliver .. => if p.state = .stopped ∧ p.catches sigKill = false then [sigKill] else []
  | .dequeueSignal .. => if p.state = .stopped then [sigKill] else []
  | _ => []

/-- No timer waits for a signal that the operation drops. -/
def Lossless (p : Process) (op : Op) : Prop := ∀ s ∈ p.dropped op, ¬ p.Awaiting s

/-! ### Expirations -/

lemma Noted.updateTimer (h : p.Noted)
    (hk : ∀ t, (f t).sigevNotify = t.sigevNotify ∧ (f t).sigevSigno = t.sigevSigno)
    (ha : (p.updateTimer timerId f).awaits = p.awaits) : (p.updateTimer timerId f).Noted := by
  apply h.accepted fun _ => false
  · exact fun _ => rfl
  · intro x
    rw [ha]
    simp
  · exact kind_updateTimer hk
  · exact fun q hq => ⟨q, hq, List.Subset.refl _⟩

lemma notes_raiseTimer_subset {q : PendingSet} :
    (q.raiseTimer signum siValue timerId).2.notes ⊆ timerId :: q.notes := by
  by_cases hs : Valid signum
  · rw [notes_raiseTimer hs]
    intro x hx
    simpa [or_comm] using hx
  · unfold Valid at hs
    unfold raiseTimer
    rw [if_pos (show signum = 0 ∨ signum ≥ nsig by unfold nsig; omega)]
    exact subset_cons_self _ _

lemma raiseTimerForThread_cases :
    (p.raiseTimerForThread tid signum siValue timerId).2 = p.prepareSignalGeneration signum ∨
      (p.raiseTimerForThread tid signum siValue timerId).2 =
        (p.prepareSignalGeneration signum).updateDirected tid fun t =>
          { t with toPendingSet := (t.raiseTimer signum siValue timerId).2 } := by
  unfold raiseTimerForThread raiseDirected
  dsimp only
  split
  · exact .inl rfl
  split
  · exact .inl rfl
  split
  · exact .inr rfl
  · exact .inl rfl

lemma Noted.raiseTimerForThread (h : p.Noted) (hc : p.Consistent) (tid : Nat)
    (siValue : Int) (hl : ∀ c ∈ cancelled signum, ¬ p.Awaiting c) {signo : Nat}
    (hk : p.kind timerId = some (.threadId, signo)) :
    (p.raiseTimerForThread tid signum siValue timerId).2.Noted := by
  have hprep := Unnoticed.prepareSignalGeneration h hc hl
  obtain heq | heq := raiseTimerForThread_cases (p := p)
  · rw [heq]
    exact hprep.noted h
  rw [heq]
  have hq := hprep.noted h
  rw [← hprep.kind] at hk
  revert hq hk
  generalize p.prepareSignalGeneration signum = q
  intro hk hq
  obtain ⟨hs, ht⟩ := signals_updateDirected (p := q) fun t =>
    { t with toPendingSet := (t.raiseTimer signum siValue timerId).2 }
  refine ⟨?_, ?_, ?_⟩
  · unfold awaits
    rw [hs, ht]
    exact hq.shared
  · unfold kind at hk ⊢
    rw [ht]
    intro s hmem x hx
    rcases mem_directedQueues_updateDirected hmem with hold | ⟨t, hold, rfl⟩
    · exact hq.directed s hold x hx
    rcases mem_cons.mp (notes_raiseTimer_subset hx) with rfl | hx
    · exact ⟨signo, hk⟩
    · exact hq.directed _ hold x hx
  · unfold kind
    rw [ht]
    exact hq.valid

lemma Wedged.raiseTimerForThread {x : Nat} (tid : Nat) (siValue : Int)
    (h : Wedged x (p.prepareSignalGeneration signum)) (hne : x ≠ timerId) :
    Wedged x (p.raiseTimerForThread tid signum siValue timerId).2 := by
  obtain heq | heq := raiseTimerForThread_cases (p := p)
  · rw [heq]
    exact h
  rw [heq]
  revert h
  generalize p.prepareSignalGeneration signum = q
  intro h
  obtain ⟨hs, ht⟩ := signals_updateDirected (p := q) fun t =>
    { t with toPendingSet := (t.raiseTimer signum siValue timerId).2 }
  constructor
  · unfold awaits
    rw [ht]
    exact h.1
  intro s hmem hx
  rcases mem_queues.mp hmem with rfl | hmem
  · rw [hs] at hx
    exact h.2 _ mem_cons_self hx
  rcases mem_directedQueues_updateDirected hmem with hold | ⟨t, hold, rfl⟩
  · exact h.2 s (mem_queues.mpr (.inr hold)) hx
  rcases mem_cons.mp (notes_raiseTimer_subset hx) with rfl | hx
  · exact hne rfl
  · exact h.2 _ (mem_queues.mpr (.inr hold)) hx

lemma Noted.queuePosixTimerFire_signal (h : p.Noted) {timer : PosixTimerState}
    (ht : p.posixTimers[timerId]?.join = some timer) (hn : timer.sigevNotify = .signal)
    (hd : p.discards timer.sigevSigno = false) (hf : timer.notificationPending = false) :
    (p.queuePosixTimerFire timerId).2.Noted := by
  have hkind : (p.setNotificationPending timerId).kind = p.kind :=
    kind_updateTimer fun _ => ⟨rfl, rfl⟩
  have hvalid : Valid timer.sigevSigno := by
    apply h.valid timerId
    unfold kind
    rw [ht, map_some, hn]
  rw [Process.queuePosixTimerFire_signal ht hd hf hn]
  refine ⟨?_, ?_, ?_⟩
  · intro x
    rw [PendingSet.notes_raiseTimer hvalid, count_append, h.shared]
    unfold awaits setNotificationPending
    rw [timer_updateTimer]
    by_cases hx : x = timerId
    · simp [hx, ht, hn, hf]
    · simp [hx, Ne.symm hx]
  · intro q hq x hx
    change ∃ signum, (p.setNotificationPending timerId).kind x = _
    rw [hkind]
    exact h.directed q hq x hx
  · intro x signum hk
    change (p.setNotificationPending timerId).kind x = _ at hk
    rw [hkind] at hk
    exact h.valid x signum hk

lemma awaits_updateTimer_other {notify : SigevNotify}
    (hk : p.kind timerId = some (notify, signum)) (hn : notify ≠ .signal)
    (hf : ∀ t, (f t).sigevNotify = t.sigevNotify ∧ (f t).sigevSigno = t.sigevSigno) :
    (p.updateTimer timerId f).awaits = p.awaits := by
  apply awaits_updateTimer
  intro t ht
  unfold kind at hk
  rw [ht] at hk
  obtain ⟨rfl, -⟩ := Prod.mk.inj (some.inj hk)
  simp [(hf t).1, hn]

lemma kind_setNotificationPending : (p.setNotificationPending timerId).kind = p.kind :=
  kind_updateTimer fun _ => ⟨rfl, rfl⟩

lemma consistent_setNotificationPending (hc : p.Consistent) :
    (p.setNotificationPending timerId).Consistent :=
  (Sound.updateTimer (f := fun t => { t with notificationPending := true }) hc timerId
    fun _ => rfl).consistent

lemma kind_raiseTimerForThread :
    (p.raiseTimerForThread tid signum siValue timerId).2.kind = p.kind := by
  have htimers : (p.raiseTimerForThread tid signum siValue timerId).2.posixTimers =
      p.posixTimers := by
    obtain heq | heq := raiseTimerForThread_cases (p := p)
    · rw [heq]
      exact posixTimers_prepareSignalGeneration
    · rw [heq, (signals_updateDirected _).2]
      exact posixTimers_prepareSignalGeneration
  funext x
  unfold kind
  rw [htimers]

section

variable {timer : PosixTimerState} (ht : p.posixTimers[timerId]?.join = some timer)
  (hn : timer.sigevNotify = .threadId)

include ht hn

lemma kind_threadTimer : p.kind timerId = some (.threadId, timer.sigevSigno) := by
  unfold kind
  rw [ht, map_some, hn]

lemma awaits_setNotificationPending : (p.setNotificationPending timerId).awaits = p.awaits :=
  awaits_updateTimer_other (kind_threadTimer ht hn) (by simp) fun _ => ⟨rfl, rfl⟩

lemma awaiting_setNotificationPending (signum : Nat) :
    (p.setNotificationPending timerId).Awaiting signum ↔ p.Awaiting signum := by
  unfold Awaiting
  rw [awaits_setNotificationPending ht hn, kind_setNotificationPending]

variable (h : p.Noted)

include h

lemma noted_setNotificationPending : (p.setNotificationPending timerId).Noted :=
  h.updateTimer (fun _ => ⟨rfl, rfl⟩) (awaits_setNotificationPending ht hn)

variable (hc : p.Consistent) (hd : p.discards timer.sigevSigno = false)
  (hf : timer.notificationPending = false)

include hc hd hf

lemma noted_queuePosixTimerFire_thread (hl : p.Lossless (.timerFire timerId)) :
    (p.queuePosixTimerFire timerId).2.Noted := by
  have hkind := kind_threadTimer ht hn
  rw [← kind_setNotificationPending] at hkind
  obtain ⟨f, hkeep, heq⟩ := queuePosixTimerFire_thread ht hd hf hn
  have hnone : ∀ c ∈ cancelled timer.sigevSigno,
      ¬ (p.setNotificationPending timerId).Awaiting c := by
    intro c hcancel
    rw [awaiting_setNotificationPending ht hn]
    apply hl
    simp only [dropped, ht]
    rw [if_pos ⟨hn, hd, hf⟩]
    exact hcancel
  have hraised := (noted_setNotificationPending ht hn h).raiseTimerForThread
    (consistent_setNotificationPending hc) timer.sigevTid timer.sigevValue hnone hkind
  rw [← kind_raiseTimerForThread] at hkind
  rw [heq]
  exact hraised.updateTimer hkeep (awaits_updateTimer_other hkind (by simp) hkeep)

lemma wedged_queuePosixTimerFire_thread {c x : Nat} (hcancel : c ∈ cancelled timer.sigevSigno)
    (ha : p.awaits x = true) (hk : p.kind x = some (.signal, c)) :
    Wedged x (p.queuePosixTimerFire timerId).2 := by
  have hkind := kind_threadTimer ht hn
  have hne : x ≠ timerId := by
    rintro rfl
    rw [hkind] at hk
    cases hk
  rw [← awaits_setNotificationPending ht hn] at ha
  rw [← kind_setNotificationPending] at hk hkind
  obtain ⟨f, hkeep, heq⟩ := queuePosixTimerFire_thread ht hd hf hn
  have hraised := (wedged_prepareSignalGeneration (noted_setNotificationPending ht hn h)
    (consistent_setNotificationPending hc) hcancel ha hk).raiseTimerForThread
    timer.sigevTid timer.sigevValue hne
  rw [← kind_raiseTimerForThread] at hkind
  rw [heq]
  refine ⟨?_, hraised.2⟩
  rw [awaits_updateTimer_other hkind (by simp) hkeep]
  exact hraised.1

end

lemma Noted.queuePosixTimerFire (h : p.Noted) (hc : p.Consistent)
    (hl : p.Lossless (.timerFire timerId)) : (p.queuePosixTimerFire timerId).2.Noted := by
  cases ht : p.posixTimers[timerId]?.join with
  | none =>
    unfold Process.queuePosixTimerFire
    rw [ht]
    exact h
  | some timer =>
    by_cases hsilent : timer.sigevNotify = .none ∨ p.discards timer.sigevSigno = true ∨
        timer.notificationPending = true
    · obtain ⟨f, hf, heq⟩ := queuePosixTimerFire_silent ht hsilent
      rw [heq]
      refine h.updateTimer (fun t => ⟨(hf t).1, (hf t).2.1⟩) (awaits_updateTimer fun t _ => ?_)
      rw [(hf t).1, (hf t).2.2]
    rw [not_or, not_or] at hsilent
    obtain ⟨hn, hd, hflag⟩ := hsilent
    have hd := Bool.eq_false_iff.mpr hd
    have hflag := Bool.eq_false_iff.mpr hflag
    cases hmode : timer.sigevNotify with
    | none => exact absurd hmode hn
    | signal => exact h.queuePosixTimerFire_signal ht hmode hd hflag
    | threadId => exact noted_queuePosixTimerFire_thread ht hmode h hc hd hflag hl
    | other mode =>
      have hkind : p.kind timerId = some (.other mode, timer.sigevSigno) := by
        unfold kind
        rw [ht, map_some, hmode]
      rw [queuePosixTimerFire_other ht hd hflag hmode]
      exact h.updateTimer (fun _ => ⟨rfl, rfl⟩)
        (awaits_updateTimer_other hkind (by simp) fun _ => ⟨rfl, rfl⟩)

lemma Noted.noteLegacyPosixTimerIntervalFire (h : p.Noted) (timerId : Nat) :
    (p.noteLegacyPosixTimerIntervalFire timerId).2.Noted := by
  unfold Process.noteLegacyPosixTimerIntervalFire
  split
  · exact h
  split
  · exact h
  · exact h.updateTimer (fun _ => ⟨rfl, rfl⟩) (awaits_updateTimer fun _ _ => rfl)

/-! ### Delivery -/

lemma catches_iff : p.catches signum = false ↔
    ∀ index, (p.signals.getAction signum).handler ≠ .handler index := by
  unfold catches
  split
  · next index hh => exact iff_of_false Bool.noConfusion fun h => h index hh
  · next hh => exact iff_of_true rfl hh

lemma Noted.deliverLoop (h : p.Noted) (hc : p.Consistent) (hl : p.Lossless (.deliver fuel tid))
    (hrun : deliverLoop fuel tid p = some p') : p'.Noted := by
  have hcons := consumed_of_deliverLoop hrun
  by_cases hstop : p.state = .stopped
  · refine (unnoticed_of_consumed_stopped h hc hstop (fun hh => ?_) hcons).noted h
    apply hl
    simp [dropped, if_pos (And.intro hstop (catches_iff.mpr hh))]
  · exact h.of_consumed hc hstop hcons

lemma Noted.kernelDequeueSignal (h : p.Noted) (hc : p.Consistent)
    (hl : p.Lossless (.dequeueSignal fuel tid))
    (hrun : kernelDequeueSignal fuel tid p = some (out, p')) : p'.Noted := by
  have hkill : p.state = .stopped → ¬ p.Awaiting sigKill := by
    intro hstop
    apply hl
    simp [dropped, if_pos hstop]
  obtain ⟨q, hcons, hout⟩ := kernelDequeueSignal_cases hrun
  have hq : q.Noted ∧ (p.state = .stopped → ¬ q.Awaiting sigKill) := by
    by_cases hstop : p.state = .stopped
    · have hun := unnoticed_of_consumed_stopped h hc hstop (fun _ => hkill hstop) hcons
      exact ⟨hun.noted h, fun _ => hun.awaiting.not.mpr (hkill hstop)⟩
    · exact ⟨h.of_consumed hc hstop hcons, fun hs => absurd hs hstop⟩
  rcases hout with ⟨-, rfl⟩ | ⟨signum, index, hstate, -, -, hout⟩
  · exact hq.1
  obtain ⟨-, rfl⟩ := Prod.ext_iff.mp hout
  refine (unnoticed_enterHandler signum index).noted (hq.1.dequeueSignalFor ?_ ?_)
  · exact hcons.rule (I := Consistent)
      (fun _ signum hq _ => (Sound.dequeueSignalFor hq tid signum).consistent)
      (fun _ signum hq => (Sound.applyDefaultSignalAction hq signum).consistent) hc
  · intro hs _
    exact hq.2 (hstate.symm.trans hs)

lemma Wedged.deliverLoop (h : Wedged timerId p) (hrun : deliverLoop fuel tid p = some p') :
    Wedged timerId p' :=
  h.of_consumed (consumed_of_deliverLoop hrun)

lemma Wedged.kernelDequeueSignal (h : Wedged timerId p)
    (hrun : kernelDequeueSignal fuel tid p = some (out, p')) : Wedged timerId p' := by
  obtain ⟨q, hcons, ⟨-, rfl⟩ | ⟨signum, index, -, -, -, hout⟩⟩ := kernelDequeueSignal_cases hrun
  · exact h.of_consumed hcons
  obtain ⟨-, rfl⟩ := Prod.ext_iff.mp hout
  exact (unnoticed_enterHandler signum index).wedged
    ((h.of_consumed hcons).dequeueSignalFor tid signum)

section

variable (h : p.Noted) (hc : p.Consistent) (hstop : p.state = .stopped)
  (ha : p.awaits timerId = true) (hk : p.kind timerId = some (.signal, sigKill)) {fuel tid : Nat}

include h hc hstop ha hk

lemma Noted.nextDeliverableSignal_stopped (tid : Nat) :
    p.nextDeliverableSignal tid = some sigKill := by
  have hmem : timerId ∈ p.signals.notes := by
    rw [← count_pos_iff, h.shared, ha]
    decide
  obtain ⟨e, he, het⟩ := mem_notes.mp hmem
  obtain ⟨-, hk'⟩ := h.awaiting_of_mem hc he het
  rw [hk] at hk'
  obtain ⟨-, hsig⟩ := Prod.mk.inj (some.inj hk')
  have hpending : SigMask.Has p.signals.pending sigKill :=
    (hc.shared.pending_iff sigKill (by decide)).mpr ⟨e, he, hsig.symm⟩
  have hany : p.signalPendingAnywhere sigKill = true := by
    unfold signalPendingAnywhere
    rw [if_neg (by decide)]
    simp [hpending]
  unfold nextDeliverableSignal
  rw [if_pos hstop, if_pos hany]

lemma wedged_dequeueSignalFor_kill (tid : Nat) :
    Wedged timerId (p.dequeueSignalFor tid sigKill).2 := by
  unfold dequeueSignalFor
  rw [if_pos ⟨hstop, rfl⟩]
  exact (Unnoticed.clearDirectedSignal sigKill).wedged (wedged_clearShared h hc ha hk)

lemma wedged_deliverLoop_kill (hcatch : p.catches sigKill = false)
    (hrun : deliverLoop fuel tid p = some p') : Wedged timerId p' := by
  have hnext := h.nextDeliverableSignal_stopped hc hstop ha hk tid
  have hwedged := wedged_dequeueSignalFor_kill h hc hstop ha hk tid
  have hact := (Unnoticed.applyDefaultSignalAction sigKill).wedged hwedged
  cases fuel with
  | zero => cases hrun
  | succ =>
    unfold deliverLoop at hrun
    rw [hnext] at hrun
    dsimp only at hrun
    split at hrun
    · next index hh => exact absurd hh (catches_iff.mp hcatch index)
    · split at hrun
      · cases hrun
        exact hact
      split at hrun
      · cases hrun
        exact hact
      · exact hact.deliverLoop hrun
    · split at hrun
      · cases hrun
        exact hwedged
      · exact hwedged.deliverLoop hrun

lemma wedged_kernelDequeueSignal_kill (hrun : kernelDequeueSignal fuel tid p = some (out, p')) :
    Wedged timerId p' := by
  have hnext := h.nextDeliverableSignal_stopped hc hstop ha hk tid
  have hwedged := wedged_dequeueSignalFor_kill h hc hstop ha hk tid
  have hact := (Unnoticed.applyDefaultSignalAction sigKill).wedged hwedged
  cases fuel with
  | zero => cases hrun
  | succ =>
    unfold kernelDequeueSignal at hrun
    rw [hnext] at hrun
    dsimp only at hrun
    split at hrun
    · cases hrun
      exact (unnoticed_enterHandler sigKill _).wedged hwedged
    · split at hrun
      · cases hrun
        exact hact
      · exact hact.kernelDequeueSignal hrun
    · exact hwedged.kernelDequeueSignal hrun

end

/-! ### Runs -/

lemma Noted.step {op : Op} (h : p.Noted) (hc : p.Consistent) (hcalled : op.Called)
    (hl : p.Lossless op) (hstep : p.step op = some p') : p'.Noted := by
  have hc' := hc.step hstep
  cases op with try cases hstep
  | raise s | raiseWithValue s _ =>
    exact ((Unnoticed.prepareSignalGeneration h hc hl).trans Unnoticed.onShared_raise).noted h
  | raiseForThread tid s | raiseForThreadWithValue tid s _ =>
    exact ((Unnoticed.prepareSignalGeneration h hc hl).trans (Unnoticed.raiseDirected tid s
      fun t => Unnoticed.notes_raiseInternal)).noted h
  | raiseShared s => exact Unnoticed.onShared_raise.noted h
  | clearShared s => exact (Unnoticed.clearShared h hc (hl s (mem_singleton_self s))).noted h
  | timerCreate sevp =>
    cases hcreate : p.timerCreate sevp with
    | error => exact h
    | ok => exact h.timerCreate hcreate
  | timerFire => exact h.queuePosixTimerFire hc hl
  | timerIntervalFire timerId => exact h.noteLegacyPosixTimerIntervalFire timerId
  | timerDelete => exact okOr_rule h fun _ hq => h.timerDelete hq
  | sigaction => exact okOr_rule h fun _ hq => h.installs hc (installs_sysSigaction hq)
  | signal => exact okOr_rule h fun _ hq => h.installs hc (installs_sysSignal hq)
  | sigprocmask tid => exact ((Unnoticed.masksKeep tid).blocked _ _ (.refl p)).noted h
  | sigsuspend tid mask =>
    exact ((Unnoticed.masksKeep tid).installTemporaryMask (.refl p) mask).noted h
  | ppoll tid mask wait => exact ((Unnoticed.masksKeep tid).sysPpoll (.refl p) mask wait).noted h
  | resetSignalMask =>
    have hmask : Unnoticed p p.kernelResetSignalMask := Unnoticed.of_queues rfl rfl
    exact hmask.noted h
  | sigtimedwait tid mask => exact h.sysSigtimedwait tid mask
  | consume =>
    apply h.dequeueSignalFor hc
    intro hstop hkill
    apply hl
    simp [dropped, if_pos (And.intro hstop hkill)]
  | dequeueShared | dequeueDirected tid => exact hcalled.elim
  | deliver => exact h.deliverLoop hc hl hstep
  | dequeueSignal =>
    obtain ⟨⟨out, q⟩, hrun, rfl⟩ := map_eq_some_iff.mp hstep
    exact h.kernelDequeueSignal hc hl hrun
  | clone tid => exact (Unnoticed.sysClone tid).noted h
  | threadExit tid => exact (Unnoticed.removeThread tid).noted h
  | exit => exact Unnoticed.recordExit.noted h
  | exec tid =>
    cases hexec : p.commitExecState tid with
    | error => exact h
    | ok =>
      rw [hexec] at hc'
      obtain ⟨q0, -, rfl⟩ := commitExecState_ok hexec
      exact noted_of_no_timers hc' rfl
  | legacyExec =>
    cases hexec : p.legacyExec with
    | error => exact h
    | ok =>
      rw [hexec] at hc'
      obtain ⟨main, -, rfl⟩ := legacyExec_ok hexec
      exact noted_of_no_timers hc' rfl
  | forkChild pid | spawnChild pid _ _ => exact noted_of_no_timers hc' rfl

lemma Noted.wedged_step {op : Op} (h : p.Noted) (hc : p.Consistent) (hl : ¬ p.Lossless op)
    (hstep : p.step op = some p') : ∃ timerId, Wedged timerId p' := by
  obtain ⟨c, hdrop, timerId, ha, hk⟩ : ∃ c ∈ p.dropped op, p.Awaiting c := by
    by_contra hnone
    exact hl fun c hcd hca => hnone ⟨c, hcd, hca⟩
  refine ⟨timerId, ?_⟩
  cases op with try cases hstep
  | raise s | raiseWithValue s _ =>
    exact Unnoticed.onShared_raise.wedged (wedged_prepareSignalGeneration h hc hdrop ha hk)
  | raiseForThread tid s | raiseForThreadWithValue tid s _ =>
    exact (Unnoticed.raiseDirected tid s fun t => Unnoticed.notes_raiseInternal).wedged
      (wedged_prepareSignalGeneration h hc hdrop ha hk)
  | clearShared =>
    rw [mem_singleton.mp hdrop] at hk
    exact wedged_clearShared h hc ha hk
  | timerFire =>
    simp only [dropped] at hdrop
    split at hdrop
    · exact absurd hdrop not_mem_nil
    next timer ht =>
    split at hdrop
    · next hthread =>
      obtain ⟨hn, hd, hf⟩ := hthread
      exact wedged_queuePosixTimerFire_thread ht hn h hc hd hf hdrop ha hk
    · exact absurd hdrop not_mem_nil
  | consume tid =>
    simp only [dropped] at hdrop
    split at hdrop
    · next hkill =>
      rw [mem_singleton.mp hdrop] at hk
      rw [hkill.2]
      exact wedged_dequeueSignalFor_kill h hc hkill.1 ha hk tid
    · exact absurd hdrop not_mem_nil
  | deliver =>
    simp only [dropped] at hdrop
    split at hdrop
    · next hkill =>
      rw [mem_singleton.mp hdrop] at hk
      exact wedged_deliverLoop_kill h hc hkill.1 ha hk hkill.2 hstep
    · exact absurd hdrop not_mem_nil
  | dequeueSignal =>
    obtain ⟨⟨out, q⟩, hrun, rfl⟩ := map_eq_some_iff.mp hstep
    simp only [dropped] at hdrop
    split at hdrop
    · next hstop =>
      rw [mem_singleton.mp hdrop] at hk
      exact wedged_kernelDequeueSignal_kill h hc hstop ha hk hrun
    · exact absurd hdrop not_mem_nil
  | _ => exact absurd hdrop not_mem_nil

/-- As long as nothing a timer waits for is dropped, every timer that notifies the process as a
whole has exactly one instance queued while its notification is pending and none otherwise; the
operation that drops it is where this breaks. -/
theorem timersAccounted_iff_lossless {p : Process}
    (h : ReachedBy (fun p op => op.Called ∧ p.Lossless op) p) :
    p.Accounted ∧ ∀ op p', op.Called → p.step op = some p' → (p'.Accounted ↔ p.Lossless op) := by
  have hnoted : p.Noted := by
    refine h.rule ?_ ?_
    · exact fun pid uid => noted_of_no_timers (Reachable.new pid uid).consistent rfl
    · exact fun q op q' hq hn hok hstep => hn.step hq.consistent hok.1 hok.2 hstep
  have hc := h.reachable.consistent
  refine ⟨hnoted.accounted, ?_⟩
  intro op p' hcalled hstep
  constructor
  · intro ha
    by_contra hl
    obtain ⟨timerId, hwedged⟩ := hnoted.wedged_step hc hl hstep
    exact hwedged.not_accounted ha
  · exact fun hl => (hnoted.step hc hcalled hl hstep).accounted

/-- A timer that notifies with `SIGALRM` expires twice while that is blocked, and the notification
is accepted once it is not. -/
theorem timersAccounted_alarm :
    ∃ p p', ReachedBy (fun p op => op.Called ∧ p.Lossless op) p ∧ p.Accounted ∧ p.noteCount 0 = 1 ∧
      p.step (.sigtimedwait 0 (sigBit 14)) = some p' ∧ p'.Accounted ∧ p'.noteCount 0 = 0 := by
  have hnone : ∀ {p : Process} {op : Op}, p.dropped op = [] → p.Lossless op := by
    intro p op h c hcd
    rw [h] at hcd
    cases hcd
  have h0 : ReachedBy (fun p op => op.Called ∧ p.Lossless op) (new 5 0) := .new 5 0
  have h1 := ReachedBy.step (.timerCreate none) h0 ⟨trivial, hnone rfl⟩ rfl
  have h2 := ReachedBy.step (.sigprocmask 0 .block (sigBit 14)) h1 ⟨trivial, hnone rfl⟩ rfl
  have h3 := ReachedBy.step (.timerFire 0) h2 ⟨trivial, hnone rfl⟩ rfl
  have h4 := ReachedBy.step (.timerFire 0) h3 ⟨trivial, hnone rfl⟩ rfl
  obtain ⟨ha, hstep⟩ := timersAccounted_iff_lossless h4
  have ha' := (hstep (.sigtimedwait 0 (sigBit 14)) _ trivial rfl).mpr (hnone rfl)
  exact ⟨_, _, h4, ha, by decide +kernel, rfl, ha', by decide +kernel⟩

/-- A timer notifies with `SIGTSTP`, which is blocked; `kill` with `SIGCONT` drops the notification.
From then on expirations are counted and nothing is queued. -/
theorem sigcont_wedges_timer :
    ∃ p p', Reachable p ∧ ¬ p.Accounted ∧ p.awaits 0 = true ∧ p.noteCount 0 = 0 ∧
      p.step (.timerFire 0) = some p' ∧ ¬ p'.Accounted ∧ p'.noteCount 0 = 0 ∧
      (p'.posixTimers[0]?.join).map (·.overrunCurrent) = some 1 := by
  have h0 := Reachable.new 5 0
  have h1 := Reachable.step (.timerCreate (some ⟨0, sigTstp, .signal, 0⟩)) h0 rfl
  have h2 := Reachable.step (.sigprocmask 0 .block (sigBit sigTstp)) h1 rfl
  have h3 := Reachable.step (.timerFire 0) h2 rfl
  have h4 := Reachable.step (.raise sigCont) h3 rfl
  have hwedged : ∀ {p : Process}, p.awaits 0 = true → p.noteCount 0 = 0 → ¬ p.Accounted := by
    intro p ha hcount
    obtain ⟨t, ht, hsig⟩ := (any_eq_true _ _).mp ha
    simp only [Bool.and_eq_true, decide_eq_true_eq] at hsig
    intro hacc
    have := hacc 0 t ht hsig.1
    rw [hsig.2, hcount] at this
    cases this
  exact ⟨_, _, h4, hwedged (by decide +kernel) (by decide +kernel), by decide +kernel,
    by decide +kernel, rfl, hwedged (by decide +kernel) (by decide +kernel), by decide +kernel,
    by decide +kernel⟩

end Process

end Kandelo.Kernel.Signal
