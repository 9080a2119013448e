import Kandelo.Kernel.Signal.Queues

/-!
# Stopping and continuing

Generating `SIGCONT` should drop pending stop signals and continue the process,
and generating a stop signal should drop a pending `SIGCONT`. Every way of generating a signal
prepares for this but one: the expiration of a timer that notifies the process as a whole.
-/

namespace Kandelo.Kernel.Signal

open Lib List PendingSet

variable {siValue siCode : Int} {timerId : Nat}

namespace PendingSet

variable {signum : Nat} {q : PendingSet}

/-- Only instances of one signal have been added. -/
def AddsOnly (signum : Nat) (q q' : PendingSet) : Prop :=
  ∀ t, q'.queued t = true → t = signum ∨ q.queued t = true

lemma addsOnly_refl : q.AddsOnly signum q := fun _ ht => .inr ht

lemma addsOnly_push {e : RtSigEntry} (he : e.signum = signum) : q.AddsOnly signum (q.push e) := by
  intro t ht
  obtain ⟨x, hx, rfl⟩ := queued_iff.mp ht
  rcases mem_append.mp hx with hx | hx
  · exact .inr (queued_iff.mpr ⟨x, hx, rfl⟩)
  · rw [mem_singleton.mp hx]
    exact .inl he

lemma addsOnly_generate : q.AddsOnly signum (q.generate signum siValue siCode) := by
  unfold generate
  dsimp only
  split
  · exact addsOnly_push rfl
  split
  · next rtQueue hsome =>
    obtain ⟨before, e, after, hq, -, rfl⟩ := Slice.modifyFirst_eq_some hsome
    intro t ht
    obtain ⟨x, hx, rfl⟩ := queued_iff.mp ht
    right
    rw [queued_iff, hq]
    simp only [setBit, mem_append, mem_cons] at hx ⊢
    rcases hx with hx | rfl | hx
    · exact ⟨x, .inl hx, rfl⟩
    · exact ⟨e, .inr (.inl rfl), by split <;> rfl⟩
    · exact ⟨x, .inr (.inr hx), rfl⟩
  · exact addsOnly_push rfl

lemma addsOnly_raiseTimer : q.AddsOnly signum (q.raiseTimer signum siValue timerId).2 := by
  unfold raiseTimer
  split
  · exact addsOnly_refl
  dsimp only
  split
  · intro t ht
    exact (addsOnly_push rfl t ht).elim .inl fun h => addsOnly_push rfl t h
  · exact addsOnly_push rfl

lemma queued_raiseTimer (hs : Valid signum) {t : Nat} (ht : t = signum ∨ q.queued t = true) :
    (q.raiseTimer signum siValue timerId).2.queued t = true := by
  unfold Valid at hs
  unfold raiseTimer
  rw [if_neg (show ¬ (signum = 0 ∨ signum ≥ nsig) by unfold nsig; omega)]
  dsimp only
  rw [queued_iff]
  rcases ht with rfl | ht
  · exact ⟨_, mem_append_right _ mem_cons_self, rfl⟩
  obtain ⟨e, he, rfl⟩ := queued_iff.mp ht
  refine ⟨e, mem_append_left _ ?_, rfl⟩
  split
  · exact mem_append_left _ he
  · exact he

end PendingSet

namespace Process

variable {p p' q : Process} {signum : Nat}

/-- The signal is pending, in the shared set or in that of a thread. -/
def Pends (p : Process) (signum : Nat) : Prop := ∃ q ∈ p.queues, SigMask.Has q.pending signum

instance (p : Process) (signum : Nat) : Decidable (p.Pends signum) :=
  inferInstanceAs (Decidable (∃ q ∈ p.queues, _))

/-- `SIGCONT` is not pending together with a stop signal. -/
def Separated (p : Process) : Prop := ∀ s ∈ stopSignals, ¬ (p.Pends sigCont ∧ p.Pends s)

/-- The pending signals that a generated one removes. -/
def cancelled (signum : Nat) : List Nat :=
  if signum = sigCont then stopSignals else if signum ∈ stopSignals then [sigCont] else []

/-- The operation generates the signal. An expiration while the last one is pending is counted and
generates nothing. -/
def Generates (p : Process) (op : Op) (signum : Nat) : Prop :=
  match op with
  | .raise s | .raiseWithValue s _ | .raiseForThread _ s | .raiseForThreadWithValue _ s _
  | .raiseShared s => s = signum
  | .timerFire timerId => ∃ timer, p.posixTimers[timerId]?.join = some timer ∧
      (timer.sigevNotify = .signal ∨ timer.sigevNotify = .threadId) ∧
      timer.notificationPending = false ∧ timer.sigevSigno = signum
  | _ => False

/-- A signal that would be ignored is not kept pending. -/
def discards (p : Process) (signum : Nat) : Bool :=
  shouldDiscardPending signum (p.signals.getHandler signum)

/-- A timer expires where the preparation was needed: its signal is queued although one that should
be dropped is pending, or is `SIGCONT` and does not continue the process. -/
def Bypassed (p : Process) : Op → Prop
  | .timerFire timerId => ∃ timer, p.posixTimers[timerId]?.join = some timer ∧
      timer.notificationPending = false ∧
      (timer.sigevNotify = .signal ∧ p.discards timer.sigevSigno = false ∧
          (∃ s ∈ cancelled timer.sigevSigno, p.Pends s) ∨
        timer.sigevSigno = sigCont ∧ p.state = .stopped ∧
          (timer.sigevNotify = .signal ∨
            timer.sigevNotify = .threadId ∧ p.discards timer.sigevSigno = true))
  | _ => False

/-! ### Bits and queues -/

lemma valid_of_mem_stopSignals (h : s ∈ stopSignals) : Valid s := by
  simp only [stopSignals, mem_cons, not_mem_nil, or_false] at h
  rcases h with rfl | rfl | rfl | rfl <;> decide

lemma valid_sigCont : Valid sigCont := by decide

lemma valid_of_mem_cancelled (h : c ∈ cancelled s) : Valid c := by
  unfold cancelled at h
  split at h
  · exact valid_of_mem_stopSignals h
  split at h
  · rw [mem_singleton.mp h]
    exact valid_sigCont
  · exact absurd h not_mem_nil

lemma Consistent.pends_iff (h : p.Consistent) (hs : Valid s) : p.Pends s ↔ p.Queued s := by
  have hset : ∀ q ∈ p.queues, (SigMask.Has q.pending s ↔ q.queued s = true) := fun q hq =>
    ((h.of_mem_queues hq).pending_iff s hs).trans queued_iff.symm
  constructor
  · rintro ⟨q, hq, hqs⟩
    exact ⟨q, hq, (hset q hq).mp hqs⟩
  · rintro ⟨q, hq, hqs⟩
    exact ⟨q, hq, (hset q hq).mpr hqs⟩

lemma Consistent.separated_iff (h : p.Consistent) :
    p.Separated ↔ ∀ s ∈ stopSignals, ¬ (p.Queued sigCont ∧ p.Queued s) := by
  refine forall₂_congr fun s hs => ?_
  rw [h.pends_iff valid_sigCont, h.pends_iff (valid_of_mem_stopSignals hs)]

/-! ### Preparation -/

lemma queues_recordContinue : p.recordContinue.queues = p.queues := by
  unfold recordContinue
  split <;> rfl

lemma fewer_prepareSignalGeneration : Fewer p (p.prepareSignalGeneration signum) := by
  unfold prepareSignalGeneration
  split
  · exact fewer_refl p
  split
  · refine Fewer.trans ?_ (fewer_of_queues queues_recordContinue)
    exact Fold.foldl_keeps (I := Fewer p)
      (fun q s _ hq => hq.trans (fewer_clearSignalEverywhere s)) (fewer_refl p)
  · split
    · exact fewer_clearSignalEverywhere sigCont
    · exact fewer_refl p

lemma not_queued_prepareSignalGeneration (hc : c ∈ cancelled signum) :
    ¬ (p.prepareSignalGeneration signum).Queued c := by
  have hc' := hc
  unfold cancelled at hc
  split at hc
  · next hcont =>
    subst hcont
    -- all four are cleared, and what was cleared stays so
    have hgone : ¬ (stopSignals.foldl clearSignalEverywhere p).Queued c :=
      Fold.foldl_reaches (I := fun _ => True) (Q := fun q : Process => ¬ q.Queued c)
        (fun _ _ _ => trivial)
        (fun _ s h hq => h ((fewer_clearSignalEverywhere s).queued hq)) hc
        (fun _ _ => not_queued_clearSignalEverywhere (valid_of_mem_cancelled hc')) trivial
    change ¬ (stopSignals.foldl clearSignalEverywhere p).recordContinue.Queued c
    exact fun hq => hgone ((fewer_of_queues queues_recordContinue).queued hq)
  · next hcont =>
    split at hc
    · next hstop =>
      have hvalid := valid_of_mem_stopSignals hstop
      unfold Valid at hvalid
      rw [mem_singleton.mp hc, prepareSignalGeneration,
        if_neg (show ¬ (signum = 0 ∨ signum ≥ nsig) by unfold nsig; omega),
          if_neg hcont, if_pos hstop]
      exact not_queued_clearSignalEverywhere valid_sigCont
    · exact absurd hc not_mem_nil

lemma state_prepare_sigCont : (p.prepareSignalGeneration sigCont).state ≠ .stopped := by
  change (stopSignals.foldl clearSignalEverywhere p).recordContinue.state ≠ .stopped
  generalize stopSignals.foldl clearSignalEverywhere p = q
  unfold recordContinue
  split
  · next hne => exact hne
  · exact ProcessState.noConfusion

/-! ### Queueing -/

/-- Only instances of one signal have been added. -/
def Adds (signum : Nat) (p p' : Process) : Prop := ∀ t, p'.Queued t → t = signum ∨ p.Queued t

lemma adds_of_fewer (h : Fewer p p') : Adds signum p p' := fun _ ht => .inr (h.queued ht)

lemma adds_setPending {s : SignalState}
    (h : p.signals.toPendingSet.AddsOnly signum s.toPendingSet) :
    Adds signum p { p with signals := s } := by
  rintro t ⟨q, hq, hqt⟩
  simp only [queues, mem_cons] at hq
  rcases hq with rfl | hq
  · exact (h t hqt).imp_right fun hp => ⟨_, mem_cons_self, hp⟩
  · exact .inr ⟨q, mem_cons_of_mem _ (mem_cons.mpr hq), hqt⟩

lemma adds_updateDirected (tid : Nat) {f : PerThreadSignalState → PerThreadSignalState}
    (hf : ∀ t : PerThreadSignalState, t.toPendingSet.AddsOnly signum (f t).toPendingSet) :
    Adds signum p (p.updateDirected tid f) := by
  rintro t ⟨q, hq, hqt⟩
  unfold updateDirected at hq
  split at hq
  · simp only [queues, mem_cons] at hq
    rcases hq with rfl | rfl | hq
    · exact .inr ⟨_, mem_cons_self, hqt⟩
    · exact (hf _ t hqt).imp_right fun hp => ⟨_, mem_cons_of_mem _ mem_cons_self, hp⟩
    · exact .inr ⟨q, mem_cons_of_mem _ (mem_cons_of_mem _ hq), hqt⟩
  obtain ⟨threads, heq, hthreads⟩ := updateThread_eq p tid f
  rw [heq] at hq
  simp only [queues, mem_cons, mem_map] at hq
  rcases hq with rfl | rfl | ⟨w, hw, rfl⟩
  · exact .inr ⟨_, mem_cons_self, hqt⟩
  · exact .inr ⟨_, mem_cons_of_mem _ mem_cons_self, hqt⟩
  unfold Queued
  simp only [queues, mem_cons, mem_map]
  rcases hthreads w hw with hw | ⟨u, hu, rfl⟩
  · exact .inr ⟨_, .inr (.inr ⟨w, hw, rfl⟩), hqt⟩
  · exact (hf _ t hqt).imp_right fun hp => ⟨_, .inr (.inr ⟨u, hu, rfl⟩), hp⟩

lemma adds_onShared_raise :
    Adds signum p (p.onShared (·.raiseInternal signum siValue siCode)).2 := by
  apply adds_setPending
  unfold SignalState.raiseInternal
  dsimp only
  split
  · exact addsOnly_refl
  split
  · exact addsOnly_refl
  · exact addsOnly_generate

lemma addsOnly_raiseInternal {t : PerThreadSignalState} :
    t.toPendingSet.AddsOnly signum (t.raiseInternal signum siValue siCode).2.toPendingSet := by
  unfold PerThreadSignalState.raiseInternal
  split
  · exact addsOnly_refl
  · exact addsOnly_generate

lemma adds_raiseDirected {tid : Nat}
    {raise : PerThreadSignalState → Bool × PerThreadSignalState}
    (hr : ∀ t : PerThreadSignalState, t.toPendingSet.AddsOnly signum (raise t).2.toPendingSet) :
    Adds signum (p.prepareSignalGeneration signum) (p.raiseDirected tid signum raise).2 := by
  unfold raiseDirected
  dsimp only
  split
  · exact adds_of_fewer (fewer_refl _)
  split
  · exact adds_of_fewer (fewer_refl _)
  split
  · exact adds_updateDirected tid hr
  · exact adds_of_fewer (fewer_refl _)

lemma separated_of_adds (signum : Nat) (hp : p.Consistent) (hp' : p'.Consistent)
    (h : p.Separated) (hf : Fewer p q) (hnone : ∀ c ∈ cancelled signum, ¬ q.Queued c)
    (hadds : Adds signum q p') : p'.Separated := by
  rw [hp.separated_iff] at h
  rw [hp'.separated_iff]
  rintro s hs ⟨hcont, hstop⟩
  have hne : s ≠ sigCont := by
    rintro rfl
    exact absurd hs (by decide)
  rcases hadds sigCont hcont with rfl | hcont
  · rcases hadds s hstop with rfl | hstop
    · exact hne rfl
    · exact hnone s (by rw [cancelled]; exact hs) hstop
  · rcases hadds s hstop with rfl | hstop
    · refine hnone sigCont ?_ hcont
      rw [cancelled, if_neg hne, if_pos hs]
      exact mem_singleton_self _
    · exact h s hs ⟨hf.queued hcont, hf.queued hstop⟩

/-! ### One operation -/

lemma separated_generated (hp : p.Consistent) (hp' : p'.Consistent)
    (h : p.Separated) (hadds : Adds signum (p.prepareSignalGeneration signum) p') : p'.Separated :=
  separated_of_adds signum hp hp' h fewer_prepareSignalGeneration
    (fun _ hc => not_queued_prepareSignalGeneration hc) hadds

lemma state_raiseDirected (tid signum : Nat)
    (raise : PerThreadSignalState → Bool × PerThreadSignalState) :
    (p.raiseDirected tid signum raise).2.state = (p.prepareSignalGeneration signum).state := by
  unfold raiseDirected
  dsimp only
  split
  · rfl
  split
  · rfl
  split
  · exact state_updateDirected
  · rfl

/-! ### Expirations -/

/-- A timer has a notification that is not delivered yet. -/
def setNotificationPending (p : Process) (timerId : Nat) : Process :=
  p.updateTimer timerId fun t => { t with notificationPending := true }

lemma updateTimer_id (p : Process) (timerId : Nat) : p.updateTimer timerId (fun t => t) = p := by
  have hmap : (fun slot : Option PosixTimerState => slot.map fun t => t) = id := by
    funext slot
    exact Option.map_id'
  simp only [updateTimer, hmap, modify_id]

section

variable {timerId : Nat} {timer : PosixTimerState}

lemma queuePosixTimerFire_silent (ht : p.posixTimers[timerId]?.join = some timer)
    (h : timer.sigevNotify = .none ∨ p.discards timer.sigevSigno = true ∨
      timer.notificationPending = true) :
    ∃ f : PosixTimerState → PosixTimerState,
      (∀ t, (f t).sigevNotify = t.sigevNotify ∧ (f t).sigevSigno = t.sigevSigno ∧
        (f t).notificationPending = t.notificationPending) ∧
      (p.queuePosixTimerFire timerId).2 = p.updateTimer timerId f := by
  have hid := updateTimer_id p timerId
  unfold queuePosixTimerFire
  rw [ht]
  dsimp only
  split
  · exact ⟨fun t => t, fun _ => ⟨rfl, rfl, rfl⟩, hid.symm⟩
  next hn =>
  split
  · exact ⟨fun t => t, fun _ => ⟨rfl, rfl, rfl⟩, hid.symm⟩
  next hd =>
  split
  · refine ⟨_, ?_, rfl⟩
    exact fun _ => ⟨rfl, rfl, rfl⟩
  next hf =>
  rcases h with h | h | h
  · exact absurd h hn
  · exact absurd h hd
  · exact absurd h hf

variable (ht : p.posixTimers[timerId]?.join = some timer) (hd : p.discards timer.sigevSigno = false)
  (hf : timer.notificationPending = false)

include ht hd hf

lemma queuePosixTimerFire_signal (hn : timer.sigevNotify = .signal) :
    (p.queuePosixTimerFire timerId).2 =
      { p.setNotificationPending timerId with
        signals := { p.signals with
          toPendingSet :=
            (p.signals.raiseTimer timer.sigevSigno timer.sigevValue timerId).2 } } := by
  rw [discards] at hd
  unfold queuePosixTimerFire
  rw [ht]
  simp only [hn, hd, hf]
  rfl

lemma queuePosixTimerFire_thread (hn : timer.sigevNotify = .threadId) :
    ∃ f : PosixTimerState → PosixTimerState,
      (∀ t, (f t).sigevNotify = t.sigevNotify ∧ (f t).sigevSigno = t.sigevSigno) ∧
      (p.queuePosixTimerFire timerId).2 =
        ((p.setNotificationPending timerId).raiseTimerForThread timer.sigevTid timer.sigevSigno
          timer.sigevValue timerId).2.updateTimer timerId f := by
  rw [discards] at hd
  unfold queuePosixTimerFire
  rw [ht]
  simp only [hn, hd, hf, reduceCtorEq, if_false]
  split
  · exact ⟨fun t => t, fun _ => ⟨rfl, rfl⟩, (updateTimer_id _ _).symm⟩
  · refine ⟨_, ?_, rfl⟩
    exact fun _ => ⟨rfl, rfl⟩

lemma queuePosixTimerFire_other {mode : Nat} (hn : timer.sigevNotify = .other mode) :
    (p.queuePosixTimerFire timerId).2 = p.setNotificationPending timerId := by
  rw [discards] at hd
  unfold queuePosixTimerFire
  rw [ht]
  simp only [hn, hd, hf]
  rfl

end

lemma valid_of_cancels (h : c ∈ cancelled signum) : Valid signum := by
  unfold cancelled at h
  split at h
  · next hcont =>
    rw [hcont]
    exact valid_sigCont
  · split at h
    · next hstop => exact valid_of_mem_stopSignals hstop
    · exact absurd h not_mem_nil

lemma not_separated_of_cancelled (hp : p.Consistent) (hc : c ∈ cancelled signum)
    (hs : p.Queued signum) (hcq : p.Queued c) : ¬ p.Separated := by
  rw [hp.separated_iff]
  intro hsep
  unfold cancelled at hc
  split at hc
  · next hcont =>
    subst hcont
    exact hsep c hc ⟨hs, hcq⟩
  · split at hc
    · next hstop =>
      rw [mem_singleton.mp hc] at hcq
      exact hsep signum hstop ⟨hcq, hs⟩
    · exact absurd hc not_mem_nil

lemma separated_unprepared_iff {timer : PosixTimerState} (hp : p.Consistent)
    (hp' : p'.Consistent) (h : p.Separated) (hshared : p'.signals.toPendingSet =
      (p.signals.raiseTimer timer.sigevSigno timer.sigevValue timerId).2)
    (hmain : p'.mainThreadSignals = p.mainThreadSignals) (hworkers : p'.threads = p.threads) :
    p'.Separated ↔ ¬ ∃ s ∈ cancelled timer.sigevSigno, p.Pends s := by
  have hqueues : p'.queues =
      (p.signals.raiseTimer timer.sigevSigno timer.sigevValue timerId).2 :: p.queues.tail := by
    simp [queues, hshared, hmain, hworkers]
  constructor
  · rintro hsep ⟨c, hc, hpc⟩
    have hvalid := valid_of_cancels hc
    -- both are queued afterwards
    have hkeep : ∀ t, t = timer.sigevSigno ∨ p.Queued t → p'.Queued t := by
      intro t ht
      unfold Queued
      rw [hqueues]
      rcases ht with ht | ⟨q, hq, hqt⟩
      · exact ⟨_, mem_cons_self, queued_raiseTimer hvalid (.inl ht)⟩
      rcases mem_cons.mp hq with rfl | hq
      · exact ⟨_, mem_cons_self, queued_raiseTimer hvalid (.inr hqt)⟩
      · exact ⟨q, mem_cons_of_mem _ hq, hqt⟩
    have hcq := (hp.pends_iff (valid_of_mem_cancelled hc)).mp hpc
    exact not_separated_of_cancelled hp' hc (hkeep _ (.inl rfl)) (hkeep _ (.inr hcq)) hsep
  · intro hnone
    refine separated_of_adds timer.sigevSigno hp hp' h (fewer_refl p) ?_ ?_
    · intro c hc hcq
      exact hnone ⟨c, hc, (hp.pends_iff (valid_of_mem_cancelled hc)).mpr hcq⟩
    rintro t ⟨q, hq, hqt⟩
    rw [hqueues] at hq
    rcases mem_cons.mp hq with rfl | hq
    · exact (addsOnly_raiseTimer t hqt).imp_right
        fun hs => ⟨_, mem_cons_self, hs⟩
    · exact .inr ⟨q, mem_cons_of_mem _ hq, hqt⟩

lemma timerFire_iff (hp : p.Consistent)
    (hp' : (p.queuePosixTimerFire timerId).2.Consistent) (h : p.Separated) :
    (p.queuePosixTimerFire timerId).2.Separated ∧
        (Generates p (.timerFire timerId) sigCont →
          (p.queuePosixTimerFire timerId).2.state ≠ .stopped) ↔
      ¬ Bypassed p (.timerFire timerId) := by
  cases ht : p.posixTimers[timerId]?.join with
  | none =>
    have hsame : (p.queuePosixTimerFire timerId).2 = p := by
      unfold queuePosixTimerFire
      rw [ht]
    rw [hsame]
    refine iff_of_true ⟨h, ?_⟩ ?_
    · rintro ⟨timer, ht', -⟩
      rw [ht] at ht'
      cases ht'
    · rintro ⟨timer, ht', -⟩
      rw [ht] at ht'
      cases ht'
  | some timer =>
    simp only [Generates, Bypassed, ht, Option.some_inj, exists_eq_left']
    by_cases hsilent : timer.sigevNotify = .none ∨ p.discards timer.sigevSigno = true ∨
        timer.notificationPending = true
    · obtain ⟨f, -, hf⟩ := queuePosixTimerFire_silent ht hsilent
      have hsep : (p.queuePosixTimerFire timerId).2.Separated := by
        rw [hf]
        exact h
      have hstate : (p.queuePosixTimerFire timerId).2.state = p.state := by rw [hf]; rfl
      rw [hstate]
      rcases hsilent with hn | hd | hflag
      · simp [hsep, hn]
      · simp only [hsep]
        grind
      · simp [hsep, hflag]
    rw [not_or, not_or] at hsilent
    obtain ⟨hn, hd, hflag⟩ := hsilent
    have hd := Bool.eq_false_iff.mpr hd
    have hflag := Bool.eq_false_iff.mpr hflag
    cases hmode : timer.sigevNotify with
    | none => exact absurd hmode hn
    | signal =>
      have heq := queuePosixTimerFire_signal ht hd hflag hmode
      rw [separated_unprepared_iff hp hp' h (by rw [heq]) (by rw [heq]; rfl) (by rw [heq]; rfl)]
      have hstate : (p.queuePosixTimerFire timerId).2.state = p.state := by rw [heq]; rfl
      rw [hstate]
      simp only
      grind
    | threadId =>
      obtain ⟨f, -, heq⟩ := queuePosixTimerFire_thread ht hd hflag hmode
      have hadds : Adds timer.sigevSigno
          ((p.setNotificationPending timerId).prepareSignalGeneration timer.sigevSigno)
          (p.queuePosixTimerFire timerId).2 := by
        rw [heq]
        exact adds_raiseDirected fun t => addsOnly_raiseTimer
      have hset : Fewer p (p.setNotificationPending timerId) := fewer_of_queues rfl
      have hsep : (p.queuePosixTimerFire timerId).2.Separated :=
        separated_of_adds _ hp hp' h (hset.trans fewer_prepareSignalGeneration)
          (fun _ hc => not_queued_prepareSignalGeneration hc) hadds
      refine iff_of_true ⟨hsep, ?_⟩ ?_
      · rintro ⟨-, -, hcont⟩
        rw [heq]
        change (raiseDirected _ _ _ _).2.state ≠ _
        rw [state_raiseDirected, hcont]
        exact state_prepare_sigCont
      · simp [hd]
    | other =>
      have heq := queuePosixTimerFire_other ht hd hflag hmode
      have hsep : (p.queuePosixTimerFire timerId).2.Separated := by
        rw [heq]
        exact h
      simp [hsep]

/-! ### Runs -/

lemma step_iff {op : Op} (hp : p.Consistent) (hcalled : op.Called) (h : p.Separated)
    (hstep : p.step op = some p') :
    p'.Separated ∧ (Generates p op sigCont → p'.state ≠ .stopped) ↔ ¬ Bypassed p op := by
  have hp' := hp.step hstep
  cases op with
  | timerFire =>
    cases hstep
    exact timerFire_iff hp hp' h
  | raise signum | raiseWithValue signum _ =>
    cases hstep
    refine iff_of_true ⟨separated_generated hp hp' h adds_onShared_raise, ?_⟩ id
    rintro rfl
    exact state_prepare_sigCont
  | raiseForThread tid signum | raiseForThreadWithValue tid signum _ =>
    cases hstep
    refine iff_of_true ⟨separated_generated hp hp' h
      (adds_raiseDirected fun t => addsOnly_raiseInternal), ?_⟩ id
    rintro rfl
    change (raiseDirected _ _ _ _).2.state ≠ _
    rw [state_raiseDirected]
    exact state_prepare_sigCont
  | raiseShared signum =>
    cases hstep
    -- the kernel raises nothing here that drops another signal
    have hnone : cancelled signum = [] ∧ signum ≠ sigCont := by
      rcases hcalled with rfl | rfl | rfl <;> decide
    refine iff_of_true ⟨?_, fun hg => absurd hg hnone.2⟩ id
    apply separated_of_adds signum hp hp' h (fewer_refl p) _ adds_onShared_raise
    rw [hnone.1]
    exact fun c hc => absurd hc not_mem_nil
  | _ =>
    refine iff_of_true ⟨?_, fun hg => hg.elim⟩ id
    rw [hp'.separated_iff]
    rintro s hs ⟨hcont, hstop⟩
    rw [hp.separated_iff] at h
    exact h s hs ⟨queued_of_step hp rfl hcalled hstep valid_sigCont hcont,
      queued_of_step hp rfl hcalled hstep (valid_of_mem_stopSignals hs) hstop⟩

/-- As long as no expiration bypasses the preparation, `SIGCONT` and stop signals are never pending
together and `SIGCONT` continues the process; the expiration that does is where this breaks. -/
theorem jobControl_iff_not_bypassed {p : Process}
    (h : ReachedBy (fun p op => op.Called ∧ ¬ Bypassed p op) p) :
    p.Separated ∧ ∀ op p', op.Called → p.step op = some p' →
      (p'.Separated ∧ (Generates p op sigCont → p'.state ≠ .stopped) ↔ ¬ Bypassed p op) := by
  have hsep : p.Separated := by
    refine h.rule ?_ ?_
    · rintro pid uid s - ⟨⟨q, hq, hqs⟩, -⟩
      simp only [Process.new, queues, map_nil, mem_cons, not_mem_nil, or_false] at hq
      rcases hq with rfl | rfl <;> exact has_zero _ hqs
    · intro q op q' hq hsep hok hstep
      exact ((step_iff hq.consistent hok.1 hsep hstep).mpr hok.2).1
  exact ⟨hsep, fun op p' hcalled hstep => step_iff h.reachable.consistent hcalled hsep hstep⟩

/-- `kill` with `SIGCONT` after `kill` with `SIGTSTP`: only the later one is pending, and a process
that had stopped runs again. -/
theorem jobControl_stop_continue :
    ∃ p, ReachedBy (fun p op => op.Called ∧ ¬ Bypassed p op) p ∧ p.Separated ∧ p.Pends sigCont ∧
      p.state = .running := by
  have h0 : ReachedBy (fun p op => op.Called ∧ ¬ Bypassed p op) (Process.new 5 0) := .new 5 0
  have h1 := ReachedBy.step (.raise sigTstp) h0 ⟨trivial, id⟩ rfl
  have h2 := ReachedBy.step (.dequeueSignal 1 0) h1 ⟨trivial, id⟩ rfl
  have h3 := ReachedBy.step (.raise sigCont) h2 ⟨trivial, id⟩ rfl
  exact ⟨_, h3, (jobControl_iff_not_bypassed h3).1, by decide +kernel, by decide +kernel⟩

/-- A timer that notifies the process with `SIGCONT` expires while `SIGTSTP` is pending and blocked,
and another while the process is stopped: both signals are pending, and the process stays stopped.
-/
theorem timer_sigcont_bypasses_preparation :
    (∃ p, Reachable p ∧ p.Pends sigCont ∧ p.Pends sigTstp) ∧
      ∃ p p', Reachable p ∧ p.state = .stopped ∧ Generates p (.timerFire 0) sigCont ∧
        p.step (.timerFire 0) = some p' ∧ p'.state = .stopped := by
  have h0 := Reachable.new 5 0
  have h1 := Reachable.step (.timerCreate (some ⟨0, sigCont, .signal, 0⟩)) h0 rfl
  constructor
  · have h2 := Reachable.step (.sigprocmask 0 .block (sigBit sigTstp)) h1 rfl
    have h3 := Reachable.step (.raise sigTstp) h2 rfl
    have h4 := Reachable.step (.timerFire 0) h3 rfl
    exact ⟨_, h4, by decide +kernel, by decide +kernel⟩
  · have h2 := Reachable.step (.raise sigTstp) h1 rfl
    have h3 := Reachable.step (.dequeueSignal 1 0) h2 rfl
    exact ⟨_, _, h3, by decide +kernel, ⟨_, rfl, .inl rfl, rfl, rfl⟩, rfl, by decide +kernel⟩

end Process

end Kandelo.Kernel.Signal
