import Kandelo.Kernel.Signal.TimerNotes

/-!
# Accounting for timer notifications

What each operation does to the notes, and when a timer that notifies the process
as a whole is left waiting for a notification that nobody will accept.
-/

namespace Kandelo.Kernel.Signal

open List PendingSet

namespace Process

variable {f : PosixTimerState → PosixTimerState} {q : PendingSet} {tid signum sig : Nat}
  {p p' : Process} {timerId : Nat}

/-! ### One timer -/

lemma timer_updateTimer (timerId : Nat) (f : PosixTimerState → PosixTimerState) (x : Nat) :
    (p.updateTimer timerId f).posixTimers[x]?.join =
      if x = timerId then (p.posixTimers[x]?.join).map f else p.posixTimers[x]?.join := by
  simp only [updateTimer, getElem?_modify]
  by_cases h : x = timerId
  · subst h
    cases p.posixTimers[x]? with
    | none => simp
    | some => simp
  · simp [h, Ne.symm h]

lemma kind_updateTimer
    (hf : ∀ t, (f t).sigevNotify = t.sigevNotify ∧ (f t).sigevSigno = t.sigevSigno) :
    (p.updateTimer timerId f).kind = p.kind := by
  funext x
  unfold kind
  rw [timer_updateTimer]
  split
  · rw [Option.map_map]
    congr 1
    funext t
    simp [hf t]
  · rfl

lemma awaits_updateTimer (hf : ∀ t, p.posixTimers[timerId]?.join = some t →
      (decide ((f t).sigevNotify = .signal) && (f t).notificationPending) =
        (decide (t.sigevNotify = .signal) && t.notificationPending)) :
    (p.updateTimer timerId f).awaits = p.awaits := by
  funext x
  unfold awaits
  rw [timer_updateTimer]
  split
  · next hx =>
    subst hx
    cases ht : p.posixTimers[x]?.join with
    | none => rfl
    | some t => exact hf t ht
  · rfl

lemma kind_acceptPosixTimerNotification :
    (p.acceptPosixTimerNotification timerId).2.kind = p.kind := by
  unfold acceptPosixTimerNotification
  split
  · rfl
  split
  · rfl
  · exact kind_updateTimer fun _ => ⟨rfl, rfl⟩

lemma awaits_acceptPosixTimerNotification (x : Nat) :
    (p.acceptPosixTimerNotification timerId).2.awaits x = (p.awaits x && decide (x ≠ timerId)) := by
  by_cases hx : x = timerId
  · subst hx
    unfold acceptPosixTimerNotification
    split
    · next ht => simp [awaits, ht]
    next t ht =>
    split
    · next hflag =>
      have hflag : t.notificationPending = false := by simpa using hflag
      simp [awaits, ht, hflag]
    · simp [awaits, timer_updateTimer, ht]
  · unfold acceptPosixTimerNotification
    split
    · simp [hx]
    split
    · simp [hx]
    · simp [awaits, timer_updateTimer, hx]

lemma queues_sigInfoOf (signum : Nat) (info : PendingSignalInfo) :
    (p.sigInfoOf signum info).2.queues = p.queues := by
  unfold sigInfoOf
  split
  · exact queues_acceptPosixTimerNotification _
  · rfl

lemma kind_sigInfoOf (info : PendingSignalInfo) : (p.sigInfoOf signum info).2.kind = p.kind := by
  unfold sigInfoOf
  split
  · exact kind_acceptPosixTimerNotification
  · rfl

lemma awaits_sigInfoOf (info : PendingSignalInfo) (x : Nat) :
    (p.sigInfoOf signum info).2.awaits x = (p.awaits x && decide (info.timerId ≠ some x)) := by
  unfold sigInfoOf
  split
  · next timerId ht =>
    rw [awaits_acceptPosixTimerNotification, ht]
    simp [eq_comm]
  · next ht => simp [ht]

lemma Noted.accepted (h : p.Noted) (accepts : Nat → Bool)
    (hshared : ∀ x, p'.signals.notes.count x =
      if accepts x = true then 0 else p.signals.notes.count x)
    (hawaits : ∀ x, p'.awaits x = (p.awaits x && !accepts x)) (hkind : p'.kind = p.kind)
    (hdirected : ∀ q' ∈ p'.directedQueues, ∃ q ∈ p.directedQueues, q'.notes ⊆ q.notes) :
    p'.Noted where
  shared x := by
    rw [hshared, hawaits, h.shared]
    cases accepts x <;> simp
  directed q' hq' x hx := by
    obtain ⟨q, hq, hsub⟩ := hdirected q' hq'
    rw [hkind]
    exact h.directed q hq x (hsub hx)
  valid := by
    rw [hkind]
    exact h.valid

/-! ### Acceptance -/

lemma mem_directedQueues_of_directed {t : PerThreadSignalState}
    (h : p.directed tid = some t) : t.toPendingSet ∈ p.directedQueues := by
  unfold directed at h
  split at h
  · cases h
    exact mem_cons_self
  · obtain ⟨w, hw, rfl⟩ := Option.map_eq_some_iff.mp h
    exact mem_cons_of_mem _ (mem_map_of_mem (mem_of_find?_eq_some hw))

lemma mem_notes_of_consumed (h : (q.consumePendingInfo signum).1.timerId = some timerId) :
    timerId ∈ q.notes := by
  have hcount := count_notes_consumePendingInfo (q := q) signum timerId
  rw [if_pos h] at hcount
  exact count_pos_iff.mp (by omega)

lemma consumeSignalFor_cases (tid signum : Nat) :
    p.consumeSignalFor tid signum = (none, p) ∨
      ∃ info, (p.consumeSignalFor tid signum).1 = some info ∧
        (p.consumeSignalFor tid signum).2.posixTimers = p.posixTimers ∧
        ((p.consumeSignalFor tid signum).2.signals = p.signals ∧
            (∀ x, info.timerId = some x → ∃ q ∈ p.directedQueues, x ∈ q.notes) ∨
          ∀ x, p.signals.notes.count x = (p.consumeSignalFor tid signum).2.signals.notes.count x +
            if info.timerId = some x then 1 else 0) := by
  unfold consumeSignalFor
  split
  · next t ht =>
    have hdirected := Option.eq_some_of_filter_eq_some ht
    obtain ⟨hs, htimers⟩ := signals_updateDirected (p := p) fun t =>
      { t with toPendingSet := (t.consumePendingInfo signum).2 }
    exact .inr ⟨_, rfl, htimers, .inl ⟨hs, fun x hx =>
      ⟨_, mem_directedQueues_of_directed hdirected, mem_notes_of_consumed hx⟩⟩⟩
  · split
    · exact .inr ⟨_, rfl, rfl, .inr fun x => count_notes_consumePendingInfo signum x⟩
    · exact .inl rfl

lemma Noted.not_awaits_of_directed (h : p.Noted) (hq : q ∈ p.directedQueues)
    (hmem : timerId ∈ q.notes) : p.awaits timerId = false := by
  rw [Bool.eq_false_iff]
  intro hawaits
  obtain ⟨signum, hk⟩ := kind_of_awaits hawaits
  exact h.not_mem_directed hk hq hmem

lemma Noted.consumed (h : p.Noted) {info : PendingSignalInfo}
    (hinfo : (p.consumeSignalFor tid signum).1 = some info) (s : Nat) :
    ((p.consumeSignalFor tid signum).2.sigInfoOf s info).2.Noted := by
  obtain hnone | ⟨info', hinfo', htimers, hfrom⟩ := consumeSignalFor_cases (p := p) tid signum
  · rw [hnone] at hinfo
    cases hinfo
  cases hinfo'.symm.trans hinfo
  have hqueues := queues_sigInfoOf (p := (p.consumeSignalFor tid signum).2) s info
  apply h.accepted (fun x => decide (info.timerId = some x))
  · intro x
    rw [(cons.inj hqueues).1]
    rcases hfrom with ⟨hsame, hdirected⟩ | hcount
    · rw [hsame]
      split
      · next hx =>
        obtain ⟨q, hq, hmem⟩ := hdirected x (of_decide_eq_true hx)
        rw [h.shared, h.not_awaits_of_directed hq hmem]
        rfl
      · rfl
    · have hx := hcount x
      have hle : p.signals.notes.count x ≤ 1 := by
        rw [h.shared]
        split <;> omega
      simp only [decide_eq_true_eq]
      split at hx
      · next heq =>
        rw [if_pos heq]
        omega
      · next heq =>
        rw [if_neg heq]
        omega
  · intro x
    rw [awaits_sigInfoOf]
    unfold awaits
    rw [htimers]
    simp
  · rw [kind_sigInfoOf]
    unfold kind
    rw [htimers]
  · exact ((fewer_consumeSignalFor tid signum).trans (fewer_sigInfoOf s info)).directed_notes

lemma Noted.dequeueSignalFor (h : p.Noted) (hc : p.Consistent)
    (hkill : p.state = .stopped → signum = sigKill → ¬ p.Awaiting sigKill) :
    (p.dequeueSignalFor tid signum).2.Noted := by
  unfold Process.dequeueSignalFor
  split
  · next hs =>
    obtain ⟨hstop, rfl⟩ := hs
    exact (Unnoticed.clearSignalEverywhere h hc (hkill hstop rfl)).noted h
  dsimp only
  cases hinfo : (p.consumeSignalFor tid signum).1 with
  | some => exact h.consumed hinfo signum
  | none =>
    obtain hnone | ⟨info, hinfo', -⟩ := consumeSignalFor_cases (p := p) tid signum
    · rw [hnone]
      exact h
    · rw [hinfo] at hinfo'
      cases hinfo'

lemma Noted.sysSigtimedwait (h : p.Noted) (tid : Nat) (mask : SigMask) :
    (p.sysSigtimedwait tid mask).2.Noted := by
  unfold Process.sysSigtimedwait
  dsimp only
  split
  · exact h
  split
  · have hcases := consumeSignalFor_cases (p := p) tid (lowestSignal (p.pendingFor tid &&& mask))
    split
    · next heq =>
      obtain hnone | ⟨info, hinfo, -⟩ := hcases
      · rw [heq] at hnone
        rw [(Prod.mk.inj hnone).2]
        exact h
      · rw [heq] at hinfo
        cases hinfo
    · next q info heq =>
      have hinfo := congrArg Prod.fst heq
      have hnoted := h.consumed hinfo (lowestSignal (p.pendingFor tid &&& mask))
      rw [heq] at hnoted
      exact hnoted
  · exact h

/-! ### Dispositions -/

lemma mem_pendingTimerIds :
    timerId ∈ p.pendingTimerIds signum ↔
      ∃ q ∈ p.queues, ∃ e ∈ q.rtQueue, e.signum = signum ∧ e.timerId = some timerId := by
  simp only [pendingTimerIds, queues, mem_append, mem_flatMap, mem_filterMap,
    mem_filter, decide_eq_true_eq, mem_cons, mem_map, exists_eq_or_imp,
    exists_exists_and_eq_and, and_assoc, or_assoc]

section

lemma accepts_foldl (ids : List Nat) (q : Process) :
    (ids.foldl (fun p t => (p.acceptPosixTimerNotification t).2) q).queues = q.queues ∧
      (ids.foldl (fun p t => (p.acceptPosixTimerNotification t).2) q).kind = q.kind ∧
      ∀ x, (ids.foldl (fun p t => (p.acceptPosixTimerNotification t).2) q).awaits x =
        (q.awaits x && !decide (x ∈ ids)) := by
  induction ids generalizing q with
  | nil => simp
  | cons id ids ih =>
    obtain ⟨hqueues, hkind, hawaits⟩ := ih (q.acceptPosixTimerNotification id).2
    refine ⟨hqueues.trans (queues_acceptPosixTimerNotification id),
      hkind.trans kind_acceptPosixTimerNotification, ?_⟩
    intro x
    rw [foldl_cons, hawaits, awaits_acceptPosixTimerNotification]
    by_cases hx : x = id <;> simp [hx]

lemma Noted.discardPendingSignal (h : p.Noted) (hc : p.Consistent)
    (hs : Valid signum) : (p.discardPendingSignal signum).Noted := by
  obtain ⟨hqueues, hkind, hawaits⟩ :=
    accepts_foldl (p.pendingTimerIds signum) (p.clearSignalEverywhere signum)
  unfold Process.discardPendingSignal
  apply h.accepted (fun x => decide (x ∈ p.pendingTimerIds signum))
  · intro x
    rw [(cons.inj hqueues).1]
    have hclear : (p.clearSignalEverywhere signum).signals.rtQueue =
        p.signals.rtQueue.filter fun e => e.signum ≠ signum := by
      unfold Valid at hs
      show (clearPending _ _).rtQueue = _
      rw [clearPending, if_pos (by unfold nsig; omega)]
    rw [notes, hclear, filterMap_filter]
    simp only [decide_eq_true_eq]
    split
    · next hx =>
      -- all instances of a timer carry its signal, so one that is discarded was the last
      obtain ⟨q, hq, e, he, hes, het⟩ := mem_pendingTimerIds.mp hx
      rw [count_eq_zero]
      intro hmem
      obtain ⟨e', he', ht'⟩ := mem_filterMap.mp hmem
      by_cases hne : e'.signum = signum
      · simp [hne] at ht'
      have howned := (hc.of_mem_queues hq).owned e he x het
      have howned' := hc.shared.owned e' he' x (by simpa [hne] using ht')
      rw [howned] at howned'
      exact hne ((Option.some.inj howned').symm.trans hes)
    · next hx =>
      -- the other notes do not carry the signal
      rw [notes, count_filterMap, count_filterMap]
      apply countP_congr
      intro e he
      by_cases hes : e.signum = signum
      · have hne : e.timerId ≠ some x := fun ht =>
          hx (mem_pendingTimerIds.mpr ⟨_, mem_cons_self, e, he, hes, ht⟩)
        simp [hne]
      · simp [hes]
  · exact hawaits
  · exact hkind
  · exact (fewer_discardPendingSignal signum).directed_notes

lemma not_queued_discardPendingSignal (hs : Valid signum) :
    ¬ (p.discardPendingSignal signum).Queued signum := by
  obtain ⟨hqueues, -⟩ := accepts_foldl (p.pendingTimerIds signum) (p.clearSignalEverywhere signum)
  intro hq
  exact not_queued_clearSignalEverywhere hs ((fewer_of_queues hqueues).queued hq)

end

lemma Noted.installs (h : p.Noted) (hc : p.Consistent) (hrun : Installs sig p p') : p'.Noted := by
  obtain ⟨handler, install, hrun, hinstall⟩ := hrun
  have hi : ∀ s s', install s = some s' → s'.rtQueue =
      (if shouldDiscardPending sig handler then s.clearPending sig
        else s.toPendingSet).rtQueue := by
    intro s s' hs
    obtain ⟨action, old, hset, rfl⟩ := hinstall s s' hs
    rw [(setAction_ok hset).2]
  unfold installAction at hrun
  split at hrun
  · cases hrun
  next hsig =>
  have hvalid : Valid sig := by
    unfold Valid
    unfold nsig at hsig
    omega
  split at hrun
  · cases hrun
  by_cases hd : shouldDiscardPending sig handler = true
  · simp only [hd] at hrun hi
    split at hrun
    · cases hrun
    next signals hs =>
    cases hrun
    -- nothing is left for the second clearing to drop
    have hnotes : signals.notes = (p.discardPendingSignal sig).signals.notes := by
      unfold notes
      rw [hi _ _ hs]
      apply notes_clearPending
      intro e he hes
      exact absurd ⟨_, mem_cons_self, queued_iff.mpr ⟨e, he, hes⟩⟩
        (not_queued_discardPendingSignal hvalid)
    exact ((Unnoticed.setSignals hnotes).trans (Unnoticed.clearDirectedSignal sig)).noted
      (h.discardPendingSignal hc hvalid)
  · simp only [hd, if_false, Bool.false_eq_true] at hrun hi
    split at hrun
    · cases hrun
    next signals hs =>
    cases hrun
    apply (Unnoticed.setSignals _).noted h
    unfold notes
    rw [hi _ _ hs]

/-! ### Timers that come and go -/

lemma placeTimer_eq {timers : List (Option PosixTimerState)} {timer : PosixTimerState} :
    timers[(placeTimer timers timer).1]?.join = none ∧
      ∀ x, (placeTimer timers timer).2[x]?.join =
        if x = (placeTimer timers timer).1 then some timer else timers[x]?.join := by
  unfold placeTimer
  split
  · next i hi =>
    obtain ⟨hlt, hnone, -⟩ := findIdx?_eq_some_iff_getElem.mp hi
    refine ⟨by simp [hlt, Option.isNone_iff_eq_none.mp hnone], ?_⟩
    intro x
    by_cases hx : x = i
    · simp [hx, hlt]
    · simp [hx, getElem?_set_ne (Ne.symm hx)]
  · refine ⟨by simp, ?_⟩
    intro x
    by_cases hx : x = timers.length
    · simp [hx]
    rw [getElem?_append]
    split
    · rfl
    next hlt =>
    rw [getElem?_eq_none (show timers.length ≤ x by omega),
      getElem?_eq_none (by simp only [length_singleton]; omega)]

lemma Noted.timerCreate (h : p.Noted) {sevp : Option SigEvent} {r : Nat × Process}
    (hrun : p.timerCreate sevp = .ok r) : r.2.Noted := by
  unfold Process.timerCreate at hrun
  dsimp only at hrun
  split at hrun
  · cases hrun
  next signo hsigno =>
  split at hrun
  · cases hrun
  cases hrun
  generalize htimer : (⟨signo, (sevp.getD .default).value, (sevp.getD .default).notify,
    (sevp.getD .default).tid, false, 0, 0⟩ : PosixTimerState) = timer
  obtain ⟨hfree, hplace⟩ := placeTimer_eq
  have hawaits : { p with posixTimers := (placeTimer p.posixTimers timer).2 }.awaits =
      p.awaits := by
    funext x
    unfold awaits
    rw [hplace]
    split
    · next hx =>
      rw [hx, hfree, ← htimer]
      simp
    · rfl
  have hkind : ∀ x, { p with posixTimers := (placeTimer p.posixTimers timer).2 }.kind x =
      if x = (placeTimer p.posixTimers timer).1 then some (timer.sigevNotify, timer.sigevSigno)
      else p.kind x := by
    intro x
    unfold kind
    rw [hplace]
    split <;> rfl
  refine ⟨?_, ?_, ?_⟩
  · rw [hawaits]
    exact h.shared
  · intro q hq x hx
    obtain ⟨signum, hk⟩ := h.directed q hq x hx
    rw [hkind, if_neg]
    · exact ⟨signum, hk⟩
    rintro rfl
    unfold kind at hk
    rw [hfree] at hk
    cases hk
  · intro x signum hk
    rw [hkind] at hk
    split at hk
    · rw [← htimer] at hk
      obtain ⟨hnotify, rfl⟩ := Prod.mk.inj (Option.some.inj hk)
      dsimp only at hnotify hsigno ⊢
      rw [hnotify, normalizePosixTimerSigno] at hsigno
      split at hsigno
      · next hvalid =>
        cases hsigno
        exact hvalid
      · cases hsigno
    · exact h.valid x signum hk

lemma Noted.timerDelete (h : p.Noted) (hrun : p.timerDelete timerId = .ok p') : p'.Noted := by
  unfold Process.timerDelete at hrun
  split at hrun
  · cases hrun
  cases hrun
  have hslot : ∀ x, (p.posixTimers.set timerId none)[x]?.join =
      if x = timerId then none else p.posixTimers[x]?.join := by
    intro x
    by_cases hx : x = timerId
    · subst hx
      rw [if_pos rfl, getElem?_set_self']
      cases p.posixTimers[x]? <;> rfl
    · rw [if_neg hx, getElem?_set_ne (Ne.symm hx)]
  refine ⟨?_, ?_, ?_⟩
  · intro x
    change (removeTimerInfo _ _).2.notes.count x =
      if ((p.posixTimers.set timerId none)[x]?.join).any _ then 1 else 0
    rw [notes_removeTimerInfo, hslot]
    by_cases hx : x = timerId
    · rw [if_pos hx, hx]
      exact count_eq_zero.mpr (by simp)
    · rw [if_neg hx, count_filter (by simpa using hx)]
      exact h.shared x
  · intro q hq x hx
    have hne : x ≠ timerId := by
      rintro rfl
      obtain ⟨e, he, het⟩ := mem_notes.mp hx
      exact Sound.forgotten_remove q (mem_queues.mpr (.inr hq)) e he het
    obtain ⟨q0, hq0, hsub⟩ :=
      (fewer_removePosixTimerNotification (p := p) timerId).directed_notes q hq
    change ∃ signum, ((p.posixTimers.set timerId none)[x]?.join).map _ = _
    rw [hslot, if_neg hne]
    exact h.directed q0 hq0 x (hsub hx)
  · intro x signum hk
    change ((p.posixTimers.set timerId none)[x]?.join).map _ = _ at hk
    rw [hslot] at hk
    split at hk
    · cases hk
    · exact h.valid x signum hk

lemma noted_of_no_timers (hc : p.Consistent) (ht : p.posixTimers = []) : p.Noted := by
  have hkind : ∀ x, p.kind x = none := by simp [kind, ht]
  have hnotes : ∀ q ∈ p.queues, ∀ x, x ∉ q.notes := by
    intro q hq x hx
    obtain ⟨e, he, het⟩ := mem_notes.mp hx
    have howned := (hc.of_mem_queues hq).owned e he x het
    simp [timerSigno, ht] at howned
  refine ⟨?_, ?_, ?_⟩
  · intro x
    rw [count_eq_zero.mpr (hnotes _ mem_cons_self x)]
    simp [awaits, ht]
  · intro q hq x hx
    exact absurd hx (hnotes q (mem_queues.mpr (.inr hq)) x)
  · intro x signum hk
    rw [hkind] at hk
    cases hk

/-! ### Timers that wait in vain -/

lemma Wedged.of_fewer (h : Wedged timerId p) (hf : Fewer p p') (ha : p'.awaits timerId = true) :
    Wedged timerId p' := by
  refine ⟨ha, ?_⟩
  intro q' hq' hmem
  obtain ⟨q, hq, hsub⟩ := hf.exists_queue hq'
  exact h.2 q hq (filterMap_subset _ hsub hmem)

lemma wedged_of_dropped (h : p.Noted) (hc : p.Consistent)
    (hk : p.kind timerId = some (.signal, signum)) (hf : Fewer p p')
    (hgone : ∀ e ∈ p'.signals.rtQueue, e.signum ≠ signum) (ha : p'.awaits timerId = true) :
    Wedged timerId p' := by
  refine ⟨ha, ?_⟩
  intro q' hq' hmem
  rcases mem_queues.mp hq' with rfl | hq'
  · obtain ⟨e, he, het⟩ := mem_notes.mp hmem
    obtain ⟨-, hk'⟩ := h.awaiting_of_mem hc (hf.shared he) het
    rw [hk] at hk'
    cases hk'
    exact hgone e he rfl
  · obtain ⟨q, hq, hsub⟩ := hf.directed_notes q' hq'
    exact h.not_mem_directed hk hq (hsub hmem)

lemma wedged_clearShared (h : p.Noted) (hc : p.Consistent)
    (ha : p.awaits timerId = true) (hk : p.kind timerId = some (.signal, signum)) :
    Wedged timerId (p.clearShared signum) := by
  have hvalid := h.valid timerId signum hk
  refine wedged_of_dropped h hc hk fewer_clearShared ?_ ha
  intro e he hes
  have hq : (p.signals.clearPending signum).queued signum = true := queued_iff.mpr ⟨e, he, hes⟩
  rw [not_queued_clearPending _ hvalid] at hq
  cases hq

lemma posixTimers_prepareSignalGeneration :
    (p.prepareSignalGeneration signum).posixTimers = p.posixTimers := by
  unfold prepareSignalGeneration
  split
  · rfl
  split
  · rw [Unnoticed.recordContinue.timers]
    rfl
  · split <;> rfl

lemma wedged_prepareSignalGeneration (h : p.Noted) (hc : p.Consistent) {c : Nat}
    (hcancel : c ∈ cancelled signum) (ha : p.awaits timerId = true)
    (hk : p.kind timerId = some (.signal, c)) :
    Wedged timerId (p.prepareSignalGeneration signum) := by
  refine wedged_of_dropped h hc hk fewer_prepareSignalGeneration ?_ ?_
  · rintro e he rfl
    exact not_queued_prepareSignalGeneration hcancel ⟨_, mem_cons_self, queued_iff.mpr ⟨e, he, rfl⟩⟩
  · unfold awaits
    rw [posixTimers_prepareSignalGeneration]
    exact ha

lemma Wedged.dequeueSignalFor (h : Wedged timerId p) (tid signum : Nat) :
    Wedged timerId (p.dequeueSignalFor tid signum).2 := by
  refine h.of_fewer (fewer_dequeueSignalFor tid signum) ?_
  unfold Process.dequeueSignalFor
  split
  · exact h.1
  dsimp only
  obtain hnone | ⟨info, hinfo, htimers, hfrom⟩ := consumeSignalFor_cases (p := p) tid signum
  · rw [hnone]
    exact h.1
  have hne : info.timerId ≠ some timerId := by
    intro heq
    rcases hfrom with ⟨-, hdirected⟩ | hcount
    · obtain ⟨q, hq, hmem⟩ := hdirected timerId heq
      exact h.2 q (mem_queues.mpr (.inr hq)) hmem
    have hzero := count_eq_zero.mpr (h.2 _ mem_cons_self)
    have := hcount timerId
    rw [if_pos heq] at this
    omega
  have hsame : (p.consumeSignalFor tid signum).2.awaits timerId = p.awaits timerId := by
    unfold awaits
    rw [htimers]
  rw [hinfo, awaits_sigInfoOf, hsame, h.1]
  simp [hne]

lemma Wedged.of_consumed (h : Wedged timerId p) (hcons : Consumed tid p p') : Wedged timerId p' :=
  hcons.rule (fun _ signum hq _ => hq.dequeueSignalFor tid signum)
    (fun _ signum hq => (Unnoticed.applyDefaultSignalAction signum).wedged hq) h

lemma unnoticed_enterHandler (signum index : Nat) {action : SignalAction} :
    Unnoticed (p.dequeueSignalFor tid signum).2 (p.enterHandler tid signum index action).2 :=
  (Unnoticed.masksKeep tid).enterHandler (.refl _) index action

/-! ### Delivery -/

lemma Noted.of_consumed (h : p.Noted) (hc : p.Consistent) (hrun : p.state ≠ .stopped)
    (hcons : Consumed tid p p') : p'.Noted := by
  induction hcons with
  | refl => exact h
  | @skip p q signum _ _ _ ih =>
    refine ih (h.dequeueSignalFor hc fun hs => absurd hs hrun)
      (Sound.dequeueSignalFor hc tid signum).consistent ?_
    rw [state_dequeueSignalFor]
    exact hrun
  | @act p signum =>
    exact (Unnoticed.applyDefaultSignalAction signum).noted
      (h.dequeueSignalFor hc fun hs => absurd hs hrun)

lemma unnoticed_of_consumed_stopped (h : p.Noted) (hc : p.Consistent) (hstop : p.state = .stopped)
    (hkill : (∀ index, (p.signals.getAction sigKill).handler ≠ .handler index) →
      ¬ p.Awaiting sigKill) (hcons : Consumed tid p p') : Unnoticed p p' := by
  have htake : ∀ {q : Process} {signum : Nat}, q.state = .stopped →
      q.nextDeliverableSignal tid = some signum →
      signum = sigKill ∧ (q.dequeueSignalFor tid signum).2 = q.clearSignalEverywhere sigKill := by
    intro q signum hq hnext
    unfold nextDeliverableSignal at hnext
    rw [if_pos hq] at hnext
    split at hnext
    · cases hnext
      unfold dequeueSignalFor
      rw [if_pos ⟨hq, rfl⟩]
      exact ⟨rfl, rfl⟩
    · cases hnext
  induction hcons with
  | refl => exact Unnoticed.refl _
  | @skip p q signum hnext hh _ ih =>
    obtain ⟨rfl, heq⟩ := htake hstop hnext
    have hclear := Unnoticed.clearSignalEverywhere h hc (hkill hh)
    rw [heq] at ih
    refine hclear.trans (ih (hclear.noted h) (Sound.clearSignalEverywhere hc _).consistent hstop ?_)
    intro hh'
    exact hkill hh
  | @act p signum hnext hh =>
    obtain ⟨rfl, heq⟩ := htake hstop hnext
    rw [heq]
    refine (Unnoticed.clearSignalEverywhere h hc (hkill fun index hidx => ?_)).trans
      (Unnoticed.applyDefaultSignalAction _)
    rw [hh] at hidx
    cases hidx

end Process

end Kandelo.Kernel.Signal
