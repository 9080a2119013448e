import Kandelo.Kernel.Signal.Drained

/-!
# Which handler is entered

A dequeue takes signals until one is caught, or acts, or none is left. Which one is caught can be
read off the process before the call: taking a signal changes no other signal's bit, no mask and no
disposition.
-/

namespace Kandelo.Kernel.Signal

open Lib List Option

variable {signum tid fuel i : Nat} {p p' : Process} {out : Option DeliveredSignal}

/-- The signal has a handler. -/
def SignalState.catches (s : SignalState) (signum : Nat) : Bool :=
  match (s.getAction signum).handler with
  | .handler _ => true
  | .default | .ignore => false

namespace Process

/-- A dequeue takes the signal and goes on to the next one. -/
def passesOver (p : Process) (signum : Nat) : Bool :=
  match (p.signals.getAction signum).handler with
  | .handler _ => false
  | .default => (p.applyDefaultSignalAction signum).1 = .continue
  | .ignore => true

/-- A dequeue that comes to the signal of a bit ends there. -/
def endsAt (p : Process) (tid i : Nat) : Bool :=
  (p.deliverableFor tid).getLsbD i && !p.passesOver (i + 1)

/-- The signal whose handler a dequeue enters: the first one that it does not pass over, if that
one is caught. -/
def caughtSignal (p : Process) (tid : Nat) : Option Nat :=
  if p.state = .stopped then none
  else (((List.range 64).find? (p.endsAt tid)).map (· + 1)).filter p.signals.catches

/-! ### What taking a signal changes -/

lemma nextDeliverableSignal_eq (h : p.state ≠ .stopped) : p.nextDeliverableSignal tid =
    ((List.range 64).find? (p.deliverableFor tid).getLsbD).map (· + 1) := by
  unfold nextDeliverableSignal
  rw [if_neg h]
  dsimp only
  unfold lowestSignal
  cases hfind : (List.range 64).find? (p.deliverableFor tid).getLsbD with
  | none =>
    split
    · rfl
    · rfl
  | some i =>
    obtain ⟨hbit, hi, -⟩ := find?_range_eq_some.mp hfind
    have hlt : i < 64 := mem_range.mp hi
    rw [if_neg, if_pos]
    · rfl
    · exact Nat.succ_lt_succ hlt
    · intro hzero
      simp [hzero] at hbit

lemma fst_applyDefaultSignalAction (hstate : p'.state = p.state) (signum : Nat) :
    (p'.applyDefaultSignalAction signum).1 = (p.applyDefaultSignalAction signum).1 := by
  unfold applyDefaultSignalAction recordStop
  rw [hstate]
  cases defaultAction signum with
  | stop =>
    dsimp only
    split <;> rfl
  | _ => rfl

lemma passesOver_congr (hstate : p'.state = p.state)
    (hactions : p'.signals.actions = p.signals.actions) (signum : Nat) :
    p'.passesOver signum = p.passesOver signum := by
  unfold passesOver SignalState.getAction
  rw [hactions, fst_applyDefaultSignalAction hstate]

lemma signum_dequeueSignalFor (tid signum : Nat) :
    (p.dequeueSignalFor tid signum).1.signum = signum := by
  unfold dequeueSignalFor
  split
  · rfl
  unfold sigInfoOf
  dsimp only
  split <;> rfl

lemma getLsbD_consumePendingInfo (q : PendingSet) (h : i + 1 ≠ signum) :
    (q.consumePendingInfo signum).2.pending.getLsbD i = q.pending.getLsbD i := by
  unfold PendingSet.consumePendingInfo
  split
  · rfl
  next hvalid =>
  unfold PendingSet.clearBitIfDrained
  dsimp only
  split
  · rfl
  · have hbit : (sigBit signum).getLsbD i = false := by
      rw [sigBit_eq (by unfold Valid; unfold nsig at hvalid; omega), BitVec.getLsbD_twoPow]
      simp
      omega
    rw [BitVec.getLsbD_and, BitVec.getLsbD_not, hbit]
    cases hq : q.pending.getLsbD i with
    | false => rfl
    | true => simp [BitVec.lt_of_getLsbD hq]

lemma directed_updateDirected (f : PerThreadSignalState → PerThreadSignalState) :
    (p.updateDirected tid f).directed tid = (p.directed tid).map f := by
  unfold updateDirected directed
  by_cases hmain : p.isMainThread tid = true
  · rw [if_pos hmain, if_pos hmain]
    exact if_pos hmain
  rw [if_neg hmain, if_neg hmain]
  unfold updateThread
  split
  · next threads hthreads =>
    rw [if_neg (by exact hmain)]
    have hfind := Slice.find?_modifyFirst hthreads fun _ => rfl
    simp only [getThread, hfind, Option.map_map]
    rfl
  · next hnone =>
    have hfind : p.getThread tid = none :=
      find?_eq_none.mpr fun t ht => by simp [Slice.modifyFirst_eq_none.mp hnone t ht]
    rw [if_neg hmain, hfind]
    rfl

lemma blockedFor_of_drained (h : p'.drained = p.drained) :
    p'.blockedFor tid = p.blockedFor tid := by
  have hthread : ∀ q : Process, q.drained.blockedFor tid = q.blockedFor tid := by
    intro q
    have hget : q.drained.getThread tid =
        (q.getThread tid).map fun t => { t with signals := t.signals.drained } := find?_map
    unfold blockedFor
    rw [hget]
    cases q.getThread tid <;> rfl
  rw [← hthread p', h, hthread p]

lemma getLsbD_pendingFor_dequeueSignalFor (hstate : p.state ≠ .stopped)
    (h : i + 1 ≠ signum) : ((p.dequeueSignalFor tid signum).2.pendingFor tid).getLsbD i =
      (p.pendingFor tid).getLsbD i := by
  have hinfo (q : Process) (info : PendingSignalInfo) :
      (q.sigInfoOf signum info).2.pendingFor tid = q.pendingFor tid := by
    obtain ⟨timers, hq⟩ := sigInfoOf_eq q signum info
    rw [hq]
    rfl
  unfold dequeueSignalFor
  rw [if_neg fun hand => hstate hand.1]
  dsimp only
  rw [hinfo]
  unfold consumeSignalFor
  split
  · unfold pendingFor
    rw [directed_updateDirected, (signals_updateDirected _).1, BitVec.getLsbD_or, BitVec.getLsbD_or]
    cases p.directed tid with
    | none => rfl
    | some t => exact congrArg _ (getLsbD_consumePendingInfo t.toPendingSet h)
  · split
    · unfold pendingFor
      rw [BitVec.getLsbD_or, BitVec.getLsbD_or]
      exact congrArg (· || _) (getLsbD_consumePendingInfo p.signals.toPendingSet h)
    · rfl

lemma getLsbD_deliverableFor_dequeueSignalFor (hstate : p.state ≠ .stopped)
    (h : i + 1 ≠ signum) : ((p.dequeueSignalFor tid signum).2.deliverableFor tid).getLsbD i =
      (p.deliverableFor tid).getLsbD i := by
  unfold deliverableFor
  rw [BitVec.getLsbD_and, BitVec.getLsbD_and, getLsbD_pendingFor_dequeueSignalFor hstate h,
    blockedFor_of_drained (drained_dequeueSignalFor tid signum)]

/-! ### Runs -/

/-- Taking a signal that is passed over leaves the one that is caught. -/
lemma caughtSignal_dequeueSignalFor (hstate : p.state ≠ .stopped) (h : p.passesOver signum) :
    (p.dequeueSignalFor tid signum).2.caughtSignal tid = p.caughtSignal tid := by
  have hs : (p.dequeueSignalFor tid signum).2.state = p.state := state_dequeueSignalFor
  have hactions := actions_of_drained (drained_dequeueSignalFor (p := p) tid signum)
  unfold caughtSignal
  rw [hs, if_neg hstate, if_neg hstate]
  have hpick : (p.dequeueSignalFor tid signum).2.endsAt tid = p.endsAt tid := by
    funext i
    unfold endsAt
    rw [passesOver_congr hs hactions]
    by_cases hi : i + 1 = signum
    · simp [hi, h]
    · rw [getLsbD_deliverableFor_dequeueSignalFor hstate hi]
  have hcatch : (p.dequeueSignalFor tid signum).2.signals.catches = p.signals.catches := by
    funext n
    unfold SignalState.catches SignalState.getAction
    rw [hactions]
  rw [hpick, hcatch]

/-- A signal that is not passed over is the first such one. -/
lemma caughtSignal_of_next (hstate : p.state ≠ .stopped)
    (hnext : p.nextDeliverableSignal tid = some signum) (h : p.passesOver signum = false) :
    p.caughtSignal tid = if p.signals.catches signum then some signum else none := by
  rw [nextDeliverableSignal_eq hstate] at hnext
  obtain ⟨i, hfind, rfl⟩ := map_eq_some_iff.mp hnext
  obtain ⟨hbit, hi, hmin⟩ := find?_range_eq_some.mp hfind
  have hpick : (List.range 64).find? (p.endsAt tid) = some i := by
    refine find?_range_eq_some.mpr ⟨by simp [endsAt, hbit, h], hi, fun j hj => ?_⟩
    simp [endsAt, hmin j hj]
  unfold caughtSignal
  rw [if_neg hstate, hpick]
  rfl

lemma caughtSignal_of_next_none (hnext : p.nextDeliverableSignal tid = none) :
    p.caughtSignal tid = none := by
  unfold caughtSignal
  split
  · rfl
  next hstate =>
  rw [nextDeliverableSignal_eq hstate, map_eq_none_iff, find?_range_eq_none] at hnext
  have hpick : (List.range 64).find? (p.endsAt tid) = none := by
    refine find?_range_eq_none.mpr fun i hi => ?_
    have hbit := hnext i hi
    simp_all [endsAt]
  rw [hpick]
  rfl

/-- A stopped process only takes `SIGKILL`, whose default action ends it. -/
lemma out_of_stopped (hstate : p.state = .stopped)
    (hkill : (p.signals.actions sigKill).handler = .default)
    (hrun : kernelDequeueSignal fuel tid p = some (out, p')) : out = none := by
  cases fuel with
  | zero => cases hrun
  | succ fuel =>
    have hhandler : (p.signals.getAction sigKill).handler = .default := hkill
    simp only [kernelDequeueSignal, nextDeliverableSignal, if_pos hstate] at hrun
    cases hpending : p.signalPendingAnywhere sigKill with
    | false =>
      simp only [hpending] at hrun
      cases hrun
      rfl
    | true =>
      simp only [hpending, if_true, hhandler] at hrun
      cases hrun
      rfl

/-- A dequeue that returns has entered the handler of the caught signal, or none if no signal is
caught. -/
lemma signum_kernelDequeueSignal
    (hkill : (p.signals.actions sigKill).handler = .default)
    (hrun : kernelDequeueSignal fuel tid p = some (out, p')) :
    out.map (·.info.signum) = p.caughtSignal tid := by
  by_cases hstate : p.state = .stopped
  · rw [out_of_stopped hstate hkill hrun, caughtSignal, if_pos hstate]
    rfl
  induction fuel generalizing p with
  | zero => cases hrun
  | succ fuel ih =>
    unfold kernelDequeueSignal at hrun
    cases hnext : p.nextDeliverableSignal tid with
    | none =>
      rw [hnext] at hrun
      cases hrun
      rw [caughtSignal_of_next_none hnext]
      rfl
    | some signum =>
      rw [hnext] at hrun
      dsimp only at hrun
      have hs : (p.dequeueSignalFor tid signum).2.state = p.state := state_dequeueSignalFor
      have hactions := actions_of_drained (drained_dequeueSignalFor (p := p) tid signum)
      -- a signal that is passed over leaves the same one to be caught
      have hskip : p.passesOver signum →
          kernelDequeueSignal fuel tid (p.dequeueSignalFor tid signum).2 = some (out, p') →
          out.map (·.info.signum) = p.caughtSignal tid := by
        intro hpass hrest
        rw [← caughtSignal_dequeueSignalFor hstate hpass]
        exact ih (hactions ▸ hkill) hrest (hs ▸ hstate)
      cases hh : (p.signals.getAction signum).handler with rw [hh] at hrun
      | handler index =>
        cases hrun
        rw [caughtSignal_of_next hstate hnext (by unfold passesOver; rw [hh])]
        unfold SignalState.catches
        rw [hh]
        exact congrArg some (signum_dequeueSignalFor tid signum)
      | default =>
        dsimp only at hrun
        have hout := fst_applyDefaultSignalAction hs signum
        split at hrun
        · next hacts =>
          cases hrun
          rw [caughtSignal_of_next hstate hnext]
          · simp [SignalState.catches, hh]
          · simpa [passesOver, hh, hout] using hacts
        · next hcont =>
          have hcont := not_not.mp hcont
          rw [applyDefaultSignalAction_continue hcont] at hrun
          apply hskip _ hrun
          simp [passesOver, hh, ← hout, hcont]
      | ignore => exact hskip (by simp [passesOver, hh]) hrun

end Process

end Kandelo.Kernel.Signal
