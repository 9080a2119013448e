import Kandelo.Lib.Fold
import Kandelo.Kernel.Signal.Process

/-!
# Rules for the signal calls

What a property has to survive to hold after a call that changes masks, installs
an action or delivers. Both delivery loops are seen as one relation: default and ignored signals are
consumed one after the other until a caught one is next or delivery ends.
-/

namespace Kandelo.Kernel.Signal

open Lib Option

namespace Process

variable {p q p' : Process} {I : Process → Prop} {signum sig handlerVal tid fuel : Nat}
  {out : Option DeliveredSignal} {s : SignalState} {mask : SigMask}

/-! ### Masks -/

/-- A property that every change of a thread's masks and of the alternate stack keeps. -/
structure MasksKeep (tid : Nat) (I : Process → Prop) : Prop where
  blocked : ∀ q mask, I q → I (q.setBlockedFor tid mask)
  saved : ∀ q val, I q → I (q.setSigsuspendSavedMaskFor tid val)
  stack : ∀ q altStack, I q → I { q with altStack }

lemma masksKeep_of (hmain : ∀ q blocked sigsuspendSavedMask altStack, I q → I { q with
      signals := { q.signals with blocked }, sigsuspendSavedMask, altStack })
    (hworker : ∀ q f, (∀ t, (f t).toPendingSet = t.toPendingSet) → I q → I (q.updateThread tid f)) :
    MasksKeep tid I where
  blocked q mask hq := by
    unfold setBlockedFor
    split
    · exact hmain q mask q.sigsuspendSavedMask q.altStack hq
    split
    · exact hworker q _ (fun _ => rfl) hq
    · exact hmain q mask q.sigsuspendSavedMask q.altStack hq
  saved q val hq := by
    unfold setSigsuspendSavedMaskFor
    split
    · exact hmain q q.signals.blocked val q.altStack hq
    · exact hworker q _ (fun _ => rfl) hq
  stack q altStack hq := hmain q q.signals.blocked q.sigsuspendSavedMask altStack hq

lemma MasksKeep.restoreSavedMask (hI : MasksKeep tid I) (hp : I p) :
    I (p.restoreSavedMask tid) := by
  unfold Process.restoreSavedMask
  split
  · exact hI.blocked _ _ (hI.saved _ _ hp)
  · exact hp

lemma MasksKeep.installTemporaryMask (hI : MasksKeep tid I) (hp : I p) (mask : SigMask) :
    I (p.installTemporaryMask tid mask) := by
  unfold Process.installTemporaryMask
  split
  · exact hI.blocked _ _ (hI.saved _ _ hp)
  · exact hp

lemma MasksKeep.enterHandler (hI : MasksKeep tid I) (hp : I (p.dequeueSignalFor tid signum).2)
    (index : Nat) (action : SignalAction) : I (p.enterHandler tid signum index action).2 :=
  hI.stack _ _ (hI.blocked _ _ (hI.restoreSavedMask hp))

lemma sysPpoll_rule (hp : I p) (henter : ∀ mask, I (p.installTemporaryMask tid mask))
    (hleave : ∀ q, I q → I (q.restoreSavedMask tid)) (mask : Option SigMask)
    (wait : Except Errno Nat) : I (p.sysPpoll tid mask wait).2 := by
  have hwait : I (p.enterWait tid mask) := by
    cases mask with
    | none => exact hp
    | some mask => exact henter mask
  unfold sysPpoll
  dsimp only
  split
  · exact hwait
  split
  · exact hwait
  split
  · exact hleave _ hwait
  · exact hwait

lemma MasksKeep.sysPpoll (hI : MasksKeep tid I) (hp : I p) :
    ∀ mask wait, I (p.sysPpoll tid mask wait).2 :=
  sysPpoll_rule hp (hI.installTemporaryMask hp) fun _ => hI.restoreSavedMask

lemma sysSigtimedwait_rule (hp : I p) (hconsume : ∀ signum, I (p.consumeSignalFor tid signum).2)
    (hinfo : ∀ q signum info, I q → I (q.sigInfoOf signum info).2) :
    I (p.sysSigtimedwait tid mask).2 := by
  unfold sysSigtimedwait
  dsimp only
  split
  · exact hp
  split
  · have hc := hconsume (lowestSignal (p.pendingFor tid &&& mask))
    split
    · next heq =>
      rw [heq] at hc
      exact hc
    · next heq =>
      rw [heq] at hc
      exact hinfo _ _ _ hc
  · exact hp

/-! ### Dispositions -/

/-- The process is the one in which `sigaction` or `signal` put an action in place. -/
def Installs (sig : Nat) (p p' : Process) : Prop :=
  ∃ handler install, p.installAction sig handler install = .ok p' ∧ ∀ s s', install s = some s' →
    ∃ action old, s.setAction sig action = some (old, s') ∧ action.handler = handler

lemma installs_sysSigaction {flags : Nat}
    (hrun : p.sysSigaction sig handlerVal flags mask = .ok p') : Installs sig p p' := by
  refine ⟨_, _, hrun, fun s s' hs => ?_⟩
  obtain ⟨⟨old, s''⟩, hset, rfl⟩ := map_eq_some_iff.mp hs
  exact ⟨_, old, hset, rfl⟩

lemma installs_sysSignal (hrun : p.sysSignal sig handlerVal = .ok p') : Installs sig p p' := by
  refine ⟨_, _, hrun, fun s s' hs => ?_⟩
  obtain ⟨⟨old, s''⟩, hset, rfl⟩ := map_eq_some_iff.mp hs
  obtain ⟨⟨action, s1⟩, haction, heq⟩ := map_eq_some_iff.mp hset
  cases heq
  exact ⟨_, action, haction, rfl⟩

lemma Installs.rule (h : Installs sig p p') (hp : I p)
    (hdiscard : ∀ q, I q → I (q.discardPendingSignal sig))
    (hclear : ∀ q, I q → I (q.clearDirectedSignal sig))
    (hset : ∀ q action old signals, q.signals.setAction sig action = some (old, signals) → I q →
      I { q with signals }) : I p' := by
  obtain ⟨handler, install, hrun, hinstall⟩ := h
  have hpassed :
      I (if shouldDiscardPending sig handler then p.discardPendingSignal sig else p) := by
    split
    · exact hdiscard p hp
    · exact hp
  have hlast (q : Process) (hq : I q) :
      I (if shouldDiscardPending sig handler then q.clearDirectedSignal sig else q) := by
    split
    · exact hclear q hq
    · exact hq
  unfold installAction at hrun
  dsimp only at hrun
  split at hrun
  · cases hrun
  split at hrun
  · cases hrun
  split at hrun
  · cases hrun
  next signals hs =>
  obtain ⟨action, old, haction, -⟩ := hinstall _ _ hs
  cases hrun
  exact hlast _ (hset _ _ _ _ haction hpassed)

lemma setAction_ok {s' : SignalState} {action old : SignalAction}
    (h : s.setAction sig action = some (old, s')) :
    ¬ (sig = sigKill ∨ sig = sigStop) ∧ s' = { s with
      actions := fun i => if i = sig then action else s.actions i
      toPendingSet :=
        if shouldDiscardPending sig action.handler then s.clearPending sig
        else s.toPendingSet } := by
  unfold SignalState.setAction at h
  split at h
  · cases h
  split at h
  · cases h
  next hsig =>
  refine ⟨hsig, ?_⟩
  split at h
  all_goals
    next hd =>
    cases h
    simp only [hd]
    rfl

lemma setHandlers_rule {J : SignalState → Prop}
    (hset : ∀ s sig action old s', s.setAction sig action = some (old, s') → J s → J s') (hs : J s)
    (sigs : List Nat) (handler : SignalHandler) :
    J (sigs.foldl (setHandlerIgnoringError · · handler) s) := by
  refine Fold.foldl_keeps (fun s' sig _ hs' => ?_) hs
  unfold setHandlerIgnoringError
  split
  · next r hr =>
    obtain ⟨⟨old, s1⟩, haction, rfl⟩ := map_eq_some_iff.mp hr
    exact hset _ _ _ _ _ haction hs'
  · exact hs'

/-! ### Threads -/

lemma mem_of_mem_removeThread {t : ThreadInfo}
    (h : t ∈ (p.removeThread tid).threads) : t ∈ p.threads := by
  unfold removeThread at h
  split at h
  · unfold swapRemove at h
    split at h
    · cases h
    next last hlast =>
    have hmem := (List.dropLast_sublist _).subset h
    rcases List.mem_or_eq_of_mem_set hmem with hmem | rfl
    · exact hmem
    · exact List.mem_of_getLast? hlast
  · exact h

lemma removeThread_eq : ∃ threads ⊆ p.threads, p.removeThread tid = { p with threads } := by
  refine ⟨(p.removeThread tid).threads, fun _ => mem_of_mem_removeThread, ?_⟩
  unfold removeThread
  split <;> rfl

/-! ### Delivery -/

lemma applyDefaultSignalAction_continue (h : (p.applyDefaultSignalAction signum).1 = .continue) :
    (p.applyDefaultSignalAction signum).2 = p := by
  unfold applyDefaultSignalAction at h ⊢
  split at h
  · cases h
  · cases h
  · unfold recordStop at h ⊢
    split at h
    · next hne => rw [if_pos hne]
    · cases h
  · rfl
  · rfl

lemma state_updateDirected {f : PerThreadSignalState → PerThreadSignalState} :
    (p.updateDirected tid f).state = p.state := by
  unfold updateDirected updateThread
  split
  · rfl
  · split <;> rfl

lemma signals_updateDirected (f : PerThreadSignalState → PerThreadSignalState) :
    (p.updateDirected tid f).signals = p.signals ∧
      (p.updateDirected tid f).posixTimers = p.posixTimers := by
  unfold updateDirected updateThread
  split
  · exact ⟨rfl, rfl⟩
  · split <;> exact ⟨rfl, rfl⟩

/-- Accepting an instance changes no more than the timers. -/
lemma sigInfoOf_eq (p : Process) (signum : Nat) (info : PendingSignalInfo) :
    ∃ posixTimers, (p.sigInfoOf signum info).2 = { p with posixTimers } := by
  unfold sigInfoOf acceptPosixTimerNotification
  split
  · split
    · exact ⟨p.posixTimers, rfl⟩
    · dsimp only
      split
      · exact ⟨p.posixTimers, rfl⟩
      · exact ⟨_, rfl⟩
  · exact ⟨p.posixTimers, rfl⟩

lemma state_dequeueSignalFor : (p.dequeueSignalFor tid signum).2.state = p.state := by
  have hconsume : (p.consumeSignalFor tid signum).2.state = p.state := by
    unfold consumeSignalFor
    split
    · exact state_updateDirected
    · split <;> rfl
  unfold dequeueSignalFor
  split
  · rfl
  · obtain ⟨timers, hinfo⟩ := sigInfoOf_eq (p.consumeSignalFor tid signum).2 signum
      ((p.consumeSignalFor tid signum).1.getD .none)
    dsimp only
    rw [hinfo]
    exact hconsume

/-- Delivery to a thread has consumed signals that nobody catches; the last one may have stopped or
ended the process. -/
inductive Consumed (tid : Nat) : Process → Process → Prop
  | refl (p : Process) : Consumed tid p p
  | skip {p q : Process} {signum : Nat} : p.nextDeliverableSignal tid = some signum →
      (∀ index, (p.signals.getAction signum).handler ≠ .handler index) →
      Consumed tid (p.dequeueSignalFor tid signum).2 q → Consumed tid p q
  | act {p : Process} {signum : Nat} : p.nextDeliverableSignal tid = some signum →
      (p.signals.getAction signum).handler = .default →
      Consumed tid p ((p.dequeueSignalFor tid signum).2.applyDefaultSignalAction signum).2

lemma Consumed.rule (htake : ∀ p signum, I p → p.nextDeliverableSignal tid = some signum →
      I (p.dequeueSignalFor tid signum).2)
    (hact : ∀ p signum, I p → I (p.applyDefaultSignalAction signum).2)
    (h : Consumed tid p q) (hp : I p) : I q := by
  induction h with
  | refl => exact hp
  | skip hnext _ _ ih => exact ih (htake _ _ hp hnext)
  | act hnext _ => exact hact _ _ (htake _ _ hp hnext)

lemma consumed_default (hnext : p.nextDeliverableSignal tid = some signum)
    (hh : (p.signals.getAction signum).handler = .default)
    (hq : ((p.dequeueSignalFor tid signum).2.applyDefaultSignalAction signum).1 = .continue →
      Consumed tid ((p.dequeueSignalFor tid signum).2.applyDefaultSignalAction signum).2 q)
    (hend : ((p.dequeueSignalFor tid signum).2.applyDefaultSignalAction signum).1 ≠ .continue →
      q = ((p.dequeueSignalFor tid signum).2.applyDefaultSignalAction signum).2) :
    Consumed tid p q := by
  by_cases hc : ((p.dequeueSignalFor tid signum).2.applyDefaultSignalAction signum).1 = .continue
  · have hrest := hq hc
    rw [applyDefaultSignalAction_continue hc] at hrest
    refine .skip hnext (fun index hidx => ?_) hrest
    rw [hh] at hidx
    cases hidx
  · rw [hend hc]
    exact .act hnext hh

lemma consumed_of_deliverLoop (h : deliverLoop fuel tid p = some p') : Consumed tid p p' := by
  induction fuel generalizing p with
  | zero => cases h
  | succ fuel ih =>
    unfold deliverLoop at h
    cases hnext : p.nextDeliverableSignal tid with
    | none =>
      rw [hnext] at h
      cases h
      exact .refl _
    | some signum =>
      rw [hnext] at h
      dsimp only at h
      cases hh : (p.signals.getAction signum).handler with rw [hh] at h
      | handler =>
        cases h
        exact .refl _
      | default =>
        dsimp only at h
        apply consumed_default hnext hh
        · intro hc
          rw [if_neg (not_not.mpr hc)] at h
          split at h
          · cases h
            exact .refl _
          · exact ih h
        · intro hc
          rw [if_pos hc] at h
          exact (some.inj h).symm
      | ignore =>
        refine Consumed.skip hnext (fun index hidx => ?_) ?_
        · rw [hh] at hidx
          cases hidx
        dsimp only at h
        split at h
        · cases h
          exact .refl _
        · exact ih h

lemma kernelDequeueSignal_cases (h : kernelDequeueSignal fuel tid p = some (out, p')) :
    ∃ q, Consumed tid p q ∧ (out = none ∧ p' = q ∨
      ∃ signum index, q.state = p.state ∧ q.nextDeliverableSignal tid = some signum ∧
        (q.signals.getAction signum).handler = .handler index ∧
        (out, p') =
        ((q.enterHandler tid signum index (q.signals.getAction signum)).map some id)) := by
  induction fuel generalizing p with
  | zero => cases h
  | succ fuel ih =>
    unfold kernelDequeueSignal at h
    cases hnext : p.nextDeliverableSignal tid with
    | none =>
      rw [hnext] at h
      cases h
      exact ⟨_, .refl _, .inl ⟨rfl, rfl⟩⟩
    | some signum =>
      rw [hnext] at h
      dsimp only at h
      cases hh : (p.signals.getAction signum).handler with rw [hh] at h
      | handler index => exact ⟨p, .refl p, .inr ⟨signum, index, rfl, hnext, hh, (some.inj h).symm⟩⟩
      | default =>
        dsimp only at h
        split at h
        · cases h
          exact ⟨_, .act hnext hh, .inl ⟨rfl, rfl⟩⟩
        next hc =>
        obtain ⟨q, hq, hout⟩ := ih h
        have hstate : ((p.dequeueSignalFor tid signum).2.applyDefaultSignalAction signum).2.state =
            p.state := by
          rw [applyDefaultSignalAction_continue (not_not.mp hc)]
          exact state_dequeueSignalFor
        rw [hstate] at hout
        exact ⟨q, consumed_default hnext hh (fun _ => hq) fun hc' => absurd hc' hc, hout⟩
      | ignore =>
        obtain ⟨q, hq, hout⟩ := ih h
        rw [state_dequeueSignalFor] at hout
        refine ⟨q, .skip hnext (fun index hidx => ?_) hq, hout⟩
        rw [hh] at hidx
        cases hidx

lemma kernelDequeueSignal_rule (hI : MasksKeep tid I)
    (htake : ∀ q signum, I q → I (q.dequeueSignalFor tid signum).2)
    (hact : ∀ q signum, I q → I (q.applyDefaultSignalAction signum).2)
    (h : kernelDequeueSignal fuel tid p = some (out, p')) (hp : I p) : I p' := by
  obtain ⟨q, hcons, hout⟩ := kernelDequeueSignal_cases h
  have hq : I q := hcons.rule (fun r signum hr _ => htake r signum hr) hact hp
  rcases hout with ⟨-, rfl⟩ | ⟨signum, index, -, -, -, hout⟩
  · exact hq
  · obtain ⟨-, rfl⟩ := Prod.ext_iff.mp hout
    exact hI.enterHandler (htake q signum hq) index _

end Process

end Kandelo.Kernel.Signal
