import Kandelo.Kernel.Signal.Caught

/-!
# Signals that cannot be blocked

`SIGKILL` and `SIGSTOP` should be in no mask that is in force. Masks come from
`sigprocmask`, from the temporary masks of waiting calls, from the action of a signal whose handler
is entered, and from the attributes of a spawn; the last two are not filtered.
-/

namespace Kandelo.Kernel.Signal

open Lib List Option Process

variable {a b mask : SigMask} {action : SignalAction} {s s' : SignalState}
  {handler : SignalHandler} {signum tid sig : Nat}

/-! ### Clean masks -/

/-- A mask without `SIGKILL` and `SIGSTOP`. -/
def SigMask.Clean (mask : SigMask) : Prop := ¬ SigMask.Has mask sigKill ∧ ¬ SigMask.Has mask sigStop

instance (mask : SigMask) : Decidable (SigMask.Clean mask) := inferInstanceAs (Decidable (_ ∧ _))

lemma valid_sigKill : Valid sigKill := by decide

lemma valid_sigStop : Valid sigStop := by decide

lemma has_or (h : Valid signum) :
    SigMask.Has (a ||| b) signum ↔ SigMask.Has a signum ∨ SigMask.Has b signum := by
  rw [has_iff h, has_iff h, has_iff h, BitVec.getLsbD_or, Bool.or_eq_true]

lemma clean_or : SigMask.Clean (a ||| b) ↔ SigMask.Clean a ∧ SigMask.Clean b := by
  unfold SigMask.Clean
  rw [has_or valid_sigKill, has_or valid_sigStop, not_or, not_or]
  exact and_and_and_comm

lemma clean_zero : SigMask.Clean 0 := ⟨has_zero _, has_zero _⟩

lemma clean_filtered : SigMask.Clean (mask &&& ~~~ sigGuard) := by
  unfold SigMask.Clean
  rw [has_iff valid_sigKill, has_iff valid_sigStop, BitVec.getLsbD_and, BitVec.getLsbD_and]
  have hkill : (~~~ sigGuard).getLsbD (sigKill - 1) = false := by decide
  have hstop : (~~~ sigGuard).getLsbD (sigStop - 1) = false := by decide
  rw [hkill, hstop, Bool.and_false, Bool.and_false]
  exact ⟨Bool.false_ne_true, Bool.false_ne_true⟩

lemma clean_sigBit (hk : signum ≠ sigKill) (hs : signum ≠ sigStop) :
    SigMask.Clean (sigBit signum) := by
  by_cases h : Valid signum
  · have hzero : sigBit signum = 0 ||| sigBit signum := (BitVec.zero_or).symm
    rw [hzero]
    constructor
    · rw [has_or_sigBit h valid_sigKill]
      exact fun hor => hor.elim (has_zero _) hk
    · rw [has_or_sigBit h valid_sigStop]
      exact fun hor => hor.elim (has_zero _) hs
  · have hzero : sigBit signum = 0 := by
      unfold Valid at h
      exact if_pos (by omega)
    rw [hzero]
    exact clean_zero

/-- Neither mask blocks `SIGKILL` or `SIGSTOP`. -/
def PerThreadSignalState.Guarded (t : PerThreadSignalState) : Prop :=
  SigMask.Clean t.blocked ∧ ∀ m ∈ t.sigsuspendSavedMask, SigMask.Clean m

/-- `SIGKILL` and `SIGSTOP` have their default disposition. -/
def SignalState.Uncaught (s : SignalState) : Prop :=
  ∀ signum, signum = sigKill ∨ signum = sigStop → (s.actions signum).handler = .default

namespace Process

variable {p p' : Process}

/-- No thread blocks `SIGKILL` or `SIGSTOP`. -/
def Unblocked (p : Process) : Prop :=
  SigMask.Clean p.signals.blocked ∧ ∀ t ∈ p.threads, SigMask.Clean t.signals.blocked

/-- All masks in force, and all that will be put back, are clean. -/
structure Guarded (p : Process) : Prop where
  uncaught : p.signals.Uncaught
  blocked : SigMask.Clean p.signals.blocked
  saved : ∀ m ∈ p.sigsuspendSavedMask, SigMask.Clean m
  workers : ∀ t ∈ p.threads, t.signals.Guarded

namespace Guarded

section

variable (h : p.Guarded)

include h

lemma unblocked : p.Unblocked := ⟨h.blocked, fun t ht => (h.workers t ht).1⟩

lemma of_drained (heq : p'.drained = p.drained) : p'.Guarded where
  uncaught := by
    unfold SignalState.Uncaught
    rw [actions_of_drained heq]
    exact h.uncaught
  blocked := by
    have : p'.signals.blocked = p.signals.blocked := congrArg (fun q => q.signals.blocked) heq
    rw [this]
    exact h.blocked
  saved := by
    have : p'.sigsuspendSavedMask = p.sigsuspendSavedMask :=
      congrArg (fun q => q.sigsuspendSavedMask) heq
    rw [this]
    exact h.saved
  workers := by
    intro t ht
    have hmem : { t with signals := t.signals.drained } ∈ p'.drained.threads := mem_map_of_mem ht
    rw [heq] at hmem
    obtain ⟨u, hu, hut⟩ := mem_map.mp hmem
    have hsame : u.signals.drained = t.signals.drained := congrArg (·.signals) hut
    have hblocked : u.signals.blocked = t.signals.blocked := congrArg (·.blocked) hsame
    have hsaved : u.signals.sigsuspendSavedMask = t.signals.sigsuspendSavedMask :=
      congrArg (·.sigsuspendSavedMask) hsame
    unfold PerThreadSignalState.Guarded
    rw [← hblocked, ← hsaved]
    exact h.workers u hu

/-! ### Masks -/

lemma blockedFor (tid : Nat) : SigMask.Clean (p.blockedFor tid) := by
  unfold Process.blockedFor
  split
  · exact h.blocked
  split
  · next ht => exact (h.workers _ (mem_of_find?_eq_some ht)).1
  · exact h.blocked

lemma savedFor {m : SigMask} (hm : p.sigsuspendSavedMaskFor tid = some m) : SigMask.Clean m := by
  unfold sigsuspendSavedMaskFor at hm
  split at hm
  · exact h.saved m hm
  · obtain ⟨t, ht, hm⟩ := bind_eq_some_iff.mp hm
    exact (h.workers t (mem_of_find?_eq_some ht)).2 m hm

lemma updateThread (tid : Nat)
    {f : PerThreadSignalState → PerThreadSignalState} (hf : ∀ t, t.Guarded → (f t).Guarded) :
    (p.updateThread tid f).Guarded := by
  obtain ⟨threads, heq, hthreads⟩ := p.updateThread_eq tid f
  rw [heq]
  refine ⟨h.uncaught, h.blocked, h.saved, fun t ht => ?_⟩
  rcases hthreads t ht with ht | ⟨u, hu, rfl⟩
  · exact h.workers t ht
  · exact hf _ (h.workers u hu)

lemma setBlockedFor (tid : Nat) (hm : SigMask.Clean mask) : (p.setBlockedFor tid mask).Guarded := by
  unfold Process.setBlockedFor
  split
  · exact ⟨h.uncaught, hm, h.saved, h.workers⟩
  split
  · exact h.updateThread tid fun t ht => ⟨hm, ht.2⟩
  · exact ⟨h.uncaught, hm, h.saved, h.workers⟩

lemma setSavedFor {val : Option SigMask}
    (hm : ∀ m ∈ val, SigMask.Clean m) : (p.setSigsuspendSavedMaskFor tid val).Guarded := by
  unfold setSigsuspendSavedMaskFor
  split
  · exact ⟨h.uncaught, h.blocked, hm, h.workers⟩
  · exact h.updateThread tid fun t ht => ⟨ht.1, hm⟩

lemma restoreSavedMask (tid : Nat) : (p.restoreSavedMask tid).Guarded := by
  unfold Process.restoreSavedMask
  split
  · next saved hsaved =>
    exact (h.setSavedFor fun m hm => absurd hm (not_mem_none m)).setBlockedFor tid
      (h.savedFor hsaved)
  · exact h

lemma installTemporaryMask (tid : Nat) (mask : SigMask) :
    (p.installTemporaryMask tid mask).Guarded := by
  unfold Process.installTemporaryMask
  split
  · apply setBlockedFor _ tid clean_filtered
    exact h.setSavedFor fun m hm => some.inj hm ▸ h.blockedFor tid
  · exact h

lemma sysPpoll (tid : Nat) : ∀ mask wait, (p.sysPpoll tid mask wait).2.Guarded :=
  sysPpoll_rule h (h.installTemporaryMask tid) fun _ hq => hq.restoreSavedMask tid

/-! ### Delivery -/

lemma terminateProcessBySignal : p.terminateProcessBySignal.Guarded := by
  have hnone : ∀ m ∈ (none : Option SigMask), SigMask.Clean m :=
    fun m hm => absurd hm (not_mem_none m)
  apply of_drained _ drained_recordExit
  refine ⟨h.uncaught, h.blocked, hnone, ?_⟩
  intro t ht
  obtain ⟨u, hu, rfl⟩ := mem_map.mp ht
  exact ⟨(h.workers u hu).1, hnone⟩

lemma applyDefaultSignalAction (signum : Nat) : (p.applyDefaultSignalAction signum).2.Guarded := by
  rcases drained_applyDefaultSignalAction (p := p) signum with heq | heq
  · exact h.of_drained heq
  · rw [heq]
    exact h.terminateProcessBySignal

lemma consumed (hc : Consumed tid p p') : p'.Guarded :=
  hc.rule (fun _ _ hp _ => hp.of_drained (drained_dequeueSignalFor _ _))
    (fun _ signum hp => hp.applyDefaultSignalAction signum) h

lemma enterHandler (index : Nat)
    (hsig : SigMask.Clean (sigBit signum)) (hmask : SigMask.Clean action.mask) :
    (p.enterHandler tid signum index action).2.Guarded := by
  have hrestored : ((p.dequeueSignalFor tid signum).2.restoreSavedMask tid).Guarded :=
    (h.of_drained (drained_dequeueSignalFor tid signum)).restoreSavedMask tid
  have hset := hrestored.setBlockedFor tid
    (clean_or.mpr ⟨clean_or.mpr ⟨hrestored.blockedFor tid, hmask⟩, hsig⟩)
  exact ⟨hset.uncaught, hset.blocked, hset.saved, hset.workers⟩

end

/-! ### Dispositions -/

lemma setAction {old : SignalAction} (hset : s.setAction sig action = some (old, s')) :
    s'.blocked = s.blocked ∧ (s.Uncaught → s'.Uncaught) := by
  obtain ⟨hne, rfl⟩ := setAction_ok hset
  refine ⟨rfl, fun hs signum hsig => ?_⟩
  have hother : signum ≠ sig := fun heq => hne (heq ▸ hsig)
  dsimp only
  rw [if_neg hother]
  exact hs signum hsig

/-- Discarding what is pending changes no mask. -/
lemma installs (h : p.Guarded) (hrun : Installs sig p p') : p'.Guarded := by
  refine hrun.rule h (fun _ hq => hq.of_drained (drained_discardPendingSignal sig))
    (fun _ hq => hq.of_drained (drained_clearDirectedSignal sig)) ?_
  intro q action old signals hset hq
  obtain ⟨hblocked, hcaught⟩ := setAction hset
  exact ⟨hcaught hq.uncaught, hblocked ▸ hq.blocked, hq.saved, hq.workers⟩

/-! ### Threads and images -/

lemma removeThread (h : p.Guarded) (tid : Nat) : (p.removeThread tid).Guarded := by
  obtain ⟨threads, hsub, heq⟩ := p.removeThread_eq
  rw [heq]
  exact ⟨h.uncaught, h.blocked, h.saved, fun t ht => h.workers t (hsub ht)⟩

lemma sysClone (h : p.Guarded) (tid : Nat) : (p.sysClone tid).2.Guarded := by
  refine ⟨h.uncaught, h.blocked, h.saved, ?_⟩
  intro t ht
  rcases mem_append.mp ht with ht | ht
  · exact h.workers t ht
  rw [mem_singleton.mp ht]
  have hq : p.allocTid.2.Guarded := ⟨h.uncaught, h.blocked, h.saved, h.workers⟩
  exact ⟨hq.blockedFor tid, fun m hm => absurd hm (not_mem_none m)⟩

lemma fresh (h : SigMask.Clean p.signals.blocked) (hu : p.signals.Uncaught)
    (hs : p.sigsuspendSavedMask = none) (ht : p.threads = []) : p.Guarded where
  uncaught := hu
  blocked := h
  saved := by
    rw [hs]
    exact fun m hm => absurd hm (not_mem_none m)
  workers := by
    rw [ht]
    exact fun t ht => absurd ht not_mem_nil

lemma asMain (h : p.Guarded) {t : ThreadInfo} (ht : t ∈ p.threads) : (p.asMain t.signals).Guarded :=
  ⟨h.uncaught, (h.workers t ht).1, h.saved, h.workers⟩

lemma newImage (h : p.Guarded) : p.newImage.Guarded := by
  refine fresh (p := p.newImage) h.blocked ?_ rfl rfl
  intro signum hsig
  have hne : signum ≠ 0 := by
    rintro rfl
    rcases hsig with hsig | hsig <;> cases hsig
  simp only [Process.newImage, SignalState.resetDispositionsForExec, if_neg hne]
  rw [if_neg]
  rw [h.uncaught signum hsig]
  exact SignalHandler.noConfusion

lemma commitExecState (h : p.Guarded) (hrun : p.commitExecState tid = .ok p') : p'.Guarded := by
  obtain ⟨q, hq, rfl⟩ := commitExecState_ok hrun
  have hguard : q.Guarded := by
    rcases hq with rfl | ⟨t, ht, rfl⟩
    · exact h
    · exact h.asMain ht
  exact hguard.newImage.of_drained drained_dropTimers

lemma legacyExec (h : p.Guarded) (hrun : p.legacyExec = .ok p') : p'.Guarded := by
  obtain ⟨main, -, rfl⟩ := legacyExec_ok hrun
  refine fresh ?_ ?_ rfl rfl
  · exact h.blocked
  intro signum hsig
  change legacyHandlers p.signals signum = _
  rw [legacyHandlers, if_neg]
  rw [h.uncaught signum hsig]
  exact fun hand => SignalHandler.noConfusion hand.2.2

lemma forkChild (h : p.Guarded) (pid : Nat) : (p.forkChild pid).Guarded :=
  fresh h.blocked h.uncaught rfl rfl

lemma setHandlers {sigs : List Nat} :
    (sigs.foldl (setHandlerIgnoringError · · handler) s).blocked = s.blocked ∧
      (s.Uncaught → (sigs.foldl (setHandlerIgnoringError · · handler) s).Uncaught) := by
  refine setHandlers_rule (J := fun s' => s'.blocked = s.blocked ∧ (s.Uncaught → s'.Uncaught)) ?_
    ⟨rfl, id⟩ sigs handler
  intro s1 sig action old s2 hset hs
  obtain ⟨hblocked, hcaught⟩ := setAction hset
  exact ⟨hblocked.trans hs.1, hcaught ∘ hs.2⟩

lemma blocked_spawnChild (pid : Nat) (sigmask sigdef : Option SigMask) :
    (p.spawnChild pid sigmask sigdef).signals.blocked = sigmask.getD p.signals.blocked := by
  unfold spawnChild
  rw [setHandlers.1]
  rw [setHandlers.1]

lemma spawnChild {pid : Nat} {sigmask sigdef : Option SigMask}
    (h : SigMask.Clean (sigmask.getD p.signals.blocked)) :
    (p.spawnChild pid sigmask sigdef).Guarded := by
  apply fresh _ _ rfl rfl
  · rw [blocked_spawnChild]
    exact h
  · apply setHandlers.2
    apply setHandlers.2
    exact fun _ _ => rfl

end Guarded

/-! ### Runs -/

/-- The operation puts no unfiltered mask in force: a handler that is entered has a clean mask, and
so have the attributes of a spawn. -/
def Filtered (p : Process) : Op → Prop
  | .dequeueSignal _ tid =>
    ∀ signum ∈ p.caughtSignal tid, SigMask.Clean (p.signals.getAction signum).mask
  | .spawnChild _ sigmask _ => ∀ m ∈ sigmask, SigMask.Clean m
  | _ => True

lemma actions_of_consumed (h : Consumed tid p p') : p'.signals.actions = p.signals.actions := by
  refine h.rule (I := fun q => q.signals.actions = p.signals.actions) ?_ ?_ rfl
  · intro q signum hq _
    exact (actions_of_drained (drained_dequeueSignalFor tid signum)).trans hq
  intro q signum hq
  rcases drained_applyDefaultSignalAction (p := q) signum with heq | heq
  · exact (actions_of_drained heq).trans hq
  · rw [heq, terminateProcessBySignal, actions_of_drained drained_recordExit]
    exact hq

lemma Guarded.clean_of_caught (h : p.Guarded) {index : Nat}
    (hh : (p.signals.getAction signum).handler = .handler index) :
    SigMask.Clean (sigBit signum) := by
  have hne : ¬ (signum = sigKill ∨ signum = sigStop) := by
    intro hsig
    have hdefault := h.uncaught signum hsig
    unfold SignalState.getAction at hh
    split at hh
    · cases hh
    · rw [hdefault] at hh
      cases hh
  rw [not_or] at hne
  exact clean_sigBit hne.1 hne.2

lemma not_unblocked_setBlockedFor (h : ¬ SigMask.Clean mask) :
    ¬ (p.setBlockedFor tid mask).Unblocked := by
  intro hu
  unfold setBlockedFor at hu
  split at hu
  · exact h hu.1
  split at hu
  · next hsome =>
    unfold updateThread at hu
    split at hu
    · next threads hthreads =>
      obtain ⟨before, t, after, -, -, rfl⟩ := Slice.modifyFirst_eq_some hthreads
      exact h (hu.2 { t with signals := { t.signals with blocked := mask } }
        (mem_append_right _ mem_cons_self))
    · next hnone =>
      obtain ⟨t, ht⟩ := isSome_iff_exists.mp hsome
      have hfalse := Slice.modifyFirst_eq_none.mp hnone t (mem_of_find?_eq_some ht)
      rw [find?_some ht] at hfalse
      cases hfalse
  · exact h hu.1

lemma Guarded.kernelDequeueSignal (h : p.Guarded) {fuel : Nat} {out : Option DeliveredSignal}
    (hrun : kernelDequeueSignal fuel tid p = some (out, p')) :
    (Filtered p (.dequeueSignal fuel tid) → p'.Guarded) ∧
      (p'.Unblocked → Filtered p (.dequeueSignal fuel tid)) := by
  have hcaught := signum_kernelDequeueSignal (h.uncaught sigKill (.inl rfl)) hrun
  obtain ⟨q, hq, ⟨rfl, rfl⟩ | ⟨signum, index, -, -, hh, hout⟩⟩ := kernelDequeueSignal_cases hrun
  · refine ⟨fun _ => h.consumed hq, fun _ signum hs => ?_⟩
    rw [← hcaught] at hs
    cases hs
  have hguard := h.consumed hq
  have hsig := hguard.clean_of_caught hh
  have haction : p.signals.getAction signum = q.signals.getAction signum := by
    unfold SignalState.getAction
    rw [actions_of_consumed hq]
  obtain ⟨rfl, rfl⟩ := Prod.ext_iff.mp hout
  -- the signal that is delivered is the one whose handler is entered
  have hsignum : p.caughtSignal tid = some signum :=
    hcaught.symm.trans (congrArg some (signum_dequeueSignalFor tid signum))
  have hfilter : Filtered p (.dequeueSignal fuel tid) ↔
      SigMask.Clean (q.signals.getAction signum).mask := by
    rw [← haction]
    constructor
    · exact fun hf => hf signum hsignum
    · rintro hm s hs
      rw [hsignum] at hs
      exact some.inj hs ▸ hm
  rw [hfilter]
  refine ⟨fun hm => hguard.enterHandler index hsig hm, fun hu => ?_⟩
  by_contra hdirty
  apply not_unblocked_setBlockedFor _ hu
  intro hclean
  exact hdirty (clean_or.mp (clean_or.mp hclean).1).2

lemma Guarded.step {op : Op} (h : p.Guarded) (hstep : p.step op = some p') :
    (Filtered p op → p'.Guarded) ∧ (p'.Unblocked → Filtered p op) := by
  cases op with
  | dequeueSignal =>
    obtain ⟨⟨out, q⟩, hrun, rfl⟩ := map_eq_some_iff.mp hstep
    exact h.kernelDequeueSignal hrun
  | spawnChild pid sigmask =>
    cases hstep
    constructor
    · intro hf
      apply Guarded.spawnChild
      cases sigmask with
      | none => exact h.blocked
      | some m => exact hf m rfl
    · rintro ⟨hu, -⟩ m hm
      rw [Guarded.blocked_spawnChild, mem_def.mp hm] at hu
      exact hu
  | deliver => exact ⟨fun _ => h.consumed (consumed_of_deliverLoop hstep), fun _ => trivial⟩
  | exec =>
    cases hstep
    exact ⟨fun _ => okOr_rule h fun q hq => h.commitExecState hq, fun _ => trivial⟩
  | legacyExec =>
    cases hstep
    exact ⟨fun _ => okOr_rule h fun q hq => h.legacyExec hq, fun _ => trivial⟩
  | sigaction =>
    cases hstep
    exact ⟨fun _ => okOr_rule h fun q hq => h.installs (installs_sysSigaction hq), fun _ => trivial⟩
  | signal =>
    cases hstep
    exact ⟨fun _ => okOr_rule h fun q hq => h.installs (installs_sysSignal hq), fun _ => trivial⟩
  | forkChild pid =>
    cases hstep
    exact ⟨fun _ => h.forkChild pid, fun _ => trivial⟩
  | sigprocmask tid =>
    cases hstep
    exact ⟨fun _ => h.setBlockedFor tid clean_filtered, fun _ => trivial⟩
  | sigsuspend tid mask =>
    cases hstep
    exact ⟨fun _ => h.installTemporaryMask tid mask, fun _ => trivial⟩
  | ppoll tid mask wait =>
    cases hstep
    exact ⟨fun _ => h.sysPpoll tid mask wait, fun _ => trivial⟩
  | resetSignalMask =>
    cases hstep
    refine ⟨fun _ => ⟨h.uncaught, clean_zero, ?_, h.workers⟩, fun _ => trivial⟩
    exact fun m hm => absurd hm (not_mem_none m)
  | clone tid =>
    cases hstep
    exact ⟨fun _ => h.sysClone tid, fun _ => trivial⟩
  | threadExit tid =>
    cases hstep
    exact ⟨fun _ => h.removeThread tid, fun _ => trivial⟩
  | _ => exact ⟨fun _ => h.of_drained (drained_step rfl hstep), fun _ => trivial⟩

/-- As long as no unfiltered mask is put in force no thread blocks `SIGKILL` or `SIGSTOP`, and an
operation that does put one in force breaks this. -/
theorem unblockable_iff_filtered {p : Process} (h : ReachedBy Filtered p) :
    p.Unblocked ∧ ∀ op p', p.step op = some p' → (p'.Unblocked ↔ Filtered p op) := by
  have hguard : p.Guarded := h.rule
    (fun pid uid => Guarded.fresh clean_zero (fun _ _ => rfl) rfl rfl)
    fun q op q' _ hq hok hstep => (hq.step hstep).1 hok
  refine ⟨hguard.unblocked, fun op p' hstep => ?_⟩
  obtain ⟨hsound, hcomplete⟩ := hguard.step hstep
  exact ⟨hcomplete, fun hf => (hsound hf).unblocked⟩

/-- Blocking every signal blocks all but the two, in a spawned child too. -/
theorem unblockable_blockAll :
    ∃ p, ReachedBy Filtered p ∧ p.Unblocked ∧ p.signals.blocked = ~~~ sigGuard := by
  have h0 : ReachedBy Filtered (new 5 0) := .new 5 0
  have h1 := ReachedBy.step (.sigprocmask 0 .setMask (BitVec.allOnes 64)) h0 trivial rfl
  have h2 := ReachedBy.step (.spawnChild 6 (some (~~~ sigGuard)) none) h1
    (fun m hm => some.inj hm ▸ by decide) rfl
  exact ⟨_, h2, (unblockable_iff_filtered h2).1, by decide +kernel⟩

/-- While the handler of `SIGUSR1` runs whose action has `SIGKILL` in its mask, `SIGKILL` is
blocked, and a child spawned with a full mask starts with both blocked. -/
theorem handler_and_spawn_block_sigkill :
    (∃ p, Reachable p ∧ SigMask.Has p.signals.blocked sigKill) ∧
      ∃ p, Reachable p ∧ SigMask.Has p.signals.blocked sigKill ∧
        SigMask.Has p.signals.blocked sigStop := by
  have h0 := Reachable.new 5 0
  constructor
  · have h1 := Reachable.step (.sigaction 10 2 0 (sigBit sigKill)) h0 rfl
    have h2 := Reachable.step (.raise 10) h1 rfl
    have h3 := Reachable.step (.dequeueSignal 1 0) h2 rfl
    exact ⟨_, h3, by decide +kernel⟩
  · have h1 := Reachable.step (.spawnChild 6 (some (BitVec.allOnes 64)) none) h0 rfl
    exact ⟨_, h1, by decide +kernel, by decide +kernel⟩

end Process

end Kandelo.Kernel.Signal
