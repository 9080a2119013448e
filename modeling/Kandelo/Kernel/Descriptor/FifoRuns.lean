import Kandelo.Kernel.Descriptor.FifoMachine

/-!
# The rendezvous in every run

Every step of any process keeps the rendezvous of the named pipe, with the counts
of descriptions over all processes, and every waiting open keeps the number that it has reserved.
-/

namespace Kandelo.Kernel.Descriptor

open Lib List Option Slots Fleet Tables FdTable
open Lib.Effect (exec)
open Pipe
open File (oRdonly oWronly)
open Kandelo.Kernel.Path (bytes sIfdir)

variable {fds fds' : FdTable} {fd : Nat} {waiter : FifoOpenWaiter} {gone new : Option OpenFileDesc}
  {pipes : PipeTable} {f pid : Nat} {t t' : Tables} {o : OpenFileDesc} {k : RefKind}
  {p : PipeBuffer} {flags : BitVec 32} {held held' : RefKind → Nat}

/-! ### What descriptions hold -/

lemma lasting_holds (f : Nat) (k : RefKind) : Tables.Lasting (holds f k) := fun _ _ => rfl

lemma holds_of_pipeIdx_ne (h : o.pipeIdx ≠ some f) (k : RefKind) : holds f k o = false := by
  rw [holds, decide_eq_false h, Bool.false_and]

lemma count_holds_eq_zero {ofds : Slots OpenFileDesc}
    (h : ∀ i o, ofds.get i = some o → o.pipeIdx ≠ some f) :
    ofds.count (holds f k) = 0 := by
  rw [← countP_entries, countP_eq_zero]
  intro o ho
  obtain ⟨i, hi⟩ := mem_entries.mp ho
  rw [holds_of_pipeIdx_ne (h i o hi)]
  exact Bool.false_ne_true

lemma holds_eq (hpipe : o.pipeIdx = some f) (hkind : fifoReference o.statusFlags = some k)
    (j : RefKind) : holds f j o = decide (j = k) := by
  rw [holds, hpipe, hkind, decide_eq_true rfl]
  exact decide_eq_decide.mpr (some_inj.trans eq_comm)

lemma fifoReference_ne (h : fifoReference flags = some k) : k ≠ .Read false := by
  rintro rfl
  unfold fifoReference PipeBuffer.referenceKind at h
  split at h
  · split at h <;> cases h
  split at h
  · cases h
  split at h
  · cases h
  · split at h <;> cases h

lemma adds_of_holds (hpipe : o.pipeIdx = some f)
    (hkind : fifoReference o.statusFlags = some k)
    (h : ∀ j, held' j = held j + if holds f j o then 1 else 0) : Adds k held held' := by
  intro j
  rw [h, holds_eq hpipe hkind]
  simp

lemma same_of_not_holds (hnot : ∀ j, holds f j o = false)
    (h : ∀ j, held' j = held j + if holds f j o then 1 else 0) : held' = held := by
  funext j
  rw [h, hnot, if_neg Bool.false_ne_true, Nat.add_zero]

/-! ### References in the table -/

/-- If the named pipe is there, its rendezvous stands and its waiting opens are as `P` says. -/
def Stands (f : Nat) (t : PipeTable) (held : RefKind → Nat)
    (P : List (Nat × FifoOpenWaiter) → Prop) : Prop :=
  ∀ p, t.get f = some p → Rendezvous p held ∧ P p.fifoOpenWaiters

section

variable {table : PipeTable} {held held' : RefKind → Nat}
  {P : List (Nat × FifoOpenWaiter) → Prop}

lemma Stands.of_get (hp : table.get f = some p) (h : Rendezvous p held ∧ P p.fifoOpenWaiters) :
    Stands f table held P := by
  intro p' hp'
  rw [hp, some.injEq] at hp'
  rwa [← hp']

section

variable (h : Stands f table held P)

include h

lemma Stands.freeIfClosed (i : Nat) : Stands f (table.freeIfClosed i) held P := by
  intro q hq
  obtain ⟨p, hp, hcollected⟩ := PipeTable.get_freeIfClosed hq
  obtain ⟨hr, hw⟩ := h p hp
  rw [hcollected]
  exact ⟨hr.congr rfl fun _ _ => rfl, hw⟩

lemma Stands.changeReference {op : PipeBuffer → RefKind → PipeBuffer} (o : OpenFileDesc)
    (hother : (∀ j, holds f j o = false) → held' = held)
    (hop : ∀ k, o.pipeIdx = some f → fifoReference o.statusFlags = some k →
      ∀ p, Rendezvous p held → Rendezvous (op p k) held' ∧
        (op p k).fifoOpenWaiters = p.fifoOpenWaiters) :
    Stands f (changeReference op table o) held' P := by
  unfold Descriptor.changeReference
  split
  · next hnone =>
    rw [hother (holds_of_pipeIdx_ne (by rw [hnone]; exact nofun))]
    exact h
  next i hi =>
  intro q hq
  rw [PipeTable.get_update] at hq
  split at hq
  · next hfi =>
    obtain ⟨p, hp, rfl⟩ := map_eq_some_iff.mp hq
    obtain ⟨hr, hw⟩ := h p hp
    rw [referenceKind_of_isFifo hr.fifo]
    split
    · next hnone =>
      rw [hother fun j => by rw [holds, hnone]; simp]
      exact ⟨hr, hw⟩
    · next k hk =>
      obtain ⟨hr', hw'⟩ := hop k (hi.trans (congrArg some hfi.symm)) hk p hr
      rw [hw']
      exact ⟨hr', hw⟩
  · next hfi =>
    rw [hother (holds_of_pipeIdx_ne (by rw [hi]; exact fun h => hfi (some.inj h).symm))]
    exact h q hq

lemma Stands.bumpOfd (o : OpenFileDesc)
    (hheld : ∀ j, held' j = held j + if holds f j o then 1 else 0)
    (hpos : ∀ j, holds f j o = true → 0 < held j) : Stands f (bumpOfd table o) held' P := by
  apply h.changeReference o
  · exact fun hnot => same_of_not_holds hnot hheld
  intro k hpipe hkind p hr
  refine ⟨hr.addReference (fifoReference_ne hkind) (hpos k ?_) (adds_of_holds hpipe hkind hheld),
    p.waiters_addReference k⟩
  rw [holds_eq hpipe hkind, decide_eq_true rfl]

lemma Stands.retireOfd (o : OpenFileDesc)
    (hheld : ∀ j, held j = held' j + if holds f j o then 1 else 0) :
    Stands f (retireOfd table o) held' P := by
  have hclosed : Stands f (Descriptor.changeReference PipeBuffer.closeReference table o) held'
      P := by
    apply h.changeReference o
    · exact fun hnot => (same_of_not_holds hnot hheld).symm
    intro k hpipe hkind p hr
    exact ⟨hr.closeReference (fifoReference_ne hkind) (adds_of_holds hpipe hkind hheld),
      p.waiters_closeReference k⟩
  unfold Descriptor.retireOfd
  split
  · next hnone =>
    rwa [Descriptor.changeReference, hnone] at hclosed
  · exact hclosed.freeIfClosed _

lemma Stands.releaseGone (gone : Option OpenFileDesc)
    (hheld : ∀ j, held' j + Tables.share (holds f j) gone = held j) :
    Stands f (releaseGone table gone) held' P := by
  cases gone with
  | none =>
    have hsame : held' = held := funext hheld
    rw [hsame]
    exact h
  | some o =>
    have hretired : Stands f (Descriptor.retireOfd table o) held' P :=
      h.retireOfd o fun j => (hheld j).symm
    change Stands f (releaseOfd table o) held' P
    unfold releaseOfd
    split
    · next hnone =>
      rwa [Descriptor.retireOfd, hnone] at hretired
    next i hi =>
    split
    · exact hretired
    -- a description of another pipe that is gone already
    next hgone =>
    intro p hp
    have hne : o.pipeIdx ≠ some f := by
      intro hf
      rw [hi, some.injEq] at hf
      rw [hf, hp] at hgone
      exact hgone rfl
    rw [same_of_not_holds (holds_of_pipeIdx_ne hne) fun j => (hheld j).symm] at h
    exact h p hp

end

variable (os : List OpenFileDesc)

lemma Stands.bumpAll (h : Stands f table held P)
    (hheld : ∀ j, held' j = held j + os.countP (holds f j))
    (hpos : ∀ o ∈ os, ∀ j, holds f j o = true → 0 < held j) :
    Stands f (os.foldl Descriptor.bumpOfd table) held' P := by
  induction os generalizing table held with
  | nil =>
    have hsame : held' = held := funext hheld
    rw [hsame]
    exact h
  | cons o os ih =>
    apply ih (h.bumpOfd o (fun _ => rfl) (hpos o mem_cons_self))
    · intro j
      rw [hheld, countP_cons]
      omega
    · intro o' ho' j hj
      exact Nat.lt_of_lt_of_le (hpos o' (mem_cons_of_mem o ho') j hj) (Nat.le_add_right ..)

lemma Stands.retireAll (h : Stands f table held P)
    (hheld : ∀ j, held j = held' j + os.countP (holds f j)) :
    Stands f (os.foldl Descriptor.retireOfd table) held' P := by
  induction os generalizing table held with
  | nil =>
    have hsame : held = held' := funext hheld
    rw [← hsame]
    exact h
  | cons o os ih =>
    have hfirst : Stands f (Descriptor.retireOfd table o)
        (fun j => held' j + os.countP (holds f j)) P := by
      apply h.retireOfd o
      intro j
      rw [hheld, countP_cons]
      omega
    exact ih hfirst fun _ => rfl

end

/-! ### Numbers that are reserved -/

/-- A number other than `fd` that is reserved and unused stays so. -/
def KeepsBut (fd : Nat) (fds fds' : FdTable) : Prop :=
  ∀ i ≠ fd, i ∈ fds.reserved → fds.entries.get i = none →
    i ∈ fds'.reserved ∧ fds'.entries.get i = none

lemma keepsBut_releaseReserved : KeepsBut fd fds (fds.releaseReserved fd) := by
  intro i hi hres hnone
  exact ⟨mem_filter.mpr ⟨hres, decide_eq_true hi⟩, hnone⟩

lemma keepsBut_installReserved {r : Nat} (h : fds.installReserved fd r flags = .ok fds') :
    KeepsBut fd fds fds' := by
  unfold installReserved at h
  split at h
  · next hcan =>
    cases h
    intro i hi hres hnone
    refine ⟨mem_filter.mpr ⟨hres, decide_eq_true hi⟩, ?_⟩
    rw [get_put (Nat.le_of_lt (fds.reserved_lt fd hcan.2)), if_neg hi, hnone]
  · cases h

lemma keeps_reserve (h : fds.reserve = .ok (fd, fds')) :
    fds.Keeps fds' ∧ fd ∉ fds.reserved ∧ fd ∈ fds'.reserved ∧ fds'.entries.get fd = none := by
  have hget := get_reserve h
  have havail := fds.available_lowest
  unfold reserve at h
  split at h
  · cases h
  cases h
  refine ⟨fun i hi hnone => ⟨mem_cons_of_mem _ hi, by rw [hget, hnone]⟩, havail.2,
    mem_cons_self, ?_⟩
  rw [hget]
  exact havail.1

lemma keeps_busy (h : fds.reserve = .ok (fd, fds')) : fds.Keeps (fds'.releaseReserved fd) := by
  obtain ⟨hkeeps, hnew, -, -⟩ := keeps_reserve h
  intro i hi hnone
  obtain ⟨hi', hnone'⟩ := hkeeps i hi hnone
  refine keepsBut_releaseReserved i ?_ hi' hnone'
  rintro rfl
  exact hnew hi

lemma waiters_reserveFifoOpen {q : PipeBuffer} {owner : Nat}
    (h : p.reserveFifoOpen owner waiter = some q) :
    q.fifoOpenWaiters = (owner, waiter) :: p.fifoOpenWaiters := by
  unfold PipeBuffer.reserveFifoOpen at h
  split at h
  · cases h
  · cases h
    cases waiter.side <;> rfl

/-- The process of a waiting open. -/
def ownerPid (owner : Nat) : Nat := owner >>> 32

/-- Every waiting open was there before. -/
def Fewer (waiters waiters' : List (Nat × FifoOpenWaiter)) : Prop :=
  ∀ x ∈ waiters', ∃ y ∈ waiters, y.1 = x.1 ∧ y.2.reservedFd = x.2.reservedFd ∧
    y.2.statusFlags = x.2.statusFlags ∧ y.2.side = x.2.side

namespace Fewer

variable {waiters waiters' waiters'' : List (Nat × FifoOpenWaiter)}

lemma of_subset (h : ∀ x ∈ waiters', x ∈ waiters) : Fewer waiters waiters' :=
  fun x hx => ⟨x, h x hx, rfl, rfl, rfl, rfl⟩

lemma refl (waiters : List (Nat × FifoOpenWaiter)) : Fewer waiters waiters :=
  of_subset fun _ hx => hx

lemma trans (h : Fewer waiters waiters') (h' : Fewer waiters' waiters'') :
    Fewer waiters waiters'' := by
  intro x hx
  obtain ⟨y, hy, howner, hfd, hflags, hside⟩ := h' x hx
  obtain ⟨z, hz, howner', hfd', hflags', hside'⟩ := h y hy
  exact ⟨z, hz, howner'.trans howner, hfd'.trans hfd, hflags'.trans hflags, hside'.trans hside⟩

lemma wake (p : PipeBuffer) (side : FifoOpenSide) :
    Fewer p.fifoOpenWaiters (p.wake side).fifoOpenWaiters := by
  intro x hx
  obtain ⟨y, hy, rfl⟩ := mem_map.mp hx
  refine ⟨y, hy, ?_⟩
  split <;> exact ⟨rfl, rfl, rfl, rfl⟩

lemma publish (p : PipeBuffer) (side : FifoOpenSide) :
    Fewer p.fifoOpenWaiters (p.publishFifoOpen side).fifoOpenWaiters := by
  cases side with
  | Reader =>
    refine Fewer.trans (of_subset fun x hx => ?_) (wake _ .Writer)
    split at hx
    · exact hx
    · split at hx <;> exact hx
  | Writer => exact wake { p with fifoWriterEverOpened := true, fifoReadHangup := false } .Reader

lemma taken (p : PipeBuffer) (k : RefKind) :
    Fewer p.fifoOpenWaiters (taken p k).fifoOpenWaiters := by
  cases k with
  | Path => exact refl _
  | Read => exact publish (p.addReference (.Read false)) .Reader
  | Write => exact publish (p.addReference .Write) .Writer
  | ReadWrite => exact (wake { p.addReference .ReadWrite with
      fifoWriterEverOpened := true, fifoReadHangup := false } .Reader).trans (wake _ .Writer)

end Fewer

/-- Each open that waits has reserved a number of its own in its process. -/
structure Booked (procs : Fleet Nat Tables) (waiters : List (Nat × FifoOpenWaiter)) : Prop where
  live : ∀ x ∈ waiters, ownerPid x.1 ∈ procs.live
  reserved : ∀ x ∈ waiters, x.2.reservedFd ∈ (procs.state (ownerPid x.1)).fds.reserved
  unused : ∀ x ∈ waiters, (procs.state (ownerPid x.1)).fds.entries.get x.2.reservedFd = none
  kind : ∀ x ∈ waiters, fifoReference x.2.statusFlags = some x.2.side.kind
  apart : ∀ x ∈ waiters, ∀ y ∈ waiters, ownerPid x.1 = ownerPid y.1 →
    x.2.reservedFd = y.2.reservedFd → x.1 = y.1

namespace Booked

variable {procs : Fleet Nat Tables} {waiters waiters' : List (Nat × FifoOpenWaiter)}

section

variable (h : Booked procs waiters)

include h

lemma sub (hsub : Fewer waiters waiters') : Booked procs waiters' := by
  constructor
  · intro x hx
    obtain ⟨y, hy, howner, -⟩ := hsub x hx
    exact howner ▸ h.live y hy
  · intro x hx
    obtain ⟨y, hy, howner, hfd, -⟩ := hsub x hx
    exact howner ▸ hfd ▸ h.reserved y hy
  · intro x hx
    obtain ⟨y, hy, howner, hfd, -⟩ := hsub x hx
    exact howner ▸ hfd ▸ h.unused y hy
  · intro x hx
    obtain ⟨y, hy, -, -, hflags, hside⟩ := hsub x hx
    exact hflags ▸ hside ▸ h.kind y hy
  · intro x hx x' hx' hpid hfd
    obtain ⟨y, hy, howner, hfd1, -⟩ := hsub x hx
    obtain ⟨y', hy', howner', hfd2, -⟩ := hsub x' hx'
    rw [← howner, ← howner'] at hpid ⊢
    exact h.apart y hy y' hy' hpid (hfd1.trans (hfd.trans hfd2.symm))

lemma subset (hsub : ∀ x ∈ waiters', x ∈ waiters) : Booked procs waiters' := h.sub (.of_subset hsub)

lemma set (hkeeps : ∀ x ∈ waiters, ownerPid x.1 = pid → x.2.reservedFd ∈ t'.fds.reserved ∧
    t'.fds.entries.get x.2.reservedFd = none) : Booked (procs.set pid t') waiters := by
  have hstate (x : Nat × FifoOpenWaiter) (hx : x ∈ waiters) :
      x.2.reservedFd ∈ ((procs.set pid t').state (ownerPid x.1)).fds.reserved ∧
        ((procs.set pid t').state (ownerPid x.1)).fds.entries.get x.2.reservedFd = none := by
    by_cases hpid : ownerPid x.1 = pid
    · rw [hpid, state_set_self]
      exact hkeeps x hx hpid
    · rw [state_set_of_ne hpid]
      exact ⟨h.reserved x hx, h.unused x hx⟩
  exact ⟨h.live, fun x hx => (hstate x hx).1, fun x hx => (hstate x hx).2, h.kind, h.apart⟩

lemma keeps (hkeeps : (procs.state pid).fds.Keeps t'.fds) : Booked (procs.set pid t') waiters := by
  apply h.set
  intro x hx hpid
  have hres := h.reserved x hx
  have hnone := h.unused x hx
  rw [hpid] at hres hnone
  exact hkeeps _ hres hnone

lemma leave {owner : Nat} (hwaiter : (owner, waiter) ∈ waiters) (howner : ownerPid owner = pid)
    (hkeeps : KeepsBut waiter.reservedFd (procs.state pid).fds t'.fds) :
    Booked (procs.set pid t') (waiters.filter (·.1 ≠ owner)) := by
  have hrest : Booked procs (waiters.filter (·.1 ≠ owner)) :=
    h.subset fun x hx => mem_of_mem_filter hx
  apply hrest.set
  intro x hx hpid
  have hmem := mem_of_mem_filter hx
  have hres := h.reserved x hmem
  have hnone := h.unused x hmem
  rw [hpid] at hres hnone
  refine hkeeps _ ?_ hres hnone
  intro hfd
  have hsame := h.apart x hmem (owner, waiter) hwaiter (hpid.trans howner.symm) hfd
  exact of_decide_eq_true (mem_filter.mp hx).2 hsame

lemma cons {owner : Nat} (hlive : ownerPid owner ∈ procs.live)
    (hres : waiter.reservedFd ∈ (procs.state (ownerPid owner)).fds.reserved)
    (hnone : (procs.state (ownerPid owner)).fds.entries.get waiter.reservedFd = none)
    (hkind : fifoReference waiter.statusFlags = some waiter.side.kind)
    (hnew : ∀ x ∈ waiters, ownerPid x.1 = ownerPid owner → x.2.reservedFd ≠ waiter.reservedFd) :
    Booked procs ((owner, waiter) :: waiters) := by
  constructor
  · exact forall_mem_cons.mpr ⟨hlive, h.live⟩
  · exact forall_mem_cons.mpr ⟨hres, h.reserved⟩
  · exact forall_mem_cons.mpr ⟨hnone, h.unused⟩
  · exact forall_mem_cons.mpr ⟨hkind, h.kind⟩
  intro x hx y hy hpid hfd
  rcases mem_cons.mp hx with rfl | hx
  · rcases mem_cons.mp hy with rfl | hy
    · rfl
    · exact absurd hfd.symm (hnew y hy hpid.symm)
  · rcases mem_cons.mp hy with rfl | hy
    · exact absurd hfd (hnew x hx hpid)
    · exact h.apart x hx y hy hpid hfd

lemma join (hfresh : pid ∉ procs.live) : Booked (procs.add pid t') waiters := by
  have hne (x : Nat × FifoOpenWaiter) (hx : x ∈ waiters) : ownerPid x.1 ≠ pid := by
    intro hpid
    exact hfresh (hpid ▸ h.live x hx)
  constructor
  · exact fun x hx => mem_live_add.mpr (.inr (h.live x hx))
  · intro x hx
    rw [state_add_of_ne (hne x hx)]
    exact h.reserved x hx
  · intro x hx
    rw [state_add_of_ne (hne x hx)]
    exact h.unused x hx
  · exact h.kind
  · exact h.apart

end

end Booked

/-! ### The opens of a process that goes -/

section

variable {α : Type} {l : List (Nat × α)}

lemma lookup_of_mem (hnodup : (l.map Prod.fst).Nodup) {x : Nat × α} (hx : x ∈ l) :
    l.lookup x.1 = some x.2 := by
  induction l with
  | nil => cases hx
  | cons y l ih =>
    rw [map_cons, nodup_cons] at hnodup
    rw [lookup_cons]
    rcases mem_cons.mp hx with rfl | hx
    · rw [beq_self_eq_true]
    have hne : x.1 ≠ y.1 := fun heq => hnodup.1 (heq ▸ mem_map_of_mem hx)
    rw [beq_false_of_ne hne]
    exact ih hnodup.2 hx

lemma lookup_filter_ne {a b : Nat} (h : b ≠ a) : (l.filter (·.1 ≠ a)).lookup b = l.lookup b := by
  induction l with
  | nil => rfl
  | cons y l ih =>
    by_cases hy : y.1 = a
    · rw [filter_cons_of_neg (by simpa using hy), lookup_cons,
        beq_false_of_ne (fun hb => h (hb.trans hy))]
      exact ih
    · rw [filter_cons_of_pos (by simpa using hy), lookup_cons, lookup_cons, ih]

end

section

variable {p : PipeBuffer} {held : RefKind → Nat}

lemma cancel_all (l : List (Nat × FifoOpenWaiter)) (h : Rendezvous p held)
    (hl : ∀ x ∈ l, p.waiter x.1 = some x.2) (hnodup : (l.map Prod.fst).Nodup) :
    Rendezvous (l.foldl (fun p x => p.cancelFifoOpen x.1 x.2.side) p) held ∧
      ∀ x ∈ (l.foldl (fun p x => p.cancelFifoOpen x.1 x.2.side) p).fifoOpenWaiters,
        x ∈ p.fifoOpenWaiters ∧ x.1 ∉ l.map Prod.fst := by
  induction l generalizing p with
  | nil => exact ⟨h, fun x hx => ⟨hx, nofun⟩⟩
  | cons y l ih =>
    rw [map_cons, nodup_cons] at hnodup
    have hcancel := h.cancel (hl y mem_cons_self)
    have hrest : ∀ x ∈ l, (p.cancelFifoOpen y.1 y.2.side).waiter x.1 = some x.2 := by
      intro x hx
      have hne : x.1 ≠ y.1 := fun heq => hnodup.1 (heq ▸ mem_map_of_mem hx)
      rw [PipeBuffer.waiter, Rendezvous.waiters_cancelFifoOpen]
      exact (lookup_filter_ne hne).trans (hl x (mem_cons_of_mem y hx))
    obtain ⟨hr, hw⟩ := ih hcancel hrest hnodup.2
    refine ⟨hr, fun x hx => ?_⟩
    obtain ⟨hmem, hnot⟩ := hw x hx
    rw [Rendezvous.waiters_cancelFifoOpen] at hmem
    have hne : x.1 ≠ y.1 := of_decide_eq_true (mem_filter.mp hmem).2
    refine ⟨mem_of_mem_filter hmem, ?_⟩
    rw [map_cons, mem_cons, not_or]
    exact ⟨hne, hnot⟩

lemma mem_processWaiters {x : Nat × FifoOpenWaiter} :
    x ∈ p.processWaiters pid ↔ x ∈ p.fifoOpenWaiters ∧ ownerPid x.1 = pid := by
  rw [PipeBuffer.processWaiters, mem_mergeSort, mem_filter, decide_eq_true_eq, ownerPid]

lemma cancel_process (h : Rendezvous p held) :
    Rendezvous (p.cancelFifoOpensForProcess pid) held ∧
      ∀ x ∈ (p.cancelFifoOpensForProcess pid).fifoOpenWaiters,
        x ∈ p.fifoOpenWaiters ∧ ownerPid x.1 ≠ pid := by
  have hnodup : ((p.processWaiters pid).map Prod.fst).Nodup :=
    ((mergeSort_perm _ _).map _).nodup_iff.mpr (h.owners.sublist (filter_sublist.map _))
  obtain ⟨hr, hw⟩ := cancel_all (p.processWaiters pid) h
    (fun x hx => lookup_of_mem h.owners (mem_processWaiters.mp hx).1) hnodup
  refine ⟨hr, fun x hx => ?_⟩
  obtain ⟨hmem, hnot⟩ := hw x hx
  exact ⟨hmem, fun hpid => hnot (mem_map_of_mem (mem_processWaiters.mpr ⟨hmem, hpid⟩))⟩

variable {table : PipeTable} {P P' : List (Nat × FifoOpenWaiter) → Prop}

lemma Stands.cancelAt (h : Stands f table held P) (pid i : Nat)
    (hP : ∀ l l', P l → (∀ x ∈ l', x ∈ l ∧ (i = f → ownerPid x.1 ≠ pid)) → P' l') :
    Stands f (table.cancelFifoOpensAt pid i) held P' := by
  apply Stands.freeIfClosed
  intro q hq
  rw [PipeTable.get_update] at hq
  split at hq
  · next hf =>
    obtain ⟨p, hp, rfl⟩ := map_eq_some_iff.mp hq
    obtain ⟨hr, hw⟩ := h p hp
    rw [if_pos hr.fifo]
    obtain ⟨hr', hw'⟩ := cancel_process hr
    exact ⟨hr', hP _ _ hw fun x hx => ⟨(hw' x hx).1, fun _ => (hw' x hx).2⟩⟩
  · next hf =>
    obtain ⟨hr, hw⟩ := h q hq
    exact ⟨hr, hP _ _ hw fun x hx => ⟨hx, fun hi => absurd hi.symm hf⟩⟩

lemma Stands.cancelProcess (h : Stands f table held P) (pid : Nat)
    (hP : ∀ l l', P l → (∀ x ∈ l', x ∈ l ∧ ownerPid x.1 ≠ pid) → P' l') :
    Stands f (table.cancelFifoOpensForProcess pid) held P' := by
  have hall (is : List Nat) : ∀ {table : PipeTable} {P P' : List (Nat × FifoOpenWaiter) → Prop},
      Stands f table held P →
      (∀ l l', P l → (∀ x ∈ l', x ∈ l ∧ (f ∈ is → ownerPid x.1 ≠ pid)) → P' l') →
      Stands f (is.foldl (PipeTable.cancelFifoOpensAt pid) table) held P' := by
    induction is with
    | nil =>
      intro table P P' h hP p hp
      exact ⟨(h p hp).1, hP _ _ (h p hp).2 fun x hx => ⟨hx, nofun⟩⟩
    | cons i is ih =>
      intro table P P' h hP
      -- what is left at this pipe, seen from the lists before it
      have hat : Stands f (table.cancelFifoOpensAt pid i) held fun l' =>
          ∃ l, P l ∧ ∀ x ∈ l', x ∈ l ∧ (i = f → ownerPid x.1 ≠ pid) :=
        h.cancelAt pid i fun l l' hl hsub => ⟨l, hl, hsub⟩
      apply ih hat
      rintro l1 l' ⟨l, hl, hsub⟩ hsub'
      apply hP l l' hl
      intro x hx
      refine ⟨(hsub x (hsub' x hx).1).1, fun hf => ?_⟩
      rcases mem_cons.mp hf with hf | hf
      · exact (hsub x (hsub' x hx).1).2 hf.symm
      · exact (hsub' x hx).2 hf
  by_cases hf : f < table.slots.length
  · apply hall _ h
    intro l l' hl hsub
    exact hP l l' hl fun x hx => ⟨(hsub x hx).1, (hsub x hx).2 (mem_range.mpr hf)⟩
  -- there is no such pipe, before and after
  have hnone : Stands f table held fun _ => False := by
    intro p hp
    rw [PipeTable.get, get_of_length_le (Nat.le_of_not_lt hf)] at hp
    cases hp
  exact hall _ hnone fun _ _ hl => hl.elim

end

/-! ### The invariant -/

namespace Machine

variable {m m' : Machine} {w : World}

/-- The named pipe is in order, and so are the tables of the processes. -/
structure Sound (f : Nat) (m : Machine) : Prop where
  counted : ∀ pid ∈ m.procs.live, (m.procs.state pid).Counted
  pipe : Stands f m.pipes (m.held f) (Booked m.procs)

lemma held_set (hlive : pid ∈ m.procs.live)
    (hc : Tables.Change (m.procs.state pid) t' gone new) (pipes : PipeTable) (k : RefKind) :
    (⟨m.procs.set pid t', pipes⟩ : Machine).held f k + Tables.share (holds f k) gone =
      m.held f k + Tables.share (holds f k) new := by
  have hset := Fleet.total_set (x := t') hlive fun t => t.ofds.count (holds f k)
  have hcount := hc.count (holds f k) (lasting_holds f k)
  simp only [held] at hset ⊢
  omega

lemma Stands.mono {table : PipeTable}
    {P P' : List (Nat × FifoOpenWaiter) → Prop} (h : Stands f table held P) (hP : ∀ l, P l → P' l) :
    Stands f table held P' := fun p hp => ⟨(h p hp).1, hP _ (h p hp).2⟩

section

variable (h : Sound f m)

include h

lemma Sound.joined (hfresh : pid ∉ m.procs.live) (hcounted : t'.Counted)
    (hpipe : Stands f pipes (fun k => m.held f k + t'.ofds.count (holds f k)) (Booked m.procs)) :
    Sound f ⟨m.procs.add pid t', pipes⟩ := by
  constructor
  · intro pid' hlive'
    by_cases hpid : pid' = pid
    · rw [hpid, state_add_self]
      exact hcounted
    · rw [state_add_of_ne hpid]
      exact h.counted pid' ((mem_live_add.mp hlive').resolve_left hpid)
  · have hheld : (⟨m.procs.add pid t', pipes⟩ : Machine).held f =
        fun k => m.held f k + t'.ofds.count (holds f k) :=
      funext fun k => total_add_party hfresh _
    rw [hheld]
    exact Stands.mono hpipe fun l hl => hl.join hfresh

variable (hlive : pid ∈ m.procs.live)

include hlive

lemma Sound.moved (hc : Tables.Change (m.procs.state pid) t' gone new)
    (hpipe : ∀ held', (∀ k, held' k + Tables.share (holds f k) gone =
      m.held f k + Tables.share (holds f k) new) →
      Stands f pipes held' (Booked (m.procs.set pid t'))) :
    Sound f ⟨m.procs.set pid t', pipes⟩ := by
  constructor
  · intro pid' hlive'
    by_cases hpid : pid' = pid
    · rw [hpid, Fleet.state_set_self]
      exact hc.counted
    · rw [Fleet.state_set_of_ne hpid]
      exact h.counted pid' hlive'
  · exact hpipe _ (held_set hlive hc pipes)

lemma Sound.released (hc : Tables.Change (m.procs.state pid) t' gone none)
    (hkeeps : (m.procs.state pid).fds.Keeps t'.fds) :
    Sound f ⟨m.procs.set pid t', releaseGone m.pipes gone⟩ := by
  apply h.moved hlive hc
  intro held' hheld
  exact Stands.mono (h.pipe.releaseGone gone hheld) fun l hl => hl.keeps hkeeps

lemma Sound.described (hc : Tables.Change (m.procs.state pid) t' none new)
    (hother : ∀ k, Tables.share (holds f k) new = 0)
    (hkeeps : (m.procs.state pid).fds.Keeps t'.fds) : Sound f ⟨m.procs.set pid t', m.pipes⟩ := by
  apply h.moved hlive hc
  intro held' hheld
  have hsame : held' = m.held f := by
    funext k
    have hk := hheld k
    rwa [hother k] at hk
  rw [hsame]
  exact Stands.mono h.pipe fun l hl => hl.keeps hkeeps

lemma Sound.inherited {child : Nat} (hfresh : child ∉ m.procs.live) (hcounted : t'.Counted)
    (hcopies : ∀ o' ∈ t'.ofds.entries, ∃ i o, (m.procs.state pid).ofds.get i = some o ∧
      ∀ k, holds f k o' = holds f k o) :
    Sound f ⟨m.procs.add child t', t'.ofds.entries.foldl bumpOfd m.pipes⟩ := by
  apply h.joined hfresh hcounted
  apply h.pipe.bumpAll
  · intro k
    rw [countP_entries]
  intro o' ho' k hk
  obtain ⟨i, o, ho, hcopy⟩ := hcopies o' ho'
  exact Nat.lt_of_lt_of_le (count_pos ho ((hcopy k).symm.trans hk))
    (le_total hlive fun t => t.ofds.count (holds f k))

lemma Sound.removed :
    Sound f ⟨m.procs.remove pid, (m.procs.state pid).ofds.entries.foldl retireOfd
      (m.pipes.cancelFifoOpensForProcess pid)⟩ := by
  constructor
  · exact fun pid' hlive' => h.counted pid' (mem_live_remove.mp hlive').2
  apply Stands.retireAll
  · apply h.pipe.cancelProcess pid
    intro l l' hl hsub
    have hrest : Booked m.procs l' := hl.subset fun x hx => (hsub x hx).1
    exact { hrest with live := fun x hx => mem_live_remove.mpr ⟨(hsub x hx).2, hrest.live x hx⟩ }
  · intro k
    rw [countP_entries]
    exact (total_remove hlive fun t => t.ofds.count (holds f k)).symm

end

/-! ### Opens -/

lemma rendezvous_taken (h : Rendezvous p held) (hk : k ≠ .Read false)
    (hadds : Adds k held held') : Rendezvous (taken p k) held' := by
  cases k with
  | Path => exact h.congr rfl fun j hj => by rw [hadds, if_neg hj, Nat.add_zero]
  | Read fifoReadOnly =>
    cases fifoReadOnly with
    | false => exact absurd rfl hk
    | true => exact Rendezvous.publish (h.opening .Reader) hadds
  | Write => exact Rendezvous.publish (h.opening .Writer) hadds
  | ReadWrite => exact h.publishReadWrite hadds

lemma ownerPid_fifoOpenOwner (hpid : w.task.pid < 2 ^ 32)
    (htid : w.task.tid < 2 ^ 32) : ownerPid w.fifoOpenOwner = w.task.pid := by
  have hlow : (if w.task.tid = 0 then w.task.pid else w.task.tid) < 2 ^ 32 := by
    split
    · exact hpid
    · exact htid
  rw [ownerPid, World.fifoOpenOwner, Nat.shiftRight_or_distrib, Nat.shiftLeft_shiftRight,
    Nat.shiftRight_eq_div_pow, Nat.div_eq_of_lt hlow, Nat.or_zero]

section

variable (h : Sound f m) (hlive : pid ∈ m.procs.live) {q : Option PipeBuffer}

include h hlive

lemma Sound.kept (hofds : ∀ i, t'.ofds.get i = (m.procs.state pid).ofds.get i)
    (hpipe : Stands f pipes (m.held f) (Booked (m.procs.set pid t'))) :
    Sound f ⟨m.procs.set pid t', pipes⟩ := by
  apply h.moved hlive (change_of_get (h.counted pid hlive) hofds)
  intro held' hheld
  have hsame : held' = m.held f := funext hheld
  rw [hsame]
  exact hpipe

lemma Sound.outcome {owner : Nat} (howner : ownerPid owner = pid)
    (hp : m.pipes.get f = some p) (hq : pipes.get f = q)
    (hout : Outcome f owner p (m.procs.state pid) q t') : Sound f ⟨m.procs.set pid t', pipes⟩ := by
  obtain ⟨hr, hb⟩ := h.pipe p hp
  cases hout with
  | refused => exact h.kept hlive (fun _ => rfl) (.of_get hq ⟨hr, hb.keeps (FdTable.Keeps.refl _)⟩)
  | withdrawn hkind hofds hbuffer =>
    refine h.kept hlive hofds fun p' hp' => ?_
    rw [hbuffer p' (hq.symm.trans hp')]
    refine ⟨(hr.withdrawn hkind).congr rfl fun _ _ => rfl, ?_⟩
    rw [PipeBuffer.waiters_closeReference, PipeBuffer.waiters_addReference]
    exact hb.keeps (FdTable.Keeps.refl _)
  | @opened k o fd flags fds hpipe hkind hnew halloc =>
    apply h.moved hlive (change_insert (h.counted pid hlive) hnew.1 fds)
    intro held' hheld
    exact .of_get hq
      ⟨rendezvous_taken hr (fifoReference_ne hkind) (adds_of_holds hpipe hkind hheld),
      (hb.keeps (keeps_alloc halloc)).sub (Fewer.taken p k)⟩
  | @waits waiter fds q hside hkind hunready hreserve hbuffer =>
    refine h.kept hlive (fun _ => rfl) (.of_get hq ⟨hr.reserve hbuffer hside, ?_⟩)
    obtain ⟨hkeeps, hnew, hres, hnone⟩ := keeps_reserve hreserve
    have hstate : (m.procs.set pid ⟨fds, (m.procs.state pid).ofds⟩).state (ownerPid owner) =
        ⟨fds, (m.procs.state pid).ofds⟩ := by
      rw [howner, state_set_self]
    rw [waiters_reserveFifoOpen hbuffer]
    apply Booked.cons (hb.keeps hkeeps)
    · rw [howner]
      exact hlive
    · rw [hstate]
      exact hres
    · rw [hstate]
      exact hnone
    · exact hkind
    · -- the number was free, and those that wait have theirs reserved
      intro x hx hpid hfd
      have hold := hb.reserved x hx
      rw [hpid, howner, hfd] at hold
      exact hnew hold
  | busy hreserve =>
    exact h.kept hlive (fun _ => rfl) (.of_get hq ⟨hr, hb.keeps (keeps_busy hreserve)⟩)

lemma Sound.resumption {owner : Nat} (howner : ownerPid owner = pid)
    (hp : m.pipes.get f = some p) (hwaiter : p.waiter owner = some waiter) (hq : pipes.get f = q)
    (hout : Resumption f owner p (m.procs.state pid) waiter q t') :
    Sound f ⟨m.procs.set pid t', pipes⟩ := by
  obtain ⟨hr, hb⟩ := h.pipe p hp
  have hmem : (owner, waiter) ∈ p.fifoOpenWaiters := by
    obtain ⟨before, after, hsplit, -⟩ := lookup_eq_some_iff.mp hwaiter
    rw [hsplit]
    exact mem_append_right before mem_cons_self
  cases hout with
  | still => exact h.kept hlive (fun _ => rfl) (.of_get hq ⟨hr, hb.keeps (FdTable.Keeps.refl _)⟩)
  | cancelled hbuffer =>
    refine h.kept hlive (fun _ => rfl) fun p' hp' => ?_
    rw [hbuffer p' (hq.symm.trans hp')]
    refine ⟨(hr.cancel hwaiter).congr rfl fun _ _ => rfl, ?_⟩
    rw [Rendezvous.waiters_cancelFifoOpen]
    exact hb.leave hmem howner keepsBut_releaseReserved
  | @opened o fds flags hpipe hflags hnew hinstall =>
    apply h.moved hlive (change_insert (h.counted pid hlive) hnew.1 fds)
    intro held' hheld
    have hkind : fifoReference o.statusFlags = some waiter.side.kind :=
      hflags ▸ hb.kind (owner, waiter) hmem
    exact .of_get hq ⟨Rendezvous.publish (hr.resumed hwaiter) (adds_of_holds hpipe hkind hheld),
      (hb.leave hmem howner (keepsBut_installReserved hinstall)).sub (Fewer.publish _ _)⟩
  | lost hgone =>
    have hres := hb.reserved (owner, waiter) hmem
    have hnone := hb.unused (owner, waiter) hmem
    rw [howner] at hres hnone
    exact absurd ⟨hnone, hres⟩ hgone

end

/-! ### Runs -/

lemma Shows.owner (h : m.Shows pid w) : ownerPid w.fifoOpenOwner = pid :=
  (ownerPid_fifoOpenOwner h.task.2.1 h.task.2.2).trans h.task.1

lemma Sound.step (h : Sound f m) (hstep : Step f m m') : Sound f m' := by
  cases hstep with
  | @opens pid w w' host path oflags exclusiveCreate r hshows hnamed _ hrun =>
    obtain ⟨p, hp⟩ := isSome_iff_exists.mp hnamed
    have hout := outcome_openFifo (hshows.pipes ▸ hp) hrun
    rw [hshows.tables] at hout
    exact h.outcome hshows.live hshows.owner hp rfl hout
  | @resumes pid w w' waiter r hshows hpending hrun =>
    obtain ⟨p, hp, hwaiter⟩ := pendingFifoOpen_eq_some hpending
    have hout := resumption_resumeFifoOpen hpending hp hrun
    rw [hshows.tables] at hout
    exact h.resumption hshows.live hshows.owner (hshows.pipes ▸ hp) hwaiter rfl hout
  | @cancels pid w w' waiter r hshows hpending hrun =>
    obtain ⟨p, hp, hwaiter⟩ := pendingFifoOpen_eq_some hpending
    cases hrun
    refine h.resumption hshows.live hshows.owner (hshows.pipes ▸ hp) hwaiter rfl ?_
    rw [← hshows.tables]
    exact resumption_cancel hp
  | @execs pid hlive =>
    refine h.kept hlive (fun _ => rfl) (h.pipe.cancelProcess pid fun l l' hl hsub => ?_)
    apply (hl.subset fun x hx => (hsub x hx).1).set
    exact fun x hx hpid => absurd hpid (hsub x hx).2
  | @dups pid fd hlive =>
    exact h.released hlive (Tables.change_dup (h.counted pid hlive) fd) (Tables.keeps_dup _ fd)
  | @dups2 pid old new hlive =>
    exact h.released hlive (Tables.change_dup2 (h.counted pid hlive) old new)
      (Tables.keeps_dup2 _ old new)
  | @closes pid fd hlive =>
    exact h.released hlive (Tables.change_close (h.counted pid hlive) fd) (Tables.keeps_close _ fd)
  | @forks pid child hlive hfresh =>
    apply h.inherited hlive hfresh (Tables.counted_fork _)
    intro o' ho'
    obtain ⟨i, hi⟩ := Slots.mem_entries.mp ho'
    obtain ⟨o, ho, -, rfl⟩ := Tables.get_fork hi
    exact ⟨i, o, ho, fun _ => rfl⟩
  | @spawns pid child hlive hfresh =>
    apply h.inherited hlive hfresh (Tables.counted_spawn (h.counted pid hlive))
    intro o ho
    obtain ⟨i, hi⟩ := Slots.mem_entries.mp ho
    exact ⟨i, o, hi, fun _ => rfl⟩
  | @creates pid t hfresh hunheld hcounted =>
    apply h.joined hfresh hcounted
    have hnone (k : RefKind) : t.ofds.count (holds f k) = 0 := count_holds_eq_zero hunheld
    simp only [hnone]
    exact h.pipe
  | @removes pid hlive => exact h.removed hlive
  | @describes pid o fds hlive hother hnew hdescriptor =>
    apply h.described hlive (Tables.change_insert (h.counted pid hlive) hnew fds)
    · intro k
      rw [Tables.share, any_some, holds_of_pipeIdx_ne hother, if_neg Bool.false_ne_true]
    · rcases hdescriptor with rfl | ⟨fd, flags, halloc⟩
      · exact FdTable.Keeps.refl _
      · exact FdTable.keeps_alloc halloc
  | @elsewhere t hsame =>
    refine ⟨h.counted, fun p' hp' => ?_⟩
    obtain ⟨p, hp, hcongr⟩ := hsame p' hp'
    obtain ⟨hr, hb⟩ := h.pipe p hp
    rw [hcongr]
    exact ⟨hr.congr rfl fun _ _ => rfl, hb⟩

lemma Initial.sound (h : Initial f m) : Sound f m := by
  have hnone : m.held f = fun _ => 0 := by
    funext k
    apply Finset.sum_eq_zero
    exact fun pid hlive => count_holds_eq_zero (h.unheld pid hlive)
  refine ⟨h.counted, fun p hp => ?_⟩
  rw [h.buffer, some.injEq] at hp
  rw [← hp, hnone]
  exact ⟨.newFifo, ⟨nofun, nofun, nofun, nofun, nofun⟩⟩

lemma Reachable.sound (h : Reachable f m) : Sound f m := by
  induction h with
  | init hinit => exact hinit.sound
  | step _ hstep ih => exact ih.step hstep

/-- Whoever opens, inherits, cancels and closes ends of a named pipe, and in whatever order: an open
that is still blocked finds the other end absent, descriptions and waiting opens of the read end are
within its count, and a hang-up is shown only without writers and to a reader that is there. -/
theorem fifo_rendezvous {p : PipeBuffer} (h : Reachable f m) (hp : m.pipes.get f = some p) :
    (∀ x ∈ p.fifoOpenWaiters, x.2.side = .Reader → x.2.ready = false → p.writeCount = 0) ∧
      (∀ x ∈ p.fifoOpenWaiters, x.2.side = .Writer → x.2.ready = false → p.readCount = 0) ∧
      (∀ x ∈ p.fifoOpenWaiters, ∀ y ∈ p.fifoOpenWaiters, x.2.ready = false → y.2.ready = false →
        x.2.side = y.2.side) ∧
      p.fifoReadOnlyCount + p.waiting .Reader ≤ p.readCount ∧
      (p.fifoReadHangup = true →
        p.writeCount = 0 ∧ (0 < p.fifoReadOnlyCount ∨ p.hasReadyFifoReaderWaiter = true)) := by
  obtain ⟨hr, -⟩ := h.sound.pipe p hp
  refine ⟨hr.blockedReader, hr.blockedWriter, ?_, ?_, hr.hangup⟩
  · exact fun x hx y hy hxr hyr => hr.same_side hx hy hxr hyr
  · rw [hr.readers, hr.readOnly]
    omega

/-- A named pipe that was just made, with two processes beside it. -/
def fresh : Machine where
  procs := ⟨{1, 2}, fun _ => ⟨.withMax 1024, []⟩⟩
  pipes := ⟨[some .newFifo], [], nofun, nodup_nil⟩

/-- A host on which the way to the pipe consists of directories. -/
def wayHost : Host where
  lstat _ _ := .ok ⟨sIfdir ||| 0o755, 0, 0⟩
  readlink _ _ := .error .EINVAL
  stat _ _ := .error .ENOENT
  openFile _ _ _ _ := .error .ENOENT
  chown _ _ _ _ := .error .ENOENT
  fstat _ _ := .error .EBADF

/-- What the first thread of a process sees. -/
def view (m : Machine) (pid : Nat) : World :=
  { World.idle 1024 with
    task := { (World.idle 1024).task with pid }
    fds := (m.procs.state pid).fds
    ofds := (m.procs.state pid).ofds
    pipes := m.pipes }

lemma shows_view {m : Machine} (hlive : pid ∈ m.procs.live) (hpid : pid < 2 ^ 32) :
    m.Shows pid (m.view pid) :=
  ⟨hlive, ⟨rfl, hpid, show 1 < 2 ^ 32 by decide⟩, rfl, rfl⟩

/-- The first thread of a process opens the pipe. -/
def openBy (m : Machine) (pid : Nat) (oflags : BitVec 32) : Machine :=
  m.store pid (exec (openFifo wayHost 0 (bytes "/f") oflags false) (m.view pid)).2

lemma Reachable.openBy {m : Machine} {oflags : BitVec 32} (h : Reachable 0 m)
    (hlive : pid ∈ m.procs.live) (hpid : pid < 2 ^ 32) (hnamed : (m.pipes.get 0).isSome = true)
    (hidle : (m.view pid).pendingFifoOpen = none) : Reachable 0 (m.openBy pid oflags) :=
  h.step (.opens (shows_view hlive hpid) hnamed hidle Prod.mk.eta.symm)

/-- The first process opens the pipe to read and waits. -/
def blocked : Machine := fresh.openBy 1 oRdonly

/-- The second process opens it to write, which lets the reader go on. -/
def published : Machine := blocked.openBy 2 oWronly

/-- The reader has its descriptor. -/
def resumed : Machine := published.store 1 (exec resumeFifoOpen (published.view 1)).2

/-- The writer has closed its descriptor. -/
def hungUp : Machine where
  procs := resumed.procs.set 2 ((resumed.procs.state 2).close 0).2
  pipes := releaseGone resumed.pipes (Tables.freed ((resumed.procs.state 2).close 0).1)

lemma reachable_blocked : Reachable 0 blocked := by
  have hfresh : Initial 0 fresh := ⟨rfl, nofun, nofun⟩
  exact (Reachable.init hfresh).openBy (by decide) (by decide) rfl rfl

lemma reachable_published : Reachable 0 published :=
  reachable_blocked.openBy (by decide) (by decide) rfl rfl

lemma reachable_hungUp : Reachable 0 hungUp := by
  have hresumed : Reachable 0 resumed :=
    reachable_published.step (.resumes (shows_view (by decide) (by decide)) rfl rfl)
  exact hresumed.step (.closes 0 (by decide))

/-- A reader waits while there is no writer, is let go on by one, and is shown a hang-up when that
writer is gone. -/
theorem fifo_rendezvous_hangup :
    (∃ p, blocked.pipes.get 0 = some p ∧
      p.fifoOpenWaiters.map (fun x => (x.2.side, x.2.ready)) = [(.Reader, false)] ∧
      p.writeCount = 0) ∧
    (∃ p, published.pipes.get 0 = some p ∧
      p.fifoOpenWaiters.map (fun x => (x.2.side, x.2.ready)) = [(.Reader, true)] ∧
      p.waiting .Reader = 1 ∧ p.fifoReadOnlyCount + p.waiting .Reader ≤ p.readCount) ∧
    ∃ p, hungUp.pipes.get 0 = some p ∧ p.fifoReadHangup = true ∧
      p.writeCount = 0 ∧ (0 < p.fifoReadOnlyCount ∨ p.hasReadyFifoReaderWaiter = true) := by
  refine ⟨⟨_, rfl, rfl, ?_⟩, ⟨_, rfl, rfl, rfl, ?_⟩, ⟨_, rfl, rfl, ?_⟩⟩
  · exact (fifo_rendezvous reachable_blocked rfl).1 _ mem_cons_self rfl rfl
  · exact (fifo_rendezvous reachable_published rfl).2.2.2.1
  · exact (fifo_rendezvous reachable_hungUp rfl).2.2.2.2 rfl

end Machine

end Kandelo.Kernel.Descriptor
