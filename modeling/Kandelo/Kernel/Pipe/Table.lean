import Kandelo.Kernel.Pipe.Buffer

/-!
# The table of pipes

`PipeTable` of `crates/kernel/src/pipe.rs`. A slot that was freed is on a list
from which the next pipe takes its slot. Freeing a pipe also drops the messages with descriptors
that no process can receive any more.
-/

namespace Kandelo.Kernel.Pipe

open Lib List Option PipeBuffer Slots

/-- `PipeTable`, with the list of free slots from its end; `pipe.rs:1119-1122`. -/
structure PipeTable where
  slots : Slots PipeBuffer
  freeList : List Nat
  free_empty : ∀ i ∈ freeList, i < slots.length ∧ slots.get i = none
  free_nodup : freeList.Nodup

namespace PipeTable

variable {t : PipeTable} {i j : Nat} {p : PipeBuffer}

/-- `PipeTable::get`; `pipe.rs:1184-1186`. -/
def get (t : PipeTable) (i : Nat) : Option PipeBuffer := t.slots.get i

variable (t)

/-- The slot that the next pipe gets. -/
def nextSlot : Nat := t.freeList.head?.getD t.slots.length

lemma nextSlot_le : t.nextSlot ≤ t.slots.length := by
  unfold nextSlot
  cases hfree : t.freeList with
  | nil => exact Nat.le_refl _
  | cons i => exact Nat.le_of_lt (t.free_empty i (by rw [hfree]; exact mem_cons_self)).1

lemma get_nextSlot : t.get t.nextSlot = none := by
  unfold nextSlot
  cases hfree : t.freeList with
  | nil => exact get_of_length_le (Nat.le_refl _)
  | cons i => exact (t.free_empty i (by rw [hfree]; exact mem_cons_self)).2

variable {t}

lemma ne_nextSlot (hi : i ∈ t.freeList.tail) : i ≠ t.nextSlot := by
  unfold nextSlot
  have hnodup := t.free_nodup
  cases hfree : t.freeList with
  | nil =>
    rw [hfree] at hi
    exact absurd hi not_mem_nil
  | cons =>
    rw [hfree] at hi hnodup
    rintro rfl
    exact (nodup_cons.mp hnodup).1 hi

variable (t)

/-- `PipeTable::alloc`; `pipe.rs:1133-1143`. -/
def alloc (p : PipeBuffer) : PipeTable where
  slots := t.slots.put t.nextSlot p
  freeList := t.freeList.tail
  free_empty := by
    intro i hi
    obtain ⟨hlt, hnone⟩ := t.free_empty i (mem_of_mem_tail hi)
    refine ⟨Nat.lt_of_lt_of_le hlt (t.slots.length_put_le _ _), ?_⟩
    rw [Slots.get_put t.nextSlot_le, if_neg (ne_nextSlot hi), hnone]
  free_nodup := t.free_nodup.tail

/-- Change a pipe through `PipeTable::get_mut`; `pipe.rs:1189-1191`. -/
def update (t : PipeTable) (i : Nat) (f : PipeBuffer → PipeBuffer) : PipeTable where
  slots := t.slots.update i f
  freeList := t.freeList
  free_empty := by
    intro j hj
    obtain ⟨hlt, hnone⟩ := t.free_empty j hj
    rw [Slots.get_update, hnone, Slots.update, length_modify]
    exact ⟨hlt, by simp⟩
  free_nodup := t.free_nodup

/-- `free_fully_closed_inner`; `pipe.rs:1386-1407`. -/
def freeFullyClosed (i : Nat) : PipeTable :=
  if h : (t.get i).any PipeBuffer.isFullyClosed = true then
    { slots := t.slots.clear i
      freeList := i :: t.freeList
      free_empty := by
        have hi : i < t.slots.length := by
          by_contra hge
          rw [get, Slots.get_of_length_le (Nat.le_of_not_lt hge)] at h
          cases h
        intro j hj
        rw [Slots.get_clear, Slots.clear, length_set]
        rcases mem_cons.mp hj with rfl | hj
        · exact ⟨hi, if_pos rfl⟩
        · obtain ⟨hlt, hnone⟩ := t.free_empty j hj
          exact ⟨hlt, by rw [hnone]; exact ite_self _⟩
      free_nodup := by
        refine nodup_cons.mpr ⟨fun hmem => ?_, t.free_nodup⟩
        rw [get, (t.free_empty i hmem).2] at h
        cases h }
  else t

/-- The pipes that a queue of pipes reaches over the sockets in messages, besides those that were
reached before. Each pipe is in the queue once, so there are no more rounds than pipes. -/
def reachLoop (t : PipeTable) : Nat → List Nat → List Nat → List Nat
  | 0, _, reached => reached
  | _, [], reached => reached
  | fuel + 1, i :: work, reached =>
    let next := match t.get i with
      | none => []
      | some p => (p.ancillaryFds.flatten.filterMap InFlightFd.receives).filter fun j =>
          j < t.slots.length && j ∉ reached
    reachLoop t fuel (work ++ next.dedup) (next.dedup ++ reached)

/-- Pipes that a process can receive from, at once or over sockets that are queued in messages;
`pipe.rs:1414-1448`. -/
def receivable : List Nat :=
  let roots :=
    (List.range t.slots.length).filter fun i => (t.get i).any PipeBuffer.hasExternalReader
  t.reachLoop t.slots.length roots roots

/-- `collect_unreachable_ancillary`; `pipe.rs:1413-1468`. -/
def collectUnreachableAncillary : PipeTable where
  slots := t.slots.mapIdx fun i slot =>
    slot.map fun p => if i ∈ t.receivable then p else { p with ancillaryFds := [] }
  freeList := t.freeList
  free_empty := by
    intro i hi
    obtain ⟨hlt, hnone⟩ := t.free_empty i hi
    refine ⟨by rwa [length_mapIdx], ?_⟩
    rw [Slots.get, getElem?_mapIdx]
    rw [Slots.get, getElem?_eq_getElem hlt, join_some] at hnone
    rw [getElem?_eq_getElem hlt, map_some, hnone]
    rfl
  free_nodup := t.free_nodup

/-- `free_if_closed`; `pipe.rs:1381-1384`. -/
def freeIfClosed (i : Nat) : PipeTable :=
  (t.freeFullyClosed i).collectUnreachableAncillary

/-- `find_fifo_open`; `pipe.rs:1502-1508`. -/
def findFifoOpen (owner : Nat) : Option Nat :=
  (List.range t.slots.length).find? fun i =>
    (t.get i).any fun p => p.isFifo && (p.waiter owner).isSome

/-! ### Lookups -/

@[simp] lemma get_alloc (p : PipeBuffer) (j : Nat) :
    (t.alloc p).get j = if j = t.nextSlot then some p else t.get j := get_put t.nextSlot_le p j

@[simp] lemma get_update (t : PipeTable) (i : Nat) (f : PipeBuffer → PipeBuffer) (j : Nat) :
    (t.update i f).get j = if j = i then (t.get j).map f else t.get j := Slots.get_update ..

lemma get_collectUnreachableAncillary (j : Nat) :
    t.collectUnreachableAncillary.get j =
      (t.get j).map fun p => if j ∈ t.receivable then p else { p with ancillaryFds := [] } := by
  unfold get collectUnreachableAncillary Slots.get
  rw [getElem?_mapIdx]
  cases t.slots[j]? <;> rfl

/-! ### References that come and go -/

lemma eq_of_slots_eq {t t' : PipeTable} (hslots : t.slots = t'.slots)
    (hfree : t.freeList = t'.freeList) : t = t' := by
  cases t
  cases t'
  cases hslots
  cases hfree
  rfl

lemma update_id (i : Nat) : t.update i id = t := by
  refine eq_of_slots_eq (eq_of_get_eq ?_ fun j => ?_) rfl
  · simp [update, Slots.update]
  · rw [update, Slots.get_update, Option.map_id_fun, id_eq, ite_self]

/-- Nothing is queued that no process can receive. -/
def Collected : Prop :=
  ∀ i p, t.get i = some p → i ∉ t.receivable → p.ancillaryFds = []

lemma get_collect_iff : (∀ i, t.collectUnreachableAncillary.get i = t.get i) ↔ t.Collected := by
  constructor
  · intro h i p hp hi
    have hget := h i
    rw [get_collectUnreachableAncillary, hp, map_some, if_neg hi] at hget
    rw [← some.inj hget]
  intro h i
  rw [get_collectUnreachableAncillary]
  cases hp : t.get i with
  | none => rfl
  | some p =>
    rw [map_some]
    split
    · rfl
    next hi =>
    have hempty := h i p hp hi
    rw [← hempty]

/-- A reference to a pipe that is taken back; `syscalls.rs:2473-2476, 2572-2575`. -/
def withdraw (i : Nat) (k : RefKind) : PipeTable :=
  (t.update i (·.closeReference k)).freeIfClosed i

variable {t}

lemma freeFullyClosed_of_open (h : (t.get i).any isFullyClosed = false) :
    t.freeFullyClosed i = t := by
  rw [freeFullyClosed, dif_neg]
  rw [h]
  exact Bool.false_ne_true

lemma get_freeFullyClosed_of_closed (h : (t.get i).any isFullyClosed = true) :
    (t.freeFullyClosed i).get i = none := by
  rw [freeFullyClosed, dif_pos h]
  exact (get_clear ..).trans (if_pos rfl)

lemma get_freeIfClosed {q : PipeBuffer} (h : (t.freeIfClosed i).get j = some q) :
    ∃ p, t.get j = some p ∧ q = { p with ancillaryFds := q.ancillaryFds } := by
  rw [freeIfClosed, get_collectUnreachableAncillary, map_eq_some_iff] at h
  obtain ⟨p, hp, hq⟩ := h
  refine ⟨p, ?_, ?_⟩
  · unfold freeFullyClosed at hp
    split at hp
    · rw [get, get_clear] at hp
      split at hp
      · cases hp
      · exact hp
    · exact hp
  · rw [← hq]
    split <;> rfl

/-- Taking a reference back restores the table if and only if the pipe looks as a close leaves it,
is kept by something else, and nothing is queued that no process can receive. -/
lemma get_withdraw_iff {k : RefKind} (hk : k ≠ .Read true) (hp : t.get i = some p) :
    (∀ j, ((t.update i (·.addReference k)).withdraw i k).get j = t.get j) ↔
      p.Idle k ∧ p.isFullyClosed = false ∧ t.Collected := by
  set t1 := (t.update i (·.addReference k)).update i (·.closeReference k) with ht1
  have hget1 (j : Nat) : t1.get j =
      if j = i then some ((p.addReference k).closeReference k) else t.get j := by
    rw [get_update, get_update]
    by_cases hj : j = i
    · rw [if_pos hj, if_pos hj, if_pos hj, hj, hp]
      rfl
    · rw [if_neg hj, if_neg hj, if_neg hj]
  have hback : (p.addReference k).closeReference k = p → t1 = t := by
    intro h
    refine eq_of_slots_eq (eq_of_get_eq ?_ ?_) rfl
    · simp [ht1, update, Slots.update]
    intro j
    change t1.get j = t.get j
    rw [hget1, h]
    split
    · next hj => rw [hj, hp]
    · rfl
  constructor
  · intro h
    change ∀ j, ((t1.freeFullyClosed i).collectUnreachableAncillary).get j = _ at h
    have hi := h i
    have hp1 : t1.get i = some ((p.addReference k).closeReference k) := by rw [hget1, if_pos rfl]
    have hclosed : (t1.get i).any isFullyClosed = false := by
      by_contra hclosed
      rw [get_collectUnreachableAncillary,
        get_freeFullyClosed_of_closed (Bool.eq_true_of_not_eq_false hclosed), hp] at hi
      cases hi
    rw [freeFullyClosed_of_open hclosed] at h hi
    rw [get_collectUnreachableAncillary, hp1, hp, map_some, some.injEq] at hi
    -- the queue of the pipe is as it was, so it is the pipe that was closed again
    have hpipe : (p.addReference k).closeReference k = p := by
      split at hi
      · exact hi
      have hempty : p.ancillaryFds = [] := by rw [← hi]
      have hanc : ((p.addReference k).closeReference k).ancillaryFds = [] :=
        (p.ancillary_closeReference_addReference k).elim (·.trans hempty) id
      rw [← hanc] at hi
      exact hi
    rw [hp1, hpipe] at hclosed
    rw [hback hpipe] at h
    exact ⟨(p.closeReference_addReference_iff hk).mp hpipe, hclosed, t.get_collect_iff.mp h⟩
  · rintro ⟨hidle, hclosed, hcollected⟩
    change ∀ j, ((t1.freeFullyClosed i).collectUnreachableAncillary).get j = _
    rw [hback ((p.closeReference_addReference_iff hk).mpr hidle),
      freeFullyClosed_of_open (by rw [hp]; exact hclosed)]
    exact t.get_collect_iff.mpr hcollected

end PipeTable

end Kandelo.Kernel.Pipe
