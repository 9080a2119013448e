import Kandelo.Kernel.Pipe.Table
import Kandelo.Lib.Worklist

/-!
# Collecting descriptors that nobody can receive

Messages with descriptors wait in the pipes of sockets. A message is dropped if no
process can ever receive it: the search from the pipes that processes read, over the sockets that
wait in messages, does not come to its pipe. What the dropped descriptors refer to is released
later, one after the other, which may drop further messages. Here the releases are followed to their
end.
-/

namespace Kandelo.Kernel.Pipe

open Lib List Option
open Relation (ReflTransGen)

namespace PipeTable

variable {t : PipeTable} {i j : Nat} {p : PipeBuffer}

/-! ### What can be received -/

variable (t)

/-- A message in pipe `i` has a socket that receives from pipe `j`. -/
def Carries (i j : Nat) : Prop :=
  ∃ p, t.get i = some p ∧ ∃ batch ∈ p.ancillaryFds, ∃ fd ∈ batch, fd.receives = some j

/-- Some process reads a pipe from which the pipe is reached over sockets in messages. -/
def Receivable (i : Nat) : Prop :=
  ∃ r p, t.get r = some p ∧ p.inFlightReadCount < p.readCount ∧ ReflTransGen t.Carries r i

/-- The pipes that the sockets in the messages of a pipe receive from. -/
def carried (i : Nat) : List Nat :=
  ((t.get i).elim [] fun p => p.ancillaryFds.flatten.filterMap InFlightFd.receives).filter fun j =>
    j < t.slots.length

variable {t}

lemma lt_of_get (h : t.get i = some p) : i < t.slots.length := by
  by_contra hge
  rw [get, Slots.get_of_length_le (Nat.le_of_not_lt hge)] at h
  cases h

lemma mem_carried : j ∈ t.carried i ↔ t.Carries i j ∧ j < t.slots.length := by
  rw [carried, mem_filter, decide_eq_true_iff, Carries]
  apply and_congr_left'
  cases t.get i with
  | none => simp
  | some p =>
    simp only [elim_some, mem_filterMap, mem_flatten, some.injEq]
    constructor
    · rintro ⟨fd, ⟨batch, hbatch, hfd⟩, hj⟩
      exact ⟨p, rfl, batch, hbatch, fd, hfd, hj⟩
    · rintro ⟨_, rfl, batch, hbatch, fd, hfd, hj⟩
      exact ⟨fd, ⟨batch, hbatch, hfd⟩, hj⟩

lemma reachLoop_eq (t : PipeTable) (fuel : Nat) (work reached : List Nat) :
    t.reachLoop fuel work reached = Worklist.search t.carried fuel work reached := by
  induction fuel generalizing work reached with
  | zero => rfl
  | succ fuel ih =>
    cases work with
    | nil => rfl
    | cons i =>
      rw [reachLoop, Worklist.search, Worklist.fresh, carried, List.filter_filter]
      cases t.get i with
      | none => exact ih _ _
      | some =>
        simp only [Bool.and_comm]
        exact ih _ _

lemma reflTransGen_carried {r : Nat} (h : ReflTransGen t.Carries r i) (hi : i < t.slots.length) :
    ReflTransGen (fun i j => j ∈ t.carried i) r i := by
  induction h with
  | refl => exact .refl
  | tail _ hedge ih =>
    obtain ⟨p, hp, -⟩ := id hedge
    exact (ih (lt_of_get hp)).tail (mem_carried.mpr ⟨hedge, hi⟩)

lemma mem_receivable (hi : i < t.slots.length) : i ∈ t.receivable ↔ t.Receivable i := by
  have hroot {r : Nat} : r ∈ (range t.slots.length).filter (fun i =>
      (t.get i).any PipeBuffer.hasExternalReader) ↔
      ∃ p, t.get r = some p ∧ p.inFlightReadCount < p.readCount := by
    rw [mem_filter, mem_range, Option.any_eq_true]
    simp only [PipeBuffer.hasExternalReader, decide_eq_true_eq]
    exact ⟨And.right, fun ⟨p, hp, hlt⟩ => ⟨lt_of_get hp, p, hp, hlt⟩⟩
  have hsearch : i ∈ t.receivable ↔ Worklist.Reaches t.carried
      ((range t.slots.length).filter fun i => (t.get i).any PipeBuffer.hasExternalReader) i := by
    rw [receivable, reachLoop_eq]
    have hnodes : ∀ x ∈ range t.slots.length, ∀ y ∈ t.carried x, y ∈ range t.slots.length := by
      intro x _ y hy
      exact mem_range.mpr (mem_carried.mp hy).2
    exact Worklist.mem_search (nodup_range.filter _) (fun r hr => mem_of_mem_filter hr)
      hnodes length_range.le
  rw [hsearch]
  constructor
  · rintro ⟨r, hr, hpath⟩
    obtain ⟨p, hp, hlt⟩ := hroot.mp hr
    exact ⟨r, p, hp, hlt, ReflTransGen.mono (fun _ _ hedge => (mem_carried.mp hedge).1) _ _ hpath⟩
  · rintro ⟨r, p, hp, hlt, hpath⟩
    exact ⟨r, hroot.mpr ⟨p, hp, hlt⟩, reflTransGen_carried hpath hi⟩

lemma get_collect (hp : t.get i = some p) :
    t.collectUnreachableAncillary.get i =
      some (if i ∈ t.receivable then p else { p with ancillaryFds := [] }) := by
  rw [get_collectUnreachableAncillary, hp, map_some]

variable (t)

lemma receivable_collect (i : Nat) :
    t.collectUnreachableAncillary.Receivable i ↔ t.Receivable i := by
  constructor
  · rintro ⟨r, p', hp', hlt, hpath⟩
    rw [get_collectUnreachableAncillary, map_eq_some_iff] at hp'
    obtain ⟨p, hp, rfl⟩ := hp'
    refine ⟨r, p, hp, ?_, ReflTransGen.mono ?_ _ _ hpath⟩
    · split at hlt <;> exact hlt
    rintro a b ⟨q', hq', batch, hbatch, hrest⟩
    rw [get_collectUnreachableAncillary, map_eq_some_iff] at hq'
    obtain ⟨q, hq, rfl⟩ := hq'
    split at hbatch
    · exact ⟨q, hq, batch, hbatch, hrest⟩
    · cases hbatch
  · rintro ⟨r, p, hp, hlt, hpath⟩
    have hroot : t.Receivable r := ⟨r, p, hp, hlt, .refl⟩
    refine ⟨r, p, ?_, hlt, ?_⟩
    · rw [get_collect hp, if_pos ((mem_receivable (lt_of_get hp)).mpr hroot)]
    -- every pipe on the way can be received from, so it keeps its messages
    induction hpath with
    | refl => exact .refl
    | @tail b c hpath hedge ih =>
      refine ih.tail ?_
      obtain ⟨q, hq, hbatch⟩ := hedge
      have hb : t.Receivable b := ⟨r, p, hp, hlt, hpath⟩
      refine ⟨q, ?_, hbatch⟩
      rw [get_collect hq, if_pos ((mem_receivable (lt_of_get hq)).mpr hb)]

/-- Every message that is queued can be received. -/
def Settled : Prop := ∀ i p, t.get i = some p → p.ancillaryFds ≠ [] → t.Receivable i

lemma settled_collect : t.collectUnreachableAncillary.Settled := by
  intro i p' hp' hqueued
  rw [get_collectUnreachableAncillary, map_eq_some_iff] at hp'
  obtain ⟨p, hp, rfl⟩ := hp'
  split at hqueued
  · next hmem =>
    rw [receivable_collect]
    exact (mem_receivable (lt_of_get hp)).mp hmem
  · exact absurd rfl hqueued

end PipeTable

end Kandelo.Kernel.Pipe
