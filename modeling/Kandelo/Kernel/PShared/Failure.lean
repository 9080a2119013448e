import Kandelo.Kernel.PShared.Table

/-!
# Calls that fail

`cond_wait_begin` lets the mutex go before it looks up the condition variable: a call
with a mutex of the caller and no such variable fails, and the mutex is free. All other calls that
fail leave the table as it was.
-/

namespace Kandelo.Kernel.PShared.PSharedTable

open Function

variable (t : PSharedTable) (id condId mutexId : UInt32) (pid : Nat) {α : Type}

/-- A call that fails leaves the table as it was. -/
def Intact (r : Except Errno α × PSharedTable) : Prop := ∀ e, r.1 = .error e → r.2 = t

@[simp] lemma intact_error (e : Errno) : t.Intact (α := α) (.error e, t) := fun _ _ => rfl

@[simp] lemma intact_ok (a : α) (t' : PSharedTable) : t.Intact (.ok a, t') := by rintro _ ⟨⟩

lemma intact_mutexTrylock : t.Intact (t.mutexTrylock id pid) := by
  unfold mutexTrylock
  (repeat' split) <;> simp

lemma intact_mutexLock : t.Intact (t.mutexLock id pid) := by
  unfold mutexLock
  split
  · next t' hbusy =>
    have hkeep := t.intact_mutexTrylock id pid
    rw [hbusy] at hkeep
    cases hkeep _ rfl
    simp
  · exact t.intact_mutexTrylock id pid

lemma intact_barrierWait (h : (t.barriers id).all (·.waiters.any (·.pid = pid))) :
    t.Intact (t.barrierWait id pid) := by
  unfold barrierWait
  split
  · simp
  next b hb =>
  unfold call
  rw [hb, Option.all_some] at h
  split
  · split
    · simp
    · rintro _ -
      rw [setBarrier, update_eq_self_iff.mpr hb.symm]
  · next hnone =>
    rw [List.find?_eq_none] at hnone
    obtain ⟨w, hw, hpid⟩ := List.any_eq_true.mp h
    exact absurd hpid (hnone w hw)

lemma intact_condWaitBegin_iff : t.Intact (t.condWaitBegin condId mutexId pid) ↔
    ∀ m, t.mutexes mutexId = some m → m.owner = pid →
      (t.conds condId).isSome ∨ m.owner = 0 ∧ m.recursiveCount = 0 := by
  unfold condWaitBegin
  cases hm : t.mutexes mutexId with
  | none => simp
  | some m =>
    obtain ⟨owner, count, mtype⟩ := m
    by_cases ho : owner = pid
    · subst ho
      cases hc : t.conds condId with
      | none =>
        have hset : t.Intact (α := Unit) (.error .EINVAL, t.setMutex mutexId ⟨0, 0, mtype⟩) ↔
            update t.mutexes mutexId (some ⟨0, 0, mtype⟩) = t.mutexes :=
          ⟨fun h => congrArg mutexes (h _ rfl), fun h _ _ => by rw [setMutex, h]⟩
        rw [update_eq_self_iff, hm] at hset
        simpa [setMutex, hc, eq_comm] using hset
      | some =>
        simp only [setMutex, hc, ne_eq, not_true, if_false]
        split <;> simp
    · simp [ho]

/-- The calls on the primitives that fail leave the table as it was, if and only if none waits with
a mutex of the caller for a condition variable that does not exist. -/
theorem failing_call_keeps_table_iff :
    (t.Intact (t.mutexLock id pid) ∧ t.Intact (t.mutexTrylock id pid) ∧
      t.Intact (t.mutexUnlock id pid) ∧ t.Intact (t.mutexDestroy id) ∧
      t.Intact (t.condWaitBegin condId mutexId pid) ∧
      t.Intact (t.condWaitCheck condId mutexId pid) ∧ t.Intact (t.condSignal condId) ∧
      t.Intact (t.condBroadcast condId) ∧ t.Intact (t.condDestroy condId) ∧
      t.Intact (t.barrierDestroy id) ∧
      ((t.barriers id).all (·.waiters.any (·.pid = pid)) → t.Intact (t.barrierWait id pid))) ↔
    ∀ m, t.mutexes mutexId = some m → m.owner = pid →
      (t.conds condId).isSome ∨ m.owner = 0 ∧ m.recursiveCount = 0 := by
  rw [intact_condWaitBegin_iff]
  refine ⟨fun h => h.2.2.2.2.1, fun h => ⟨t.intact_mutexLock id pid, t.intact_mutexTrylock id pid,
    ?_, ?_, h, ?_, ?_, ?_, ?_, ?_, t.intact_barrierWait id pid⟩⟩
  · unfold mutexUnlock
    (repeat' split) <;> simp
  · unfold mutexDestroy
    (repeat' split) <;> simp
  · unfold condWaitCheck
    (repeat' split) <;> simp
  · unfold condSignal
    split <;> simp
  · unfold condBroadcast
    split <;> simp
  · unfold condDestroy
    (repeat' split) <;> simp
  · unfold barrierDestroy
    (repeat' split) <;> simp

/-- A mutex of process 1 is free after its wait for a variable that does not exist has failed. -/
theorem failing_wait_unlocks :
    let t := ((new.mutexInit 0).2.mutexTrylock 1 1).2
    let r := t.condWaitBegin 7 1 1
    r.1 = .error .EINVAL ∧ t.mutexes 1 = some ⟨1, 0, 0⟩ ∧ r.2.mutexes 1 = some ⟨0, 0, 0⟩ :=
  ⟨rfl, rfl, rfl⟩

end Kandelo.Kernel.PShared.PSharedTable
