import Kandelo.Kernel.PShared.Table
import Kandelo.Lib.History
import Kandelo.Lib.Keyed

/-!
# Signals of a condition variable

What happened to the waiters of a condition variable is kept as a history: a process
begins to wait, its entry is marked by a signal or a broadcast, it wakes up, or its entry is taken
away. A wait that returns was marked after it began. A mark that is taken away with the entry of its
process is lost, whoever else is waiting.
-/

namespace Kandelo.Kernel.PShared

open Lib List
open PSharedTable

/-! ### Histories -/

/-- What happens to a waiter. A mark says whether a signal made it, or a broadcast. -/
inductive Event
  | begins (pid : Nat) (mutexId : UInt32)
  | marks (pid : Nat) (bySignal : Bool)
  | wakes (pid : Nat) (mutexId : UInt32)
  | leaves (pid : Nat)

/-- The process that an event is about. -/
def Event.pid : Event → Nat
  | .begins pid _ | .marks pid _ | .wakes pid _ | .leaves pid => pid

/-- The calls on the mutexes and on one condition variable. -/
inductive CondCall
  | mutexInit (mtype : Nat)
  | mutexDestroy (id : UInt32)
  | mutexTrylock (id : UInt32) (pid : Nat)
  | mutexLock (id : UInt32) (pid : Nat)
  | mutexUnlock (id : UInt32) (pid : Nat)
  | waitBegin (mutexId : UInt32) (pid : Nat)
  | waitCheck (mutexId : UInt32) (pid : Nat)
  | waitAbort (pid : Nat)
  | signal
  | broadcast
  | cleanup (pid : Nat)

variable {t' : PSharedTable} {call : CondCall} {es history : List Event} {ws' : List CondWaiter}

namespace CondCall

variable (cond : UInt32) (t : PSharedTable)

/-- The table after a call. -/
def run : CondCall → PSharedTable
  | .mutexInit mtype => (t.mutexInit mtype).2
  | .mutexDestroy id => (t.mutexDestroy id).2
  | .mutexTrylock id pid => (t.mutexTrylock id pid).2
  | .mutexLock id pid => (t.mutexLock id pid).2
  | .mutexUnlock id pid => (t.mutexUnlock id pid).2
  | .waitBegin mutexId pid => (t.condWaitBegin cond mutexId pid).2
  | .waitCheck mutexId pid => (t.condWaitCheck cond mutexId pid).2
  | .waitAbort pid => t.condWaitAbort cond pid
  | .signal => (t.condSignal cond).2
  | .broadcast => (t.condBroadcast cond).2
  | .cleanup pid => t.cleanupProcess pid

/-- The processes that wait. -/
def waiters : List CondWaiter := (t.conds cond).getD []

/-- What a call does to the waiting processes, the latest first. -/
def events : CondCall → List Event
  | .waitBegin mutexId pid =>
    if (t.condWaitBegin cond mutexId pid).1.isOk then [.begins pid mutexId] else []
  | .waitCheck mutexId pid =>
    if (t.condWaitCheck cond mutexId pid).1.isOk then [.wakes pid mutexId] else []
  | .signal =>
    ((PSharedTable.signalFirst (waiters cond t)).1.map fun pid => Event.marks pid true).toList
  | .broadcast => ((waiters cond t).filter (!·.signaled)).map fun w => .marks w.pid false
  | .waitAbort pid | .cleanup pid =>
    if (waiters cond t).any (·.pid = pid) then [.leaves pid] else []
  | .mutexInit _ | .mutexDestroy _ | .mutexTrylock _ _ | .mutexLock _ _ | .mutexUnlock _ _ => []

end CondCall

open CondCall

/-- A table with the history of the condition variable, the latest event first. -/
structure Scene where
  table : PSharedTable
  history : List Event

/-- The history of a process. -/
def Scene.about (s : Scene) (pid : Nat) : List Event := s.history.filter (·.pid = pid)

variable (cond : UInt32)

/-- The scene after a call. -/
def Scene.next (s : Scene) (call : CondCall) : Scene where
  table := call.run cond s.table
  history := call.events cond s.table ++ s.history

/-- The scene after some calls, the latest first. -/
def Scene.after (cond : UInt32) (s : Scene) : List CondCall → Scene
  | [] => s
  | call :: earlier => (s.after cond earlier).next cond call

/-- A wait that returns leaves its process the owner of the mutex, and the entry of the process was
marked after it began to wait, and has not been used since. -/
def Scene.Woken (s : Scene) : CondCall → Prop
  | .waitCheck mutexId pid => (s.table.condWaitCheck cond mutexId pid).1 = .ok () →
    (∃ m, (s.table.condWaitCheck cond mutexId pid).2.mutexes mutexId = some m ∧ m.owner = pid) ∧
      ∃ bySignal rest, s.about pid = .marks pid bySignal :: .begins pid mutexId :: rest
  | _ => True

/-- The entry of the process was marked by a signal, whether or not it has begun to wait again
since, and another process is not marked. -/
def Scene.Owes (s : Scene) (pid : Nat) : Prop :=
  (∃ later rest, s.about pid = later ++ .marks pid true :: rest ∧
    ∀ e ∈ later, ∃ mutexId, e = .begins pid mutexId) ∧
    ∃ w ∈ waiters cond s.table, w.pid ≠ pid ∧ w.signaled = false

/-- The process whose entry a call takes away, whether it has one or not. -/
def CondCall.removes : CondCall → Option Nat
  | .waitAbort pid | .cleanup pid => some pid
  | _ => none

/-- When the entry of a process that was marked by a signal is taken away while others are not
marked, one of them is marked instead. -/
def Scene.HandedOn (s : Scene) (call : CondCall) : Prop :=
  ∀ pid, call.removes = some pid → s.Owes cond pid →
    ∃ w ∈ waiters cond s.table, w.signaled = false ∧
      ∃ w' ∈ waiters cond (call.run cond s.table), w'.pid = w.pid ∧ w'.signaled = true

/-! ### How the waiters change -/

/-- How the waiters change when something happens. -/
inductive Moves (ws : List CondWaiter) : List Event → List CondWaiter → Prop
  | same : Moves ws [] ws
  | again {w : CondWaiter} (mutexId : UInt32) (hw : w ∈ ws) : Moves ws [.begins w.pid mutexId] ws
  | begins {pid : Nat} (mutexId : UInt32) (hnew : ∀ w ∈ ws, w.pid ≠ pid) :
      Moves ws [.begins pid mutexId] (ws ++ [⟨pid, mutexId, false⟩])
  | wakes {w : CondWaiter} (hw : w ∈ ws) (hsignaled : w.signaled = true) :
      Moves ws [.wakes w.pid w.mutexId] (ws.filter (·.pid ≠ w.pid))
  | leaves (pid : Nat) : Moves ws (if ws.any (·.pid = pid) then [.leaves pid] else [])
      (ws.filter (·.pid ≠ pid))
  | marks {marked : List Nat} (bySignal : Bool) (hnodup : marked.Nodup)
      (hunmarked : ∀ w ∈ ws, w.pid ∈ marked → w.signaled = false) :
      Moves ws (marked.map (.marks · bySignal))
        (ws.map fun w => if w.pid ∈ marked then { w with signaled := true } else w)

variable {t : PSharedTable} {cond id mutexId : UInt32} {pid : Nat} {ws : List CondWaiter}

section

lemma conds_mutexDestroy : (t.mutexDestroy id).2.conds = t.conds := by
  unfold PSharedTable.mutexDestroy
  split
  · rfl
  · split <;> rfl

lemma conds_mutexTrylock : (t.mutexTrylock id pid).2.conds = t.conds := by
  unfold PSharedTable.mutexTrylock
  split
  · rfl
  split
  · rfl
  split
  · split
    · rfl
    · split <;> rfl
  · rfl

lemma conds_mutexLock : (t.mutexLock id pid).2.conds = t.conds := by
  have htry : (t.mutexTrylock id pid).2.conds = t.conds := conds_mutexTrylock
  unfold PSharedTable.mutexLock
  split
  · next heq =>
    rw [heq] at htry
    exact htry
  · exact htry

lemma conds_mutexUnlock : (t.mutexUnlock id pid).2.conds = t.conds := by
  unfold PSharedTable.mutexUnlock
  split
  · rfl
  split
  · rfl
  · split <;> rfl

end

lemma waiters_of_conds (h : t'.conds = t.conds) : waiters cond t' = waiters cond t := by
  rw [waiters, h, waiters]

@[simp] lemma waiters_setCond : waiters cond (t.setCond cond ws) = ws := by simp [waiters, setCond]

lemma waiters_of_some (h : t.conds cond = some ws) : waiters cond t = ws := by
  rw [waiters, h, Option.getD_some]

lemma waiters_of_none (h : t.conds cond = none) : waiters cond t = [] := by
  rw [waiters, h, Option.getD_none]

lemma signalFirst_eq (h : (ws.map (·.pid)).Nodup) :
    signalFirst ws = (none, ws) ∨
      ∃ w ∈ ws, w.signaled = false ∧ signalFirst ws = (some w.pid,
        ws.map fun w' => if w'.pid = w.pid then { w' with signaled := true } else w') := by
  induction ws with
  | nil => exact .inl rfl
  | cons w ws ih =>
    rw [map_cons, nodup_cons] at h
    have hothers : ∀ w' ∈ ws, w'.pid ≠ w.pid := by
      intro w' hw' heq
      exact h.1 (mem_map.mpr ⟨w', hw', heq⟩)
    rw [signalFirst]
    split
    · rcases ih h.2 with hnone | ⟨w', hw', hunmarked, hsome⟩
      · rw [hnone]
        exact .inl rfl
      · rw [hsome]
        refine .inr ⟨w', mem_cons_of_mem _ hw', hunmarked, ?_⟩
        rw [map_cons, if_neg (Ne.symm (hothers w' hw'))]
    · next hsignaled =>
      refine .inr ⟨w, mem_cons_self, Bool.eq_false_iff.mpr hsignaled, ?_⟩
      have hsame : (ws.map fun w' => if w'.pid = w.pid then { w' with signaled := true } else w') =
          ws := by
        refine (map_congr_left fun w' hw' => ?_).trans (map_id ws)
        exact if_neg (hothers w' hw')
      rw [map_cons, if_pos rfl, hsame]

lemma condWaitBegin_cases :
    (∃ e t', t.condWaitBegin cond mutexId pid = (.error e, t') ∧ t'.conds = t.conds) ∨
      ∃ ws t', t.conds cond = some ws ∧ t.condWaitBegin cond mutexId pid = (.ok (), t') ∧
        waiters cond t' = if ws.any (·.pid = pid) then ws else ws ++ [⟨pid, mutexId, false⟩] := by
  unfold condWaitBegin
  split
  · exact .inl ⟨_, _, rfl, rfl⟩
  split
  · exact .inl ⟨_, _, rfl, rfl⟩
  dsimp only
  split
  · exact .inl ⟨_, _, rfl, rfl⟩
  next ws hws =>
  refine .inr ?_
  split
  · exact ⟨ws, _, hws, rfl, by rw [if_pos ‹_›]; exact waiters_of_some hws⟩
  · exact ⟨ws, _, hws, rfl, by rw [if_neg ‹_›]; exact waiters_setCond⟩

lemma condWaitCheck_cases (t : PSharedTable) (mutexId : UInt32) :
    (∃ e, t.condWaitCheck cond mutexId pid = (.error e, t)) ∨
      ∃ ws w, ∃ m : PSharedMutex, t.conds cond = some ws ∧ ws.find? (·.pid = pid) = some w ∧
        w.mutexId = mutexId ∧
        w.signaled = true ∧ t.condWaitCheck cond mutexId pid =
          (.ok (), (t.setMutex mutexId { m with owner := pid, recursiveCount := 0 }).setCond cond
            (ws.eraseP (·.pid = pid))) := by
  unfold condWaitCheck
  split
  · exact .inl ⟨_, rfl⟩
  next ws hws =>
  split
  · exact .inl ⟨_, rfl⟩
  next w hfind =>
  split
  · exact .inl ⟨_, rfl⟩
  next hmutex =>
  split
  · exact .inl ⟨_, rfl⟩
  next hsignaled =>
  split
  · exact .inl ⟨_, rfl⟩
  next m _ =>
  split
  · exact .inl ⟨_, rfl⟩
  · exact .inr ⟨ws, w, m, hws, hfind, not_ne_iff.mp hmutex, by simpa using hsignaled, rfl⟩

lemma waiters_removes (h : call.removes = some pid) :
    waiters cond (call.run cond t) = (waiters cond t).filter (·.pid ≠ pid) := by
  cases call with
  | waitAbort =>
    cases h
    rw [run]
    unfold condWaitAbort
    split
    · next hnone => rw [waiters_of_none hnone, filter_nil]
    · next hws => rw [waiters_setCond, waiters_of_some hws]
  | cleanup =>
    cases h
    simp only [run, waiters, cleanupProcess]
    cases t.conds cond <;> rfl
  | _ => cases h

lemma moves (h : ((waiters cond t).map (·.pid)).Nodup) (call : CondCall) :
    Moves (waiters cond t) (call.events cond t) (waiters cond (call.run cond t)) := by
  cases call with
  | mutexInit => exact .same
  | mutexDestroy =>
    rw [run, waiters_of_conds conds_mutexDestroy]
    exact .same
  | mutexTrylock =>
    rw [run, waiters_of_conds conds_mutexTrylock]
    exact .same
  | mutexLock =>
    rw [run, waiters_of_conds conds_mutexLock]
    exact .same
  | mutexUnlock =>
    rw [run, waiters_of_conds conds_mutexUnlock]
    exact .same
  | waitBegin mutexId pid =>
    rw [run, events]
    rcases condWaitBegin_cases with ⟨e, t', heq, hconds⟩ | ⟨ws, t', hws, heq, hws'⟩
    · rw [heq, waiters_of_conds hconds]
      exact .same
    rw [heq, hws', waiters_of_some hws]
    by_cases hany : ws.any (·.pid = pid) = true
    · rw [if_pos hany]
      obtain ⟨w, hw, hpid⟩ := any_eq_true.mp hany
      cases of_decide_eq_true hpid
      exact .again mutexId hw
    · rw [if_neg hany]
      refine .begins mutexId fun w hw heq => hany ?_
      exact any_eq_true.mpr ⟨w, hw, decide_eq_true heq⟩
  | waitCheck mutexId pid =>
    rw [run, events]
    rcases condWaitCheck_cases t mutexId with ⟨e, heq⟩ | ⟨ws, w, m, hws, hfind, rfl, hsignaled, heq⟩
    · rw [heq]
      exact .same
    rw [waiters_of_some hws] at h ⊢
    obtain ⟨hw, rfl⟩ := (Keyed.find?_eq_some h).mp hfind
    rw [heq, waiters_setCond, Keyed.eraseP_eq_filter h]
    exact .wakes hw hsignaled
  | waitAbort pid | cleanup pid =>
    rw [waiters_removes rfl]
    exact .leaves pid
  | signal =>
    have hws : waiters cond (t.condSignal cond).2 = (signalFirst (waiters cond t)).2 := by
      unfold condSignal
      split
      · next hnone =>
        rw [waiters_of_none hnone]
        rfl
      · next hws => rw [waiters_setCond, waiters_of_some hws]
    rw [run, events, hws]
    rcases signalFirst_eq h with hnone | ⟨w, hw, hunmarked, hsome⟩
    · rw [hnone]
      exact .same
    rw [hsome]
    have honly : ∀ w' ∈ waiters cond t, w'.pid ∈ [w.pid] → w'.signaled = false := by
      intro w' hw' hmem
      rw [Keyed.eq_of_key h hw' hw (mem_singleton.mp hmem), hunmarked]
    have hmarks := Moves.marks true (nodup_singleton w.pid) honly
    simp only [mem_singleton] at hmarks
    exact hmarks
  | broadcast =>
    have hws : waiters cond (t.condBroadcast cond).2 =
        (waiters cond t).map fun w => { w with signaled := true } := by
      unfold condBroadcast
      split
      · next hnone => rw [waiters_of_none hnone, map_nil]
      · next hws => rw [waiters_setCond, waiters_of_some hws]
    have honly : ∀ w ∈ waiters cond t,
        w.pid ∈ ((waiters cond t).filter (!·.signaled)).map (·.pid) → w.signaled = false := by
      intro w hw hmem
      obtain ⟨w', hw', hpid⟩ := mem_map.mp hmem
      obtain ⟨hw', hunmarked⟩ := mem_filter.mp hw'
      rw [Keyed.eq_of_key h hw hw' hpid.symm]
      simpa using hunmarked
    have hall : ((waiters cond t).map fun w => { w with signaled := true }) =
        (waiters cond t).map fun w =>
          if w.pid ∈ ((waiters cond t).filter (!·.signaled)).map (·.pid) then
            { w with signaled := true } else w := by
      apply map_congr_left
      intro w hw
      cases hsignaled : w.signaled with
      | false =>
        rw [if_pos]
        exact mem_map.mpr ⟨w, mem_filter.mpr ⟨hw, by rw [hsignaled]; rfl⟩, rfl⟩
      | true =>
        rw [if_neg, ← hsignaled]
        intro hmem
        rw [honly w hw hmem] at hsignaled
        cases hsignaled
    have hmarks := Moves.marks false (Keyed.nodup_filter h _) honly
    rw [map_map] at hmarks
    rw [run, hws, hall]
    exact hmarks

/-! ### The history of each waiter -/

variable {s : Scene}

/-- The history of a process that waits: it began, and was marked since if its entry is. -/
def Recorded (w : CondWaiter) (about : List Event) : Prop :=
  ∃ rest, if w.signaled then ∃ bySignal, about =
    .marks w.pid bySignal :: .begins w.pid w.mutexId :: rest
    else about = .begins w.pid w.mutexId :: rest

/-- A process that begins to wait does not wait yet. -/
def Scene.Fresh (cond : UInt32) (s : Scene) : CondCall → Prop
  | .waitBegin _ pid => ∀ w ∈ waiters cond s.table, w.pid ≠ pid
  | _ => True

/-- No process waits twice. -/
def Scene.Apart (cond : UInt32) (s : Scene) : Prop := ((waiters cond s.table).map (·.pid)).Nodup

lemma Moves.nodup (h : Moves ws es ws')
    (hnodup : (ws.map (·.pid)).Nodup) : (ws'.map (·.pid)).Nodup := by
  cases h with
  | same => exact hnodup
  | again => exact hnodup
  | begins mutexId hnew => exact Keyed.nodup_concat hnodup hnew
  | wakes => exact Keyed.nodup_filter hnodup _
  | leaves => exact Keyed.nodup_filter hnodup _
  | @marks marked =>
    have hsame : ((·.pid) ∘ fun w : CondWaiter =>
        if w.pid ∈ marked then { w with signaled := true } else w) = (·.pid) := by
      funext w
      dsimp only [Function.comp]
      split <;> rfl
    rw [map_map, hsame]
    exact hnodup

lemma Scene.Apart.next (h : s.Apart cond) (call : CondCall) : (s.next cond call).Apart cond :=
  (moves h call).nodup h

lemma filter_append_of_ne (h : ∀ e ∈ es, e.pid ≠ pid) :
    (es ++ history).filter (·.pid = pid) = history.filter (·.pid = pid) := by
  rw [filter_append, filter_eq_nil_iff.mpr (by simpa using h), nil_append]

lemma Moves.recorded (h : Moves ws es ws')
    (hrecorded : ∀ w ∈ ws, Recorded w (history.filter (·.pid = w.pid)))
    (hfresh : ∀ pid mutexId, .begins pid mutexId ∈ es → ∀ w ∈ ws, w.pid ≠ pid) :
    ∀ w ∈ ws', Recorded w ((es ++ history).filter (·.pid = w.pid)) := by
  cases h with
  | same => exact hrecorded
  | again mutexId hw => exact absurd rfl (hfresh _ mutexId mem_cons_self _ hw)
  | begins mutexId hnew =>
    intro w hw
    rcases mem_append.mp hw with hw | hw
    · rw [filter_append_of_ne (by simpa [Event.pid] using Ne.symm (hnew w hw))]
      exact hrecorded w hw
    · cases mem_singleton.mp hw
      exact ⟨_, by simp [Event.pid]; rfl⟩
  | @wakes w0 =>
    intro w hw
    obtain ⟨hw, hne⟩ := mem_filter.mp hw
    have hne' : w.pid ≠ w0.pid := by simpa using hne
    rw [filter_append_of_ne (by simpa [Event.pid] using Ne.symm hne')]
    exact hrecorded w hw
  | leaves pid =>
    intro w hw
    obtain ⟨hw, hne⟩ := mem_filter.mp hw
    have hne' : w.pid ≠ pid := by simpa using hne
    rw [filter_append_of_ne]
    · exact hrecorded w hw
    intro e he
    split at he
    · cases mem_singleton.mp he
      exact Ne.symm hne'
    · cases he
  | @marks marked bySignal hnodup hunmarked =>
    intro w' hw'
    obtain ⟨w, hw, rfl⟩ := mem_map.mp hw'
    by_cases hmem : w.pid ∈ marked
    · obtain ⟨rest, hrest⟩ := hrecorded w hw
      rw [hunmarked w hw hmem] at hrest
      have hone : (marked.map (Event.marks · bySignal)).filter (·.pid = w.pid) =
          [.marks w.pid bySignal] := by
        have hfilter :
            marked.filter ((fun e : Event => decide (e.pid = w.pid)) ∘ (.marks · bySignal)) =
            [w.pid] := by
          have hcount := count_eq_one_of_mem hnodup hmem
          exact (filter_eq w.pid).trans (by rw [hcount]; rfl)
        rw [filter_map, hfilter, map_singleton]
      rw [if_pos hmem]
      refine ⟨rest, ⟨bySignal, ?_⟩⟩
      rw [filter_append, hone, hrest]
      rfl
    · rw [if_neg hmem, filter_append_of_ne]
      · exact hrecorded w hw
      intro e he
      obtain ⟨p, hp, rfl⟩ := mem_map.mp he
      rintro rfl
      exact hmem hp

/-- The record of every waiting process agrees with the history. -/
def Scene.Tidy (cond : UInt32) (s : Scene) : Prop :=
  ∀ w ∈ waiters cond s.table, Recorded w (s.about w.pid)

lemma Scene.Fresh.events (h : s.Fresh cond call) (pid : Nat) (mutexId : UInt32)
    (hmem : .begins pid mutexId ∈ call.events cond s.table) :
    ∀ w ∈ waiters cond s.table, w.pid ≠ pid := by
  cases call with
  | waitBegin =>
    rw [CondCall.events] at hmem
    split at hmem
    · cases mem_singleton.mp hmem
      exact h
    · cases hmem
  | waitCheck mutexId' pid' | waitAbort pid' | cleanup pid' =>
    rw [CondCall.events] at hmem
    split at hmem
    · cases mem_singleton.mp hmem
    · cases hmem
  | signal => simp [CondCall.events] at hmem
  | broadcast => simp [CondCall.events] at hmem
  | mutexInit _ | mutexDestroy _ | mutexTrylock _ _ | mutexLock _ _ | mutexUnlock _ _ => cases hmem

lemma Scene.Tidy.next (h : s.Tidy cond) (hapart : s.Apart cond)
    (hfresh : s.Fresh cond call) : (s.next cond call).Tidy cond :=
  (moves hapart call).recorded h hfresh.events

lemma Scene.Tidy.woken (h : s.Tidy cond) (call : CondCall) : s.Woken cond call := by
  cases call with
  | waitCheck mutexId pid =>
    intro hok
    rcases condWaitCheck_cases s.table mutexId with ⟨e, heq⟩ |
      ⟨ws, w, m, hws, hfind, hmutex, hsignaled, heq⟩
    · rw [heq] at hok
      cases hok
    have hpid : w.pid = pid := by simpa using find?_some hfind
    have hw : w ∈ waiters cond s.table := by
      rw [waiters_of_some hws]
      exact mem_of_find?_eq_some hfind
    obtain ⟨rest, hrest⟩ := h w hw
    rw [if_pos hsignaled, hpid, hmutex] at hrest
    obtain ⟨bySignal, habout⟩ := hrest
    refine ⟨⟨{ m with owner := pid, recursiveCount := 0 }, ?_, rfl⟩, bySignal, rest, habout⟩
    rw [heq]
    exact Function.update_self ..
  | _ => trivial

lemma Scene.Apart.handedOn_iff (h : s.Apart cond) (call : CondCall) :
    s.HandedOn cond call ↔ ∀ pid, call.removes = some pid → ¬ s.Owes cond pid := by
  constructor
  · intro hhanded pid hremoves howes
    obtain ⟨w, hw, hunmarked, w', hw', hpid, hmarked⟩ := hhanded pid hremoves howes
    rw [waiters_removes hremoves] at hw'
    rw [Keyed.eq_of_key h (mem_of_mem_filter hw') hw hpid, hunmarked] at hmarked
    cases hmarked
  · exact fun hnone pid hremoves howes => absurd howes (hnone pid hremoves)

/-! ### Runs -/

variable {calls : List CondCall}

lemma apart_after (h : waiters cond t = []) : (Scene.after cond ⟨t, []⟩ calls).Apart cond := by
  induction calls with
  | nil =>
    rw [Scene.after, Scene.Apart, h]
    exact .nil
  | cons call earlier ih => exact ih.next call

lemma tidy_after (h : waiters cond t = [])
    (hfresh : Always
      (fun call earlier => (Scene.after cond ⟨t, []⟩ earlier).Fresh cond call) calls) :
    (Scene.after cond ⟨t, []⟩ calls).Tidy cond := by
  induction calls with
  | nil =>
    rw [Scene.after, Scene.Tidy, h]
    exact fun w hw => absurd hw not_mem_nil
  | cons call earlier ih =>
    rw [Always.cons_iff] at hfresh
    exact (ih hfresh.2).next (apart_after h) hfresh.1

lemma woken_after (h : waiters cond t = [])
    (hfresh : Always
      (fun call earlier => (Scene.after cond ⟨t, []⟩ earlier).Fresh cond call) calls) :
    Always (fun call earlier => (Scene.after cond ⟨t, []⟩ earlier).Woken cond call) calls := by
  induction calls with
  | nil => exact Always.nil
  | cons call earlier ih =>
    rw [Always.cons_iff] at hfresh ⊢
    exact ⟨(tidy_after h hfresh.2).woken call, ih hfresh.2⟩

/-- In a run from a new condition variable, a mark that a signal made is handed on when its entry is
taken away exactly if nobody else waits unmarked; and if processes begin to wait only when they are
not waiting, every wait that returns was marked since it began, once for each, and leaves its
process the owner of the mutex. -/
theorem signals_kept {t' : PSharedTable} (h : t.condInit = (cond, t')) (calls : List CondCall) :
    Always (fun call earlier => (Scene.after cond ⟨t', []⟩ earlier).HandedOn cond call ↔
        ∀ pid, call.removes = some pid →
          ¬ (Scene.after cond ⟨t', []⟩ earlier).Owes cond pid) calls ∧
      (Always (fun call earlier => (Scene.after cond ⟨t', []⟩ earlier).Fresh cond call) calls →
        Always
          (fun call earlier => (Scene.after cond ⟨t', []⟩ earlier).Woken cond call) calls) := by
  have hstart : waiters cond t' = [] := by
    cases h
    exact waiters_setCond
  exact ⟨fun call earlier _ => (apart_after hstart).handedOn_iff call, woken_after hstart⟩

/-- The calls, latest first, by which two processes wait and one is signaled. -/
def signaledPair : List CondCall :=
  [.signal, .waitBegin 2 20, .mutexLock 2 20, .waitBegin 2 10, .mutexLock 2 10, .mutexInit 0]

/-- The first process is signaled after it began to wait, and returns. -/
theorem signals_kept_pair :
    (Scene.after 1 ⟨PSharedTable.new.condInit.2, []⟩ signaledPair).Woken 1 (.waitCheck 2 10) := by
  have hinit : new.condInit = (1, new.condInit.2) := rfl
  refine ((signals_kept hinit (.waitCheck 2 10 :: signaledPair)).2 ?_) _ _ (suffix_refl _)
  simp only [signaledPair, Always.cons_iff, Always.nil, and_true]
  refine ⟨trivial, trivial, ?_, trivial, ?_, trivial, trivial⟩
  · show ∀ w ∈ waiters 1 _, w.pid ≠ 20
    decide
  · show ∀ w ∈ waiters 1 _, w.pid ≠ 10
    decide

/-- Two processes wait, the first is signaled and gives up: the second is not marked instead. -/
theorem signal_lost :
    ¬ (Scene.after 1 ⟨PSharedTable.new.condInit.2, []⟩ signaledPair).HandedOn 1
      (.waitAbort 10) := by
  intro hhanded
  have howes : (Scene.after 1 ⟨new.condInit.2, []⟩ signaledPair).Owes 1 10 :=
    ⟨⟨[], _, rfl, nofun⟩, ⟨20, 2, false⟩, by decide, by decide, rfl⟩
  obtain ⟨w, -, -, w', hw', -, hmarked⟩ := hhanded 10 rfl howes
  cases mem_singleton.mp hw'
  cases hmarked

end Kandelo.Kernel.PShared
