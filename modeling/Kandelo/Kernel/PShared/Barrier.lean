import Kandelo.Kernel.PShared.Table
import Kandelo.Lib.History
import Kandelo.Lib.Keyed
import Mathlib.Data.List.Dedup

/-!
# Rounds of a barrier

What processes see of a barrier: a process that is not waiting arrives when it calls, and a round
ends when an arrival returns. Entries of a round that ended stay among the waiters until their
processes call again, and count as arrivals of the next round until then. So a round is complete
whenever it ends exactly if it never ends with such an entry among the waiters.
-/

namespace Kandelo.Kernel.PShared

open Lib List
open PSharedTable

/-! ### What processes see -/

/-- A call of `barrier_wait` with its result, whether it was an arrival, and for which round. -/
structure Visit where
  pid : Nat
  round : Nat
  arrives : Bool
  result : Except Errno Int

/-- The call has returned to the caller. -/
def Visit.returned (v : Visit) : Bool := v.result.isOk

variable (visits : List Visit)

/-- The number of rounds that ended, in a history with the latest call first. -/
def rounds : Nat := visits.countP fun v => v.arrives && v.returned

/-- The latest visit of a process. -/
def lastVisit (pid : Nat) : Option Visit := visits.find? (·.pid = pid)

/-- The next call of a process: it is still waiting in the round of its last call, or it arrives. -/
def nextVisit (pid : Nat) (result : Except Errno Int) : Visit :=
  match (lastVisit visits pid).filter (!·.returned) with
  | some v => ⟨pid, v.round, false, result⟩
  | none => ⟨pid, rounds visits, true, result⟩

/-- The processes that have arrived in a round. -/
def arrivals (r : Nat) : List Nat :=
  (visits.filter fun v => v.arrives && v.round = r).map (·.pid)

/-- No call returns before enough processes arrived for its round. -/
def Complete (count : Nat) : List Visit → Prop :=
  Always fun v earlier => v.returned = true → count ≤ (arrivals (v :: earlier) v.round).dedup.length

/-- The visits of a round that were told to be the serial one. -/
def serials (r : Nat) : List Visit :=
  visits.filter fun v => v.round = r ∧ v.result = .ok pthreadBarrierSerialThread

/-- Each round that ended has one serial thread, and no other has one. -/
def SerialOnce : Prop :=
  ∀ r, (serials visits r).length = if r < rounds visits then 1 else 0

/-- Processes call in some order, the latest call first. -/
def barrierCalls (t : PSharedTable) (id : UInt32) : List Nat → List Visit × PSharedTable
  | [] => ([], t)
  | pid :: earlier =>
    let (visits, t) := barrierCalls t id earlier
    let (result, t) := t.barrierWait id pid
    (nextVisit visits pid result :: visits, t)

/-! ### The waiters are those that have not returned -/

variable {count : Nat} {b : PSharedBarrier} {visits : List Visit} {pid r : Nat} {v : Visit}

lemma rounds_cons :
    rounds (v :: visits) = rounds visits + if v.arrives && v.returned then 1 else 0 :=
  countP_cons

lemma lastVisit_cons :
    lastVisit (v :: visits) pid = if v.pid = pid then some v else lastVisit visits pid := by
  by_cases hpid : v.pid = pid <;> simp [hpid, lastVisit]

lemma arrivals_cons :
    arrivals (v :: visits) r =
      if v.arrives && v.round = r then v.pid :: arrivals visits r else arrivals visits r := by
  rw [arrivals, filter_cons]
  split <;> rfl

/-- The waiters of a barrier are the processes whose last call did not return, released exactly if
their round ended. -/
structure Linked (count : Nat) (b : PSharedBarrier) (visits : List Visit) : Prop where
  size : b.count.toNat = count
  room : b.waiters.length < count
  nodup : (b.waiters.map (·.pid)).Nodup
  plain : ∀ w ∈ b.waiters, w.isSerial = false
  waits : ∀ w ∈ b.waiters, ∃ v, lastVisit visits w.pid = some v ∧ v.returned = false ∧
    if w.released then v.round < rounds visits else v.round = rounds visits
  waiting : ∀ pid v, lastVisit visits pid = some v → v.returned = false →
    ∃ w ∈ b.waiters, w.pid = pid
  current : (arrivals visits (rounds visits)).Perm
    ((b.waiters.filter (!·.released)).map (·.pid))
  future : ∀ v ∈ visits, v.round ≤ rounds visits
  serial : SerialOnce visits

/-- What a call does: a waiter retrieves its release or goes on waiting; a new process ends the
round or joins the waiters. -/
inductive Turn (b : PSharedBarrier) (visits : List Visit) (pid : Nat) :
    Except Errno Int × PSharedBarrier → Visit → Prop
  | retrieves {w : BarrierWaiter} {r : Nat} (hw : w ∈ b.waiters) (hpid : w.pid = pid)
      (hreleased : w.released = true) (hr : r < rounds visits) :
      Turn b visits pid (.ok 0, { b with waiters := b.waiters.eraseP (·.pid = pid) })
        ⟨pid, r, false, .ok 0⟩
  | waits {w : BarrierWaiter} (hw : w ∈ b.waiters) (hpid : w.pid = pid)
      (hreleased : w.released = false) :
      Turn b visits pid (.error .EAGAIN, b) ⟨pid, rounds visits, false, .error .EAGAIN⟩
  | ends (hnew : ∀ w ∈ b.waiters, w.pid ≠ pid) (hfull : b.waiters.length + 1 = b.count.toNat) :
      Turn b visits pid (.ok pthreadBarrierSerialThread,
          { b with waiters := b.waiters.map fun w => { w with released := true } })
        ⟨pid, rounds visits, true, .ok pthreadBarrierSerialThread⟩
  | joins (hnew : ∀ w ∈ b.waiters, w.pid ≠ pid) (hroom : b.waiters.length + 1 ≠ b.count.toNat) :
      Turn b visits pid (.error .EAGAIN, { b with waiters := b.waiters ++ [⟨pid, false, false⟩] })
        ⟨pid, rounds visits, true, .error .EAGAIN⟩

namespace Linked

section

variable (h : Linked count b visits)

include h

lemma nextVisit_of_new (hnew : ∀ w ∈ b.waiters, w.pid ≠ pid)
    (result : Except Errno Int) :
    nextVisit visits pid result = ⟨pid, rounds visits, true, result⟩ := by
  have hnone : (lastVisit visits pid).filter (!·.returned) = none := by
    rw [Option.filter_eq_none_iff]
    intro v hv hreturned
    obtain ⟨w, hw, hpid⟩ := h.waiting pid v hv (by simpa using hreturned)
    exact hnew w hw hpid
  rw [nextVisit, hnone]

lemma turn (pid : Nat) : Turn b visits pid (call b pid) (nextVisit visits pid (call b pid).1) := by
  unfold call
  split
  · next w hfind =>
    have hw := mem_of_find?_eq_some hfind
    have hpid : w.pid = pid := by simpa using find?_some hfind
    obtain ⟨v, hlast, hreturned, hround⟩ := h.waits w hw
    have hnext (result : Except Errno Int) :
        nextVisit visits pid result = ⟨pid, v.round, false, result⟩ := by
      rw [nextVisit, ← hpid, hlast, Option.filter_some, hreturned]
      rfl
    split
    · next hreleased =>
      rw [if_pos hreleased] at hround
      rw [hnext, h.plain w hw]
      exact .retrieves hw hpid hreleased hround
    · next hreleased =>
      rw [if_neg hreleased] at hround
      rw [hnext, hround]
      exact .waits hw hpid (Bool.eq_false_iff.mpr hreleased)
  · next hfind =>
    have hnew : ∀ w ∈ b.waiters, w.pid ≠ pid := by simpa using hfind
    -- the number of waiters fits the word it is compared as
    have hfits : UInt32.ofNat (b.waiters.length + 1) = b.count ↔
        b.waiters.length + 1 = b.count.toNat := by
      have hlt := b.count.toNat_lt
      have hroom := h.room
      have hsize := h.size
      have hword : UInt32.size = 2 ^ 32 := rfl
      rw [← UInt32.toNat_inj, UInt32.toNat_ofNat_of_lt' (by omega)]
    unfold arrive
    rw [h.nextVisit_of_new hnew]
    split
    · next hfull => exact .ends hnew (hfits.mp hfull)
    · next hroom => exact .joins hnew (mt hfits.mpr hroom)

variable {w : BarrierWaiter}

lemma waits_cons (hw : w ∈ b.waiters) (hpid : v.pid ≠ w.pid)
    (hrounds : rounds (v :: visits) = rounds visits) :
    ∃ v', lastVisit (v :: visits) w.pid = some v' ∧ v'.returned = false ∧
      if w.released then v'.round < rounds (v :: visits) else v'.round = rounds (v :: visits) := by
  rw [lastVisit_cons, if_neg hpid, hrounds]
  exact h.waits w hw

lemma serial_cons (hrounds : rounds (v :: visits) = rounds visits)
    (hserial : v.result ≠ .ok pthreadBarrierSerialThread) : SerialOnce (v :: visits) := by
  intro r
  have hsame : serials (v :: visits) r = serials visits r := by
    rw [serials, filter_cons_of_neg]
    · rfl
    · simp [hserial]
  rw [hsame, hrounds]
  exact h.serial r

lemma future_cons (hround : v.round ≤ rounds visits) :
    ∀ v' ∈ v :: visits, v'.round ≤ rounds (v :: visits) := by
  intro v' hv'
  have hle : rounds visits ≤ rounds (v :: visits) := by
    rw [rounds_cons]
    exact Nat.le_add_right _ _
  rcases mem_cons.mp hv' with rfl | hv'
  · exact Nat.le_trans hround hle
  · exact Nat.le_trans (h.future v' hv') hle

lemma retrieve (hw : w ∈ b.waiters) (hpid : w.pid = pid) (hreleased : w.released = true)
    (hr : r < rounds visits) :
    Linked count { b with waiters := b.waiters.eraseP (·.pid = pid) }
      (⟨pid, r, false, .ok 0⟩ :: visits) := by
  have hrounds : rounds (⟨pid, r, false, .ok 0⟩ :: visits) = rounds visits := rounds_cons
  have hold {w' : BarrierWaiter} (hw' : w' ∈ b.waiters.filter (·.pid ≠ pid)) :
      w' ∈ b.waiters ∧ pid ≠ w'.pid := by
    obtain ⟨hmem, hne⟩ := mem_filter.mp hw'
    exact ⟨hmem, Ne.symm (by simpa using hne)⟩
  rw [Keyed.eraseP_eq_filter h.nodup]
  constructor
  · exact h.size
  · exact (length_filter_le _ _).trans_lt h.room
  · exact Keyed.nodup_filter h.nodup _
  · exact fun w' hw' => h.plain w' (hold hw').1
  · exact fun w' hw' => h.waits_cons (hold hw').1 (hold hw').2 hrounds
  · intro pid' v hlast hreturned
    rw [lastVisit_cons] at hlast
    split at hlast
    · cases hlast
      cases hreturned
    next hne =>
    obtain ⟨w', hw', rfl⟩ := h.waiting pid' v hlast hreturned
    refine ⟨w', ?_, rfl⟩
    simpa [hw'] using Ne.symm hne
  · have hsame : (b.waiters.filter (·.pid ≠ pid)).filter (!·.released) =
        b.waiters.filter (!·.released) := by
      rw [filter_filter]
      apply filter_congr
      intro w' hw'
      by_cases hpid' : w'.pid = pid
      · rw [Keyed.eq_of_key h.nodup hw' hw (hpid'.trans hpid.symm), hreleased]
        rfl
      · simp [hpid']
    rw [hsame]
    exact h.current
  · exact h.future_cons hr.le
  · exact h.serial_cons hrounds (by simp [pthreadBarrierSerialThread])

lemma wait (hw : w ∈ b.waiters) (hpid : w.pid = pid) (hreleased : w.released = false) :
    Linked count b (⟨pid, rounds visits, false, .error .EAGAIN⟩ :: visits) := by
  have hrounds : rounds (⟨pid, rounds visits, false, .error .EAGAIN⟩ :: visits) = rounds visits :=
    rounds_cons
  refine ⟨h.size, h.room, h.nodup, h.plain, ?_, ?_, ?_, h.future_cons (Nat.le_refl _),
    h.serial_cons hrounds nofun⟩
  · intro w' hw'
    by_cases hpid' : pid = w'.pid
    · have hsame := Keyed.eq_of_key h.nodup hw' hw (hpid'.symm.trans hpid.symm)
      rw [lastVisit_cons, if_pos hpid', hsame, hreleased]
      exact ⟨_, rfl, rfl, rfl⟩
    · exact h.waits_cons hw' hpid' hrounds
  · intro pid' v hlast hreturned
    rw [lastVisit_cons] at hlast
    split at hlast
    · next heq => exact ⟨w, hw, hpid.trans heq⟩
    · exact h.waiting pid' v hlast hreturned
  · exact h.current

lemma finish (hnew : ∀ w ∈ b.waiters, w.pid ≠ pid) :
    Linked count { b with waiters := b.waiters.map fun w => { w with released := true } }
      (⟨pid, rounds visits, true, .ok pthreadBarrierSerialThread⟩ :: visits) := by
  have hrounds : rounds (⟨pid, rounds visits, true, .ok pthreadBarrierSerialThread⟩ :: visits) =
      rounds visits + 1 := rounds_cons
  constructor
  · exact h.size
  · rw [length_map]
    exact h.room
  · rw [map_map]
    exact h.nodup
  · intro w' hw'
    obtain ⟨w, hw, rfl⟩ := mem_map.mp hw'
    exact h.plain w hw
  · intro w' hw'
    obtain ⟨w, hw, rfl⟩ := mem_map.mp hw'
    obtain ⟨v, hlast, hreturned, -⟩ := h.waits w hw
    rw [lastVisit_cons, if_neg (Ne.symm (hnew w hw)), hrounds]
    refine ⟨v, hlast, hreturned, ?_⟩
    exact Nat.lt_succ_of_le (h.future v (mem_of_find?_eq_some hlast))
  · intro pid' v hlast hreturned
    rw [lastVisit_cons] at hlast
    split at hlast
    · cases hlast
      cases hreturned
    · obtain ⟨w, hw, rfl⟩ := h.waiting pid' v hlast hreturned
      exact ⟨{ w with released := true }, mem_map.mpr ⟨w, hw, rfl⟩, rfl⟩
  · -- nobody has arrived for the next round
    have hnone : arrivals visits (rounds visits + 1) = [] := by
      rw [arrivals, map_eq_nil_iff, filter_eq_nil_iff]
      intro v hv
      have hle := h.future v hv
      simp only [Bool.and_eq_true, decide_eq_true_eq]
      omega
    rw [hrounds, arrivals_cons]
    simp [hnone]
  · exact h.future_cons (Nat.le_refl _)
  · intro r
    have hserial := h.serial r
    rw [hrounds, serials]
    by_cases hr : rounds visits = r
    · rw [filter_cons_of_pos (by simp [hr]), length_cons]
      rw [hr, if_neg (Nat.lt_irrefl r), serials] at hserial
      rw [hserial, hr, if_pos (Nat.lt_succ_self r)]
    · rw [filter_cons_of_neg (by simp [hr])]
      rw [serials] at hserial
      rw [hserial]
      have hlt : r < rounds visits + 1 ↔ r < rounds visits := by omega
      simp [hlt]

lemma join (hnew : ∀ w ∈ b.waiters, w.pid ≠ pid) (hroom : b.waiters.length + 1 ≠ b.count.toNat) :
    Linked count { b with waiters := b.waiters ++ [⟨pid, false, false⟩] }
      (⟨pid, rounds visits, true, .error .EAGAIN⟩ :: visits) := by
  have hrounds : rounds (⟨pid, rounds visits, true, .error .EAGAIN⟩ :: visits) = rounds visits :=
    rounds_cons
  constructor
  · exact h.size
  · have hsize := h.size
    have hlt := h.room
    rw [length_append, length_singleton]
    omega
  · exact Keyed.nodup_concat h.nodup hnew
  · intro w hw
    rcases mem_append.mp hw with hw | hw
    · exact h.plain w hw
    · cases mem_singleton.mp hw
      rfl
  · intro w hw
    rcases mem_append.mp hw with hw | hw
    · exact h.waits_cons hw (Ne.symm (hnew w hw)) hrounds
    cases mem_singleton.mp hw
    rw [lastVisit_cons, if_pos rfl]
    exact ⟨_, rfl, rfl, rfl⟩
  · intro pid' v hlast hreturned
    rw [lastVisit_cons] at hlast
    split at hlast
    · next heq => exact ⟨_, mem_append_right _ mem_cons_self, heq⟩
    · obtain ⟨w, hw, hpid⟩ := h.waiting pid' v hlast hreturned
      exact ⟨w, mem_append_left _ hw, hpid⟩
  · rw [hrounds, arrivals_cons, filter_append, map_append]
    simp only
    exact (h.current.cons pid).trans (perm_append_singleton pid _).symm
  · exact h.future_cons (Nat.le_refl _)
  · exact h.serial_cons hrounds nofun

lemma call (pid : Nat) :
    Linked count (PSharedTable.call b pid).2
      (nextVisit visits pid (PSharedTable.call b pid).1 :: visits) := by
  have hturn := h.turn pid
  generalize PSharedTable.call b pid = out at hturn ⊢
  generalize nextVisit visits pid out.1 = v at hturn ⊢
  cases hturn with
  | retrieves hw hpid hreleased hr => exact h.retrieve hw hpid hreleased hr
  | waits hw hpid hreleased => exact h.wait hw hpid hreleased
  | ends hnew => exact h.finish hnew
  | joins hnew hroom => exact h.join hnew hroom

end

end Linked

/-! ### Rounds that end with enough arrivals -/

/-- A process that would end the round finds no waiter of an earlier round. -/
def Clear (b : PSharedBarrier) (pid : Nat) : Prop :=
  (∀ w ∈ b.waiters, w.pid ≠ pid) → b.waiters.length + 1 = b.count.toNat →
    ∀ w ∈ b.waiters, w.released = false

instance (b : PSharedBarrier) (pid : Nat) : Decidable (Clear b pid) :=
  inferInstanceAs (Decidable (_ → _ → _))

/-- Enough processes arrived for each round that ended. -/
def Filled (count : Nat) (visits : List Visit) : Prop :=
  ∀ r < rounds visits, count ≤ (arrivals visits r).dedup.length

lemma Linked.arrivals_ends (h : Linked count b visits) (hnew : ∀ w ∈ b.waiters, w.pid ≠ pid)
    (result : Except Errno Int) :
    (arrivals (⟨pid, rounds visits, true, result⟩ :: visits) (rounds visits)).dedup.length =
      (b.waiters.filter (!·.released)).length + 1 := by
  have hperm : (arrivals (⟨pid, rounds visits, true, result⟩ :: visits) (rounds visits)).Perm
      (pid :: (b.waiters.filter (!·.released)).map (·.pid)) := by
    rw [arrivals_cons, if_pos (by simp)]
    exact h.current.cons pid
  have hnodup : (pid :: (b.waiters.filter (!·.released)).map (·.pid)).Nodup := by
    refine nodup_cons.mpr ⟨?_, Keyed.nodup_filter h.nodup _⟩
    intro hmem
    obtain ⟨w, hw, hpid⟩ := mem_map.mp hmem
    exact hnew w (mem_of_mem_filter hw) hpid
  rw [(hperm.nodup_iff.mpr hnodup).dedup, hperm.length_eq, length_cons, length_map]

lemma Linked.filled_call (h : Linked count b visits) (hfilled : Filled count visits)
    (hclear : Clear b pid) (hv : nextVisit visits pid (PSharedTable.call b pid).1 = v) :
    (v.returned = true → count ≤ (arrivals (v :: visits) v.round).dedup.length) ∧
      Filled count (v :: visits) := by
  have hturn := h.turn pid
  rw [hv] at hturn
  generalize PSharedTable.call b pid = out at hturn
  cases hturn with
  | retrieves hw hpid hreleased hr => exact ⟨fun _ => hfilled _ hr, fun r hr => hfilled r hr⟩
  | waits => exact ⟨nofun, fun r hr => hfilled r hr⟩
  | ends hnew hfull =>
    have hall : b.waiters.filter (!·.released) = b.waiters := by
      apply filter_eq_self.mpr
      intro w hw
      rw [hclear hnew hfull w hw]
      rfl
    have hcount : count ≤ (arrivals (⟨pid, rounds visits, true,
        .ok pthreadBarrierSerialThread⟩ :: visits) (rounds visits)).dedup.length := by
      rw [h.arrivals_ends hnew, hall, hfull, h.size]
    refine ⟨fun _ => hcount, fun r hr => ?_⟩
    rw [rounds_cons] at hr
    rcases Nat.lt_succ_iff_lt_or_eq.mp hr with hr | rfl
    · rw [arrivals_cons, if_neg (by simp [hr.ne'])]
      exact hfilled r hr
    · exact hcount
  | joins =>
    refine ⟨nofun, fun r hr => ?_⟩
    have hlt : r < rounds visits := hr
    rw [arrivals_cons, if_neg (by simp [hlt.ne'])]
    exact hfilled r hlt

lemma Linked.short_call (h : Linked count b visits) (hclear : ¬ Clear b pid)
    (hv : nextVisit visits pid (PSharedTable.call b pid).1 = v) :
    v.returned = true ∧ (arrivals (v :: visits) v.round).dedup.length < count := by
  have hturn := h.turn pid
  rw [hv] at hturn
  generalize PSharedTable.call b pid = out at hturn
  simp only [Clear, not_forall] at hclear
  obtain ⟨hnew, hfull, w, hw, hreleased⟩ := hclear
  cases hturn with
  | retrieves hw hpid => exact absurd hpid (hnew _ hw)
  | waits hw hpid => exact absurd hpid (hnew _ hw)
  | joins _ hroom => exact absurd hfull hroom
  | ends =>
    have hfewer : (b.waiters.filter (!·.released)).length < b.waiters.length := by
      apply length_filter_lt_length_iff_exists.mpr
      exact ⟨w, hw, by simpa using hreleased⟩
    refine ⟨rfl, ?_⟩
    rw [h.arrivals_ends hnew, ← h.size]
    omega

/-! ### Runs -/

variable {t t' : PSharedTable} {id : UInt32} {size : UInt32} {calls : List Nat}

lemma linked_init (h : t.barrierInit size = (.ok id, t')) :
    t'.barriers id = some ⟨size, []⟩ ∧ Linked size.toNat ⟨size, []⟩ [] := by
  unfold barrierInit at h
  split at h
  · cases h
  next hsize =>
  cases h
  refine ⟨Function.update_self .., ?_⟩
  have hpos : 0 < size.toNat := by
    rw [Nat.pos_iff_ne_zero, Ne, ← UInt32.toNat_zero, UInt32.toNat_inj]
    exact hsize
  exact ⟨rfl, hpos, .nil, nofun, nofun, nofun, .nil, nofun, fun r => rfl⟩

lemma linked_barrierCalls (h : t.barrierInit size = (.ok id, t')) (calls : List Nat) :
    ∃ b, (barrierCalls t' id calls).2.barriers id = some b ∧
      Linked size.toNat b (barrierCalls t' id calls).1 := by
  induction calls with
  | nil => exact ⟨_, linked_init h⟩
  | cons pid earlier ih =>
    obtain ⟨b, hb, hlinked⟩ := ih
    simp only [barrierCalls, barrierWait, hb]
    exact ⟨_, Function.update_self .., hlinked.call pid⟩

/-- No process waits again before it has left the barrier. -/
def Orderly (t : PSharedTable) (id : UInt32) : List Nat → Prop :=
  Always fun pid earlier => ∀ b, (barrierCalls t id earlier).2.barriers id = some b → Clear b pid

lemma complete_iff_orderly (h : t.barrierInit size = (.ok id, t')) :
    (Complete size.toNat (barrierCalls t' id calls).1 ↔ Orderly t' id calls) ∧
      (Orderly t' id calls → Filled size.toNat (barrierCalls t' id calls).1) := by
  induction calls with
  | nil =>
    exact ⟨⟨fun _ => Always.nil, fun _ => Always.nil⟩, fun _ r hr => absurd hr (Nat.not_lt_zero r)⟩
  | cons pid earlier ih =>
    obtain ⟨hiff, hfilled⟩ := ih
    obtain ⟨b, hb, hlinked⟩ := linked_barrierCalls h earlier
    have hvisits : (barrierCalls t' id (pid :: earlier)).1 =
        nextVisit (barrierCalls t' id earlier).1 pid (call b pid).1 ::
          (barrierCalls t' id earlier).1 := by
      simp [barrierCalls, barrierWait, hb]
    have hclear : (∀ b', (barrierCalls t' id earlier).2.barriers id = some b' → Clear b' pid) ↔
        Clear b pid := by
      rw [hb]
      simp
    rw [hvisits, Complete, Always.cons_iff, Orderly, Always.cons_iff, hclear]
    refine ⟨⟨fun ⟨hreturn, hcomplete⟩ => ⟨?_, hiff.mp hcomplete⟩, fun ⟨hnow, hbefore⟩ => ?_⟩,
      fun ⟨hnow, hbefore⟩ => (hlinked.filled_call (hfilled hbefore) hnow rfl).2⟩
    · by_contra hcrowded
      obtain ⟨hreturned, hshort⟩ := hlinked.short_call hcrowded rfl
      exact Nat.not_le_of_lt hshort (hreturn hreturned)
    · exact ⟨(hlinked.filled_call (hfilled hbefore) hnow rfl).1, hiff.mpr hbefore⟩

/-- In a run of a barrier, no call returns before enough processes arrived for its round, and each
round has one serial thread, exactly if no round is ended by a process that finds a waiter of an
earlier round. -/
theorem barrier_complete_iff (h : t.barrierInit size = (.ok id, t')) (calls : List Nat) :
    Complete size.toNat (barrierCalls t' id calls).1 ∧ SerialOnce (barrierCalls t' id calls).1 ↔
      Orderly t' id calls := by
  obtain ⟨b, -, hlinked⟩ := linked_barrierCalls h calls
  rw [(complete_iff_orderly h).1.symm]
  exact and_iff_left hlinked.serial

/-- Two processes meet, each of them twice. -/
theorem barrier_complete_twice :
    Complete 2 (barrierCalls (PSharedTable.new.barrierInit 2).2 1 [1, 2, 1, 1, 2, 1]).1 := by
  have hinit : new.barrierInit 2 = (.ok 1, (new.barrierInit 2).2) := rfl
  refine ((barrier_complete_iff hinit _).mpr ?_).1
  simp only [Orderly, Always.cons_iff, Always.nil, and_true]
  refine ⟨?_, ?_, ?_, ?_, ?_, ?_⟩ <;> (rintro b ⟨⟩; decide)

/-- With two processes expected, the second ends the first round, and when it comes again before the
first has called again it ends the next one alone. -/
theorem barrier_not_complete :
    ¬ (Complete 2 (barrierCalls (PSharedTable.new.barrierInit 2).2 1 [2, 2, 1]).1 ∧
      SerialOnce (barrierCalls (PSharedTable.new.barrierInit 2).2 1 [2, 2, 1]).1) := by
  rintro ⟨hcomplete, -⟩
  have hshort := hcomplete _ _ (suffix_refl _) rfl
  revert hshort
  decide

end Kandelo.Kernel.PShared
