import Mathlib.Algebra.Order.BigOperators.Group.Finset
import Kandelo.Kernel.Pipe.Ring

/-!
# Select

`sys_select` of `syscalls.rs:14374-14486` asks `poll_check` about each descriptor of the three sets
and counts the descriptors that are ready, not the bits it sets. A number that is not open shows
nothing, so the call does not refuse it.
-/

namespace Kandelo.Kernel.Pipe

open List

/-- `POLLPRI`. -/
def pollPri : BitVec 16 := 2

/-- `POLLNVAL`. -/
def pollNval : BitVec 16 := 32

/-- What `poll_check` finds for the descriptors of a process; `syscalls.rs:11382-11430`. -/
structure Poller where
  isOpen : Nat → Bool
  check : Nat → BitVec 16 → BitVec 16
  closed : ∀ fd events, isOpen fd = false → check fd events = pollNval

/-- The three sets of `select`. -/
inductive Interest
  | read
  | write
  | except
  deriving DecidableEq

namespace Interest

/-- The sets in the order of the arguments. -/
def all : List Interest := [read, write, except]

/-- The events that a set asks for. -/
def asks : Interest → BitVec 16
  | read => pollIn
  | write => pollOut
  | except => pollPri

/-- The events that count as ready. -/
def shows : Interest → BitVec 16
  | read => pollIn ||| pollHup ||| pollErr
  | write => pollOut ||| pollErr
  | except => pollPri

lemma ite_any (f : Interest → Bool) : (if all.any f then 1 else 0) = min 1 (all.countP f) := by
  have h : all.any f ↔ 0 < all.countP f := by rw [any_eq_true, countP_pos_iff]
  split
  · next hf => exact (Nat.min_eq_left (h.mp hf)).symm
  · next hf => rw [Nat.eq_zero_of_not_pos (hf ∘ h.mpr), Nat.min_zero]

end Interest

open Interest

/-- The three sets as bits; a null pointer is the empty set. -/
abbrev FdSets : Type := Interest → Nat → Bool

namespace Poller

variable (P : Poller) (sets : FdSets) (nfds timeoutMs : Int) (interrupted : Bool)

/-- The descriptor is set in the output for `k`. -/
def ready (fd : Nat) (k : Interest) : Bool :=
  let events := all.foldl (fun events k => if sets k fd then events ||| k.asks else events) 0
  sets k fd && P.check fd events &&& k.shows ≠ 0

/-- One round of the loop: the number of ready descriptors and the outputs. -/
def selectFd (acc : Nat × FdSets) (fd : Nat) : Nat × FdSets :=
  (acc.1 + if all.any (P.ready sets fd) then 1 else 0,
    fun k i => acc.2 k i || (i = fd && P.ready sets fd k))

/-- The sets with the bytes of the first `n` bits zeroed. -/
def cleared (n : Nat) : FdSets := fun k fd => (n + 7) / 8 * 8 ≤ fd && sets k fd

/-- `sys_select`; a signal to be delivered may have `interrupted` it. -/
def sysSelect : Except Errno Nat × FdSets :=
  if nfds < 0 ∨ 1024 < nfds then (.error .EINVAL, sets)
  else
    let n := nfds.toNat
    let r := (range n).foldl (P.selectFd sets) (0, cleared sets n)
    if 0 < r.1 ∨ timeoutMs = 0 then (.ok r.1, r.2)
    else (.error (if interrupted then .EINTR else .EAGAIN), r.2)

lemma foldl_selectFd (n : Nat) (outs : FdSets) :
    ((range n).foldl (P.selectFd sets) (0, outs)).1 =
      ∑ fd ∈ Finset.range n, (if all.any (P.ready sets fd) then 1 else 0) ∧
    ∀ k fd, ((range n).foldl (P.selectFd sets) (0, outs)).2 k fd =
      (outs k fd || (fd < n && P.ready sets fd k)) := by
  induction n with
  | zero => simp
  | succ n ih =>
    rw [range_succ, foldl_append, foldl_cons, foldl_nil, selectFd, ih.1, Finset.sum_range_succ]
    refine ⟨rfl, fun k fd => ?_⟩
    dsimp only
    rw [ih.2]
    by_cases h : fd = n
    · simp [h]
    · have hlt : fd < n + 1 ↔ fd < n := by omega
      simp only [hlt, h, decide_false, Bool.false_and, Bool.or_false]

variable {P sets nfds timeoutMs interrupted} {r : Nat} {outs : FdSets}

/-- A call tells the truth about its sets iff it was asked about open descriptors only, none is
ready in two sets, and no bit stands in the bytes that were not cleared. -/
theorem select_counts_bits_iff
    (hok : P.sysSelect sets nfds timeoutMs interrupted = (.ok r, outs)) :
    ((∀ k fd, outs k fd → sets k fd ∧ fd < nfds.toNat) ∧
      r = ∑ fd ∈ Finset.range nfds.toNat, all.countP (outs · fd) ∧
      ∀ k, ∀ fd < nfds.toNat, sets k fd → P.isOpen fd) ↔
    ((∀ k fd, sets k fd → fd < (nfds.toNat + 7) / 8 * 8) ∧
      (∀ fd < nfds.toNat, all.countP (P.ready sets fd) ≤ 1) ∧
      ∀ k, ∀ fd < nfds.toNat, sets k fd → P.isOpen fd) := by
  obtain ⟨hcount, hout⟩ := P.foldl_selectFd sets nfds.toNat (cleared sets nfds.toNat)
  unfold sysSelect at hok
  split at hok
  · cases hok
  dsimp only at hok
  split at hok
  · obtain ⟨rfl, rfl⟩ := Prod.mk.inj hok |>.imp_left Except.ok.inj
    have hbelow : ∀ fd ∈ Finset.range nfds.toNat, (((range nfds.toNat).foldl (P.selectFd sets)
        (0, cleared sets nfds.toNat)).2 · fd) = P.ready sets fd := by
      intro fd hfd
      have hlt := Finset.mem_range.mp hfd
      funext k
      rw [hout, cleared, decide_eq_false (by omega), decide_eq_true hlt]
      simp
    rw [hcount, Finset.sum_congr rfl fun fd hfd => congrArg all.countP (hbelow fd hfd)]
    simp only [ite_any]
    rw [Finset.sum_eq_sum_iff_of_le fun _ _ => Nat.min_le_right ..]
    refine and_congr ⟨fun h k fd hs => ?_, fun h k fd ho => ?_⟩ (and_congr (by simp) .rfl)
    · by_contra hle
      have hlt := (h k fd (by simp [hout, cleared, hs, Nat.le_of_not_lt hle])).2
      omega
    · simp only [hout, cleared, ready, Bool.or_eq_true, Bool.and_eq_true, decide_eq_true_eq] at ho
      obtain ⟨hle, hs⟩ | ⟨hlt, hs, -⟩ := ho
      · exact absurd (h k fd hs) (Nat.not_lt.mpr hle)
      · exact ⟨hs, hlt⟩
  · cases hok

/-- Of three descriptors one can be read and one can be written. -/
theorem select_counts_two_bits :
    let sets : FdSets := fun k fd => k = .read && fd ≠ 1 || k = .write && fd = 1
    let r := Poller.sysSelect ⟨fun _ => true, fun fd _ => [pollIn, pollOut, 0].getD fd 0, by simp⟩
      (fun k fd => fd < 3 && sets k fd) 3 0 false
    r.1 = .ok 2 ∧ 2 = ∑ fd ∈ Finset.range 3, all.countP (r.2 · fd) := by
  intro sets r
  have hok : r.1 = .ok 2 := by decide
  refine ⟨hok, ((select_counts_bits_iff (Prod.ext hok rfl)).mpr
    ⟨fun k fd h => ?_, by decide, fun _ _ _ _ => rfl⟩).2.1⟩
  have hlt : fd < 3 := of_decide_eq_true (Bool.and_eq_true_iff.mp h).1
  exact Nat.lt_trans hlt (by decide)

/-- One descriptor is ready in two sets and counted once, and one that is not open is no error. -/
theorem select_counts_descriptors :
    let P : Poller := ⟨(· = 0), fun fd _ => if fd = 0 then 5 else pollNval, by simp_all⟩
    let sets : FdSets := fun k fd => fd = 0 && k ≠ .except || fd = 1 && k = .read
    let r := P.sysSelect sets 2 0 false
    r.1 = .ok 1 ∧ ∑ fd ∈ Finset.range 2, all.countP (r.2 · fd) = 2 ∧
      sets .read 1 ∧ P.isOpen 1 = false := by
  decide

end Poller

end Kandelo.Kernel.Pipe
