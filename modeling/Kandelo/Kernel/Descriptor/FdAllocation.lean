import Kandelo.Kernel.Descriptor.FdTable
import Mathlib.Order.Bounds.Defs

/-!
# Which descriptor is given out

The operations of `FdTable` that take a number or a lower bound
(`fd.rs:60-91, 201-224`), and runs of all its operations. `fd_allocation` says that the least number
that is neither open nor reserved is given out, and that a reserved number belongs to the open that
reserved it.
-/

namespace Kandelo.Kernel.Descriptor.FdTable

open Lib List

variable {t t' : FdTable} {i fd r : Nat} {flags : BitVec 32} {a : Except Errno (Option Nat)}

/-! ### The least number -/

lemma available_of_length_le (h : t.entries.length ≤ i) : t.Available i :=
  ⟨Slots.get_of_length_le h, fun hi => absurd (t.reserved_lt i hi) (Nat.not_lt.mpr h)⟩

lemma lowestFrom_isLeast (t : FdTable) (min : Nat) :
    IsLeast {i | min ≤ i ∧ t.Available i} (t.lowestFrom min) := by
  unfold lowestFrom
  cases hfind : (range' min (t.entries.length - min)).find? fun i => t.Available i with
  | none =>
    rw [find?_eq_none] at hfind
    refine ⟨⟨Nat.le_max_right .., available_of_length_le (Nat.le_max_left ..)⟩, ?_⟩
    rintro i ⟨hmin, hi⟩
    apply Nat.max_le.mpr
    refine ⟨Nat.le_of_not_lt fun hlt => ?_, hmin⟩
    exact hfind i (mem_range'_1.mpr (by omega)) (decide_eq_true hi)
  | some =>
    obtain ⟨hi, hmem, hbefore⟩ := find?_range'_eq_some.mp hfind
    refine ⟨⟨(mem_range'_1.mp hmem).1, of_decide_eq_true hi⟩, ?_⟩
    rintro j ⟨hmin, hj⟩
    apply Nat.le_of_not_lt
    intro hlt
    exact absurd (hbefore j hmin hlt) (by simpa using hj)

lemma lowestFrom_zero : t.lowestFrom 0 = t.lowest := by
  unfold lowestFrom lowest
  rw [Nat.sub_zero, Nat.max_zero, ← range_eq_range']

/-- `alloc` is `alloc_at_min` without a lower bound; `fd.rs:55-57`. -/
lemma alloc_eq_allocAtMin (t : FdTable) (r : Nat) (flags : BitVec 32) :
    t.alloc r flags = t.allocAtMin r flags 0 := by
  have hext : t.grownTo t.lowest = t := by
    obtain ⟨entries, reserved, maxFds, hlt⟩ := t
    have hle := lowest_le ⟨entries, reserved, maxFds, hlt⟩
    unfold grownTo
    congr 1
    rw [Nat.sub_eq_zero_of_le hle]
    exact append_nil _
  unfold alloc allocAtMin
  dsimp only
  rw [Int.toNat_zero, lowestFrom_zero, hext]
  rfl

/-! ### Runs -/

/-- The operations, with `setMax` for a new `RLIMIT_NOFILE`. -/
inductive Call
  | alloc (r : Nat) (flags : BitVec 32)
  | allocAtMin (r : Nat) (flags : BitVec 32) (minFd : Int)
  | reserve
  | installReserved (fd : Int) (r : Nat) (flags : BitVec 32)
  | releaseReserved (fd : Int)
  | setAt (fd : Int) (r : Nat) (flags : BitVec 32)
  | free (fd : Int)
  | setMax (maxFds : Nat)

variable {call : Call}

/-- A number that is given out, and the table afterwards. -/
def given (t : FdTable) : Except Errno (Nat × FdTable) → Except Errno (Option Nat) × FdTable
  | .ok (fd, t') => (.ok (some fd), t')
  | .error e => (.error e, t)

/-- The answer of an operation, with a number if it gives one out, and the table afterwards. A
negative number is never open and never reserved; `fd.rs:121, 134, 142, 208`. -/
def Call.apply (t : FdTable) : Call → Except Errno (Option Nat) × FdTable
  | .alloc r flags => t.given (t.alloc r flags)
  | .allocAtMin r flags minFd => t.given (t.allocAtMin r flags minFd)
  | .reserve => t.given t.reserve
  | .installReserved fd r flags =>
    if fd < 0 then (.error .EBADF, t)
    else
      match t.installReserved fd.toNat r flags with
      | .ok t' => (.ok none, t')
      | .error e => (.error e, t)
  | .releaseReserved fd => (.ok none, if fd < 0 then t else t.releaseReserved fd.toNat)
  | .setAt fd r flags =>
    if fd < 0 then (.error .EBADF, t)
    else ((t.setAt fd.toNat r flags).1.map fun _ => none, (t.setAt fd.toNat r flags).2)
  | .free fd =>
    if fd < 0 then (.error .EBADF, t)
    else
      match t.get fd.toNat with
      | .ok _ => (.ok none, t.free fd.toNat)
      | .error e => (.error e, t)
  | .setMax maxFds => (.ok none, { t with maxFds })

/-- The table after some calls, the latest first. -/
def after (maxFds : Nat) (calls : List Call) : FdTable :=
  calls.foldr (fun call t => (call.apply t).2) (withMax maxFds)

/-- Descriptors and reservations are what they were. -/
def Same (t t' : FdTable) : Prop :=
  (∀ i, t'.entries.get i = t.entries.get i) ∧ ∀ i, i ∈ t'.reserved ↔ i ∈ t.reserved

lemma Same.refl (t : FdTable) : t.Same t := ⟨fun _ => rfl, fun _ => Iff.rfl⟩

/-- What one operation can do: fail and change nothing that is seen, or change one number. -/
inductive Step (t : FdTable) : Call → Except Errno (Option Nat) → FdTable → Prop
  | failed {call : Call} {e : Errno} {s : FdTable} (h : t.Same s) : Step t call (.error e) s
  | opened {call : Call} {a : Option Nat} {s : FdTable} {n : Nat} {entry : FdEntry}
      (hcall : call ≠ .reserve) (havail : t.Available n) (ha : ∀ m, a = some m → m = n)
      (hget : ∀ j, s.entries.get j = if j = n then some entry else t.entries.get j)
      (hres : s.reserved = t.reserved) : Step t call (.ok a) s
  | replaced {call : Call} {s : FdTable} {n : Nat} {entry : FdEntry} (hn : n ∉ t.reserved)
      (hget : ∀ j, s.entries.get j = if j = n then some entry else t.entries.get j)
      (hres : s.reserved = t.reserved) : Step t call (.ok none) s
  | reserved {s : FdTable} {n : Nat} (havail : t.Available n)
      (hget : ∀ j, s.entries.get j = t.entries.get j) (hres : s.reserved = n :: t.reserved) :
      Step t .reserve (.ok (some n)) s
  | installed {s : FdTable} {n : Nat} {entry : FdEntry} (hn : n ∈ t.reserved)
      (hget : ∀ j, s.entries.get j = if j = n then some entry else t.entries.get j)
      (hres : s.reserved = t.reserved.filter (· ≠ n)) :
      Step t (.installReserved n entry.ofdRef entry.fdFlags) (.ok none) s
  | released {s : FdTable} {n : Nat} (hget : ∀ j, s.entries.get j = t.entries.get j)
      (hres : s.reserved = t.reserved.filter (· ≠ n)) : Step t (.releaseReserved n) (.ok none) s
  | closed {call : Call} {s : FdTable} {n : Nat}
      (hget : ∀ j, s.entries.get j = if j = n then none else t.entries.get j)
      (hres : s.reserved = t.reserved) : Step t call (.ok none) s
  | kept {call : Call} {s : FdTable} (h : t.Same s) : Step t call (.ok none) s

lemma step_allocAtMin (hcall : call ≠ .reserve) (minFd : Int) :
    Step t call (t.given (t.allocAtMin r flags minFd)).1
      (t.given (t.allocAtMin r flags minFd)).2 := by
  unfold allocAtMin
  dsimp only
  split
  · exact .failed (Same.refl t)
  apply Step.opened hcall (t.lowestFrom_isLeast minFd.toNat).1.2
  · rintro n ⟨⟩
    rfl
  · exact t.get_put_grownTo (Nat.le_refl _) _
  · rfl

lemma step_reserve : Step t .reserve (t.given t.reserve).1 (t.given t.reserve).2 := by
  cases h : t.reserve with
  | error => exact .failed (Same.refl t)
  | ok a =>
    obtain ⟨fd, t'⟩ := a
    have hget := get_reserve h
    unfold reserve at h
    split at h
    · cases h
    · cases h
      exact .reserved t.available_lowest hget rfl

lemma step_installReserved (fd : Int) :
    Step t (.installReserved fd r flags) ((Call.installReserved fd r flags).apply t).1
      ((Call.installReserved fd r flags).apply t).2 := by
  unfold Call.apply installReserved
  dsimp only
  split
  · exact .failed (Same.refl t)
  lift fd to Nat using by omega
  rw [Int.toNat_natCast]
  by_cases h : t.entries.get fd = none ∧ fd ∈ t.reserved
  · rw [if_pos h]
    have hle := Nat.le_of_lt (t.reserved_lt fd h.2)
    exact Step.installed (s := { t with entries := _, reserved := _, reserved_lt := _ })
      (n := fd) h.2 (Slots.get_put hle (⟨r, flags⟩ : FdEntry)) rfl
  · rw [if_neg h]
    exact .failed (Same.refl t)

lemma step_setAt (fd : Int) :
    Step t (.setAt fd r flags) ((Call.setAt fd r flags).apply t).1
      ((Call.setAt fd r flags).apply t).2 := by
  unfold Call.apply setAt
  dsimp only
  split
  · exact .failed (Same.refl t)
  split
  · exact .failed (Same.refl t)
  split
  · exact .failed ⟨t.get_grownTo _, fun _ => Iff.rfl⟩
  · next hi => exact .replaced hi (t.get_put_grownTo (Nat.le_succ _) _) rfl

lemma Call.step (t : FdTable) (call : Call) : Step t call (call.apply t).1 (call.apply t).2 := by
  cases call with
  | alloc =>
    simp only [Call.apply, alloc_eq_allocAtMin]
    exact step_allocAtMin Call.noConfusion ..
  | allocAtMin => exact step_allocAtMin Call.noConfusion ..
  | reserve => exact step_reserve
  | installReserved fd r flags => exact step_installReserved fd
  | releaseReserved fd =>
    unfold Call.apply
    dsimp only
    split
    · exact .kept (Same.refl t)
    · lift fd to Nat using by omega
      exact .released (fun _ => rfl) rfl
  | setAt fd r flags => exact step_setAt fd
  | free fd =>
    unfold Call.apply
    dsimp only
    split
    · exact .failed (Same.refl t)
    split
    · exact .closed (t.entries.get_clear fd.toNat) rfl
    · exact .failed (Same.refl t)
  | setMax => exact .kept ⟨fun _ => rfl, fun _ => Iff.rfl⟩

/-- Reserved numbers are not open. -/
def Hidden (t : FdTable) : Prop := ∀ i ∈ t.reserved, t.entries.get i = none

lemma Hidden.step (h : t.Hidden) (hstep : Step t call a t') : t'.Hidden := by
  intro j hj
  cases hstep with
  | failed hs | kept hs => rw [hs.1, h j ((hs.2 j).mp hj)]
  | opened _ havail ha hget hres =>
    rw [hres] at hj
    rw [hget, if_neg (ne_of_mem_of_not_mem hj havail.2), h j hj]
  | replaced hi hget hres =>
    rw [hres] at hj
    rw [hget, if_neg (ne_of_mem_of_not_mem hj hi), h j hj]
  | reserved havail hget hres =>
    rw [hres, mem_cons] at hj
    rw [hget]
    rcases hj with rfl | hj
    · exact havail.1
    · exact h j hj
  | installed hi hget hres =>
    rw [hres, mem_filter, decide_eq_true_eq] at hj
    rw [hget, if_neg hj.2, h j hj.1]
  | released hget hres =>
    rw [hres, mem_filter] at hj
    rw [hget, h j hj.1]
  | closed hget hres =>
    rw [hres] at hj
    rw [hget]
    split
    · rfl
    · exact h j hj

lemma hidden_after {maxFds : Nat} {calls : List Call} : (after maxFds calls).Hidden := by
  induction calls with
  | nil => exact nofun
  | cons call calls ih => exact ih.step (call.step _)

lemma Step.keeps_reserved (hstep : Step t call a t') (h : t.Hidden) (hi : i ∈ t.reserved) :
    (i ∈ t'.reserved ∧ t'.entries.get i = none) ∨
      (∃ r flags, call = .installReserved i r flags ∧ i ∉ t'.reserved ∧
        t'.entries.get i = some ⟨r, flags⟩) ∨
      (call = .releaseReserved i ∧ i ∉ t'.reserved ∧ t'.entries.get i = none) := by
  have hnone := h i hi
  cases hstep with
  | failed hs | kept hs => exact .inl ⟨(hs.2 i).mpr hi, by rw [hs.1, hnone]⟩
  | opened _ havail ha hget hres =>
    exact .inl ⟨hres ▸ hi, by rw [hget, if_neg (ne_of_mem_of_not_mem hi havail.2), hnone]⟩
  | replaced hne hget hres =>
    exact .inl ⟨hres ▸ hi, by rw [hget, if_neg (ne_of_mem_of_not_mem hi hne), hnone]⟩
  | reserved havail hget hres => exact .inl ⟨hres ▸ mem_cons_of_mem _ hi, by rw [hget, hnone]⟩
  | @installed _ n entry hn hget hres =>
    by_cases he : i = n
    · subst he
      exact .inr (.inl ⟨entry.ofdRef, entry.fdFlags, rfl, by simp [hres], by rw [hget, if_pos rfl]⟩)
    · exact .inl ⟨hres ▸ mem_filter.mpr ⟨hi, decide_eq_true he⟩, by rw [hget, if_neg he, hnone]⟩
  | @released _ n hget hres =>
    by_cases he : i = n
    · subst he
      exact .inr (.inr ⟨rfl, by simp [hres], by rw [hget, hnone]⟩)
    · exact .inl ⟨hres ▸ mem_filter.mpr ⟨hi, decide_eq_true he⟩, by rw [hget, hnone]⟩
  | closed hget hres =>
    refine .inl ⟨hres ▸ hi, ?_⟩
    rw [hget, hnone, ite_self]

lemma Step.given (hstep : Step t call (.ok (some i)) t') :
    t.Available i ∧ (call = .reserve → i ∈ t'.reserved) := by
  generalize ha : (Except.ok (some i) : Except Errno (Option Nat)) = a at hstep
  cases hstep with
  | failed | replaced | installed | released | closed | kept => cases ha
  | opened hcall havail hn =>
    cases ha
    exact ⟨hn i rfl ▸ havail, fun h => absurd h hcall⟩
  | reserved havail hget hres =>
    cases ha
    exact ⟨havail, fun _ => hres ▸ mem_cons_self⟩

/-- After any calls, `alloc_at_min` gives out the least number from its bound on that is neither
open nor reserved, and `EMFILE` if that is not below the limit. The number that `reserve` answers
is reserved afterwards. A reserved number is not seen and not given out; it is open only once it is
installed, and stays closed when it is released. A call that fails changes neither descriptors nor
reservations. -/
theorem fd_allocation (maxFds : Nat) (calls : List Call) :
    let t := after maxFds calls
    (∀ r flags (minFd : Int), ∃ i,
      IsLeast {i : Nat | minFd ≤ i ∧ t.entries.get i = none ∧ i ∉ t.reserved} i ∧
      ((Call.allocAtMin r flags minFd).apply t).1 =
        if i < t.maxFds then .ok (some i) else .error .EMFILE) ∧
    (∀ i ∈ t.reserved, t.get i = .error .EBADF) ∧
    ∀ call : Call,
      let t' := (call.apply t).2
      (∀ i, (call.apply t).1 = .ok (some i) →
        (t.entries.get i = none ∧ i ∉ t.reserved) ∧ (call = .reserve → i ∈ t'.reserved)) ∧
      (∀ i ∈ t.reserved, (i ∈ t'.reserved ∧ t'.entries.get i = none) ∨
        (∃ r flags, call = .installReserved i r flags ∧ i ∉ t'.reserved ∧
          t'.entries.get i = some ⟨r, flags⟩) ∨
        (call = .releaseReserved i ∧ i ∉ t'.reserved ∧ t'.entries.get i = none)) ∧
      (∀ e, (call.apply t).1 = .error e → t.Same t') := by
  intro t
  have hidden : t.Hidden := hidden_after
  refine ⟨?_, ?_, ?_⟩
  · intro r flags minFd
    have hleast := t.lowestFrom_isLeast minFd.toNat
    refine ⟨t.lowestFrom minFd.toNat, ?_, ?_⟩
    · simp only [Int.toNat_le] at hleast
      exact hleast
    simp only [Call.apply, allocAtMin]
    by_cases hlt : t.lowestFrom minFd.toNat < t.maxFds
    · rw [if_neg (Nat.not_le.mpr hlt), if_pos hlt]
      rfl
    · rw [if_pos (Nat.le_of_not_lt hlt), if_neg hlt]
      rfl
  · intro i hi
    rw [FdTable.get, hidden i hi]
  · intro call
    refine ⟨?_, ?_, ?_⟩
    · intro i hi
      have hstep := call.step t
      rw [hi] at hstep
      exact hstep.given
    · exact fun i hi => (call.step t).keeps_reserved hidden hi
    · intro e he
      have hstep := call.step t
      rw [he] at hstep
      generalize ha : (Except.error e : Except Errno (Option Nat)) = a at hstep
      cases hstep with
      | failed hs => exact hs
      | opened | replaced | reserved | installed | released | closed | kept => cases ha

end Kandelo.Kernel.Descriptor.FdTable
