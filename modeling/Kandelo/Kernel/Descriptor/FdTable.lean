import Kandelo.Kernel.Errno
import Kandelo.Lib.Slots
import Mathlib.Data.List.Count
import Mathlib.Data.List.Nodup
import Mathlib.Data.List.Range

/-!
# The table of descriptors

`FdTable` of `crates/kernel/src/fd.rs`. A number is available if no entry is
there and no blocked open has reserved it; the lowest available number is given out, and only if
it is below `RLIMIT_NOFILE`.
-/

namespace Kandelo.Kernel.Descriptor

open Lib List

/-- `FdEntry`; `fd.rs:12-16`. -/
structure FdEntry where
  ofdRef : Nat
  fdFlags : BitVec 32

/-- `FdTable`; `fd.rs:22-29`. A number that is reserved has its slot already. -/
structure FdTable where
  entries : Slots FdEntry
  reserved : List Nat
  maxFds : Nat
  reserved_lt : ∀ i ∈ reserved, i < entries.length

namespace FdTable

variable {t t' : FdTable} {i fd r : Nat} {flags : BitVec 32}

/-- `FdTable::with_max`; `fd.rs:38-44`. -/
def withMax (maxFds : Nat) : FdTable := ⟨[], [], maxFds, nofun⟩

/-- Number `i` is neither open nor reserved. -/
def Available (t : FdTable) (i : Nat) : Prop := t.entries.get i = none ∧ i ∉ t.reserved

instance (t : FdTable) (i : Nat) : Decidable (t.Available i) := inferInstanceAs (Decidable (_ ∧ _))

/-- The lowest available number. -/
def lowest (t : FdTable) : Nat :=
  ((List.range t.entries.length).find? fun i => t.Available i).getD t.entries.length

/-- How many numbers below the limit are available. -/
def spare (t : FdTable) : Nat := (List.range t.maxFds).countP fun i => t.Available i

lemma lowest_le (t : FdTable) : t.lowest ≤ t.entries.length := by
  unfold lowest
  cases hfind : (range t.entries.length).find? fun i => t.Available i with
  | none => exact Nat.le_refl _
  | some => exact Nat.le_of_lt (mem_range.mp (mem_of_find?_eq_some hfind))

/-- `FdTable::get`; `fd.rs:153-159`. -/
def get (t : FdTable) (fd : Nat) : Except Errno FdEntry :=
  match t.entries.get fd with
  | some entry => .ok entry
  | none => .error .EBADF

/-- `FdTable::alloc`; `fd.rs:55-91`. -/
def alloc (t : FdTable) (r : Nat) (flags : BitVec 32) : Except Errno (Nat × FdTable) :=
  if t.maxFds ≤ t.lowest then .error .EMFILE
  else .ok (t.lowest, { t with
    entries := t.entries.put t.lowest ⟨r, flags⟩
    reserved_lt := fun i hi =>
      Nat.lt_of_lt_of_le (t.reserved_lt i hi) (t.entries.length_put_le t.lowest ⟨r, flags⟩) })

/-- `FdTable::reserve`; `fd.rs:94-112`. -/
def reserve (t : FdTable) : Except Errno (Nat × FdTable) :=
  if t.maxFds ≤ t.lowest then .error .EMFILE
  else .ok (t.lowest, { t with
    entries := if t.lowest < t.entries.length then t.entries else t.entries ++ [none]
    reserved := t.lowest :: t.reserved
    reserved_lt := by
      intro i hi
      have hi' : i = t.lowest ∨ i < t.entries.length := (mem_cons.mp hi).imp_right (t.reserved_lt i)
      have hle := t.lowest_le
      split
      · omega
      · rw [length_append, length_singleton]
        omega })

/-- `FdTable::install_reserved`; `fd.rs:115-130`. -/
def installReserved (t : FdTable) (fd r : Nat) (flags : BitVec 32) : Except Errno FdTable :=
  if t.entries.get fd = none ∧ fd ∈ t.reserved then
    .ok { t with
      entries := t.entries.put fd ⟨r, flags⟩
      reserved := t.reserved.filter (· ≠ fd)
      reserved_lt := fun i hi => Nat.lt_of_lt_of_le (t.reserved_lt i (mem_of_mem_filter hi))
        (t.entries.length_put_le fd ⟨r, flags⟩) }
  else .error .EBADF

/-- `FdTable::release_reserved`; `fd.rs:133-137`. -/
def releaseReserved (t : FdTable) (fd : Nat) : FdTable :=
  { t with
    reserved := t.reserved.filter (· ≠ fd)
    reserved_lt := fun i hi => t.reserved_lt i (mem_of_mem_filter hi) }

/-- `FdTable::free`; `fd.rs:140-149`. -/
def free (t : FdTable) (fd : Nat) : FdTable :=
  { t with
    entries := t.entries.clear fd
    reserved_lt := by
      intro i hi
      rw [Slots.clear, length_set]
      exact t.reserved_lt i hi }

/-- The table with slots up to `n`. -/
def grownTo (t : FdTable) (n : Nat) : FdTable where
  entries := t.entries ++ List.replicate (n - t.entries.length) none
  reserved := t.reserved
  maxFds := t.maxFds
  reserved_lt i hi := by
    rw [length_append]
    exact Nat.lt_add_right _ (t.reserved_lt i hi)

/-- The table with an entry at `i`. -/
def put (t : FdTable) (i : Nat) (entry : FdEntry) : FdTable where
  entries := t.entries.put i entry
  reserved := t.reserved
  maxFds := t.maxFds
  reserved_lt j hj := Nat.lt_of_lt_of_le (t.reserved_lt j hj) (t.entries.length_put_le i entry)

/-- The lowest available number from `min` on. -/
def lowestFrom (t : FdTable) (min : Nat) : Nat :=
  ((List.range' min (t.entries.length - min)).find? fun i => t.Available i).getD
    (max t.entries.length min)

/-- `FdTable::alloc_at_min`; `fd.rs:60-91`. -/
def allocAtMin (t : FdTable) (r : Nat) (flags : BitVec 32) (minFd : Int) :
    Except Errno (Nat × FdTable) :=
  let i := t.lowestFrom minFd.toNat
  if t.maxFds ≤ i then .error .EMFILE else .ok (i, (t.grownTo i).put i ⟨r, flags⟩)

/-- `FdTable::set_at`, with the table that also a failure leaves; `fd.rs:201-224`. -/
def setAt (t : FdTable) (fd r : Nat) (flags : BitVec 32) : Except Errno (Option Nat) × FdTable :=
  if t.maxFds ≤ fd then (.error .EBADF, t)
  else
    let t := t.grownTo (fd + 1)
    if fd ∈ t.reserved then (.error .EBUSY, t)
    else (.ok ((t.entries.get fd).map (·.ofdRef)), t.put fd ⟨r, flags⟩)

/-! ### What is in the table afterwards -/

section

variable (t : FdTable)

@[simp] lemma get_grownTo (n i : Nat) : (t.grownTo n).entries.get i = t.entries.get i := by
  unfold grownTo Slots.get
  rw [getElem?_append]
  split
  · rfl
  next hi =>
  rw [getElem?_eq_none (l := t.entries) (Nat.le_of_not_lt hi), getElem?_replicate]
  split <;> rfl

lemma le_length_grownTo (n : Nat) : n ≤ (t.grownTo n).entries.length := by
  rw [grownTo, length_append, length_replicate]
  omega

lemma get_put_grownTo {i n : Nat} (h : i ≤ n) (entry : FdEntry) (j : Nat) :
    ((t.grownTo n).put i entry).entries.get j = if j = i then some entry else t.entries.get j := by
  rw [put, Slots.get_put (Nat.le_trans h (t.le_length_grownTo n)), get_grownTo]

end

/-! ### What is available -/

lemma available_lowest (t : FdTable) : t.Available t.lowest := by
  unfold lowest
  cases hfind : (range t.entries.length).find? fun i => t.Available i with
  | none =>
    exact ⟨Slots.get_of_length_le (Nat.le_refl _), fun h => Nat.lt_irrefl _ (t.reserved_lt _ h)⟩
  | some =>
    have hj := find?_some hfind
    exact of_decide_eq_true hj

lemma not_available_of_lt (h : i < t.lowest) : ¬ t.Available i := by
  intro hi
  have hlen : i < t.entries.length := Nat.lt_of_lt_of_le h t.lowest_le
  unfold lowest at h
  cases hfind : (range t.entries.length).find? fun i => t.Available i with
  | none => exact find?_eq_none.mp hfind i (mem_range.mpr hlen) (decide_eq_true hi)
  | some =>
    rw [hfind] at h
    obtain ⟨-, -, hj⟩ := find?_range_eq_some.mp hfind
    exact absurd (hj i h) (by simpa using hi)

lemma spare_eq_zero_iff : t.spare = 0 ↔ t.maxFds ≤ t.lowest := by
  rw [spare, countP_eq_zero]
  constructor
  · intro h
    by_contra hlt
    exact h t.lowest (mem_range.mpr (Nat.lt_of_not_le hlt)) (decide_eq_true t.available_lowest)
  · intro h i hi
    rw [decide_eq_true_eq]
    exact not_available_of_lt (Nat.lt_of_lt_of_le (mem_range.mp hi) h)

lemma alloc_of_spare_eq_zero (h : t.spare = 0) (r : Nat) (flags : BitVec 32) :
    t.alloc r flags = .error .EMFILE := if_pos (spare_eq_zero_iff.mp h)

lemma alloc_of_spare_pos (h : 0 < t.spare) : ∃ t', t.alloc r flags = .ok (t.lowest, t') := by
  have hlt : ¬ t.maxFds ≤ t.lowest := fun hle => Nat.ne_of_gt h (spare_eq_zero_iff.mpr hle)
  exact ⟨_, if_neg hlt⟩

lemma alloc_eq_ok (h : t.alloc r flags = .ok (fd, t')) :
    t.Available fd ∧ fd < t.maxFds ∧ t'.maxFds = t.maxFds ∧ t'.reserved = t.reserved ∧
      ∀ i, t'.entries.get i = if i = fd then some ⟨r, flags⟩ else t.entries.get i := by
  unfold alloc at h
  split at h
  · cases h
  next hlt =>
  cases h
  exact ⟨t.available_lowest, Nat.lt_of_not_le hlt, rfl, rfl, Slots.get_put t.lowest_le _⟩

lemma spare_alloc (h : t.alloc r flags = .ok (fd, t')) : t'.spare + 1 = t.spare := by
  obtain ⟨havail, hlt, hmax, hres, hget⟩ := alloc_eq_ok h
  have hperm := perm_cons_erase (mem_range.mpr hlt)
  unfold spare
  rw [hmax, hperm.countP_eq, hperm.countP_eq, countP_cons, countP_cons,
    if_pos (decide_eq_true havail), if_neg]
  · rw [Nat.add_right_cancel_iff]
    apply countP_congr
    intro i hi
    have hne : i ≠ fd := ((nodup_range.mem_erase_iff).mp hi).1
    rw [decide_eq_true_eq, decide_eq_true_eq, Available, Available, hget, if_neg hne, hres]
  · rw [decide_eq_true_eq, Available, hget, if_pos rfl]
    exact fun h => nomatch h.1

lemma reserve_of_spare_eq_zero (h : t.spare = 0) : t.reserve = .error .EMFILE :=
  if_pos (spare_eq_zero_iff.mp h)

lemma reserve_of_spare_pos (h : 0 < t.spare) : ∃ t', t.reserve = .ok (t.lowest, t') := by
  have hlt : ¬ t.maxFds ≤ t.lowest := fun hle => Nat.ne_of_gt h (spare_eq_zero_iff.mpr hle)
  exact ⟨_, if_neg hlt⟩

lemma get_reserve (h : t.reserve = .ok (fd, t')) (i : Nat) :
    t'.entries.get i = t.entries.get i := by
  unfold reserve at h
  split at h
  · cases h
  cases h
  split
  · rfl
  unfold Slots.get
  rw [getElem?_append]
  split
  · rfl
  next hi =>
  rw [getElem?_eq_none (l := t.entries) (Nat.le_of_not_lt hi)]
  cases i - t.entries.length <;> rfl

end FdTable

end Kandelo.Kernel.Descriptor
