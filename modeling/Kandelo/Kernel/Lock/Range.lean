import Mathlib.Order.MinMax
import Mathlib.Order.WithBot
import Mathlib.Data.Prod.Lex
import Kandelo.Kernel.Errno

/-!
# Normalized advisory-lock ranges

Half-open byte ranges of `lock.rs:65-160`.
A range either stops at an offset or covers every byte from its start on. Overlap,
contact and union are given their meaning on the bytes a range covers, which is what
the record table is reasoned about with.
-/

namespace Kandelo.Kernel.Lock

variable {a b : Int}

/-- Exclusive endpoint of a normalized range; `lock.rs:66-70`. -/
inductive LockRangeEnd
  | offset (value : Int)
  | eof
  deriving DecidableEq

namespace LockRangeEnd

/-- The derived order puts every offset before `eof`. -/
def key : LockRangeEnd → WithTop Int
  | offset value => value
  | eof => ⊤

lemma key_injective : Function.Injective key := by
  intro a b h
  cases a <;> cases b <;> simp_all [key]

instance : LinearOrder LockRangeEnd := LinearOrder.lift' key key_injective

@[simp]
lemma offset_le_offset : offset a ≤ offset b ↔ a ≤ b := by exact WithTop.coe_le_coe

@[simp]
lemma offset_lt_offset : offset a < offset b ↔ a < b := by exact WithTop.coe_lt_coe

@[simp]
lemma le_eof {a : LockRangeEnd} : a ≤ eof := by
  change a.key ≤ ⊤
  exact le_top

@[simp]
lemma offset_lt_eof : offset a < eof := by exact WithTop.coe_lt_top a

@[simp]
lemma not_eof_lt {a : LockRangeEnd} : ¬ eof < a := not_lt.mpr le_eof

end LockRangeEnd

/-- Half-open byte range; `lock.rs:73-77`. -/
structure LockRange where
  start : Int
  «end» : LockRangeEnd
  deriving DecidableEq

variable {r s : LockRange}

namespace LockRange

/-- The derived order compares starts, then ends. -/
def key (r : LockRange) : Int ×ₗ LockRangeEnd := toLex (r.start, r.end)

lemma key_injective : Function.Injective key := by
  rintro ⟨a, b⟩ ⟨c, d⟩ h
  simp only [key, toLex_inj, Prod.mk.injEq] at h
  simp [h]

instance : LinearOrder LockRange := LinearOrder.lift' key key_injective

/-- Normalize a start and a signed length; `lock.rs:85-112`. -/
def normalize (start len : Int) : Except Errno LockRange :=
  if start < 0 then .error .EINVAL
  else if len = 0 then .ok ⟨start, .eof⟩
  else if 0 < len then
    match checkedAddI64 start len with
    | none => .error .EOVERFLOW
    | some stop => .ok ⟨start, .offset stop⟩
  else
    match checkedAddI64 start len with
    | none => .error .EOVERFLOW
    | some normalizedStart =>
      if normalizedStart < 0 then .error .EINVAL
      else .ok ⟨normalizedStart, .offset start⟩

/-- Whether the range ends behind `start`; `lock.rs:115-120`. -/
def endAfter (r : LockRange) (start : Int) : Bool :=
  match r.end with
  | .offset stop => start < stop
  | .eof => true

/-- Whether `start` lies before an endpoint; `lock.rs:123-128`. -/
def startBeforeEnd (start : Int) : LockRangeEnd → Bool
  | .offset stop => start < stop
  | .eof => true

/-- Two ranges share a byte; `lock.rs:130-132`. -/
def overlaps (r s : LockRange) : Bool := r.endAfter s.start && startBeforeEnd r.start s.end

/-- Two ranges share a byte or meet at an endpoint; `lock.rs:134-144`. -/
def touchesOrOverlaps (r s : LockRange) : Bool :=
  let selfBeforeOrAtOtherEnd :=
    match s.end with
    | .offset stop => decide (r.start ≤ stop)
    | .eof => true
  let otherBeforeOrAtSelfEnd :=
    match r.end with
    | .offset stop => decide (s.start ≤ stop)
    | .eof => true
  selfBeforeOrAtOtherEnd && otherBeforeOrAtSelfEnd

/-- Smallest range covering both; `lock.rs:146-151`. -/
def union (r s : LockRange) : LockRange := ⟨min r.start s.start, max r.end s.end⟩

/-! ### The bytes of a range -/

/-- Byte `b` lies in the range; an `eof` end covers every byte from the start on. -/
def Covers (r : LockRange) (b : Int) : Prop := r.start ≤ b ∧ .offset b < r.end

instance (r : LockRange) (b : Int) : Decidable (r.Covers b) := inferInstanceAs (Decidable (_ ∧ _))

/-- The range has a byte. -/
def NonEmpty (r : LockRange) : Prop := .offset r.start < r.end

instance (r : LockRange) : Decidable r.NonEmpty := inferInstanceAs (Decidable (_ < _))

lemma overlaps_iff : r.overlaps s = true ↔ .offset s.start < r.end ∧ .offset r.start < s.end := by
  rcases r with ⟨a, _ | _⟩ <;> rcases s with ⟨b, _ | _⟩ <;>
    simp [overlaps, endAfter, startBeforeEnd]

lemma touchesOrOverlaps_iff :
    r.touchesOrOverlaps s = true ↔ .offset r.start ≤ s.end ∧ .offset s.start ≤ r.end := by
  rcases r with ⟨a, _ | _⟩ <;> rcases s with ⟨b, _ | _⟩ <;> simp [touchesOrOverlaps]

lemma overlaps_comm : r.overlaps s = s.overlaps r := by
  rw [Bool.eq_iff_iff, overlaps_iff, overlaps_iff, and_comm]

lemma touchesOrOverlaps_comm : r.touchesOrOverlaps s = s.touchesOrOverlaps r := by
  rw [Bool.eq_iff_iff, touchesOrOverlaps_iff, touchesOrOverlaps_iff, and_comm]

lemma touchesOrOverlaps_of_overlaps (h : r.overlaps s = true) : r.touchesOrOverlaps s = true := by
  rw [overlaps_iff] at h
  exact touchesOrOverlaps_iff.mpr ⟨h.2.le, h.1.le⟩

lemma overlaps_iff_exists_covers (hr : r.NonEmpty) (hs : s.NonEmpty) :
    r.overlaps s = true ↔ ∃ b, r.Covers b ∧ s.Covers b := by
  rw [overlaps_iff]
  constructor
  · rintro ⟨hsr, hrs⟩
    rcases le_total r.start s.start with h | h
    · exact ⟨s.start, ⟨h, hsr⟩, le_refl _, hs⟩
    · exact ⟨r.start, ⟨le_refl _, hr⟩, h, hrs⟩
  · rintro ⟨b, ⟨hr1, hr2⟩, hs1, hs2⟩
    exact ⟨lt_of_le_of_lt (LockRangeEnd.offset_le_offset.mpr hs1) hr2,
      lt_of_le_of_lt (LockRangeEnd.offset_le_offset.mpr hr1) hs2⟩

/-- A range is contained in another when it is inside both endpoints. -/
def Within (r s : LockRange) : Prop := s.start ≤ r.start ∧ r.end ≤ s.end

instance (r s : LockRange) : Decidable (r.Within s) := inferInstanceAs (Decidable (_ ∧ _))

lemma Within.covers (h : r.Within s) (hb : r.Covers b) :
    s.Covers b := ⟨le_trans h.1 hb.1, lt_of_lt_of_le hb.2 h.2⟩

variable {r' t : LockRange}

lemma Within.touches (h : r.Within r')
    (ht : r.touchesOrOverlaps s = true) : r'.touchesOrOverlaps s = true := by
  rw [touchesOrOverlaps_iff] at ht ⊢
  exact ⟨le_trans (LockRangeEnd.offset_le_offset.mpr h.1) ht.1, le_trans ht.2 h.2⟩

lemma Within.overlaps (h : r.Within r') (ht : r.overlaps s = true) : r'.overlaps s = true := by
  rw [overlaps_iff] at ht ⊢
  exact ⟨lt_of_lt_of_le ht.1 h.2, lt_of_le_of_lt (LockRangeEnd.offset_le_offset.mpr h.1) ht.2⟩

@[refl]
lemma Within.refl (r : LockRange) : r.Within r := ⟨le_refl _, le_refl _⟩

lemma Within.trans (h : r.Within s) (h' : s.Within t) : r.Within t :=
  ⟨le_trans h'.1 h.1, le_trans h.2 h'.2⟩

lemma Within.antisymm (h : r.Within s) (h' : s.Within r) : r = s := by
  rcases r with ⟨a, e⟩
  rcases s with ⟨b, f⟩
  simp only [Within] at h h'
  rw [le_antisymm h'.1 h.1, le_antisymm h.2 h'.2]

lemma within_union_left : r.Within (r.union s) := ⟨min_le_left _ _, le_max_left _ _⟩

lemma within_union_right : s.Within (r.union s) := ⟨min_le_right _ _, le_max_right _ _⟩

lemma union_within (hr : r.Within t) (hs : s.Within t) :
    (r.union s).Within t := ⟨le_min hr.1 hs.1, max_le hr.2 hs.2⟩

lemma NonEmpty.of_within (hr : r.NonEmpty) (h : r.Within s) : s.NonEmpty :=
  lt_of_le_of_lt (LockRangeEnd.offset_le_offset.mpr h.1) (lt_of_lt_of_le hr h.2)

lemma covers_union (h : r.touchesOrOverlaps s = true) :
    (r.union s).Covers b ↔ r.Covers b ∨ s.Covers b := by
  constructor
  · rintro ⟨hb1, hb2⟩
    rw [touchesOrOverlaps_iff] at h
    simp only [union, min_le_iff, lt_max_iff] at hb1 hb2
    by_cases hr : r.Covers b
    · exact .inl hr
    refine .inr ?_
    simp only [Covers, not_and_or, not_le, not_lt] at hr ⊢
    rcases hr with hr | hr
    · refine ⟨hb1.resolve_left (not_le.mpr hr), ?_⟩
      exact lt_of_lt_of_le (LockRangeEnd.offset_lt_offset.mpr hr) h.1
    · refine ⟨?_, hb2.resolve_left (not_lt.mpr hr)⟩
      exact LockRangeEnd.offset_le_offset.mp (le_trans h.2 hr)
  · rintro (hb | hb)
    · exact within_union_left.covers hb
    · exact within_union_right.covers hb

lemma normalize_ok {start len : Int} (h : normalize start len = .ok r) :
    r.NonEmpty ∧ 0 ≤ r.start := by
  unfold normalize at h
  split at h
  · cases h
  split at h
  · cases h
    exact ⟨LockRangeEnd.offset_lt_eof, by dsimp only; omega⟩
  split at h
  · split at h
    · cases h
    next stop hstop =>
    cases h
    have := checkedAddI64_eq_some hstop
    exact ⟨LockRangeEnd.offset_lt_offset.mpr (by dsimp only; omega), by dsimp only; omega⟩
  · split at h
    · cases h
    next s hs =>
    have := checkedAddI64_eq_some hs
    split at h
    · cases h
    · cases h
      exact ⟨LockRangeEnd.offset_lt_offset.mpr (by dsimp only; omega), by dsimp only; omega⟩

end LockRange

end Kandelo.Kernel.Lock
