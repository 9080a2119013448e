import Mathlib.Data.List.Perm.Basic
import Kandelo.Lib.Fold
import Kandelo.Kernel.Lock.Manager

/-!
# What setting a lock does to the record table

One law for each stage of `setLock`
(`lock.rs:257-448`): the file bounds select exactly one file's records,
the overlap scan collects the fragments outside the request, the coalescing loop stops at
a range that absorbs every record in contact with it, and the commit exchanges the removed
records for the new pieces. The invariants and the byte-level meaning are derived from
these laws without unfolding the operation again.
-/

namespace Kandelo.Kernel.Lock.AdvisoryLockManager

open Lib List LockRange Fold Slice

variable {r : LockRecord} {m : AdvisoryLockManager}

/-! ### File bounds -/

/-- The records are in order. -/
def Sorted (m : AdvisoryLockManager) : Prop := m.records.Pairwise (· ≤ ·)

lemma file_le_of_le {a b : LockRecord} (h : a ≤ b) : a.file ≤ b.file := by
  rcases Prod.Lex.le_iff.mp h with h | ⟨h, -⟩
  · exact le_of_lt h
  · exact le_of_eq h

lemma fileBounds_spec (hs : m.Sorted) (file : FileId) :
    (m.fileBounds file).1 ≤ (m.fileBounds file).2 ∧
      (m.fileBounds file).2 ≤ m.records.length ∧
      (∀ r ∈ m.records.take (m.fileBounds file).1, r.file ≠ file) ∧
      (∀ r ∈ m.fileSlice file, r.file = file) ∧
      ∀ r ∈ m.records.drop (m.fileBounds file).2, r.file ≠ file := by
  have hlt : m.records.Pairwise fun a b =>
      decide (b.file < file) = true → decide (a.file < file) = true := by
    refine hs.imp fun hab hb => ?_
    rw [decide_eq_true_eq] at hb ⊢
    exact lt_of_le_of_lt (file_le_of_le hab) hb
  obtain ⟨hl1, ht1, hd1⟩ := partitionPoint_spec hlt
  generalize hstart : partitionPoint (fun r : LockRecord => decide (r.file < file))
    m.records = start at hl1 ht1 hd1
  have hge : ∀ r ∈ m.records.drop start, file ≤ r.file := by
    intro r hr
    simpa using hd1 r hr
  -- From the first bound on, every file is at least `file`, so equality is a prefix test.
  have heq : (m.records.drop start).Pairwise fun a b =>
      decide (b.file = file) = true → decide (a.file = file) = true := by
    have hp := hs.sublist (drop_sublist start m.records)
    refine hp.imp_of_mem fun {a b} ha hb hab hbf => ?_
    rw [decide_eq_true_eq] at hbf ⊢
    exact le_antisymm (hbf ▸ file_le_of_le hab) (hge a ha)
  obtain ⟨hl2, ht2, hd2⟩ := partitionPoint_spec heq
  have hb : m.fileBounds file = (start, partitionPoint
      (fun r : LockRecord => decide (r.file = file)) (m.records.drop start) + start) := by
    simp [fileBounds, hstart]
  simp only [fileSlice, slice, hb]
  generalize partitionPoint (fun r : LockRecord => decide (r.file = file))
    (m.records.drop start) = width at hl2 ht2 hd2
  rw [length_drop] at hl2
  refine ⟨by omega, by omega, ?_, ?_, ?_⟩
  · intro r hr
    exact ne_of_lt (by simpa using ht1 r hr)
  · intro r hr
    rw [Nat.add_sub_cancel] at hr
    simpa using ht2 r hr
  · intro r hr
    rw [Nat.add_comm, ← drop_drop] at hr
    simpa using hd2 r hr

lemma records_eq_append (hs : m.Sorted) (file : FileId) :
    m.records = m.records.take (m.fileBounds file).1 ++ m.fileSlice file ++
      m.records.drop (m.fileBounds file).2 := by
  obtain ⟨hle, -⟩ := fileBounds_spec hs file
  have hd : m.records.drop (m.fileBounds file).2 =
      (m.records.drop (m.fileBounds file).1).drop
        ((m.fileBounds file).2 - (m.fileBounds file).1) := by
    rw [drop_drop, Nat.add_sub_cancel' hle]
  rw [fileSlice, slice, hd, append_assoc, take_append_drop, take_append_drop]

lemma mem_fileSlice (hs : m.Sorted) {file : FileId} :
    r ∈ m.fileSlice file ↔ r ∈ m.records ∧ r.file = file := by
  obtain ⟨-, -, hbefore, hfile, hafter⟩ := fileBounds_spec hs file
  constructor
  · intro hr
    refine ⟨?_, hfile r hr⟩
    rw [records_eq_append hs file]
    simp [hr]
  · rintro ⟨hr, hf⟩
    rw [records_eq_append hs file, mem_append, mem_append] at hr
    rcases hr with (hr | hr) | hr
    · exact absurd hf (hbefore r hr)
    · exact hr
    · exact absurd hf (hafter r hr)

lemma compactRange_fileBounds (hs : m.Sorted) (file : FileId) (remove : LockRecord → Bool) :
    compactRange remove m.records (m.fileBounds file).1 (m.fileBounds file).2 =
      m.records.filter fun r => !(decide (r.file = file) && remove r) := by
  obtain ⟨hle, hlen, hbefore, hfile, hafter⟩ := fileBounds_spec hs file
  rw [compactRange_eq remove m.records hle hlen]
  conv_rhs => rw [records_eq_append hs file]
  rw [filter_append, filter_append]
  congr 1
  · congr 1
    · refine (filter_eq_self.mpr ?_).symm
      intro r hr
      simp [hbefore r hr]
    · refine filter_congr ?_
      intro r hr
      simp [hfile r hr]
  · refine (filter_eq_self.mpr ?_).symm
    intro r hr
    simp [hafter r hr]

/-! ### The overlap scan -/

section

variable {owner : LockOwner} {lockType : Option AdvisoryLockType} {requested : LockRange}
  {records : List LockRecord} {r : LockRecord} {scan : Scan}

/-- A record of the owner inside the scanned slice that overlaps the request. -/
structure Hit (owner : LockOwner) (requested : LockRange) (records : List LockRecord)
    (r : LockRecord) : Prop where
  mem : r ∈ records
  owner_eq : r.owner = owner
  overlaps : r.range.overlaps requested = true

/-- Bytes the merged request may cover: the request and records of its owner and type. -/
def Sources (owner : LockOwner) (lockType : Option AdvisoryLockType) (requested : LockRange)
    (records : List LockRecord) (b : Int) : Prop :=
  requested.Covers b ∨
    ∃ r ∈ records, r.owner = owner ∧ lockType = some r.lockType ∧ r.range.Covers b

/-- What the scan has collected from the records seen so far. -/
structure ScanSound (owner : LockOwner) (lockType : Option AdvisoryLockType)
    (requested : LockRange) (records : List LockRecord) (scan : Scan) : Prop where
  left : ∀ f, scan.leftFragment = some f → ∃ r, Hit owner requested records r ∧
    r.range.start < requested.start ∧ lockType ≠ some r.lockType ∧ f = leftOf requested r
  right : ∀ f, scan.rightFragment = some f → ∃ r stop, Hit owner requested records r ∧
    requested.end = .offset stop ∧ requested.end < r.range.end ∧
    lockType ≠ some r.lockType ∧ f = rightOf stop r
  within : requested.Within scan.mergedRequest
  sources : ∀ b, scan.mergedRequest.Covers b → Sources owner lockType requested records b

lemma leftOf_within (h : r.range.overlaps requested = true) :
    (leftOf requested r).range.Within r.range :=
  ⟨le_refl _, (overlaps_iff.mp h).1.le⟩

lemma rightOf_within {stop : Int} (he : requested.end = .offset stop)
    (h : r.range.overlaps requested = true) : (rightOf stop r).range.Within r.range := by
  refine ⟨?_, le_refl _⟩
  have := (overlaps_iff.mp h).2
  rw [he, LockRangeEnd.offset_lt_offset] at this
  exact this.le

lemma sources_union {merged part : LockRange} (hr : r ∈ records) (ho : r.owner = owner)
    (ht : lockType = some r.lockType) (hpart : part.Within r.range)
    (htouch : part.touchesOrOverlaps requested = true) (hw : requested.Within merged)
    (hs : ∀ b, merged.Covers b → Sources owner lockType requested records b) :
    ∀ b, (merged.union part).Covers b → Sources owner lockType requested records b := by
  intro b hb
  have hc : merged.touchesOrOverlaps part = true := hw.touches (touchesOrOverlaps_comm.trans htouch)
  rcases (covers_union hc).mp hb with hb | hb
  · exact hs b hb
  · exact .inr ⟨r, hr, ho, ht, hpart.covers hb⟩

lemma addLeft_sound (h : ScanSound owner lockType requested records scan)
    (hit : Hit owner requested records r) :
    ScanSound owner lockType requested records (scan.addLeft lockType requested r) := by
  unfold Scan.addLeft
  split
  · next hstart =>
    split
    · next ht =>
      refine ⟨h.left, h.right, h.within.trans within_union_left, ?_⟩
      refine sources_union hit.mem hit.owner_eq ht (leftOf_within hit.overlaps) ?_ h.within
        h.sources
      rw [touchesOrOverlaps_iff]
      exact ⟨(overlaps_iff.mp hit.overlaps).2.le, le_refl _⟩
    · next ht =>
      refine ⟨?_, h.right, h.within, h.sources⟩
      rintro f hf
      cases hf
      exact ⟨r, hit, hstart, ht, rfl⟩
  · exact h

lemma addRight_sound (h : ScanSound owner lockType requested records scan)
    (hit : Hit owner requested records r) :
    ScanSound owner lockType requested records (scan.addRight lockType requested r) := by
  unfold Scan.addRight
  split
  · next hend =>
    split
    · next stop hstop =>
      split
      · next ht =>
        refine ⟨h.left, h.right, h.within.trans within_union_left, ?_⟩
        refine sources_union hit.mem hit.owner_eq ht (rightOf_within hstop hit.overlaps) ?_
          h.within h.sources
        rw [touchesOrOverlaps_iff]
        exact ⟨hstop ▸ le_refl _, (overlaps_iff.mp hit.overlaps).1.le.trans (le_refl _)⟩
      · next ht =>
        refine ⟨h.left, ?_, h.within, h.sources⟩
        rintro f hf
        cases hf
        exact ⟨r, stop, hit, hstop, hend, ht, rfl⟩
    · exact h
  · exact h

lemma scanRecord_of_hit (hit : Hit owner requested records r) :
    ∃ c, scanRecord owner lockType requested scan r =
      { (scan.addLeft lockType requested r).addRight lockType requested r with
        typeChanged := c } := by
  have hcond : (decide (r.owner ≠ owner) || !r.range.overlaps requested) = false := by
    simp [hit.owner_eq, hit.overlaps]
  simp only [scanRecord, hcond]
  cases lockType with
  | none => exact ⟨_, rfl⟩
  | some => exact ⟨_, rfl⟩

lemma scanRecord_of_not_hit (hr : r ∈ records) (hit : ¬ Hit owner requested records r) :
    scanRecord owner lockType requested scan r = scan := by
  have hcond : (decide (r.owner ≠ owner) || !r.range.overlaps requested) = true := by
    by_contra hc
    simp only [Bool.or_eq_true, decide_eq_true_eq, Bool.not_eq_true', not_or, not_not,
      Bool.not_eq_false] at hc
    exact hit ⟨hr, hc.1, hc.2⟩
  simp only [scanRecord, hcond, if_true]

lemma scanRecords_sound (owner : LockOwner) (lockType : Option AdvisoryLockType)
    (requested : LockRange) (records : List LockRecord) :
    ScanSound owner lockType requested records (scanRecords owner lockType requested records) := by
  refine foldl_keeps (I := ScanSound owner lockType requested records) ?_ ?_
  · intro scan r hr h
    by_cases hit : Hit owner requested records r
    · obtain ⟨c, hc⟩ := scanRecord_of_hit hit
      rw [hc]
      have := addRight_sound (addLeft_sound h hit) hit
      exact ⟨this.left, this.right, this.within, this.sources⟩
    · rwa [scanRecord_of_not_hit hr hit]
  · exact ⟨by simp, by simp, LockRange.Within.refl _, fun b hb => .inl hb⟩

lemma addRight_left : (scan.addRight lockType requested r).leftFragment = scan.leftFragment := by
  unfold Scan.addRight
  split
  · split
    · split <;> rfl
    · rfl
  · rfl

lemma addLeft_right : (scan.addLeft lockType requested r).rightFragment = scan.rightFragment := by
  unfold Scan.addLeft
  split
  · split <;> rfl
  · rfl

lemma addRight_right_isSome (h : scan.rightFragment.isSome) :
    (scan.addRight lockType requested r).rightFragment.isSome := by
  unfold Scan.addRight
  split
  · split
    · split
      · exact h
      · rfl
    · exact h
  · exact h

lemma scanRecords_left (hit : Hit owner requested records r)
    (hstart : r.range.start < requested.start) (ht : lockType ≠ some r.lockType) :
    (scanRecords owner lockType requested records).leftFragment.isSome := by
  refine foldl_reaches (I := fun _ => True) (Q := fun scan : Scan => scan.leftFragment.isSome)
    (fun _ _ _ => trivial) ?_ hit.mem ?_ trivial
  · intro scan x hx
    by_cases hitx : Hit owner requested [x] x
    · obtain ⟨c, hc⟩ := scanRecord_of_hit hitx
      rw [hc, addRight_left, Scan.addLeft]
      split
      · split
        · exact hx
        · rfl
      · exact hx
    · rwa [scanRecord_of_not_hit mem_cons_self hitx]
  · intro scan _
    obtain ⟨c, hc⟩ := scanRecord_of_hit hit
    rw [hc]
    rw [addRight_left]
    simp [Scan.addLeft, hstart, ht]

lemma scanRecords_right (hit : Hit owner requested records r)
    (hend : requested.end < r.range.end) (ht : lockType ≠ some r.lockType) :
    (scanRecords owner lockType requested records).rightFragment.isSome := by
  refine foldl_reaches (I := fun _ => True) (Q := fun scan : Scan => scan.rightFragment.isSome)
    (fun _ _ _ => trivial) ?_ hit.mem ?_ trivial
  · intro scan x hx
    by_cases hitx : Hit owner requested [x] x
    · obtain ⟨c, hc⟩ := scanRecord_of_hit hitx
      rw [hc]
      refine addRight_right_isSome ?_
      rwa [addLeft_right]
    · rwa [scanRecord_of_not_hit mem_cons_self hitx]
  · intro scan _
    obtain ⟨c, hc⟩ := scanRecord_of_hit hit
    rw [hc]
    cases he : requested.end with
    | eof =>
      rw [he] at hend
      exact absurd hend LockRangeEnd.not_eof_lt
    | offset =>
      rw [he] at hend
      simp [Scan.addRight, he, hend, ht]

end

/-! ### The coalescing loop -/

section

variable {owner : LockOwner} {t : AdvisoryLockType} {records : List LockRecord} {merged : LockRange}
  {r : LockRecord}

lemma coalescePass_extensive : merged.Within (coalescePass owner t records merged) := by
  refine foldl_keeps (I := fun s => merged.Within s) ?_ (LockRange.Within.refl _)
  intro s r _ hs
  split
  · exact hs.trans within_union_left
  · exact hs

lemma mergesInto_mono {m m' : LockRange} (h : m.Within m')
    (hm : mergesInto owner t m r = true) : mergesInto owner t m' r = true := by
  simp only [mergesInto, Bool.and_eq_true] at hm ⊢
  refine ⟨hm.1, ?_⟩
  rw [touchesOrOverlaps_comm]
  exact h.touches (touchesOrOverlaps_comm.trans hm.2)

lemma coalescePass_absorbs (hr : r ∈ records) (hm : mergesInto owner t merged r = true) :
    r.range.Within (coalescePass owner t records merged) := by
  refine foldl_reaches (I := fun s => merged.Within s) (Q := fun s => r.range.Within s)
    ?_ ?_ hr ?_ (LockRange.Within.refl _)
  · intro s x hs
    split
    · exact hs.trans within_union_left
    · exact hs
  · intro s x hs
    split
    · exact hs.trans within_union_left
    · exact hs
  · intro s hs
    rw [if_pos (mergesInto_mono hs hm)]
    exact within_union_right

lemma coalescePass_eq_self
    (h : ∀ r ∈ records, mergesInto owner t merged r = true → r.range.Within merged) :
    coalescePass owner t records merged = merged := by
  refine LockRange.Within.antisymm ?_ coalescePass_extensive
  refine foldl_keeps (I := fun s : LockRange => s.Within merged) ?_ (LockRange.Within.refl _)
  intro s r hr hs
  split
  · next hm => exact union_within hs (h r hr (mergesInto_mono hs hm))
  · exact hs

/-- Records of the owner and type that the merged range does not contain yet. -/
private def outside (owner : LockOwner) (t : AdvisoryLockType) (merged : LockRange)
    (r : LockRecord) : Bool :=
  decide (r.owner = owner) && decide (r.lockType = t) && !decide (r.range.Within merged)

lemma coalesceLoop_fixed (fuel : Nat) (merged : LockRange)
    (hf : records.countP (outside owner t merged) < fuel) :
    coalescePass owner t records (coalesceLoop owner t records fuel merged) =
      coalesceLoop owner t records fuel merged := by
  induction fuel generalizing merged with
  | zero => omega
  | succ fuel ih =>
    simp only [coalesceLoop]
    split
    · next he => rw [he, he]
    next hne =>
    refine ih _ ?_
    -- A pass that changed the range absorbed a record that was outside.
    obtain ⟨r, hr, hm, hw⟩ : ∃ r ∈ records, mergesInto owner t merged r = true ∧
        ¬ r.range.Within merged := by
      by_contra hc
      push Not at hc
      exact hne (coalescePass_eq_self hc)
    have hown : r.owner = owner ∧ r.lockType = t := by
      simp only [mergesInto, Bool.and_eq_true, decide_eq_true_eq] at hm
      exact hm.1
    have hanti : ∀ x, outside owner t (coalescePass owner t records merged) x = true →
        outside owner t merged x = true := by
      intro x hx
      simp only [outside, Bool.and_eq_true, Bool.not_eq_true', decide_eq_false_iff_not] at hx ⊢
      exact ⟨hx.1, fun h => hx.2 (h.trans coalescePass_extensive)⟩
    have hlt := countP_lt_countP hanti hr (by simp [outside, hown, hw])
      (by simp [outside, coalescePass_absorbs hr hm])
    omega

lemma coalescePass_sources {requested : LockRange}
    (hs : ∀ b, merged.Covers b → Sources owner (some t) requested records b) :
    ∀ b, (coalescePass owner t records merged).Covers b →
      Sources owner (some t) requested records b := by
  refine foldl_keeps
    (I := fun s => ∀ b, LockRange.Covers s b → Sources owner (some t) requested records b) ?_ hs
  intro s r hr h b hb
  split at hb
  · next hm =>
    simp only [mergesInto, Bool.and_eq_true, decide_eq_true_eq] at hm
    have hc : s.touchesOrOverlaps r.range = true := touchesOrOverlaps_comm.trans hm.2
    rcases (covers_union hc).mp hb with hb | hb
    · exact h b hb
    · exact .inr ⟨r, hr, hm.1.1, by rw [hm.1.2], hb⟩
  · exact h b hb

lemma coalesceLoop_keeps {P : LockRange → Prop}
    (hstep : ∀ s, P s → P (coalescePass owner t records s)) (fuel : Nat) (h : P merged) :
    P (coalesceLoop owner t records fuel merged) := by
  induction fuel generalizing merged with
  | zero => exact h
  | succ fuel ih =>
    simp only [coalesceLoop]
    split
    · exact hstep _ h
    · exact ih (hstep _ h)

/-- The range the request is merged into: it covers the request, only bytes of the request or
of records of its owner and type, and contains every such record it is in contact with. -/
structure Merged (owner : LockOwner) (lockType : Option AdvisoryLockType)
    (requested : LockRange) (records : List LockRecord) (merged : LockRange) : Prop where
  within : requested.Within merged
  sources : ∀ b, merged.Covers b → Sources owner lockType requested records b
  closed : ∀ r ∈ records, r.owner = owner → lockType = some r.lockType →
    r.range.touchesOrOverlaps merged = true → r.range.Within merged

lemma mergeRequest_spec (owner : LockOwner) (lockType : Option AdvisoryLockType)
    (requested : LockRange) (records : List LockRecord) :
    Merged owner lockType requested records
      (mergeRequest owner lockType records
        (scanRecords owner lockType requested records).mergedRequest) := by
  have hsound := scanRecords_sound owner lockType requested records
  generalize scanRecords owner lockType requested records = scan at hsound ⊢
  cases lockType with
  | none => exact ⟨hsound.within, hsound.sources, fun r _ _ ht => by cases ht⟩
  | some t =>
    simp only [mergeRequest]
    have hfixed : coalescePass owner t records
        (coalesceLoop owner t records (records.length + 1) scan.mergedRequest) = _ :=
      coalesceLoop_fixed _ _ (Nat.lt_succ_of_le countP_le_length)
    refine ⟨?_, ?_, ?_⟩
    · exact coalesceLoop_keeps (P := fun s => requested.Within s)
        (fun s hs => hs.trans coalescePass_extensive) _ hsound.within
    · exact coalesceLoop_keeps
        (P := fun s => ∀ b, LockRange.Covers s b → Sources owner (some t) requested records b)
        (fun s hs => coalescePass_sources hs) _ hsound.sources
    · intro r hr ho ht htouch
      rw [← hfixed]
      refine coalescePass_absorbs hr ?_
      simp [mergesInto, ho, (Option.some.inj ht).symm, htouch]

end

/-! ### The commit -/

section

variable {alloc : Nat → Option Nat} {m m' : AdvisoryLockManager} {file : FileId}
  {owner : LockOwner} {lockType : Option AdvisoryLockType} {requested : LockRange}
  {mutation : LockMutation}

lemma ensureCapacity_records {required : Nat}
    (h : m.ensureCapacity alloc required = .ok m') : m'.records = m.records := by
  unfold ensureCapacity at h
  split at h
  · cases h
    rfl
  split at h
  · cases h
  split at h
  · cases h
    rfl
  · cases h

lemma insertPiece_perm {piece : Option LockRecord} :
    (m.insertPiece piece).records.Perm (piece.toList ++ m.records) := by
  cases piece with
  | none => exact .refl _
  | some record => exact insertSortedBy_perm recordCmp m.records record

lemma insertPiece_sorted (hs : m.Sorted) (piece : Option LockRecord) :
    (m.insertPiece piece).Sorted := by
  cases piece with
  | none => exact hs
  | some record => exact insertSortedBy_sorted recordCmp_eq_compare hs record

/-- The effect of a successful request on the table, for a scan result and a merged range. -/
inductive Committed (m : AdvisoryLockManager) (file : FileId) (owner : LockOwner)
    (lockType : Option AdvisoryLockType) (requested : LockRange) (scan : Scan)
    (merged : LockRange) (m' : AdvisoryLockManager) : Prop
  /-- Nothing to unlock. -/
  | idle (eq : m' = m) (unlock : lockType = none)
      (none_removed : ∀ r ∈ m.fileSlice file,
        shouldRemove owner lockType requested merged r = false)
  /-- The request is already in force. -/
  | inForce (eq : m' = m) (record : LockRecord)
      (stored : replacementOf file owner lockType merged = some record)
      (mem : record ∈ m.fileSlice file)
  /-- The removed records are exchanged for the pieces. -/
  | exchanged (sorted : m'.Sorted) (bounded : m'.records.length ≤ maxAdvisoryLockRecords)
      (perm : m'.records.Perm
        (scan.rightFragment.toList ++ ((replacementOf file owner lockType merged).toList ++
          (scan.leftFragment.toList ++ m.records.filter fun r =>
            !(decide (r.file = file) && shouldRemove owner lockType requested merged r)))))

lemma length_compacted (hs : m.Sorted) (file : FileId) (remove : LockRecord → Bool) :
    (m.records.filter fun r => !(decide (r.file = file) && remove r)).length +
      (m.fileSlice file).countP remove = m.records.length := by
  obtain ⟨hle, hlen, -⟩ := fileBounds_spec hs file
  have hlength := congrArg List.length (records_eq_append hs file)
  rw [← compactRange_fileBounds hs file remove, compactRange_eq remove m.records hle hlen]
  have hsplit := length_eq_countP_add_countP (l := m.fileSlice file) remove
  have hkeep : ((m.fileSlice file).filter fun x => !remove x).length =
      (m.fileSlice file).countP fun x => decide ¬ remove x = true := by
    rw [countP_eq_length_filter]
    simp
  simp only [length_append] at hlength ⊢
  rw [fileSlice, slice] at *
  omega

lemma length_toList_eq (piece : Option LockRecord) : piece.toList.length = piece.isSome.toNat := by
  cases piece <;> rfl

lemma exchange_perm (hs : m.Sorted) (file : FileId) (remove : LockRecord → Bool)
    (left replacement right : Option LockRecord) :
    (m.exchange file remove left replacement right).records.Perm
      (right.toList ++ (replacement.toList ++ (left.toList ++
        m.records.filter fun r => !(decide (r.file = file) && remove r)))) := by
  refine insertPiece_perm.trans (.append_left _ ?_)
  refine insertPiece_perm.trans (.append_left _ ?_)
  refine insertPiece_perm.trans (.append_left _ ?_)
  exact .of_eq (compactRange_fileBounds hs file remove)

lemma exchange_sorted (hs : m.Sorted) (remove : LockRecord → Bool)
    (left replacement right : Option LockRecord) :
    (m.exchange file remove left replacement right).Sorted := by
  have hcompact : (compactRange remove m.records (m.fileBounds file).1
      (m.fileBounds file).2).Pairwise (· ≤ ·) := by
    rw [compactRange_fileBounds hs]
    exact hs.sublist filter_sublist
  refine insertPiece_sorted (insertPiece_sorted (insertPiece_sorted ?_ _) _) _
  exact hcompact

lemma commitRequest_ok {scan : Scan} {merged : LockRange} (hs : m.Sorted)
    (h : m.commitRequest alloc file owner lockType requested scan merged = .ok (mutation, m')) :
    Committed m file owner lockType requested scan merged m' := by
  simp only [commitRequest] at h
  split at h
  · next hidle =>
    cases h
    exact .idle rfl hidle.2 fun r hr => by simpa using countP_eq_zero.mp hidle.1 r hr
  split at h
  · next hnoop =>
    cases h
    obtain ⟨-, -, -, -, hsome, hfind⟩ := hnoop
    obtain ⟨record, hrecord⟩ := Option.isSome_iff_exists.mp hsome
    exact .inForce rfl record hrecord (mem_of_find?_eq_some (hfind.trans hrecord))
  split at h
  · cases h
  next hbound =>
  split at h
  · cases h
  next grown hgrown =>
  cases h
  have hrecords := ensureCapacity_records hgrown
  have hsg : grown.Sorted := by rwa [Sorted, hrecords]
  have hperm := exchange_perm hsg file (shouldRemove owner lockType requested merged)
    scan.leftFragment (replacementOf file owner lockType merged) scan.rightFragment
  rw [hrecords] at hperm
  refine .exchanged (exchange_sorted hsg _ _ _ _) ?_ hperm
  have hlen := length_compacted hs file (shouldRemove owner lockType requested merged)
  have hpiece : (replacementOf file owner lockType merged).isSome = lockType.isSome :=
    Option.isSome_map
  rw [hperm.length_eq]
  simp only [length_append, length_toList_eq, hpiece]
  omega

lemma setLock_ok (hs : m.Sorted)
    (h : m.setLock alloc file owner lockType requested = .ok (mutation, m')) :
    (∀ t, lockType = some t → ∀ r ∈ m.fileSlice file, blocks owner t requested r = false) ∧
      Committed m file owner lockType requested
        (scanRecords owner lockType requested (m.fileSlice file))
        (mergeRequest owner lockType (m.fileSlice file)
          (scanRecords owner lockType requested (m.fileSlice file)).mergedRequest) m' := by
  simp only [setLock] at h
  split at h
  · cases h
  next hblock =>
  refine ⟨?_, commitRequest_ok hs h⟩
  intro t ht r hr
  subst ht
  simp only [Option.any_some, any_eq_true, not_exists, not_and, Bool.not_eq_true] at hblock
  exact hblock r hr

end

end Kandelo.Kernel.Lock.AdvisoryLockManager
