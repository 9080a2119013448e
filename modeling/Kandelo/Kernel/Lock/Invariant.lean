import Mathlib.Data.List.Pairwise
import Kandelo.Kernel.Lock.SetLock

/-!
# The normal form of the record table

Every manager reachable through the operations of
`crates/kernel/src/lock.rs` keeps its records sorted, nonempty, disjoint and coalesced
within one owner, exclusive across the owners of one namespace, and within the record
limit. The normal form is one pairwise relation, so that removal keeps it as a sublist
and a committed request has to be checked only at the pieces it inserts.
-/

namespace Kandelo.Kernel.Lock

open List Option LockRange LockRangeEnd

variable {f k record : LockRecord}

/-- Two records of one table go together. -/
structure LockRecord.Compatible (a b : LockRecord) : Prop where
  /-- One owner's records on a file are disjoint. -/
  disjoint : a.file = b.file → a.owner = b.owner → ¬ a.range.overlaps b.range
  /-- One owner's records of the same type on a file are separated. -/
  separate : a.file = b.file → a.owner = b.owner → a.lockType = b.lockType →
    ¬ a.range.touchesOrOverlaps b.range
  /-- Owners of one namespace share bytes of a file only under read locks. -/
  exclusive : a.file = b.file → a.owner ≠ b.owner → a.owner.conflictsInNamespace b.owner →
    a.range.overlaps b.range → a.lockType = .read ∧ b.lockType = .read

namespace LockRecord.Compatible

variable {a b : LockRecord}

lemma symm (h : a.Compatible b) : b.Compatible a where
  disjoint hf ho hr := h.disjoint hf.symm ho.symm (overlaps_comm.trans hr)
  separate hf ho ht hr := h.separate hf.symm ho.symm ht.symm (touchesOrOverlaps_comm.trans hr)
  exclusive hf ho hc hr :=
    (h.exclusive hf.symm (Ne.symm ho)
      ((LockOwner.conflictsInNamespace_comm _ _).trans hc)
      (overlaps_comm.trans hr)).symm

lemma of_within {part : LockRange} (h : a.Compatible b) (hp : part.Within a.range) :
    LockRecord.Compatible { a with range := part } b where
  disjoint hf ho hr := h.disjoint hf ho (hp.overlaps hr)
  separate hf ho ht hr := h.separate hf ho ht (hp.touches hr)
  exclusive hf ho hc hr := h.exclusive hf ho hc (hp.overlaps hr)

instance : Std.Symm LockRecord.Compatible := ⟨fun _ _ h => h.symm⟩

end LockRecord.Compatible

namespace AdvisoryLockManager

/-- The normal form of a manager. -/
structure Normal (m : AdvisoryLockManager) : Prop where
  sorted : m.Sorted
  nonEmpty : ∀ r ∈ m.records, r.range.NonEmpty
  compatible : m.records.Pairwise LockRecord.Compatible
  bounded : m.records.length ≤ maxAdvisoryLockRecords

lemma normal_new : new.Normal := ⟨.nil, by simp [new], .nil, Nat.zero_le _⟩

namespace Normal

variable {m m' : AdvisoryLockManager}

lemma filter (h : m.Normal) {keep : LockRecord → Bool}
    (hm : m'.records = m.records.filter keep) : m'.Normal := by
  refine ⟨?_, ?_, ?_, ?_⟩
  · rw [Sorted, hm]
    exact h.sorted.sublist filter_sublist
  · intro r hr
    rw [hm] at hr
    exact h.nonEmpty r (mem_filter.mp hr).1
  · rw [hm]
    exact h.compatible.sublist filter_sublist
  · rw [hm]
    exact (length_filter_le _ _).trans h.bounded

lemma removeFileOwner (h : m.Normal) (file : FileId) (owner : LockOwner) :
    (m.removeFileOwner file owner).2.Normal :=
  h.filter (compactRange_fileBounds h.sorted file fun record => record.owner = owner)

lemma removeProcessFile (h : m.Normal) (pid : Nat) (file : FileId) :
    (m.removeProcessFile pid file).2.Normal := h.removeFileOwner file _

lemma removeProcess (h : m.Normal) (pid : Nat) : (m.removeProcess pid).2.Normal := h.filter rfl

lemma removeOfd (h : m.Normal) (ofdId : OfdId) : (m.removeOfd ofdId).2.Normal := h.filter rfl

end Normal

/-! ### The pieces of a committed request -/

section

variable {m : AdvisoryLockManager} {file : FileId} {owner : LockOwner}
  {lockType : Option AdvisoryLockType} {requested merged : LockRange} {r : LockRecord}

/-- A remainder of a replaced record: part of its range, outside the request. -/
structure Fragment (m : AdvisoryLockManager) (file : FileId) (owner : LockOwner)
    (lockType : Option AdvisoryLockType) (requested : LockRange) (f : LockRecord) : Prop where
  origin : ∃ r ∈ m.records, r.file = file ∧ r.owner = owner ∧
    r.range.overlaps requested = true ∧ f = { r with range := f.range } ∧ f.range.Within r.range
  retyped : lockType ≠ some f.lockType
  nonEmpty : f.range.NonEmpty
  outside : ∀ b, f.range.Covers b → ¬ requested.Covers b

lemma fragment_left (h : m.Normal)
    (hf : (scanRecords owner lockType requested (m.fileSlice file)).leftFragment = some f) :
    Fragment m file owner lockType requested f := by
  obtain ⟨r, hit, hstart, ht, rfl⟩ := (scanRecords_sound ..).left f hf
  obtain ⟨hr, hfile⟩ := (mem_fileSlice h.sorted).mp hit.mem
  refine ⟨⟨r, hr, hfile, hit.owner_eq, hit.overlaps, rfl, leftOf_within hit.overlaps⟩, ht, ?_, ?_⟩
  · exact offset_lt_offset.mpr hstart
  intro b hb hq
  have := offset_lt_offset.mp hb.2
  have := hq.1
  omega

lemma fragment_right (h : m.Normal)
    (hf : (scanRecords owner lockType requested (m.fileSlice file)).rightFragment = some f) :
    Fragment m file owner lockType requested f := by
  obtain ⟨r, stop, hit, hstop, hend, ht, rfl⟩ := (scanRecords_sound ..).right f hf
  obtain ⟨hr, hfile⟩ := (mem_fileSlice h.sorted).mp hit.mem
  refine ⟨⟨r, hr, hfile, hit.owner_eq, hit.overlaps, rfl, rightOf_within hstop hit.overlaps⟩,
    ht, ?_, ?_⟩
  · rw [hstop] at hend
    exact hend
  intro b hb hq
  have hq2 := hq.2
  rw [hstop, offset_lt_offset] at hq2
  have : stop ≤ b := hb.1
  omega

lemma left_right_compatible (hreq : requested.NonEmpty) {g : LockRecord}
    (hf : (scanRecords owner lockType requested (m.fileSlice file)).leftFragment = some f)
    (hg : (scanRecords owner lockType requested (m.fileSlice file)).rightFragment = some g) :
    g.Compatible f := by
  obtain ⟨r, hit, hstart, ht, rfl⟩ := (scanRecords_sound ..).left f hf
  obtain ⟨r', stop, hit', hstop, hend, ht', rfl⟩ := (scanRecords_sound ..).right g hg
  -- The request lies strictly between the two fragments.
  have hlt : requested.start < stop := by
    have hn : offset requested.start < requested.end := hreq
    rwa [hstop, offset_lt_offset] at hn
  have hapart : ¬ (rightOf stop r').range.touchesOrOverlaps (leftOf requested r).range := by
    rw [touchesOrOverlaps_iff]
    rintro ⟨h1, -⟩
    have hle : stop ≤ requested.start := offset_le_offset.mp h1
    omega
  exact ⟨fun _ _ hr => hapart (touchesOrOverlaps_of_overlaps hr),
    fun _ _ _ => hapart, fun _ ho => absurd (hit'.owner_eq.trans hit.owner_eq.symm) ho⟩

lemma kept_iff :
    (!(decide (r.file = file) && shouldRemove owner lockType requested merged r)) = true ↔
      (r.file = file → r.owner = owner → ¬ r.range.overlaps requested ∧
        (lockType = some r.lockType → ¬ r.range.touchesOrOverlaps merged)) := by
  by_cases hf : r.file = file <;> by_cases ho : r.owner = owner <;>
    by_cases hr : r.range.overlaps requested = true <;>
    cases lockType <;> simp [shouldRemove, imp_iff_not_or, Eq.comm (a := r.lockType)]

lemma Fragment.compatible_kept (h : m.Normal)
    (hf : Fragment m file owner lockType requested f) (hk : k ∈ m.records)
    (hkept : (!(decide (k.file = file) &&
      shouldRemove owner lockType requested merged k)) = true) : f.Compatible k := by
  obtain ⟨r, hr, hfile, howner, hover, heq, hw⟩ := hf.origin
  have hne : r ≠ k := by
    rintro rfl
    exact (kept_iff.mp hkept hfile howner).1 hover
  rw [heq]
  exact (h.compatible.forall hr hk hne).of_within hw

lemma Merged.origin (h : m.Normal)
    (hm : Merged owner lockType requested (m.fileSlice file) merged) {b : Int}
    (hb : merged.Covers b) (hq : ¬ requested.Covers b) :
    ∃ r ∈ m.records, r.file = file ∧ r.owner = owner ∧ lockType = some r.lockType ∧
      r.range.Covers b := by
  rcases hm.sources b hb with hb | ⟨r, hr, ho, ht, hb⟩
  · exact absurd hb hq
  · obtain ⟨hr, hf⟩ := (mem_fileSlice h.sorted).mp hr
    exact ⟨r, hr, hf, ho, ht, hb⟩

lemma not_both_cover (h : m.Normal) {k : LockRecord} (hr : r ∈ m.records)
    (hk : k ∈ m.records) (hne : r.lockType ≠ k.lockType) (hf : r.file = k.file)
    (ho : r.owner = k.owner) {b : Int} (hbr : r.range.Covers b) (hbk : k.range.Covers b) :
    False := by
  have hrk : r ≠ k := fun he => hne (he ▸ rfl)
  refine (h.compatible.forall hr hk hrk).disjoint hf ho ?_
  exact (overlaps_iff_exists_covers (h.nonEmpty r hr) (h.nonEmpty k hk)).mpr ⟨b, hbr, hbk⟩

lemma Fragment.compatible_replacement (h : m.Normal) (hreq : requested.NonEmpty)
    (hm : Merged owner lockType requested (m.fileSlice file) merged)
    (hf : Fragment m file owner lockType requested f)
    (hrec : replacementOf file owner lockType merged = some record) : f.Compatible record := by
  obtain ⟨r, hr, hfile, howner, hover, heq, hw⟩ := hf.origin
  obtain ⟨t, ht, rfl⟩ := map_eq_some_iff.mp hrec
  have hne : f.lockType ≠ t := fun he => hf.retyped (ht.trans (he ▸ rfl))
  have hfo : f.owner = owner := by rw [heq]; exact howner
  refine ⟨fun _ _ hover => ?_, fun _ _ he => absurd he hne, fun _ ho => absurd hfo ho⟩
  obtain ⟨b, hbf, hbm⟩ := (overlaps_iff_exists_covers hf.nonEmpty
    (hreq.of_within hm.within)).mp hover
  obtain ⟨r', hr', hfile', howner', ht', hb'⟩ := hm.origin h hbm (hf.outside b hbf)
  have hrt : r.lockType = f.lockType := by rw [heq]
  refine not_both_cover h hr hr' ?_ (hfile.trans hfile'.symm) (howner.trans howner'.symm)
    (hw.covers hbf) hb'
  rw [hrt]
  intro he
  rw [← he] at ht'
  exact hf.retyped ht'

lemma replacement_compatible_kept (h : m.Normal) (hreq : requested.NonEmpty)
    (hm : Merged owner lockType requested (m.fileSlice file) merged)
    (hfree : ∀ t, lockType = some t → ∀ r ∈ m.fileSlice file, blocks owner t requested r = false)
    (hrec : replacementOf file owner lockType merged = some record)
    (hk : k ∈ m.records) (hkept : (!(decide (k.file = file) &&
      shouldRemove owner lockType requested merged k)) = true) : record.Compatible k := by
  obtain ⟨t, ht, rfl⟩ := map_eq_some_iff.mp hrec
  rw [kept_iff] at hkept
  have hne := hreq.of_within hm.within
  constructor
  · intro hf ho hover
    obtain ⟨hnover, hntouch⟩ := hkept hf.symm ho.symm
    obtain ⟨b, hbm, hbk⟩ := (overlaps_iff_exists_covers hne (h.nonEmpty k hk)).mp hover
    have hq : ¬ requested.Covers b := fun hq => hnover
      ((overlaps_iff_exists_covers (h.nonEmpty k hk) hreq).mpr ⟨b, hbk, hq⟩)
    obtain ⟨r, hr, hfile, howner, hrt, hb⟩ := hm.origin h hbm hq
    refine not_both_cover h hr hk ?_ (hfile.trans hf) (howner.trans ho) hb hbk
    intro he
    rw [he] at hrt
    exact hntouch hrt (touchesOrOverlaps_of_overlaps (overlaps_comm.trans hover))
  · intro hf ho he htouch
    exact (hkept hf.symm ho.symm).2 (he ▸ ht) (touchesOrOverlaps_comm.trans htouch)
  · intro hf ho hc hover
    obtain ⟨b, hbm, hbk⟩ := (overlaps_iff_exists_covers hne (h.nonEmpty k hk)).mp hover
    by_cases hq : requested.Covers b
    · -- Inside the request the conflict check has excluded a writer on either side.
      have hb := hfree t ht k ((mem_fileSlice h.sorted).mpr ⟨hk, hf.symm⟩)
      have hkr : k.range.overlaps requested = true :=
        (overlaps_iff_exists_covers (h.nonEmpty k hk) hreq).mpr ⟨b, hbk, hq⟩
      rw [LockOwner.conflictsInNamespace_comm] at hc
      simp only [blocks] at hb
      cases t <;> cases hkt : k.lockType <;> simp_all
    · -- Outside it the byte was already held by a record of the same owner and type.
      obtain ⟨r, hr, hfile, howner, hrt, hb⟩ := hm.origin h hbm hq
      have hrk : r ≠ k := fun he => ho (howner ▸ he ▸ rfl)
      have hover' := (overlaps_iff_exists_covers (h.nonEmpty r hr)
        (h.nonEmpty k hk)).mpr ⟨b, hb, hbk⟩
      have := (h.compatible.forall hr hk hrk).exclusive (hfile.trans hf)
        (howner ▸ ho) (howner ▸ hc) hover'
      rw [ht, some.injEq] at hrt
      rwa [hrt]

end

/-! ### Every operation keeps the normal form -/

lemma pairwise_toList {R : LockRecord → LockRecord → Prop}
    (piece : Option LockRecord) : piece.toList.Pairwise R := by
  cases piece <;> simp

lemma Normal.setLock {alloc : Nat → Option Nat} {m m' : AdvisoryLockManager} {file : FileId}
    {owner : LockOwner} {lockType : Option AdvisoryLockType} {requested : LockRange}
    {mutation : LockMutation} (h : m.Normal) (hreq : requested.NonEmpty)
    (hok : m.setLock alloc file owner lockType requested = .ok (mutation, m')) : m'.Normal := by
  obtain ⟨hfree, hcommit⟩ := setLock_ok h.sorted hok
  have hm := mergeRequest_spec owner lockType requested (m.fileSlice file)
  rcases hcommit with ⟨rfl, -, -⟩ | ⟨rfl, -, -, -⟩ | ⟨hsorted, hbounded, hperm⟩
  · exact h
  · exact h
  refine ⟨hsorted, ?_, ?_, hbounded⟩
  · intro r hr
    rw [hperm.mem_iff] at hr
    simp only [mem_append, mem_toList, mem_filter] at hr
    rcases hr with hr | hr | hr | ⟨hr, -⟩
    · exact (fragment_right h hr).nonEmpty
    · obtain ⟨t, -, rfl⟩ := map_eq_some_iff.mp hr
      exact hreq.of_within hm.within
    · exact (fragment_left h hr).nonEmpty
    · exact h.nonEmpty r hr
  · rw [hperm.pairwise_iff fun h => h.symm]
    simp only [pairwise_append, pairwise_toList, mem_append, mem_toList, mem_filter, true_and]
    refine ⟨⟨⟨h.compatible.sublist filter_sublist, ?_⟩, ?_⟩, ?_⟩
    · rintro f hf k ⟨hk, hkept⟩
      exact (fragment_left h hf).compatible_kept h hk hkept
    · rintro record hrec k (hf | ⟨hk, hkept⟩)
      · exact ((fragment_left h hf).compatible_replacement h hreq hm hrec).symm
      · exact replacement_compatible_kept h hreq hm hfree hrec hk hkept
    · rintro g hg k (hrec | hf | ⟨hk, hkept⟩)
      · exact (fragment_right h hg).compatible_replacement h hreq hm hrec
      · exact left_right_compatible hreq hf hg
      · exact (fragment_right h hg).compatible_kept h hk hkept

/-- Managers produced from `new` by any sequence of calls on normalized ranges. A failed call
leaves the manager unchanged, so only successful ones are steps. -/
inductive Reachable : AdvisoryLockManager → Prop
  | new : Reachable new
  | setLock {m m' : AdvisoryLockManager} (h : Reachable m) (alloc : Nat → Option Nat)
      (file : FileId) (owner : LockOwner) (lockType : Option AdvisoryLockType)
      {start len : Int} {requested : LockRange} (hn : LockRange.normalize start len = .ok requested)
      {mutation : LockMutation}
      (hok : m.setLock alloc file owner lockType requested = .ok (mutation, m')) : Reachable m'
  | removeProcessFile {m : AdvisoryLockManager} (h : Reachable m) (pid : Nat) (file : FileId) :
      Reachable (m.removeProcessFile pid file).2
  | removeFileOwner {m : AdvisoryLockManager} (h : Reachable m) (file : FileId)
      (owner : LockOwner) : Reachable (m.removeFileOwner file owner).2
  | removeProcess {m : AdvisoryLockManager} (h : Reachable m) (pid : Nat) :
      Reachable (m.removeProcess pid).2
  | removeOfd {m : AdvisoryLockManager} (h : Reachable m) (ofdId : OfdId) :
      Reachable (m.removeOfd ofdId).2

lemma Reachable.normal {m : AdvisoryLockManager} (h : Reachable m) : m.Normal := by
  induction h with
  | new => exact normal_new
  | setLock _ _ _ _ _ hn hok ih => exact ih.setLock (normalize_ok hn).1 hok
  | removeProcessFile _ pid file ih => exact ih.removeProcessFile pid file
  | removeFileOwner _ file owner ih => exact ih.removeFileOwner file owner
  | removeProcess _ pid ih => exact ih.removeProcess pid
  | removeOfd _ ofdId ih => exact ih.removeOfd ofdId

/-- The table of every reachable manager is sorted, nonempty, disjoint and coalesced for each
owner, bounded, and exclusive across owners of one namespace. -/
theorem records_wellFormed_of_reachable {m : AdvisoryLockManager} (h : Reachable m) :
    m.records.Pairwise (fun a b => recordCmp a b ≠ .gt) ∧
      (∀ r ∈ m.records, ∃ b, r.range.Covers b) ∧
      m.records.Pairwise (fun a b => a.file = b.file → a.owner = b.owner →
        a.range.overlaps b.range = false ∧
          (a.lockType = b.lockType → a.range.touchesOrOverlaps b.range = false)) ∧
      m.records.length ≤ maxAdvisoryLockRecords ∧
      m.records.Pairwise (fun a b => a.file = b.file → a.owner ≠ b.owner →
        a.owner.conflictsInNamespace b.owner = true → a.range.overlaps b.range = true →
          a.lockType = .read ∧ b.lockType = .read) := by
  have hn := h.normal
  refine ⟨?_, ?_, ?_, hn.bounded, ?_⟩
  · refine hn.sorted.imp fun {a b} hab => ?_
    rw [recordCmp_eq_compare, ne_eq, compare_gt_iff_gt]
    exact not_lt.mpr hab
  · exact fun r hr => ⟨r.range.start, le_refl _, hn.nonEmpty r hr⟩
  · refine hn.compatible.imp fun hab hf ho => ⟨?_, fun ht => ?_⟩
    · exact Bool.not_eq_true _ ▸ hab.disjoint hf ho
    · exact Bool.not_eq_true _ ▸ hab.separate hf ho ht
  · exact hn.compatible.imp fun hab => hab.exclusive

/-- A manager with records of two owners and both namespaces is reachable. -/
theorem records_wellFormed_shared :
    ∃ m : AdvisoryLockManager, Reachable m ∧ m.records.length = 3 ∧
      m.records.Pairwise (fun a b => recordCmp a b ≠ .gt) := by
  have hn : normalize 0 10 = .ok ⟨0, .offset 10⟩ := rfl
  have hn' : normalize 4 0 = .ok ⟨4, .eof⟩ := rfl
  have h1 : Reachable ⟨[⟨.host 1 2, .process 1, .read, ⟨0, .offset 10⟩⟩], 4⟩ :=
    .setLock .new some (.host 1 2) (.process 1) (some .read) hn rfl
  have h2 : Reachable ⟨[⟨.host 1 2, .process 1, .read, ⟨0, .offset 10⟩⟩,
      ⟨.host 1 2, .process 2, .read, ⟨4, .eof⟩⟩], 4⟩ :=
    .setLock h1 some (.host 1 2) (.process 2) (some .read) hn' rfl
  have h3 : Reachable ⟨[⟨.host 1 2, .process 1, .read, ⟨0, .offset 10⟩⟩,
      ⟨.host 1 2, .flock ⟨7⟩, .write, ⟨0, .offset 10⟩⟩,
      ⟨.host 1 2, .process 2, .read, ⟨4, .eof⟩⟩], 4⟩ :=
    .setLock h2 some (.host 1 2) (.flock ⟨7⟩) (some .write) hn rfl
  exact ⟨_, h3, rfl, (records_wellFormed_of_reachable h3).1⟩

end AdvisoryLockManager

end Kandelo.Kernel.Lock
