import Kandelo.Kernel.Lock.Invariant

/-!
# The byte map behind the record table

A manager denotes, for each file and owner, the lock type held on each
byte. Setting a lock through `lock.rs:257-448` is the pointwise update
of that map on the requested bytes, and each removal clears exactly the bytes of the
owners it names; splitting, fragments and coalescing are invisible in it.
-/

namespace Kandelo.Kernel.Lock

open List Option LockRange LockRangeEnd

/-- The lock that an owner has on a byte of a file. -/
def ByteMap : Type := FileId → LockOwner → Int → Option AdvisoryLockType

namespace ByteMap

/-- Set or release a lock on a range. -/
def set (M : ByteMap) (file : FileId) (owner : LockOwner) (range : LockRange)
    (lockType : Option AdvisoryLockType) : ByteMap :=
  fun f o b => if f = file ∧ o = owner ∧ range.Covers b then lockType else M f o b

/-- Release all locks of some owners. -/
def clear (M : ByteMap) (gone : FileId → LockOwner → Bool) : ByteMap :=
  fun f o b => if gone f o then none else M f o b

/-- Another owner holds a byte of the range in a mode that excludes the request. -/
def Blocked (M : ByteMap) (file : FileId) (owner : LockOwner) (t : AdvisoryLockType)
    (range : LockRange) : Prop :=
  ∃ b o t', range.Covers b ∧ o ≠ owner ∧ o.conflictsInNamespace owner ∧ M file o b = some t' ∧
    (t' = .write ∨ t = .write)

end ByteMap

namespace AdvisoryLockManager

variable {m m' : AdvisoryLockManager} {r : LockRecord} {b : Int}

/-- The lock of each byte, as the records say. -/
def byteMap (m : AdvisoryLockManager) : ByteMap := fun file owner b =>
  (m.records.find? fun r => decide (r.file = file ∧ r.owner = owner ∧ r.range.Covers b)).map
    (·.lockType)

lemma Normal.eq_of_covers (h : m.Normal) {s : LockRecord} (hr : r ∈ m.records)
    (hs : s ∈ m.records) (hf : r.file = s.file) (ho : r.owner = s.owner) (hbr : r.range.Covers b)
    (hbs : s.range.Covers b) : r = s := by
  by_contra hne
  refine (h.compatible.forall hr hs hne).disjoint hf ho ?_
  exact (overlaps_iff_exists_covers (h.nonEmpty r hr) (h.nonEmpty s hs)).mpr ⟨b, hbr, hbs⟩

lemma byteMap_eq_some (h : m.Normal) {file : FileId} {owner : LockOwner} {t : AdvisoryLockType} :
    m.byteMap file owner b = some t ↔
      ∃ r ∈ m.records, r.file = file ∧ r.owner = owner ∧ r.range.Covers b ∧ r.lockType = t := by
  simp only [byteMap, map_eq_some_iff]
  constructor
  · rintro ⟨r, hfind, ht⟩
    have hr := find?_some hfind
    rw [decide_eq_true_eq] at hr
    exact ⟨r, mem_of_find?_eq_some hfind, hr.1, hr.2.1, hr.2.2, ht⟩
  rintro ⟨r, hr, hf, ho, hb, ht⟩
  obtain ⟨s, hfind⟩ : ∃ s, m.records.find? (fun r =>
      decide (r.file = file ∧ r.owner = owner ∧ r.range.Covers b)) = some s :=
    isSome_iff_exists.mp (find?_isSome.mpr ⟨r, hr, by simp [hf, ho, hb]⟩)
  have hs := find?_some hfind
  rw [decide_eq_true_eq] at hs
  have hsr : s = r := h.eq_of_covers (mem_of_find?_eq_some hfind) hr
    (hs.1.trans hf.symm) (hs.2.1.trans ho.symm) hs.2.2 hb
  exact ⟨s, hfind, hsr ▸ ht⟩

/-! ### Setting a lock -/

section

variable {alloc : Nat → Option Nat} {file : FileId} {owner : LockOwner}
  {lockType : Option AdvisoryLockType} {requested merged : LockRange} {mutation : LockMutation}

section

variable (h : m.Normal)

include h

lemma hit_unique {r' : LockRecord} (hit : Hit owner requested (m.fileSlice file) r)
    (hit' : Hit owner requested (m.fileSlice file) r') (hb : r.range.Covers b)
    (hb' : r'.range.Covers b) : r' = r := by
  obtain ⟨hr, hrf⟩ := (mem_fileSlice h.sorted).mp hit.mem
  obtain ⟨hr', hrf'⟩ := (mem_fileSlice h.sorted).mp hit'.mem
  exact h.eq_of_covers hr' hr (hrf'.trans hrf.symm) (hit'.owner_eq.trans hit.owner_eq.symm) hb' hb

section

variable (hit : Hit owner requested (m.fileSlice file) r) (ht : lockType ≠ some r.lockType)
  (hb : r.range.Covers b)

include hit ht hb

lemma left_covers (hlt : b < requested.start) :
    ∃ f, (scanRecords owner lockType requested (m.fileSlice file)).leftFragment = some f ∧
      f.file = r.file ∧ f.owner = r.owner ∧ f.lockType = r.lockType ∧ f.range.Covers b := by
  have hstart : r.range.start < requested.start := lt_of_le_of_lt hb.1 hlt
  obtain ⟨f, hf⟩ := isSome_iff_exists.mp (scanRecords_left hit hstart ht)
  obtain ⟨r', hit', hstart', -, rfl⟩ := (scanRecords_sound ..).left f hf
  -- Both records reach over the first requested byte.
  cases hit_unique h hit hit' ⟨hstart.le, (overlaps_iff.mp hit.overlaps).1⟩
    ⟨hstart'.le, (overlaps_iff.mp hit'.overlaps).1⟩
  exact ⟨_, hf, rfl, rfl, rfl, hb.1, offset_lt_offset.mpr hlt⟩

lemma right_covers (hge : requested.end ≤ .offset b) :
    ∃ f, (scanRecords owner lockType requested (m.fileSlice file)).rightFragment = some f ∧
      f.file = r.file ∧ f.owner = r.owner ∧ f.lockType = r.lockType ∧ f.range.Covers b := by
  have hend : requested.end < r.range.end := lt_of_le_of_lt hge hb.2
  obtain ⟨f, hf⟩ := isSome_iff_exists.mp (scanRecords_right hit hend ht)
  obtain ⟨r', stop, hit', hstop, hend', -, rfl⟩ := (scanRecords_sound ..).right f hf
  have hstart := (overlaps_iff.mp hit.overlaps).2
  have hstart' := (overlaps_iff.mp hit'.overlaps).2
  rw [hstop] at hend hend' hstart hstart' hge
  rw [offset_lt_offset] at hstart hstart'
  -- Both records reach over the first byte behind the request.
  cases hit_unique h hit hit' ⟨hstart.le, hend⟩ ⟨hstart'.le, hend'⟩
  exact ⟨_, hf, rfl, rfl, rfl, offset_le_offset.mp hge, hb.2⟩

end

lemma Fragment.byte {f : LockRecord} (hf : Fragment m file owner lockType requested f)
    (hb : f.range.Covers b) :
    m.byteMap.set file owner requested lockType f.file f.owner b = some f.lockType := by
  obtain ⟨r, hr, hfile, howner, -, heq, hw⟩ := hf.origin
  rw [ByteMap.set, if_neg fun hc => hf.outside b hb hc.2.2, byteMap_eq_some h]
  exact ⟨r, hr, by rw [heq], by rw [heq], hw.covers hb, by rw [heq]⟩

lemma Merged.byte (hm : Merged owner lockType requested (m.fileSlice file) merged)
    {record : LockRecord} (hrec : replacementOf file owner lockType merged = some record)
    (hb : record.range.Covers b) :
    m.byteMap.set file owner requested lockType record.file record.owner b =
      some record.lockType := by
  obtain ⟨t, ht, rfl⟩ := map_eq_some_iff.mp hrec
  by_cases hq : requested.Covers b
  · simp [ByteMap.set, hq, ht]
  rw [ByteMap.set, if_neg fun hc => hq hc.2.2, byteMap_eq_some h]
  obtain ⟨r, hr, hf, ho, hrt, hbr⟩ := hm.origin h hb hq
  exact ⟨r, hr, hf, ho, hbr, some.inj (hrt.symm.trans ht)⟩

lemma survives (hm : Merged owner lockType requested (m.fileSlice file) merged)
    (hr : r ∈ m.records) (hb : r.range.Covers b)
    (hq : ¬ (r.file = file ∧ r.owner = owner ∧ requested.Covers b)) :
    (!(decide (r.file = file) && shouldRemove owner lockType requested merged r)) = true ∨
      (∃ p, (replacementOf file owner lockType merged = some p ∨
          (scanRecords owner lockType requested (m.fileSlice file)).leftFragment = some p ∨
          (scanRecords owner lockType requested (m.fileSlice file)).rightFragment = some p) ∧
        p.file = r.file ∧ p.owner = r.owner ∧ p.lockType = r.lockType ∧ p.range.Covers b) := by
  refine or_iff_not_imp_left.mpr fun hgone => ?_
  rw [kept_iff] at hgone
  push Not at hgone
  obtain ⟨hf, ho, hgone⟩ := hgone
  have hq : ¬ requested.Covers b := fun hc => hq ⟨hf, ho, hc⟩
  have hmem := (mem_fileSlice h.sorted).mpr ⟨hr, hf⟩
  by_cases ht : lockType = some r.lockType
  · have htouch : r.range.touchesOrOverlaps merged = true := by
      by_cases hover : r.range.overlaps requested = true
      · rw [touchesOrOverlaps_comm]
        exact hm.within.touches (touchesOrOverlaps_of_overlaps (overlaps_comm.trans hover))
      · exact (hgone hover).2
    refine ⟨⟨file, owner, r.lockType, merged⟩, .inl ?_, hf.symm, ho.symm, rfl,
      (hm.closed r hmem ho ht htouch).covers hb⟩
    rw [replacementOf, ht, map_some]
  · have hover : r.range.overlaps requested = true := by
      by_contra hover
      exact ht (hgone hover).1
    have hit : Hit owner requested (m.fileSlice file) r := ⟨hmem, ho, hover⟩
    rcases not_and_or.mp hq with hlt | hge
    · obtain ⟨f, hleft, hfacts⟩ := left_covers h hit ht hb (not_le.mp hlt)
      exact ⟨f, .inr (.inl hleft), hfacts⟩
    · obtain ⟨f, hright, hfacts⟩ := right_covers h hit ht hb (not_lt.mp hge)
      exact ⟨f, .inr (.inr hright), hfacts⟩

lemma Normal.byteMap_setLock (hreq : requested.NonEmpty)
    (hok : m.setLock alloc file owner lockType requested = .ok (mutation, m')) :
    m'.byteMap = m.byteMap.set file owner requested lockType := by
  have hn := h.setLock hreq hok
  have hm := mergeRequest_spec owner lockType requested (m.fileSlice file)
  obtain ⟨-, hcommit⟩ := setLock_ok h.sorted hok
  rcases hcommit with ⟨rfl, hnone, hkeep⟩ | ⟨rfl, record, hrec, hmem⟩ | ⟨-, -, hperm⟩
  · -- No stored byte lies in the request.
    funext f o b
    rw [ByteMap.set]
    split
    · next hc =>
      obtain ⟨rfl, rfl, hq⟩ := hc
      rw [hnone, eq_none_iff_forall_ne_some]
      intro t hb
      obtain ⟨r, hr, hf, ho, hbr, -⟩ := (byteMap_eq_some h).mp hb
      have hrm := hkeep r ((mem_fileSlice h.sorted).mpr ⟨hr, hf⟩)
      have hover := (overlaps_iff_exists_covers (h.nonEmpty r hr) hreq).mpr ⟨b, hbr, hq⟩
      simp [shouldRemove, ho, hover] at hrm
    · rfl
  · -- The merged record is stored already.
    obtain ⟨t, ht, rfl⟩ := map_eq_some_iff.mp hrec
    funext f o b
    rw [ByteMap.set]
    split
    · next hc =>
      obtain ⟨rfl, rfl, hq⟩ := hc
      rw [ht, byteMap_eq_some h]
      exact ⟨_, ((mem_fileSlice h.sorted).mp hmem).1, rfl, rfl, hm.within.covers hq, rfl⟩
    · rfl
  · funext f o b
    refine Option.ext fun t => ?_
    rw [byteMap_eq_some hn]
    simp only [hperm.mem_iff, mem_append, mem_toList, mem_filter]
    constructor
    · rintro ⟨r, hr | hr | hr | ⟨hr, hkept⟩, rfl, rfl, hb, rfl⟩
      · exact (fragment_right h hr).byte h hb
      · exact hm.byte h hr hb
      · exact (fragment_left h hr).byte h hb
      rw [ByteMap.set, if_neg, byteMap_eq_some h]
      · exact ⟨r, hr, rfl, rfl, hb, rfl⟩
      rintro ⟨hf, ho, hq⟩
      exact (kept_iff.mp hkept hf ho).1
        ((overlaps_iff_exists_covers (h.nonEmpty r hr) hreq).mpr ⟨b, hb, hq⟩)
    · intro hb
      rw [ByteMap.set] at hb
      split at hb
      · next hc =>
        obtain ⟨rfl, rfl, hq⟩ := hc
        exact ⟨⟨f, o, t, _⟩, .inr (.inl (by rw [hb]; rfl)), rfl, rfl, hm.within.covers hq, rfl⟩
      next hc =>
      obtain ⟨r, hr, rfl, rfl, hbr, rfl⟩ := (byteMap_eq_some h).mp hb
      rcases survives h hm hr hbr hc with hkept | ⟨p, hp, hpf, hpo, hpt, hpb⟩
      · exact ⟨r, .inr (.inr (.inr ⟨hr, hkept⟩)), rfl, rfl, hbr, rfl⟩
      refine ⟨p, ?_, hpf, hpo, hpb, hpt⟩
      rcases hp with hp | hp | hp
      · exact .inr (.inl hp)
      · exact .inr (.inr (.inl hp))
      · exact .inl hp

end

/-- For every reachable manager and normalized request, a successful `setLock` overwrites
exactly the requested bytes of its file and owner. -/
theorem byteMap_setLock_of_reachable (hm : Reachable m) {start len : Int}
    (hn : LockRange.normalize start len = .ok requested)
    (hok : m.setLock alloc file owner lockType requested = .ok (mutation, m')) :
    ∀ f o b, m'.byteMap f o b =
      if f = file ∧ o = owner ∧ requested.Covers b then lockType else m.byteMap f o b := by
  intro f o b
  rw [hm.normal.byteMap_setLock (normalize_ok hn).1 hok]
  rfl

/-- A write request in the middle of a read lock splits it into three records. -/
theorem byteMap_setLock_split :
    ∃ m m' : AdvisoryLockManager, Reachable m ∧ m'.records.length = 3 ∧
      ∀ f o b, m'.byteMap f o b =
        if f = .host 1 2 ∧ o = .process 1 ∧ LockRange.Covers ⟨3, .offset 5⟩ b then some .write
        else m.byteMap f o b := by
  have hn : normalize 0 10 = .ok ⟨0, .offset 10⟩ := rfl
  have hm : Reachable ⟨[⟨.host 1 2, .process 1, .read, ⟨0, .offset 10⟩⟩], 4⟩ :=
    .setLock .new some (.host 1 2) (.process 1) (some .read) hn rfl
  have hn' : normalize 5 (-2) = .ok ⟨3, .offset 5⟩ := rfl
  have hok : AdvisoryLockManager.setLock some
      ⟨[⟨.host 1 2, .process 1, .read, ⟨0, .offset 10⟩⟩], 4⟩ (.host 1 2) (.process 1) (some .write)
      ⟨3, .offset 5⟩ = .ok (⟨true, true⟩, ⟨[⟨.host 1 2, .process 1, .read, ⟨0, .offset 3⟩⟩,
        ⟨.host 1 2, .process 1, .write, ⟨3, .offset 5⟩⟩,
        ⟨.host 1 2, .process 1, .read, ⟨5, .offset 10⟩⟩], 4⟩) := rfl
  exact ⟨_, _, hm, rfl, byteMap_setLock_of_reachable hm hn' hok⟩

/-- `F_GETLK` reports a blocker exactly if a byte of the range is held against the request. -/
theorem getBlockingLock_iff (hm : Reachable m) (hreq : requested.NonEmpty) (t : AdvisoryLockType) :
    (m.getBlockingLock file owner t requested).isSome ↔
      m.byteMap.Blocked file owner t requested := by
  have hn := hm.normal
  have hmeet := fun r hr => overlaps_iff_exists_covers (hn.nonEmpty r hr) hreq
  simp only [getBlockingLock, ByteMap.Blocked, find?_isSome, mem_fileSlice hn.sorted, blocks,
    byteMap_eq_some hn, Bool.and_eq_true, Bool.or_eq_true, decide_eq_true_eq]
  constructor
  · rintro ⟨r, ⟨hr, hf⟩, ⟨⟨hne, hc⟩, hov⟩, ht⟩
    obtain ⟨b, hrb, hb⟩ := (hmeet r hr).mp hov
    exact ⟨b, _, _, hb, hne, hc, ⟨r, hr, hf, rfl, hrb, rfl⟩, ht⟩
  · rintro ⟨b, _, _, hb, hne, hc, ⟨r, hr, hf, rfl, hrb, rfl⟩, ht⟩
    exact ⟨r, ⟨hr, hf⟩, ⟨⟨hne, hc⟩, (hmeet r hr).mpr ⟨b, hrb, hb⟩⟩, ht⟩

lemma reachable_read : Reachable ⟨[⟨.host 1 2, .process 1, .read, ⟨0, .offset 10⟩⟩], 4⟩ :=
  .setLock .new some (.host 1 2) (.process 1) (some .read) (show normalize 0 10 = _ from rfl) rfl

/-- A writer is blocked by a reader. -/
theorem getBlockingLock_read : ∃ m, Reachable m ∧
    m.byteMap.Blocked (.host 1 2) (.process 2) .write ⟨3, .offset 5⟩ :=
  ⟨_, reachable_read, (getBlockingLock_iff reachable_read (by decide) .write).mp rfl⟩

/-! ### Removing locks -/

lemma byteMap_filter {gone : FileId → LockOwner → Bool}
    (h : m'.records = m.records.filter fun r => !gone r.file r.owner) :
    m'.byteMap = m.byteMap.clear gone := by
  funext f o b
  simp only [byteMap, ByteMap.clear, h, find?_filter]
  split
  · grind [find?_eq_none]
  · congr 2
    grind

/-- Each removal clears exactly the bytes of the owners it names. -/
theorem byteMap_removed (hm : Reachable m) (file : FileId) (owner : LockOwner) (pid : Nat)
    (id : OfdId) :
    (m.removeFileOwner file owner).2.byteMap = m.byteMap.clear (fun f o => f = file && o = owner) ∧
      (m.removeProcess pid).2.byteMap = m.byteMap.clear (fun _ o => o = .process pid) ∧
      (m.removeOfd id).2.byteMap = m.byteMap.clear (fun _ o => ownedByOfd id o) := by
  refine ⟨byteMap_filter ?_, byteMap_filter ?_, byteMap_filter rfl⟩
  · exact compactRange_fileBounds hm.normal.sorted file fun r => r.owner = owner
  · simp [removeProcess, removeOwner, retain]

/-- The locks of a process that exits are gone. -/
theorem byteMap_removed_read : ∃ m, Reachable m ∧ (m.removeProcess 1).2.byteMap =
    m.byteMap.clear fun _ o => o = .process 1 :=
  ⟨_, reachable_read, (byteMap_removed reachable_read (.host 1 2) (.process 1) 1 ⟨0⟩).2.1⟩

end

end AdvisoryLockManager

end Kandelo.Kernel.Lock
