import Mathlib.Data.List.Lex
import Kandelo.Lib.Slice
import Kandelo.Kernel.Lock.Range

/-!
# The advisory-lock record table

The machine-wide record vector of `lock.rs:16-534`:
record order, file-local lookup, the atomic set/unlock operation and the four removal
operations. The vector's capacity is part of the state because growing it can fail;
the allocator's answer to `try_reserve_exact` is a parameter of `setLock`.
-/

namespace Kandelo.Kernel.Lock

open Lib

/-- Record limit of one machine; `lock.rs:16`. -/
def maxAdvisoryLockRecords : Nat := 4096

/-- Stable identity of an open file description; `lock.rs:20`. -/
structure OfdId where
  raw : Nat
  deriving DecidableEq

/-- In-kernel file objects; `lock.rs:24-28`. -/
inductive KernelFileKind
  | memFd
  | syntheticRegular
  | procFsRegular
  deriving DecidableEq

/-- Identity of the locked file; `lock.rs:32-40`. -/
inductive FileId
  | host (dev ino : Nat)
  | kernel (kind : KernelFileKind) (objectId : Nat)
  deriving DecidableEq

/-- Lock owners: process, open-file-description and flock; `lock.rs:44-50`. -/
inductive LockOwner
  | process (pid : Nat)
  | openFileDescription (id : OfdId)
  | flock (id : OfdId)
  deriving DecidableEq

/-- Type of a stored record; `lock.rs:60-63`. -/
inductive AdvisoryLockType
  | read
  | write
  deriving DecidableEq

/-- One normalized record; `lock.rs:164-169`. -/
structure LockRecord where
  file : FileId
  owner : LockOwner
  lockType : AdvisoryLockType
  range : LockRange
  deriving DecidableEq

/-! ### Derived orders

The source derives `Ord`: variants in declaration order, then fields from left to right.
-/

namespace KernelFileKind

/-- The place in the derived order. -/
def index : KernelFileKind → Nat
  | memFd => 0
  | syntheticRegular => 1
  | procFsRegular => 2

end KernelFileKind

namespace FileId

/-- Variant position and fields in declaration order. -/
def key : FileId → Nat ×ₗ Nat ×ₗ Nat
  | host dev ino => toLex (0, toLex (dev, ino))
  | kernel kind objectId => toLex (1, toLex (kind.index, objectId))

lemma key_injective : Function.Injective key := by
  intro a b h
  rcases a with ⟨d, i⟩ | ⟨k, o⟩ <;> rcases b with ⟨d', i'⟩ | ⟨k', o'⟩
  · simpa [key] using h
  · simp [key] at h
  · simp [key] at h
  · cases k <;> cases k' <;> simp_all [key, KernelFileKind.index]

instance : LinearOrder FileId := LinearOrder.lift' key key_injective

end FileId

namespace LockOwner

/-- The place in the derived order. -/
def key : LockOwner → Nat ×ₗ Nat
  | process pid => toLex (0, pid)
  | openFileDescription id => toLex (1, id.raw)
  | flock id => toLex (2, id.raw)

lemma key_injective : Function.Injective key := by
  intro a b h
  rcases a with p | ⟨⟨i⟩⟩ | ⟨⟨i⟩⟩ <;> rcases b with q | ⟨⟨j⟩⟩ | ⟨⟨j⟩⟩ <;> simp_all [key]

instance : LinearOrder LockOwner := LinearOrder.lift' key key_injective

/-- The owner locks through `flock`. -/
def isFlock : LockOwner → Bool
  | flock _ => true
  | _ => false

/-- Owners conflict only inside one namespace; `lock.rs:54-56`. -/
def conflictsInNamespace (a b : LockOwner) : Bool := a.isFlock == b.isFlock

lemma conflictsInNamespace_comm (a b : LockOwner) :
    a.conflictsInNamespace b = b.conflictsInNamespace a := Bool.beq_comm

end LockOwner

namespace AdvisoryLockType

/-- The place in the derived order. -/
def index : AdvisoryLockType → Nat
  | read => 0
  | write => 1

lemma index_injective : Function.Injective index := by
  intro a b h
  cases a <;> cases b <;> simp_all [index]

instance : LinearOrder AdvisoryLockType := LinearOrder.lift' index index_injective

end AdvisoryLockType

/-- Table order: file, range, owner, type; `lock.rs:171-177`. -/
def recordCmp (left right : LockRecord) : Ordering :=
  (compare left.file right.file).then <|
    (compare left.range right.range).then <|
      (compare left.owner right.owner).then (compare left.lockType right.lockType)

namespace LockRecord

/-- The fields in the order `recordCmp` compares them. -/
def key (r : LockRecord) : FileId ×ₗ LockRange ×ₗ LockOwner ×ₗ AdvisoryLockType :=
  toLex (r.file, toLex (r.range, toLex (r.owner, r.lockType)))

lemma key_injective : Function.Injective key := by
  rintro ⟨a, b, c, d⟩ ⟨a', b', c', d'⟩ h
  simp only [key, toLex_inj, Prod.mk.injEq] at h
  simp [h]

instance : LinearOrder LockRecord := LinearOrder.lift' key key_injective

end LockRecord

lemma recordCmp_eq_compare (a b : LockRecord) : recordCmp a b = compare a b := by
  have h : compare a b = compare a.key b.key := by
    rcases lt_trichotomy a b with h | h | h
    · rw [compare_lt_iff_lt.mpr h, compare_lt_iff_lt.mpr (show a.key < b.key from h)]
    · subst h
      rw [compare_eq_iff_eq.mpr rfl, compare_eq_iff_eq.mpr rfl]
    · rw [compare_gt_iff_gt.mpr h, compare_gt_iff_gt.mpr (show a.key > b.key from h)]
  rw [h]
  simp [Prod.Lex.compare_def, compareLex, compareOn, LockRecord.key, recordCmp]

/-- Metadata for parked waiters; `lock.rs:181-184`. -/
structure LockMutation where
  changed : Bool
  mayUnblock : Bool

/-- The mutation that changes nothing, `LockMutation::default()`. -/
def LockMutation.unchanged : LockMutation := ⟨false, false⟩

/-- The record vector with its allocated capacity; `lock.rs:187-189`. -/
structure AdvisoryLockManager where
  records : List LockRecord
  capacity : Nat

namespace AdvisoryLockManager

/-- The empty manager; `lock.rs:192-196`. -/
def new : AdvisoryLockManager := ⟨[], 0⟩

variable (m : AdvisoryLockManager) (file : FileId)

/-- Bounds of one file's records, by two binary searches; `lock.rs:218-222`. -/
def fileBounds : Nat × Nat :=
  let start := Slice.partitionPoint (fun record => decide (record.file < file)) m.records
  let stop :=
    Slice.partitionPoint (fun record => decide (record.file = file)) (m.records.drop start) + start
  (start, stop)

/-- The records at some places. -/
def slice (start stop : Nat) : List LockRecord :=
  (m.records.drop start).take (stop - start)

/-- The records `fileBounds` selects. -/
def fileSlice : List LockRecord :=
  m.slice (m.fileBounds file).1 (m.fileBounds file).2

variable (owner : LockOwner)

/-- A record of another owner that forbids the request; the predicate of
`lock.rs:233-239,268-274`. -/
def blocks (lockType : AdvisoryLockType) (range : LockRange) (record : LockRecord) : Bool :=
  record.owner ≠ owner && record.owner.conflictsInNamespace owner &&
    record.range.overlaps range && (record.lockType = .write || lockType = .write)

/-- First blocker in table order; `lock.rs:225-240`. -/
def getBlockingLock (owner : LockOwner) (lockType : AdvisoryLockType) (range : LockRange) :
    Option LockRecord :=
  (m.fileSlice file).find? (blocks owner lockType range)

/-! ### Setting a lock -/

/-- Accumulators of the overlap scan; `lock.rs:281-284`. -/
structure Scan where
  leftFragment : Option LockRecord
  rightFragment : Option LockRecord
  mergedRequest : LockRange
  typeChanged : Bool

/-- The part of `record` before the request; `lock.rs:292-298`. -/
def leftOf (requested : LockRange) (record : LockRecord) : LockRecord :=
  { record with range := ⟨record.range.start, .offset requested.start⟩ }

/-- The part of `record` from `rightStart` on; `lock.rs:310-316`. -/
def rightOf (rightStart : Int) (record : LockRecord) : LockRecord :=
  { record with range := ⟨rightStart, record.range.end⟩ }

variable (lockType : Option AdvisoryLockType)

/-- Left fragment or merge of one overlapping record; `lock.rs:291-304`. -/
def Scan.addLeft (requested : LockRange) (scan : Scan) (record : LockRecord) : Scan :=
  if record.range.start < requested.start then
    let fragment := leftOf requested record
    if lockType = some record.lockType then
      { scan with mergedRequest := scan.mergedRequest.union fragment.range }
    else { scan with leftFragment := some fragment }
  else scan

/-- Right fragment or merge of one overlapping record; `lock.rs:306-322`. -/
def Scan.addRight (requested : LockRange) (scan : Scan) (record : LockRecord) : Scan :=
  if requested.end < record.range.end then
    match requested.end with
    | .offset rightStart =>
      let fragment := rightOf rightStart record
      if lockType = some record.lockType then
        { scan with mergedRequest := scan.mergedRequest.union fragment.range }
      else { scan with rightFragment := some fragment }
    -- `unreachable!` in the source: no endpoint lies behind `eof`.
    | .eof => scan
  else scan

/-- One iteration of the overlap scan; `lock.rs:286-327`. -/
def scanRecord (requested : LockRange) (scan : Scan) (record : LockRecord) : Scan :=
  if record.owner ≠ owner || !record.range.overlaps requested then scan
  else
    let scan := (scan.addLeft lockType requested record).addRight lockType requested record
    match lockType with
    | some requestedType =>
      { scan with typeChanged := scan.typeChanged || record.lockType ≠ requestedType }
    | none => scan

/-- The overlap scan over one file's records; `lock.rs:281-327`. -/
def scanRecords (requested : LockRange) (records : List LockRecord) : Scan :=
  records.foldl (scanRecord owner lockType requested) ⟨none, none, requested, false⟩

/-- A record of the owner and type that extends the merged request;
`lock.rs:336-339`. -/
def mergesInto (requestedType : AdvisoryLockType) (merged : LockRange) (record : LockRecord) :
    Bool :=
  record.owner = owner && record.lockType = requestedType &&
    record.range.touchesOrOverlaps merged

/-- One pass of the coalescing loop; `lock.rs:335-342`. -/
def coalescePass (owner : LockOwner) (requestedType : AdvisoryLockType)
    (records : List LockRecord) (merged : LockRange) : LockRange :=
  records.foldl
    (fun merged record =>
      if mergesInto owner requestedType merged record then merged.union record.range else merged)
    merged

/-- Repeat the pass until nothing changes; `lock.rs:333-346`. Every repeated
pass absorbs a further record, so one more pass than there are records suffices. -/
def coalesceLoop (owner : LockOwner) (requestedType : AdvisoryLockType)
    (records : List LockRecord) : Nat → LockRange → LockRange
  | 0, merged => merged
  | fuel + 1, before =>
    let merged := coalescePass owner requestedType records before
    if merged = before then merged
    else coalesceLoop owner requestedType records fuel merged

/-- The merged request after coalescing; `lock.rs:332-347`. -/
def mergeRequest (records : List LockRecord) (merged : LockRange) : LockRange :=
  match lockType with
  | some requestedType => coalesceLoop owner requestedType records (records.length + 1) merged
  | none => merged

/-- Records the commit replaces; `lock.rs:349-363`. -/
def shouldRemove (requested merged : LockRange) (record : LockRecord) : Bool :=
  if record.owner ≠ owner then false
  else if record.range.overlaps requested then true
  else
    match lockType with
    | some requestedType =>
      record.lockType = requestedType && record.range.touchesOrOverlaps merged
    | none => false

/-- Doubling of the capacity target; `lock.rs:527-529`. -/
def growTarget (required : Nat) : Nat → Nat → Nat
  | 0, target => target
  | fuel + 1, target =>
    if target < required then
      growTarget required fuel (min (target * 2) maxAdvisoryLockRecords)
    else target

variable (alloc : Nat → Option Nat)

/-- Reserve room for `required` records; `lock.rs:518-533`. `alloc` answers a
request for a total capacity with the capacity granted, or `none` on exhaustion. -/
def ensureCapacity (m : AdvisoryLockManager) (required : Nat) : Except Errno AdvisoryLockManager :=
  if required ≤ m.capacity then .ok m
  else if maxAdvisoryLockRecords < required then .error .ENOLCK
  else
    match alloc (growTarget required required (max m.capacity 4)) with
    | some capacity => .ok { m with capacity }
    | none => .error .ENOLCK

/-- Insert at the position found by binary search; `lock.rs:510-516`. -/
def insertRecord (record : LockRecord) : AdvisoryLockManager :=
  { m with records := Slice.insertSortedBy recordCmp m.records record }

/-- Insert what is left of a record that was split. -/
def insertPiece (piece : Option LockRecord) : AdvisoryLockManager :=
  match piece with
  | some record => m.insertRecord record
  | none => m

/-- The record a request of a type stores; `lock.rs:377-382`. -/
def replacementOf (owner : LockOwner) (lockType : Option AdvisoryLockType) (merged : LockRange) :
    Option LockRecord :=
  lockType.map fun requestedType => ⟨file, owner, requestedType, merged⟩

/-- Drop the removed records and insert the pieces; `lock.rs:408-433`. -/
def exchange (remove : LockRecord → Bool) (left replacement right : Option LockRecord) :
    AdvisoryLockManager :=
  let (fileStart, fileEnd) := m.fileBounds file
  let compacted : AdvisoryLockManager :=
    { m with records := Slice.compactRange remove m.records fileStart fileEnd }
  ((compacted.insertPiece left).insertPiece replacement).insertPiece right

/-- Capacity checks and commit of a scanned request; `lock.rs:365-447`. -/
def commitRequest (alloc : Nat → Option Nat) (m : AdvisoryLockManager) (file : FileId)
    (owner : LockOwner) (lockType : Option AdvisoryLockType) (requested : LockRange)
    (scan : Scan) (merged : LockRange) : Except Errno (LockMutation × AdvisoryLockManager) :=
  let records := m.fileSlice file
  let remove := shouldRemove owner lockType requested merged
  let removedCount := records.countP remove
  let pieceCount := scan.leftFragment.isSome.toNat + lockType.isSome.toNat +
    scan.rightFragment.isSome.toNat
  if removedCount = 0 ∧ lockType = none then .ok (.unchanged, m)
  else
    let replacement := replacementOf file owner lockType merged
    -- Setting a subrange to its already effective type.
    if removedCount = 1 ∧ pieceCount = 1 ∧ scan.leftFragment = none ∧
        scan.rightFragment = none ∧ replacement.isSome ∧ records.find? remove = replacement then
      .ok (.unchanged, m)
    else
      -- An overflow of the checked sum reports the same error as a sum over the limit.
      let finalLen := m.records.length - removedCount + pieceCount
      if m.records.length < removedCount ∨ maxAdvisoryLockRecords < finalLen then
        .error .ENOLCK
      else
        match m.ensureCapacity alloc finalLen with
        | .error errno => .error errno
        | .ok m =>
          .ok (⟨true, (lockType = none && removedCount ≠ 0) || scan.typeChanged⟩,
            m.exchange file remove scan.leftFragment replacement scan.rightFragment)

/-- Set a lock on, or with `none` unlock, a normalized range; `lock.rs:257-448`.
An error leaves the manager as it was. -/
def setLock (m : AdvisoryLockManager) (file : FileId) (owner : LockOwner)
    (lockType : Option AdvisoryLockType) (requested : LockRange) :
    Except Errno (LockMutation × AdvisoryLockManager) :=
  let records := m.fileSlice file
  if lockType.any fun requestedType => records.any (blocks owner requestedType requested) then
    .error .EAGAIN
  else
    let scan := scanRecords owner lockType requested records
    let merged := mergeRequest owner lockType records scan.mergedRequest
    m.commitRequest alloc file owner lockType requested scan merged

/-! ### Removing locks -/

/-- Remove one owner's records on one file; `lock.rs:456-476`. -/
def removeFileOwner (owner : LockOwner) : LockMutation × AdvisoryLockManager :=
  let (start, stop) := m.fileBounds file
  let records := Slice.compactRange (fun record => record.owner = owner) m.records start stop
  let removed := m.records.length - records.length
  (⟨removed ≠ 0, removed ≠ 0⟩, { m with records })

/-- POSIX close semantics; `lock.rs:451-453`. -/
def removeProcessFile (pid : Nat) (file : FileId) : LockMutation × AdvisoryLockManager :=
  m.removeFileOwner file (.process pid)

/-- Filter as `Vec::retain` does on the record vector, reporting whether anything was removed. -/
def retain (keep : LockRecord → Bool) : LockMutation × AdvisoryLockManager :=
  let records := m.records.filter keep
  let changed := records.length ≠ m.records.length
  (⟨changed, changed⟩, { m with records })

/-- Remove one owner's records on every file; `lock.rs:500-508`. -/
def removeOwner : LockMutation × AdvisoryLockManager :=
  m.retain fun record => record.owner ≠ owner

/-- Exit and crash semantics; `lock.rs:480-482`. -/
def removeProcess (pid : Nat) : LockMutation × AdvisoryLockManager :=
  m.removeOwner (.process pid)

variable (ofdId : OfdId)

/-- The owner is the description itself or its flock; `lock.rs:487-492`. -/
def ownedByOfd : LockOwner → Bool
  | .openFileDescription id => id = ofdId
  | .flock id => id = ofdId
  | .process _ => false

/-- Last close of an open file description; `lock.rs:485-498`. -/
def removeOfd : LockMutation × AdvisoryLockManager :=
  m.retain fun record => !ownedByOfd ofdId record.owner

end AdvisoryLockManager

end Kandelo.Kernel.Lock
