import Kandelo.Kernel.File.Confined

/-!
# The position of a file after fork

After `fork` parent and child have a descriptor of one open file. The position
is kept three times: each process has a copy of the description, `fork.rs:830-851`, and the host
has the cursor of the handle that they share. Reading, writing and `SEEK_SET` act at the cursor;
`SEEK_CUR`, `pread` and `pwrite` trust the copy of the process.
-/

namespace Kandelo.Kernel.File

open Lib Effect

variable {x : Int64} {first len n : Nat} {host : Host} {w : PointerWidth}

/-! ### A host with files -/

/-- Contents of the file behind a handle after some calls. -/
def contentFrom (start : Int → Int64) (init : Int → List UInt8) : Trace → Int → List UInt8
  | [], handle => init handle
  | .write h data (.ok n) :: tr, handle =>
    if handle = h then
      store (contentFrom start init tr handle) (cursorFrom start tr handle).toInt.toNat
        (data.take n)
    else contentFrom start init tr handle
  | .write _ _ (.error _) :: tr, handle | .seek .. :: tr, handle | .read .. :: tr, handle
  | .other :: tr, handle => contentFrom start init tr handle

/-- A host with one cursor and one file for each handle, that never fails and transfers all it is
asked to. -/
def fileHost (start : Int → Int64) (init : Int → List UInt8) : Host where
  start := start
  size tr handle := Int64.ofNat (contentFrom start init tr handle).length
  fstat _ _ := .ok ()
  seek _ _ _ _ := .ok ()
  read tr handle n :=
    .ok (slice (contentFrom start init tr handle) (cursorFrom start tr handle).toInt.toNat n)
  write _ _ data := .ok data.length
  otherRead _ _ _ := .ok []
  otherWrite _ _ data := .ok data.length
  otherSeek _ _ offset := .ok offset

/-! ### One file with one position -/

/-- A file with the position that all its descriptors share. -/
structure SharedFile where
  data : List UInt8
  offset : Int64
  deriving DecidableEq

attribute [ext] SharedFile

/-- Operations on a descriptor. -/
inductive FileOp (w : PointerWidth)
  | read (n : Nat)
  | write (buf : Slice w)
  | seekSet (offset : Int64)
  | seekCur (offset : Int64)
  | pread (n : Nat) (offset : Int64)
  | pwrite (buf : Slice w) (offset : Int64)

/-- What an operation returns. -/
inductive Reply
  | bytes (data : List UInt8)
  | count (n : Nat)
  | position (offset : Int64)
  deriving DecidableEq

/-- The bytes that the limit on file sizes leaves of a write at `start`. -/
def limitedLen (w : PointerWidth) (limit start len : Nat) : Except Errno Nat :=
  if len = 0 then .ok 0
  else if limit = rlimInfinity then .ok len
  else if limit ≤ start then .error .EFBIG
  else if limit - start ≤ w.usizeMax then .ok (min len (limit - start))
  else .ok len

/-- Where a write at a position starts, and how much of it is allowed. -/
def allowedAt (w : PointerWidth) (limit : Nat) (offset : Int64) (len : Nat) : Except Errno Nat :=
  match toU64 offset with
  | .error e => .error e
  | .ok start => limitedLen w limit start len

/-- The file after `n` bytes of `buf` were written at `pos`. -/
def SharedFile.put (f : SharedFile) (pos : Int64) (buf : Slice w) (n : Nat) : SharedFile :=
  ⟨store f.data pos.toInt.toNat (buf.take n).bytes, pos + Int64.ofNat n⟩

/-- What an operation does to the shared file, through a description opened with the flags of `o`
by a process with this limit. -/
def SharedFile.apply (o : OpenFileDesc) (limit : Nat) (f : SharedFile) :
    FileOp w → Except Errno Reply × SharedFile
  | .read n =>
    if o.isPathOnly || o.isWriteOnly then (.error .EBADF, f)
    else
      let bytes := slice f.data f.offset.toInt.toNat n
      (.ok (.bytes bytes), { f with offset := f.offset + Int64.ofNat bytes.length })
  | .write buf =>
    if o.isPathOnly || o.isReadOnly then (.error .EBADF, f)
    else if buf.len = 0 then (.ok (.count 0), f)
    else if o.isAppend then
      let pos := Int64.ofNat f.data.length
      match limitedLen w limit pos.toInt.toNat buf.len with
      | .error e => (.error e, f)
      | .ok n => (.ok (.count n), f.put pos buf n)
    else
      match allowedAt w limit f.offset buf.len with
      | .error e => (.error e, f)
      | .ok n => (.ok (.count n), f.put f.offset buf n)
  | .seekSet offset =>
    if o.isPathOnly then (.error .EBADF, f)
    else if offset.toInt < 0 then (.error .EINVAL, f)
    else (.ok (.position offset), { f with offset := offset })
  | .seekCur offset =>
    if o.isPathOnly then (.error .EBADF, f)
    else
      match seekBy f.offset offset with
      | .error e => (.error e, f)
      | .ok pos => (.ok (.position pos), { f with offset := pos })
  | .pread n offset =>
    match checkPositioned o offset o.isWriteOnly with
    | .error e => (.error e, f)
    | .ok _ => (.ok (.bytes (slice f.data offset.toInt.toNat n)), f)
  | .pwrite buf offset =>
    match checkPositioned o offset o.isReadOnly with
    | .error e => (.error e, f)
    | .ok _ =>
      match allowedAt w limit offset buf.len with
      | .error e => (.error e, f)
      | .ok n => (.ok (.count n), { f.put offset buf n with offset := f.offset })

/-! ### The kernel's operations -/

/-- The call that an operation makes on a descriptor. -/
def FileOp.perform (host : Host) (fd : Int) : FileOp w → Io Reply
  | .read n => do
    let bytes ← sysRead w host fd n
    pure (.bytes bytes)
  | .write buf => do
    let n ← sysWrite host fd buf
    pure (.count n)
  | .seekSet offset => do
    let pos ← sysLseek host fd offset .set
    pure (.position pos)
  | .seekCur offset => do
    let pos ← sysLseek host fd offset .cur
    pure (.position pos)
  | .pread n offset => do
    let bytes ← sysPread w host fd n offset
    pure (.bytes bytes)
  | .pwrite buf offset => do
    let n ← sysPwrite host fd buf offset
    pure (.count n)

/-- The file of a handle, as the trace leaves it. -/
def World.view (start : Int → Int64) (init : Int → List UInt8) (handle : Int) (s : World) :
    SharedFile :=
  ⟨contentFrom start init s.trace handle, cursorFrom start s.trace handle⟩

/-- What the kernel does to the file instead, when the copy of the process is `o`. -/
def SharedFile.applyCopy (o : OpenFileDesc) (limit : Nat) (f : SharedFile) :
    FileOp w → Except Errno Reply × SharedFile
  | .read n => f.apply o limit (.read n : FileOp w)
  | .write buf =>
    if o.isPathOnly || o.isReadOnly then (.error .EBADF, f)
    else if buf.len = 0 then (.ok (.count 0), f)
    else if o.isAppend then f.apply o limit (.write buf)
    else
      match allowedAt w limit o.offset buf.len with
      | .error e => (.error e, f)
      | .ok n => (.ok (.count n), f.put f.offset buf n)
  | .seekSet offset => f.apply o limit (.seekSet offset : FileOp w)
  | .seekCur offset =>
    if o.isPathOnly then (.error .EBADF, f)
    else
      match seekBy o.offset offset with
      | .error e => (.error e, f)
      | .ok pos => (.ok (.position pos), { f with offset := pos })
  | .pread n offset =>
    match checkPositioned o offset o.isWriteOnly with
    | .error e => (.error e, f)
    | .ok _ => (.ok (.bytes (slice f.data offset.toInt.toNat n)), { f with offset := o.offset })
  | .pwrite buf offset =>
    match checkPositioned o offset o.isReadOnly with
    | .error e => (.error e, f)
    | .ok _ =>
      match allowedAt w limit offset buf.len with
      | .error e => (.error e, f)
      | .ok n => (.ok (.count n), { f.put offset buf n with offset := o.offset })

/-- The copy of the position is good enough for the operation: it plays no part, or leads to the
same as the shared one. -/
def Current (o : OpenFileDesc) (limit : Nat) (f : SharedFile) : FileOp w → Prop
  | .read _ | .seekSet _ => True
  | .write buf => (o.isPathOnly || o.isReadOnly) = true ∨ buf.len = 0 ∨ o.isAppend = true ∨
      allowedAt w limit o.offset buf.len = allowedAt w limit f.offset buf.len
  | .seekCur offset => o.isPathOnly = true ∨ seekBy o.offset offset = seekBy f.offset offset
  | .pread _ offset => checkPositioned o offset o.isWriteOnly ≠ .ok () ∨ o.offset = f.offset
  | .pwrite buf offset => checkPositioned o offset o.isReadOnly ≠ .ok () ∨
      (∀ n, allowedAt w limit offset buf.len ≠ .ok n) ∨ o.offset = f.offset

/-! ### One operation -/

section

variable {start : Int → Int64} {init : Int → List UInt8} {s : World} {fd : Int} {i : Nat}
  {o : OpenFileDesc} {buf : Slice w}

lemma ne_memFd (hreg : o.fileType = .Regular) : o.fileType ≠ .MemFd := by
  rw [hreg]
  decide

lemma not_other (hreg : o.fileType = .Regular) (hsnap : o.isSnapshot = false) :
    ¬ (o.fileType ≠ .Regular ∨ o.isSnapshot = true) := by
  simp [hreg, hsnap]

lemma not_stream (hreg : o.fileType = .Regular) : o.fileType.isStream = false := by
  rw [hreg]
  rfl

/-- The world with a call of the host more. -/
def World.call (s : World) (c : HostCall) : World := { s with trace := c :: s.trace }

section

variable (handle : Int)

include handle

lemma exec_fileHost_seek (offset : Int64) :
    exec (hostSeek (fileHost start init) handle offset .set) s =
      (.ok offset, s.call (.seek handle offset .set (.ok offset))) := rfl

lemma exec_fileHost_seekEnd :
    exec (hostSeek (fileHost start init) handle 0 .fromEnd) s =
      let pos := Int64.ofNat (s.view start init handle).data.length
      (.ok pos, s.call (.seek handle 0 .fromEnd (.ok pos))) := by
  simp only [hostSeek, Int64.add_zero]
  rfl

lemma exec_fileHost_read :
    exec (hostRead (fileHost start init) handle n) s =
      let f := s.view start init handle
      let bytes := slice f.data f.offset.toInt.toNat n
      (.ok bytes, s.call (.read handle n (.ok bytes))) := by
  have htake : ∀ data p, (slice data p n).take n = slice data p n := fun data p => by
    rw [slice, List.take_take, Nat.min_self]
  simp only [hostRead, fileHost, Except.map, htake]
  rfl

lemma exec_fileHost_write (data : List UInt8) :
    exec (hostWrite (fileHost start init) handle data) s =
      (.ok data.length, s.call (.write handle data (.ok data.length))) := by
  simp only [hostWrite, fileHost, Except.map, Nat.min_self]
  rfl

@[simp] lemma view_call_seek (offset pos : Int64) (whence : Whence) :
    (s.call (.seek handle offset whence (.ok pos))).view start init handle =
      { s.view start init handle with offset := pos } := by
  simp [World.view, World.call, contentFrom, cursorFrom]

@[simp] lemma view_call_read (n : Nat) (bytes : List UInt8) :
    (s.call (.read handle n (.ok bytes))).view start init handle =
      { s.view start init handle with
        offset := (s.view start init handle).offset + Int64.ofNat bytes.length } := by
  simp [World.view, World.call, contentFrom, cursorFrom]

@[simp] lemma view_call_write (data : List UInt8) :
    (s.call (.write handle data (.ok data.length))).view start init handle =
      let f := s.view start init handle
      ⟨store f.data f.offset.toInt.toNat data, f.offset + Int64.ofNat data.length⟩ := by
  simp [World.view, World.call, contentFrom, cursorFrom]

@[simp] lemma view_setOffset (j : Nat) (o' : OpenFileDesc) (x : Int64) :
    (s.setOffset j o' x).view start init handle = s.view start init handle := rfl

end

section

variable (hl : s.lookup fd = some (i, o))

include hl

lemma exec_modifyOffset_pure {α : Type} (f : Int64 → Int64) (a : α) :
    exec (modifyOffset i f >>= fun _ => pure a) s = (.ok a, s.setOffset i o (f o.offset)) :=
  exec_bind_of_ok (exec_modifyOffset (ofdTable_of_lookup hl).2)

lemma lookup_setOffset (o' : OpenFileDesc) :
    (s.setOffset i o' x).lookup fd = some (i, { o' with offset := x }) :=
  lookup_eq_some (ofdTable_of_lookup hl).1 (update_self _ _ _)

end

/-- The outcome of an operation: what it returns, the file it leaves, and that the process still
has the description, but for the position, and its limit. -/
structure Outcome (start : Int → Int64) (init : Int → List UInt8) (fd : Int) (i : Nat)
    (o : OpenFileDesc) (limit : Nat) (r : Except Errno Reply × World) (reply : Except Errno Reply)
    (f : SharedFile) : Prop where
  reply : r.1 = reply
  view : r.2.view start init o.hostHandle = f
  lookup : ∃ x, r.2.lookup fd = some (i, { o with offset := x })
  limit : r.2.proc.fsizeLimit = limit

/-- The operation does to the file what the copy `o` of the process makes of it. -/
def Follows (start : Int → Int64) (init : Int → List UInt8) (s : World) (fd : Int) (i : Nat)
    (o : OpenFileDesc) (op : FileOp w) : Prop :=
  let a := (s.view start init o.hostHandle).applyCopy o s.proc.fsizeLimit op
  Outcome start init fd i o s.proc.fsizeLimit (exec (op.perform (fileHost start init) fd) s) a.1 a.2

lemma exec_fsizeLimitedWriteLen :
    exec (fsizeLimitedWriteLen w first len) s =
      match limitedLen w s.proc.fsizeLimit first len with
      | .ok n => (.ok n, s)
      | .error e => (.error e, s.raise first len) := by
  unfold fsizeLimitedWriteLen limitedLen
  by_cases h0 : len = 0
  · simp only [if_pos h0]
    rfl
  have hget : exec getFsizeLimit s = (.ok s.proc.fsizeLimit, s) := rfl
  simp only [if_neg h0]
  rw [exec_bind_of_ok hget]
  by_cases hinf : s.proc.fsizeLimit = rlimInfinity
  · simp only [if_pos hinf]
    rfl
  simp only [if_neg hinf]
  by_cases hle : s.proc.fsizeLimit ≤ first
  · simp only [if_pos hle]
    rfl
  · simp only [if_neg hle]
    split <;> rfl

lemma limitedLen_ok {limit : Nat} (h : limitedLen w limit first len = .ok n) :
    n ≤ len ∧ (len ≠ 0 → 0 < n) := by
  unfold limitedLen at h
  split at h
  · cases h
    omega
  split at h
  · cases h
    omega
  split at h
  · cases h
  split at h
  · have := Except.ok.inj h
    omega
  · cases h
    omega

lemma length_take_bytes (h : n ≤ buf.len) : (buf.take n).bytes.length = n := by
  have := buf.len_take n
  rw [Nat.min_eq_left h] at this
  exact this

section

variable (hl : s.lookup fd = some (i, o))

include hl

lemma Outcome.failed (e : Errno) :
    Outcome start init fd i o s.proc.fsizeLimit (.error e, s) (.error e)
      (s.view start init o.hostHandle) :=
  ⟨rfl, rfl, ⟨o.offset, hl⟩, rfl⟩

lemma Outcome.refused (e : Errno) (first len : Nat) :
    Outcome start init fd i o s.proc.fsizeLimit (.error e, s.raise first len) (.error e)
      (s.view start init o.hostHandle) :=
  ⟨rfl, rfl, ⟨o.offset, hl⟩, rfl⟩

lemma outcome_writeHere (hn : n ≤ buf.len) :
    let f := s.view start init o.hostHandle
    Outcome start init fd i o s.proc.fsizeLimit
      (exec (do
        let n ← hostWrite (fileHost start init) o.hostHandle (buf.take n).bytes
        modifyOffset i fun offset => offset + Int64.ofNat n
        pure (Reply.count n)) s)
      (.ok (.count n)) (f.put f.offset buf n) := by
  intro f
  rw [exec_bind_of_ok (exec_fileHost_write _ _), exec_modifyOffset_pure (s := s.call _) hl,
    length_take_bytes hn]
  refine ⟨rfl, ?_, ⟨_, lookup_setOffset (s := s.call _) hl o⟩, rfl⟩
  have hview : (s.call _).view start init o.hostHandle = _ :=
    view_call_write o.hostHandle (buf.take n).bytes
  rw [length_take_bytes hn] at hview
  exact hview

variable (hreg : o.fileType = .Regular)

include hreg

section

variable (hacc : (o.isPathOnly || o.isReadOnly) = false)

include hacc

lemma exec_budget {offset : Option Int64} (hpos : len ≠ 0) :
    exec (writeOperationBudget w host fd offset len) s =
      match s.startOf host o offset with
      | .error e => (.error e, s)
      | .ok first =>
        match limitedLen w s.proc.fsizeLimit first len with
        | .ok n => (.ok n, s)
        | .error e => (.error e, s.raise first len) := by
  have hfile : ¬ (o.fileType ≠ .Regular ∧ o.fileType ≠ .MemFd) := fun h => h.1 hreg
  rw [writeOperationBudget, exec_getOfd_bind hl]
  simp only [hacc, if_neg hpos, if_neg hfile, Bool.false_eq_true, if_false]
  rw [exec_bind, exec_writeStart]
  cases s.startOf host o offset with
  | error => rfl
  | ok first => exact exec_fsizeLimitedWriteLen

lemma exec_budget_at {offset : Int64} (hneg : 0 ≤ offset.toInt) :
    exec (writeOperationBudget w host fd (some offset) len) s =
      match allowedAt w s.proc.fsizeLimit offset len with
      | .ok n => (.ok n, s)
      | .error e => (.error e, s.raise offset.toInt.toNat len) := by
  have hstart : s.startOf host o (some offset) = .ok offset.toInt.toNat := by
    change toU64 offset = _
    rw [toU64, if_pos hneg]
  have hallowed : allowedAt w s.proc.fsizeLimit offset len =
      limitedLen w s.proc.fsizeLimit offset.toInt.toNat len := by
    rw [allowedAt, toU64, if_pos hneg]
  rw [hallowed]
  by_cases hlen : len = 0
  · rw [writeOperationBudget, exec_getOfd_bind hl]
    simp only [hacc, if_pos hlen, limitedLen]
    rfl
  · rw [exec_budget hl hreg hacc hlen, hstart]

section

variable (hpos : buf.len ≠ 0)

include hpos

lemma exec_write :
    exec ((FileOp.write buf).perform (fileHost start init) fd) s = exec (do
      let n ← writeOperationBudget w (fileHost start init) fd none buf.len
      let n ← hostFileWrite (fileHost start init) i o (buf.take n)
      pure (Reply.count n)) s := by
  have hfile : ¬ (o.fileType ≠ .Regular ∧ o.fileType ≠ .MemFd) := fun h => h.1 hreg
  unfold FileOp.perform
  simp only [sysWrite, bind_assoc]
  rw [exec_getOfd_bind hl]
  simp only [hacc, if_neg hpos, if_neg hfile, if_neg (ne_memFd hreg), bind_assoc,
    Bool.false_eq_true, if_false]

lemma outcome_write (happ : o.isAppend = false) : Follows start init s fd i o (.write buf) := by
  have hstart : s.startOf (fileHost start init) o none = toU64 o.offset := by
    rw [World.startOf, writeStart, if_neg (ne_memFd hreg), happ]
    rfl
  unfold Follows SharedFile.applyCopy
  simp only [exec_write hl hreg hacc hpos, hacc, if_neg hpos, hostFileWrite,
    seekEndIfAppend, happ, Bool.false_eq_true, if_false, and_false, bind_assoc]
  rw [exec_bind, exec_budget hl hreg hacc hpos, hstart]
  unfold allowedAt
  cases toU64 o.offset with
  | error e => exact .failed hl e
  | ok first =>
    dsimp only
    cases hlim : limitedLen w s.proc.fsizeLimit first buf.len with
    | error e => exact .refused hl e first buf.len
    | ok => exact outcome_writeHere hl (limitedLen_ok hlim).1

lemma outcome_append (happ : o.isAppend = true) : Follows start init s fd i o (.write buf) := by
  let pos := Int64.ofNat (s.view start init o.hostHandle).data.length
  have hstart : s.startOf (fileHost start init) o none = .ok pos.toInt.toNat := by
    rw [World.startOf, writeStart, if_neg (ne_memFd hreg), happ]
    rfl
  unfold Follows SharedFile.applyCopy SharedFile.apply
  simp only [hacc, if_neg hpos, if_pos happ, Bool.false_eq_true, if_false]
  rw [exec_write hl hreg hacc hpos, exec_bind, exec_budget hl hreg hacc hpos, hstart]
  dsimp only
  cases hlim : limitedLen w s.proc.fsizeLimit pos.toInt.toNat buf.len with
  | error e => exact .refused hl e _ buf.len
  | ok n =>
    obtain ⟨hn, hn'⟩ := limitedLen_ok hlim
    have hlen : 0 < (buf.take n).len := by
      rw [Slice.len_take, Nat.min_eq_left hn]
      exact hn' hpos
    simp only [hostFileWrite, seekEndIfAppend, if_pos (And.intro hlen happ), bind_assoc]
    rw [exec_bind_of_ok (exec_fileHost_seekEnd _),
      exec_bind_of_ok (exec_modifyOffset (s := s.call _) (ofdTable_of_lookup hl).2)]
    -- from here it is a write at the cursor, which is at the end
    have hl' : ((s.call (.seek o.hostHandle 0 .fromEnd (.ok pos))).setOffset i o pos).lookup fd =
        some (i, { o with offset := pos }) := lookup_setOffset (s := s.call _) hl o
    have hhere : Outcome start init fd i { o with offset := pos } _ _ _ _ :=
      outcome_writeHere hl' hn
    refine ⟨hhere.reply, hhere.view.trans ?_, hhere.lookup, hhere.limit⟩
    rw [view_setOffset, view_call_seek]
    rfl

end

end

lemma outcome_pwrite (buf : Slice w) (offset : Int64) :
    Follows start init s fd i o (.pwrite buf offset) := by
  have hfile : ¬ (o.fileType ≠ .Regular ∧ o.fileType ≠ .MemFd) := fun h => h.1 hreg
  unfold Follows SharedFile.applyCopy FileOp.perform
  simp only [sysPwrite, bind_assoc]
  rw [exec_getOfd_bind hl]
  simp only [if_neg (ne_memFd hreg), if_neg hfile, hostFilePwrite, bind_assoc, pure_bind]
  rw [exec_bind, exec_ofExcept]
  cases hc : checkPositioned o offset o.isReadOnly with
  | error e => exact .failed hl e
  | ok =>
    obtain ⟨hpath, hro, hneg⟩ := checkPositioned_ok hc
    have hacc : (o.isPathOnly || o.isReadOnly) = false := by rw [hpath, hro]; rfl
    dsimp only
    rw [exec_bind, exec_budget_at hl hreg hacc hneg]
    cases ha : allowedAt w s.proc.fsizeLimit offset buf.len with
    | error e => exact .refused hl e _ buf.len
    | ok n =>
      have hn : n ≤ buf.len := by
        rw [allowedAt, toU64, if_pos hneg] at ha
        exact (limitedLen_ok ha).1
      dsimp only
      rw [exec_bind_of_ok (exec_fileHost_seek _ _), exec_bind_of_ok (exec_fileHost_write _ _),
        exec_bind_of_ok (exec_fileHost_seek _ _)]
      refine ⟨?_, ?_, ⟨o.offset, hl⟩, rfl⟩
      · rw [length_take_bytes hn]
        rfl
      · rw [exec_pure, view_call_seek, view_call_write, view_call_seek]
        rfl

variable (hsnap : o.isSnapshot = false)

include hsnap

lemma outcome_read (n : Nat) : Follows start init s fd i o (.read n : FileOp w) := by
  unfold Follows SharedFile.applyCopy SharedFile.apply FileOp.perform
  simp only [sysRead, bind_assoc]
  rw [exec_getOfd_bind hl]
  by_cases hacc : (o.isPathOnly || o.isWriteOnly) = true
  · rw [if_pos hacc, if_pos hacc]
    exact .failed hl _
  rw [if_neg hacc, if_neg hacc, if_neg (ne_memFd hreg), if_neg (not_other hreg hsnap)]
  simp only [bind_assoc, pure_bind]
  rw [exec_bind_of_ok (exec_fileHost_read _), exec_modifyOffset_pure (s := s.call _) hl]
  exact ⟨rfl, by simp, ⟨_, lookup_setOffset (s := s.call _) hl o⟩, rfl⟩

lemma outcome_seekSet (offset : Int64) :
    Follows start init s fd i o (.seekSet offset : FileOp w) := by
  unfold Follows SharedFile.applyCopy SharedFile.apply FileOp.perform
  simp only [sysLseek, bind_assoc]
  rw [exec_getOfd_bind hl]
  by_cases hpath : o.isPathOnly = true
  · simp only [if_pos hpath]
    exact .failed hl _
  simp only [if_neg hpath, not_stream hreg, if_neg (ne_memFd hreg), if_neg (not_other hreg hsnap),
    hostFileLseek, Bool.false_eq_true, if_false]
  by_cases hneg : offset.toInt < 0
  · simp only [if_pos hneg]
    exact .failed hl _
  · simp only [if_neg hneg, bind_assoc, pure_bind]
    rw [exec_bind_of_ok (exec_fileHost_seek _ _), exec_modifyOffset_pure (s := s.call _) hl]
    exact ⟨rfl, by simp, ⟨_, lookup_setOffset (s := s.call _) hl o⟩, rfl⟩

lemma outcome_seekCur (offset : Int64) :
    Follows start init s fd i o (.seekCur offset : FileOp w) := by
  unfold Follows SharedFile.applyCopy FileOp.perform
  simp only [sysLseek, bind_assoc]
  rw [exec_getOfd_bind hl]
  by_cases hpath : o.isPathOnly = true
  · simp only [if_pos hpath]
    exact .failed hl _
  simp only [if_neg hpath, not_stream hreg, if_neg (ne_memFd hreg), if_neg (not_other hreg hsnap),
    hostFileLseek, Bool.false_eq_true, if_false, bind_assoc, pure_bind]
  rw [exec_bind, exec_ofExcept]
  cases seekBy o.offset offset with
  | error e => exact .failed hl e
  | ok =>
    dsimp only
    rw [exec_bind_of_ok (exec_fileHost_seek _ _), exec_modifyOffset_pure (s := s.call _) hl]
    exact ⟨rfl, view_call_seek _ _ _ _, ⟨_, lookup_setOffset (s := s.call _) hl o⟩, rfl⟩

lemma outcome_pread (n : Nat) (offset : Int64) :
    Follows start init s fd i o (.pread n offset : FileOp w) := by
  unfold Follows SharedFile.applyCopy FileOp.perform
  simp only [sysPread, bind_assoc]
  rw [exec_getOfd_bind hl]
  simp only [if_neg (ne_memFd hreg), if_neg (not_other hreg hsnap), hostFilePread, bind_assoc,
    pure_bind]
  rw [exec_bind, exec_ofExcept]
  cases checkPositioned o offset o.isWriteOnly with
  | error e => exact .failed hl e
  | ok =>
    dsimp only
    rw [exec_bind_of_ok (exec_fileHost_seek _ _), exec_bind_of_ok (exec_fileHost_read _),
      exec_bind_of_ok (exec_fileHost_seek _ _)]
    refine ⟨?_, ?_, ⟨o.offset, hl⟩, rfl⟩
    · rw [view_call_seek]
      rfl
    · rw [exec_pure, view_call_seek, view_call_read, view_call_seek]

lemma outcome_perform (op : FileOp w) : Follows start init s fd i o op := by
  cases op with
  | read n => exact outcome_read hl hreg hsnap n
  | seekSet offset => exact outcome_seekSet hl hreg hsnap offset
  | seekCur offset => exact outcome_seekCur hl hreg hsnap offset
  | pread n offset => exact outcome_pread hl hreg hsnap n offset
  | pwrite buf offset => exact outcome_pwrite hl hreg buf offset
  | write buf =>
    by_cases hacc : (o.isPathOnly || o.isReadOnly) = true
    · unfold Follows SharedFile.applyCopy FileOp.perform
      simp only [sysWrite, bind_assoc, if_pos hacc]
      rw [exec_getOfd_bind hl, if_pos hacc]
      exact .failed hl _
    by_cases hpos : buf.len = 0
    · unfold Follows SharedFile.applyCopy FileOp.perform
      simp only [sysWrite, bind_assoc, if_neg hacc, if_pos hpos]
      rw [exec_getOfd_bind hl, if_neg hacc]
      exact ⟨rfl, rfl, ⟨o.offset, hl⟩, rfl⟩
    have hacc := Bool.eq_false_iff.mpr hacc
    cases happ : o.isAppend with
    | true => exact outcome_append hl hreg hacc hpos happ
    | false => exact outcome_write hl hreg hacc hpos happ

end

end

lemma applyCopy_eq_apply_iff (o : OpenFileDesc) (limit : Nat) (f : SharedFile) (op : FileOp w) :
    f.applyCopy o limit op = f.apply o limit op ↔ Current o limit f op := by
  cases op with
  | read => exact iff_of_true rfl trivial
  | seekSet => exact iff_of_true rfl trivial
  | write buf =>
    unfold SharedFile.applyCopy SharedFile.apply Current
    dsimp only
    by_cases hacc : (o.isPathOnly || o.isReadOnly) = true
    · exact iff_of_true (by simp only [if_pos hacc]) (.inl hacc)
    by_cases hpos : buf.len = 0
    · exact iff_of_true (by simp only [if_pos hpos]) (.inr (.inl hpos))
    by_cases happ : o.isAppend = true
    · exact iff_of_true (by simp only [if_neg hacc, if_neg hpos, if_pos happ])
        (.inr (.inr (.inl happ)))
    rw [or_iff_right hacc, or_iff_right hpos, or_iff_right happ]
    simp only [if_neg hacc, if_neg hpos, if_neg happ]
    -- different lengths are different replies
    cases allowedAt w limit o.offset buf.len with
    | error => cases allowedAt w limit f.offset buf.len with
      | error => simp
      | ok => simp
    | ok => cases allowedAt w limit f.offset buf.len with
      | error => simp
      | ok =>
        simp only [Prod.mk.injEq, Except.ok.injEq, Reply.count.injEq]
        exact ⟨And.left, fun h => ⟨h, by rw [h]⟩⟩
  | seekCur offset =>
    unfold SharedFile.applyCopy SharedFile.apply Current
    dsimp only
    by_cases hpath : o.isPathOnly = true
    · exact iff_of_true (by simp only [if_pos hpath]) (.inl hpath)
    rw [or_iff_right hpath]
    simp only [if_neg hpath]
    cases seekBy o.offset offset with
    | error => cases seekBy f.offset offset with
      | error => simp
      | ok => simp
    | ok => cases seekBy f.offset offset with
      | error => simp
      | ok =>
        simp only [Prod.mk.injEq, Except.ok.injEq, Reply.position.injEq]
        exact ⟨And.left, fun h => ⟨h, by rw [h]⟩⟩
  | pread n offset =>
    unfold SharedFile.applyCopy SharedFile.apply Current
    dsimp only
    cases checkPositioned o offset o.isWriteOnly with
    | error => simp
    | ok => simp [SharedFile.ext_iff]
  | pwrite buf offset =>
    unfold SharedFile.applyCopy SharedFile.apply Current
    dsimp only
    cases checkPositioned o offset o.isReadOnly with
    | error => simp
    | ok => cases allowedAt w limit offset buf.len with
      | error => simp
      | ok => simp

/-! ### Parent and child -/

/-- Two processes over one host. -/
structure Pair where
  parent : Process
  child : Process
  memfds : Nat → Option MemFdBacking
  trace : Trace

/-- Which of the two. -/
inductive Who
  | parent
  | child

/-- What one of the two processes sees. -/
def Pair.world (p : Pair) : Who → World
  | .parent => ⟨p.parent, p.memfds, p.trace⟩
  | .child => ⟨p.child, p.memfds, p.trace⟩

/-- The pair after a call of one of them. -/
def Pair.update (p : Pair) (s : World) : Who → Pair
  | .parent => ⟨s.proc, p.child, s.memfds, s.trace⟩
  | .child => ⟨p.parent, s.proc, s.memfds, s.trace⟩

/-- `fork_process`: the child has copies of the descriptors without `FD_CLOFORK`, of the
descriptions and of the limits, but no pending signals; `fork.rs:812-851`, `fork.rs:871-874`. -/
def World.fork (s : World) (inherited : Int → Bool) : Pair where
  parent := s.proc
  child := { s.proc with
    fdTable := fun fd => if inherited fd then s.proc.fdTable fd else none
    xfsz := [] }
  memfds := s.memfds
  trace := s.trace

section

variable (start : Int → Int64) (init : Int → List UInt8)

/-- The operations of both on a descriptor of the file behind `handle`: what each returns, and the
file as it is then. -/
def Pair.results (fd handle : Int) (p : Pair) :
    List (Who × FileOp w) → List (Except Errno Reply × SharedFile)
  | [] => []
  | (who, op) :: ops =>
    let r := exec (op.perform (fileHost start init) fd) (p.world who)
    (r.1, r.2.view start init handle) :: (p.update r.2 who).results fd handle ops

/-- The same operations on one file with one position. -/
def SharedFile.results (o : OpenFileDesc) (limit : Nat) (f : SharedFile) :
    List (Who × FileOp w) → List (Except Errno Reply × SharedFile)
  | [] => []
  | (_, op) :: ops =>
    let a := f.apply o limit op
    a :: SharedFile.results o limit a.2 ops

/-- Each operation finds the copy of its process good enough. -/
def Pair.AllCurrent (fd : Int) (p : Pair) : List (Who × FileOp w) → Prop
  | [] => True
  | (who, op) :: ops =>
    let s := p.world who
    (∃ i o, s.lookup fd = some (i, o) ∧
      Current o s.proc.fsizeLimit (s.view start init o.hostHandle) op) ∧
    (p.update (exec (op.perform (fileHost start init) fd) s).2 who).AllCurrent fd ops

/-- Both have the descriptor, with a position of their own, and the same limit. -/
def Pair.Sharing (fd : Int) (i : Nat) (o : OpenFileDesc) (limit : Nat) (p : Pair) : Prop :=
  ∀ who, (∃ x, (p.world who).lookup fd = some (i, { o with offset := x })) ∧
    (p.world who).proc.fsizeLimit = limit

end

section

variable {start : Int → Int64} {init : Int → List UInt8} {fd : Int} {i : Nat} {o : OpenFileDesc}
  {limit : Nat} {p : Pair}

lemma World.sharing_fork {s : World} {inherited : Int → Bool} (hl : s.lookup fd = some (i, o))
    (hinh : inherited fd = true) : (s.fork inherited).Sharing fd i o s.proc.fsizeLimit := by
  intro who
  cases who with
  | parent => exact ⟨⟨o.offset, hl⟩, rfl⟩
  | child =>
    obtain ⟨hfd, ho⟩ := ofdTable_of_lookup hl
    have hfd' : (if inherited fd then s.proc.fdTable fd else none) = some i := by
      rw [if_pos hinh]
      exact hfd
    exact ⟨⟨o.offset, lookup_eq_some (s := ((s.fork inherited).world .child)) hfd' ho⟩, rfl⟩

lemma Pair.view_world (handle : Int) (who who' : Who) :
    (p.world who).view start init handle = (p.world who').view start init handle := by
  cases who <;> cases who' <;> rfl

lemma Pair.view_update (handle : Int) (s : World) {who' : Who} {who : Who} :
    ((p.update s who).world who').view start init handle = s.view start init handle := by
  cases who <;> cases who' <;> rfl

lemma apply_setOffset (f : SharedFile) (op : FileOp w) :
    f.apply { o with offset := x } limit op = f.apply o limit op := by
  cases op <;> rfl

variable (start init) in
lemma Pair.step_agrees_iff (h : p.Sharing fd i o limit) (hreg : o.fileType = .Regular)
    (hsnap : o.isSnapshot = false) (who : Who) (op : FileOp w) :
    let s := p.world who
    let r := exec (op.perform (fileHost start init) fd) s
    (p.update r.2 who).Sharing fd i o limit ∧
      ((r.1, r.2.view start init o.hostHandle) = (s.view start init o.hostHandle).apply o limit op ↔
        ∃ i o, s.lookup fd = some (i, o) ∧
          Current o s.proc.fsizeLimit (s.view start init o.hostHandle) op) := by
  intro s r
  obtain ⟨⟨x, hl⟩, hlim⟩ := h who
  have hout : Outcome start init fd i { o with offset := x } _ r _ _ :=
    outcome_perform hl hreg hsnap op
  constructor
  · obtain ⟨y, hy⟩ := hout.lookup
    intro who'
    cases who <;> cases who'
    · exact ⟨⟨y, hy⟩, hout.limit.trans hlim⟩
    · exact h .child
    · exact h .parent
    · exact ⟨⟨y, hy⟩, hout.limit.trans hlim⟩
  have heq : (r.1, r.2.view start init o.hostHandle) =
      (s.view start init o.hostHandle).applyCopy { o with offset := x } limit op :=
    hlim ▸ Prod.ext hout.reply hout.view
  rw [heq, ← apply_setOffset, applyCopy_eq_apply_iff]
  constructor
  · intro hcur
    exact ⟨i, _, hl, hlim ▸ hcur⟩
  · rintro ⟨j, o', hl', hcur⟩
    obtain ⟨rfl, rfl⟩ := Prod.ext_iff.mp (Option.some.inj (hl.symm.trans hl'))
    exact hlim ▸ hcur

lemma Pair.results_eq_iff (hreg : o.fileType = .Regular) (hsnap : o.isSnapshot = false)
    (ops : List (Who × FileOp w)) (p : Pair) (h : p.Sharing fd i o limit) (who : Who) :
    p.results start init fd o.hostHandle ops =
        SharedFile.results o limit ((p.world who).view start init o.hostHandle) ops ↔
      p.AllCurrent start init fd ops := by
  -- while the files agree, they differ next only through the copy of the process that acts
  induction ops generalizing p who with
  | nil => exact iff_of_true rfl trivial
  | cons a ops ih =>
    obtain ⟨actor, op⟩ := a
    obtain ⟨hshare, hstep⟩ := p.step_agrees_iff start init h hreg hsnap actor op
    rw [Pair.results, SharedFile.results, List.cons.injEq, p.view_world _ who actor, hstep]
    apply and_congr_right
    intro hcur
    have hview := congrArg Prod.snd (hstep.mpr hcur)
    rw [← hview, ← p.view_update o.hostHandle _]
    exact ih _ hshare actor

end

/-- After `fork` every operation of parent and child returns what it should and leaves the file
as it should, up to any point, exactly when each found the copy of its process good enough. -/
theorem fork_results_eq_shared_iff (start : Int → Int64) (init : Int → List UInt8) (s : World)
    (inherited : Int → Bool) (fd : Int) (i : Nat) (o : OpenFileDesc)
    (hl : s.lookup fd = some (i, o)) (hreg : o.fileType = .Regular) (hsnap : o.isSnapshot = false)
    (hinh : inherited fd = true) (ops : List (Who × FileOp w)) :
    (s.fork inherited).results start init fd o.hostHandle ops =
        SharedFile.results o s.proc.fsizeLimit (s.view start init o.hostHandle) ops ↔
      (s.fork inherited).AllCurrent start init fd ops :=
  Pair.results_eq_iff hreg hsnap ops _ (World.sharing_fork hl hinh) .parent

/-- A process that has a file of six bytes open at descriptor 3, for reading and writing. -/
def sixBytes : World where
  proc :=
    { fdTable := fun fd => if fd = 3 then some 0 else none
      ofdTable := fun i => if i = 0 then some ⟨.Regular, oRdwr, 5, 0⟩ else none
      fsizeLimit := rlimInfinity
      xfsz := [] }
  memfds := fun _ => none
  trace := []

/-- Reads by both are reads of one file. -/
theorem fork_results_eq_shared_reads :
    sixBytes.lookup 3 = some (0, ⟨.Regular, oRdwr, 5, 0⟩) ∧
    (sixBytes.fork fun _ => true).results (w := .wasm32) (fun _ => 0)
        (fun _ => [97, 98, 99, 100, 101, 102]) 3 5 [(.child, .read 3), (.parent, .read 2)] =
      [(.ok (.bytes [97, 98, 99]), ⟨[97, 98, 99, 100, 101, 102], 3⟩),
        (.ok (.bytes [100, 101]), ⟨[97, 98, 99, 100, 101, 102], 5⟩)] :=
  ⟨by decide, (fork_results_eq_shared_iff _ _ sixBytes (fun _ => true) 3 0 ⟨.Regular, oRdwr, 5, 0⟩
    (by decide) rfl (by decide) rfl [(.child, .read 3), (.parent, .read 2)]).mpr
      ⟨⟨0, ⟨.Regular, oRdwr, 5, 0⟩, by decide, trivial⟩,
        ⟨0, ⟨.Regular, oRdwr, 5, 0⟩, by decide, trivial⟩, trivial⟩⟩

/-- The child reads three bytes, and the parent is told that it still is at the start. -/
theorem fork_seekCur_stale : (sixBytes.fork fun _ => true).results (w := .wasm32) (fun _ => 0)
        (fun _ => [97, 98, 99, 100, 101, 102]) 3 5 [(.child, .read 3), (.parent, .seekCur 0)] =
      [(.ok (.bytes [97, 98, 99]), ⟨[97, 98, 99, 100, 101, 102], 3⟩),
        (.ok (.position 0), ⟨[97, 98, 99, 100, 101, 102], 0⟩)] ∧
    SharedFile.results (w := .wasm32) ⟨.Regular, oRdwr, 5, 0⟩ rlimInfinity
        ⟨[97, 98, 99, 100, 101, 102], 0⟩ [(.child, .read 3), (.parent, .seekCur 0)] =
      [(.ok (.bytes [97, 98, 99]), ⟨[97, 98, 99, 100, 101, 102], 3⟩),
        (.ok (.position 3), ⟨[97, 98, 99, 100, 101, 102], 3⟩)] := by
  constructor <;> decide +kernel

end Kandelo.Kernel.File
