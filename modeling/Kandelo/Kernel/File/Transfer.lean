import Kandelo.Kernel.File.Host

/-!
# Transfers

Reading, writing and positioning of regular files and memfds in
`crates/kernel/src/syscalls.rs`, with the limit on file sizes, and the calls made of several
transfers: `writev`, `pwritev`, `sendfile` and `copy_file_range`.
-/

namespace Kandelo.Kernel.File

open Lib

variable {w : PointerWidth}

/-! ### Access to the tables -/

/-- The open file description of a descriptor, with its index. -/
def getOfd (fd : Int) : Io (Nat × OpenFileDesc) :=
  Effect.query fun s =>
    match s.proc.fdTable fd with
    | none => (.error .EBADF, s)
    | some i =>
      match s.proc.ofdTable i with
      | none => (.error .EBADF, s)
      | some o => (.ok (i, o), s)

/-- The table with an entry replaced. -/
def update {α : Type} (t : Nat → Option α) (i : Nat) (a : α) : Nat → Option α :=
  fun j => if j = i then some a else t j

/-- Change the position of a description, if it is there. -/
def modifyOffset (i : Nat) (f : Int64 → Int64) : Io Unit :=
  Effect.query fun s =>
    match s.proc.ofdTable i with
    | none => (.ok (), s)
    | some o =>
      let table := update s.proc.ofdTable i { o with offset := f o.offset }
      (.ok (), { s with proc := { s.proc with ofdTable := table } })

variable (w)

/-- `usize::try_from` of an `i64`. -/
def toUsize (x : Int64) : Except Errno Nat :=
  if 0 ≤ x.toInt ∧ x.toInt ≤ w.usizeMax then .ok x.toInt.toNat else .error .EOVERFLOW

/-- `u64::try_from` of an `i64`. -/
def toU64 (x : Int64) : Except Errno Nat :=
  if 0 ≤ x.toInt then .ok x.toInt.toNat else .error .EINVAL

/-- `i64::try_from` of a length. -/
def lenToI64 (n : Nat) : Except Errno Int64 :=
  if n < 2 ^ 63 then .ok (Int64.ofNat n) else .error .EOVERFLOW

/-- `i64::checked_add` of a length. -/
def checkedAddLen (x : Int64) (n : Nat) : Option Int64 :=
  if x.toInt + n < 2 ^ 63 then some (x + Int64.ofNat n) else none

/-! ### The limit on file sizes -/

/-- `RLIM_INFINITY`; `lib.rs:1006`. -/
def rlimInfinity : Nat := 2 ^ 64 - 1

/-- `raise_fsize_signal_for_caller`; `syscalls.rs:4201-4209`. -/
def raiseFsizeSignalForCaller (start len : Nat) : Io Unit :=
  Effect.query fun s =>
    (.ok (), { s with proc := { s.proc with xfsz := (start, len) :: s.proc.xfsz } })

/-- The limit on the size of files. -/
def getFsizeLimit : Io Nat := Effect.query fun s => (.ok s.proc.fsizeLimit, s)

/-- `fsize_limited_write_len`; `syscalls.rs:4216-4240`. -/
def fsizeLimitedWriteLen (offset requestedLen : Nat) : Io Nat :=
  if requestedLen = 0 then pure 0
  else do
    let limit ← getFsizeLimit
    if limit = rlimInfinity then pure requestedLen
    else if limit ≤ offset then do
      raiseFsizeSignalForCaller offset requestedLen
      throw .EFBIG
    else
      let available := limit - offset
      if available ≤ w.usizeMax then pure (min requestedLen available) else pure requestedLen

variable (o : OpenFileDesc)

/-- The memfd of a description. -/
def getMemfd : Io MemFdBacking :=
  Effect.query fun s =>
    match s.memfds o.memfdIdx with
    | none => (.error .EBADF, s)
    | some b => (.ok b, s)

/-- Replace the memfd of a description. -/
def setMemfd (b : MemFdBacking) : Io Unit :=
  Effect.query fun s => (.ok (), { s with memfds := update s.memfds o.memfdIdx b })

variable (host : Host)

/-- The file offset at which a write starts; `syscalls.rs:4276-4297`. -/
def writeStart (o : OpenFileDesc) : Option Int64 → Io Nat
  | some offset => Effect.ofExcept (toU64 offset)
  | none =>
    if o.fileType = .MemFd then do
      let b ← getMemfd o
      if o.isAppend then pure b.data.length else Effect.ofExcept (toU64 b.offset)
    else if o.isAppend then hostFstatSize host o.hostHandle
    else Effect.ofExcept (toU64 o.offset)

/-- `write_operation_budget`; `syscalls.rs:4249-4300`. -/
def writeOperationBudget (w : PointerWidth) (host : Host) (fd : Int) (offset : Option Int64)
    (requestedLen : Nat) : Io Nat := do
  let (_, o) ← getOfd fd
  if o.isPathOnly || o.isReadOnly then throw .EBADF
  else if requestedLen = 0 then pure 0
  else if o.fileType ≠ .Regular ∧ o.fileType ≠ .MemFd then pure requestedLen
  else do
    let start ← writeStart host o offset
    fsizeLimitedWriteLen w start requestedLen

/-! ### Single transfers -/

variable (data : List UInt8)

/-- Put bytes at a position, with zeros before them if the data is shorter:
`data.resize` and `copy_from_slice`. -/
def store (start : Nat) (bytes : List UInt8) : List UInt8 :=
  data.take start ++ List.replicate (start - data.length) 0 ++ bytes
    ++ data.drop (start + bytes.length)

variable (buf : Slice w) {w}

/-- The memfd part of `sys_write`; `syscalls.rs:3851-3873`. -/
def memfdWrite : Io Nat := do
  let b ← getMemfd o
  let offset ← Effect.ofExcept
    (if 0 < buf.len ∧ o.isAppend then lenToI64 b.data.length else .ok b.offset)
  setMemfd o { b with offset := offset }
  let start ← Effect.ofExcept (toUsize w offset)
  if w.usizeMax < start + buf.len then throw .EFBIG
  else do
    setMemfd o ⟨store b.data start buf.bytes, offset⟩
    match checkedAddLen offset buf.len with
    | none => throw .EOVERFLOW
    | some offset' => do
      setMemfd o ⟨store b.data start buf.bytes, offset'⟩
      pure buf.len

/-- Go to the end before a write in append mode; `syscalls.rs:3876-3881`. -/
def seekEndIfAppend (i : Nat) (o : OpenFileDesc) (len : Nat) : Io Unit :=
  if 0 < len ∧ o.isAppend then do
    let pos ← hostSeek host o.hostHandle 0 .fromEnd
    modifyOffset i fun _ => pos
  else pure ()

/-- The part of `sys_write` for files of the host; `syscalls.rs:3874-3887`. -/
def hostFileWrite (i : Nat) (o : OpenFileDesc) (buf : Slice w) : Io Nat := do
  seekEndIfAppend host i o buf.len
  let n ← hostWrite host o.hostHandle buf.bytes
  modifyOffset i fun offset => offset + Int64.ofNat n
  pure n

/-- `sys_write`; `syscalls.rs:3615-3889`. -/
def sysWrite (fd : Int) (buf : Slice w) : Io Nat := do
  let (i, o) ← getOfd fd
  if o.isPathOnly || o.isReadOnly then throw .EBADF
  else if buf.len = 0 then pure 0
  else if o.fileType ≠ .Regular ∧ o.fileType ≠ .MemFd then otherWrite host fd buf.bytes
  else do
    let writableLen ← writeOperationBudget w host fd none buf.len
    if o.fileType = .MemFd then memfdWrite o (buf.take writableLen)
    else hostFileWrite host i o (buf.take writableLen)

/-- The memfd part of `sys_pwrite`; `syscalls.rs:4374-4386`. -/
def memfdPwrite (offset : Int64) : Io Nat := do
  let start ← Effect.ofExcept (toUsize w offset)
  if w.usizeMax < start + buf.len then throw .EFBIG
  else do
    let b ← getMemfd o
    setMemfd o { b with data := store b.data start buf.bytes }
    pure buf.len

/-- The part of `sys_pwrite` for files of the host: seek, write and seek back;
`syscalls.rs:4388-4392`. -/
def hostFilePwrite (o : OpenFileDesc) (buf : Slice w) (offset : Int64) : Io Nat := do
  let _ ← hostSeek host o.hostHandle offset .set
  let n ← hostWrite host o.hostHandle buf.bytes
  let _ ← hostSeek host o.hostHandle o.offset .set
  pure n

variable (offset : Int64)

/-- The checks of positioned transfers, in their order; `wrongMode` is set if the description is
not open for the transfer. -/
def checkPositioned (wrongMode : Bool) : Except Errno Unit :=
  if o.isPathOnly then .error .EBADF
  else if offset.toInt < 0 then .error .EINVAL
  else if wrongMode then .error .EBADF
  else if o.fileType.isStream then .error .ESPIPE
  else .ok ()

/-- `sys_pwrite`; `syscalls.rs:4335-4393`. What is neither a regular file nor a memfd answers for
itself here, also where the source asks the host as for a file. -/
def sysPwrite (fd : Int) (buf : Slice w) (offset : Int64) : Io Nat := do
  let (_, o) ← getOfd fd
  Effect.ofExcept (checkPositioned o offset o.isReadOnly)
  if o.fileType ≠ .Regular ∧ o.fileType ≠ .MemFd then otherWrite host fd buf.bytes
  else do
    let writableLen ← writeOperationBudget w host fd (some offset) buf.len
    if o.fileType = .MemFd then memfdPwrite o (buf.take writableLen) offset
    else hostFilePwrite host o (buf.take writableLen) offset

/-- The bytes of `data` from `start`, at most `n`. -/
def slice (start n : Nat) : List UInt8 := (data.drop start).take n

/-- `sys_read`; `syscalls.rs:3249-3612`. Directories, devices and snapshots answer for
themselves. -/
def sysRead (w : PointerWidth) (host : Host) (fd : Int) (n : Nat) : Io (List UInt8) := do
  let (i, o) ← getOfd fd
  if o.isPathOnly || o.isWriteOnly then throw .EBADF
  else if o.fileType = .MemFd then do
    let b ← getMemfd o
    let start ← Effect.ofExcept (toUsize w b.offset)
    let bytes := slice b.data start n
    setMemfd o { b with offset := b.offset + Int64.ofNat bytes.length }
    pure bytes
  else if o.fileType ≠ .Regular ∨ o.isSnapshot then otherRead host fd n
  else do
    let bytes ← hostRead host o.hostHandle n
    modifyOffset i fun offset => offset + Int64.ofNat bytes.length
    pure bytes

/-- The part of `sys_pread` for files of the host: seek, read and seek back;
`syscalls.rs:4191-4195`. -/
def hostFilePread (o : OpenFileDesc) (n : Nat) (offset : Int64) : Io (List UInt8) := do
  let _ ← hostSeek host o.hostHandle offset .set
  let bytes ← hostRead host o.hostHandle n
  let _ ← hostSeek host o.hostHandle o.offset .set
  pure bytes

/-- `sys_pread`; `syscalls.rs:4111-4196`. Directories, devices and snapshots answer for
themselves. -/
def sysPread (w : PointerWidth) (host : Host) (fd : Int) (n : Nat) (offset : Int64) :
    Io (List UInt8) := do
  let (_, o) ← getOfd fd
  Effect.ofExcept (checkPositioned o offset o.isWriteOnly)
  if o.fileType = .MemFd then do
    let start ← Effect.ofExcept (toUsize w offset)
    let b ← getMemfd o
    pure (slice b.data start n)
  else if o.fileType ≠ .Regular ∨ o.isSnapshot then otherRead host fd n
  else hostFilePread host o n offset

/-- `SEEK_SET`, `SEEK_CUR`, `SEEK_END` and any other value. -/
inductive SeekFrom
  | set
  | cur
  | fromEnd
  | invalid

/-- `i64::checked_add`. -/
def checkedAdd (a b : Int64) : Option Int64 :=
  if -2 ^ 63 ≤ a.toInt + b.toInt ∧ a.toInt + b.toInt < 2 ^ 63 then some (a + b) else none

/-- A new position counted from `base`. -/
def seekBy (base offset : Int64) : Except Errno Int64 :=
  match checkedAdd base offset with
  | none => .error .EOVERFLOW
  | some pos => if pos.toInt < 0 then .error .EINVAL else .ok pos

/-- The memfd part of `sys_lseek`; `syscalls.rs:4057-4080`. -/
def memfdLseek (whence : SeekFrom) : Io Int64 := do
  let b ← getMemfd o
  let pos ← Effect.ofExcept (match whence with
    | .set => if offset.toInt < 0 then .error .EINVAL else .ok offset
    | .cur => seekBy b.offset offset
    | .fromEnd => seekBy (Int64.ofNat b.data.length) offset
    | .invalid => .error .EINVAL)
  setMemfd o { b with offset := pos }
  pure pos

/-- The handles of the directories of procfs and devfs; `procfs.rs:19`, `devfs.rs:15`. -/
def OpenFileDesc.hasDirHandle : Bool := o.hostHandle = -150 || o.hostHandle = -160

/-- The part of `sys_lseek` for these directories; `syscalls.rs:3998-4012`. -/
def dirHandleLseek (i : Nat) (o : OpenFileDesc) (offset : Int64) : SeekFrom → Io Int64
  | .set =>
    if offset.toInt < 0 then throw .EINVAL
    else do
      modifyOffset i fun _ => offset
      pure offset
  | _ => pure o.offset

/-- The part of `sys_lseek` for files of the host; `syscalls.rs:4082-4108`. -/
def hostFileLseek (i : Nat) (o : OpenFileDesc) (offset : Int64) :
    SeekFrom → Io Int64
  | .set =>
    if offset.toInt < 0 then throw .EINVAL
    else do
      let _ ← hostSeek host o.hostHandle offset .set
      modifyOffset i fun _ => offset
      pure offset
  | .cur => do
    let pos ← Effect.ofExcept (seekBy o.offset offset)
    let _ ← hostSeek host o.hostHandle pos .set
    modifyOffset i fun _ => pos
    pure pos
  | .fromEnd => do
    let pos ← hostSeek host o.hostHandle offset .fromEnd
    if pos.toInt < 0 then throw .EINVAL
    else do
      modifyOffset i fun _ => pos
      pure pos
  | .invalid => throw .EINVAL

/-- `sys_lseek`; `syscalls.rs:3891-4108`. Directories, devices and snapshots answer for
themselves. The handles of memfds run through those of two directories, which are tested first. -/
def sysLseek (fd : Int) (offset : Int64) (whence : SeekFrom) : Io Int64 := do
  let (i, o) ← getOfd fd
  if o.isPathOnly then throw .EBADF
  else if o.fileType.isStream then throw .ESPIPE
  else if o.fileType = .MemFd then
    if o.hasDirHandle then dirHandleLseek i o offset whence else memfdLseek o offset whence
  else if o.fileType ≠ .Regular ∨ o.isSnapshot then otherSeek host fd offset
  else hostFileLseek host i o offset whence

/-! ### Calls made of several transfers -/

/-- How a loop goes on after a transfer: an error counts only if nothing was transferred yet. -/
def orElseTotal {α : Type} (total : Nat) (x : Io α) (k : α → Io Nat) : Io Nat := do
  match ← Effect.attempt x with
  | .ok a => k a
  | .error e => if 0 < total then pure total else throw e

/-- `checked_iovec_len`; `syscalls.rs:4425-4433`. -/
def checkedIovecLen (bufs : List (Slice w)) : Except Errno Nat :=
  let total := (bufs.map Slice.len).sum
  if total ≤ 2 ^ 31 - 1 then .ok total else .error .EINVAL

/-- The loop of `sys_writev`. -/
def writevLoop (host : Host) (fd : Int) (writableLen : Nat) : List (Slice w) → Nat → Io Nat
  | [], total => pure total
  | buf :: bufs, total =>
    if total = writableLen then pure total
    else if buf.len = 0 then writevLoop host fd writableLen bufs total
    else
      let attempted := min buf.len (writableLen - total)
      orElseTotal total (sysWrite host fd (buf.take attempted)) fun n =>
        if n < attempted ∨ total + n = writableLen then pure (total + n)
        else writevLoop host fd writableLen bufs (total + n)

/-- `sys_writev`; `syscalls.rs:14098-14132`. -/
def sysWritev (fd : Int) (bufs : List (Slice w)) : Io Nat := do
  let requestedLen ← Effect.ofExcept (checkedIovecLen bufs)
  let writableLen ← writeOperationBudget w host fd none requestedLen
  writevLoop host fd writableLen bufs 0

/-- The loop of `sys_pwritev`. -/
def pwritevLoop (host : Host) (fd : Int) (writableLen : Nat) :
    List (Slice w) → Nat → Int64 → Io Nat
  | [], total, _ => pure total
  | buf :: bufs, total, offset =>
    if total = writableLen then pure total
    else if buf.len = 0 then pwritevLoop host fd writableLen bufs total offset
    else
      let attempted := min buf.len (writableLen - total)
      orElseTotal total (sysPwrite host fd (buf.take attempted) offset) fun n =>
        match checkedAddLen offset n with
        | none => throw .EOVERFLOW
        | some offset' =>
          if n < attempted ∨ total + n = writableLen then pure (total + n)
          else pwritevLoop host fd writableLen bufs (total + n) offset'

/-- `sys_pwritev`; `syscalls.rs:4435-4473`. -/
def sysPwritev (fd : Int) (bufs : List (Slice w)) (offset : Int64) : Io Nat := do
  let requestedLen ← Effect.ofExcept (checkedIovecLen bufs)
  let writableLen ← writeOperationBudget w host fd (some offset) requestedLen
  pwritevLoop host fd writableLen bufs 0 offset

/-- `validate_transfer_input`; `syscalls.rs:4304-4332`. -/
def validateTransferInput (fd : Int) (offset : Option Int64) : Io Unit := do
  let (_, o) ← getOfd fd
  if o.isPathOnly || o.isWriteOnly then throw .EBADF
  else if offset.any (·.toInt < 0) then throw .EINVAL
  else if offset.isSome && o.fileType.isStream then throw .ESPIPE
  else pure ()

/-- Size of the buffer that `sys_sendfile` and `sys_copy_file_range` copy through. -/
def copyBufLen : Nat := 4096

/-- Read at a position, or at the position of the descriptor if there is none. -/
def readAt (w : PointerWidth) (host : Host) (fd : Int) (n : Nat) : Option Int64 → Io (List UInt8)
  | some offset => sysPread w host fd n offset
  | none => sysRead w host fd n

/-- Write at a position, or at the position of the descriptor if there is none. -/
def writeAt (fd : Int) (buf : Slice w) : Option Int64 → Io Nat
  | some offset => sysPwrite host fd buf offset
  | none => sysWrite host fd buf

variable (w)

/-- What a round of a copy writes. -/
def chunk (bytes : List UInt8) : Slice w where
  bytes := bytes.take copyBufLen
  len_le := Nat.le_trans (List.length_take_le _ _) (Nat.le_trans (by decide) w.le_usizeMax)
  len_lt := Nat.lt_of_le_of_lt (List.length_take_le _ _) (by decide)

/-- The copying loop of `sys_sendfile` and `sys_copy_file_range`, which ends after at most
`writableLen` rounds. -/
def copyLoop (w : PointerWidth) (host : Host) (fdIn fdOut : Int) (writableLen : Nat) :
    Nat → Nat → Option Int64 → Option Int64 → Io Nat
  | 0, total, _, _ => pure total
  | rounds + 1, total, offIn, offOut =>
    if writableLen ≤ total then pure total
    else
      orElseTotal total
        (readAt w host fdIn (min (writableLen - total) copyBufLen) offIn) fun bytes =>
        if bytes = [] then pure total
        else
          orElseTotal total (writeAt host fdOut (chunk w bytes) offOut) fun written =>
            if written < bytes.length then pure (total + written)
            else
              copyLoop w host fdIn fdOut writableLen rounds (total + written)
                (offIn.map (· + Int64.ofNat bytes.length)) (offOut.map (· + Int64.ofNat written))

/-- `sys_copy_file_range`; `syscalls.rs:4549-4627`. -/
def sysCopyFileRange (host : Host) (fdIn : Int) (offIn : Option Int64) (fdOut : Int)
    (offOut : Option Int64) (len : Nat) : Io Nat := do
  validateTransferInput fdIn offIn
  let writableLen ← writeOperationBudget w host fdOut offOut len
  if len = 0 then pure 0
  else copyLoop w host fdIn fdOut writableLen writableLen 0 offIn offOut

/-- `sys_sendfile`; `syscalls.rs:4479-4543`. A negative offset stands for the position of the
input. -/
def sysSendfile (host : Host) (outFd inFd : Int) (offset : Int64) (count : Nat) : Io Nat :=
  sysCopyFileRange w host inFd (if 0 ≤ offset.toInt then some offset else none) outFd none count

end Kandelo.Kernel.File
