import Kandelo.Kernel.Errno
import Kandelo.Kernel.Usize
import Kandelo.Lib.Effect

/-!
# Open files and the host that holds them

The state behind the descriptors of regular files and memfds: the tables of a
process, the backings of memfds, and the host. The host is an oracle: it may fail or transfer less
than asked at every call, and its answers may depend on everything it was asked before. What it
was asked also says where the cursor of each of its handles is.
-/

namespace Kandelo.Kernel.File

open Lib

/-! ### Descriptors -/

/-- `FileType`; `ofd.rs:146-159`. -/
inductive FileType
  | Regular
  | Directory
  | Pipe
  | CharDevice
  | Socket
  | EventFd
  | Epoll
  | TimerFd
  | SignalFd
  | MemFd
  | PtyMaster
  | PtySlave
  deriving DecidableEq

/-- Types without a file position, for which positioned calls fail with `ESPIPE`. -/
def FileType.isStream : FileType → Bool
  | .Pipe | .Socket | .EventFd | .Epoll | .TimerFd | .SignalFd | .PtyMaster | .PtySlave => true
  | .Regular | .Directory | .CharDevice | .MemFd => false

/-- Flags of `open`; `lib.rs:598-611`. -/
def oAccmode : BitVec 32 := 3

/-- `O_RDONLY`. -/
def oRdonly : BitVec 32 := 0

/-- `O_WRONLY`. -/
def oWronly : BitVec 32 := 1

/-- `O_RDWR`. -/
def oRdwr : BitVec 32 := 2

/-- `O_APPEND`. -/
def oAppend : BitVec 32 := 0o2000

/-- `O_PATH`. -/
def oPath : BitVec 32 := 0o10000000

/-- The fields of `OpenFileDesc` that transfers read and write. -/
structure OpenFileDesc where
  fileType : FileType
  statusFlags : BitVec 32
  hostHandle : Int
  offset : Int64
  deriving DecidableEq

namespace OpenFileDesc

variable (o : OpenFileDesc)

/-- `is_path_only`; `ofd.rs:305-307`. -/
def isPathOnly : Bool := o.statusFlags &&& oPath ≠ 0

/-- Opened to read only. -/
def isReadOnly : Bool := o.statusFlags &&& oAccmode = oRdonly

/-- Opened to write only. -/
def isWriteOnly : Bool := o.statusFlags &&& oAccmode = oWronly

/-- Opened to append. -/
def isAppend : Bool := o.statusFlags &&& oAppend ≠ 0

/-- The contents are a snapshot in the kernel: `is_procfs_buf_handle` or
`is_synthetic_regular_handle`; `procfs.rs:27-30`, `descriptor_backing.rs:266-268`. -/
def isSnapshot : Bool := o.hostHandle ≤ -200

/-- The memfd of the description. -/
def memfdIdx : Nat := (-(o.hostHandle + 1)).toNat

end OpenFileDesc

/-- `MemFdBacking`; `descriptor_backing.rs:134-137`. -/
structure MemFdBacking where
  data : List UInt8
  offset : Int64

/-- A Rust slice: its length is a `usize`, and an `i64` too. -/
structure Slice (w : PointerWidth) where
  bytes : List UInt8
  len_le : bytes.length ≤ w.usizeMax
  len_lt : bytes.length < 2 ^ 63

namespace Slice

variable {w : PointerWidth} (b : Slice w)

/-- Bytes of the slice. -/
def len : Nat := b.bytes.length

lemma len_le_usizeMax : b.len ≤ w.usizeMax := b.len_le

/-- `&buf[..n]`. -/
def take (b : Slice w) (n : Nat) : Slice w where
  bytes := b.bytes.take n
  len_le := Nat.le_trans (List.length_take_le' n b.bytes) b.len_le
  len_lt := Nat.lt_of_le_of_lt (List.length_take_le' n b.bytes) b.len_lt

@[simp] lemma len_take (n : Nat) : (b.take n).len = min n b.len := List.length_take

end Slice

/-! ### The host -/

/-- How `host_seek` reads its offset; the kernel only asks for these two. -/
inductive Whence
  | set
  | fromEnd

/-- A call to the host, or to an object in the kernel that is not modelled, with its answer. -/
inductive HostCall
  | seek (handle : Int) (offset : Int64) (whence : Whence) (answer : Except Errno Int64)
  | read (handle : Int) (n : Nat) (answer : Except Errno (List UInt8))
  | write (handle : Int) (data : List UInt8) (answer : Except Errno Nat)
  | other

/-- The calls of the host, the latest first. -/
abbrev Trace := List HostCall

/-- The host as the answers to the next call: the cursors at the start, sizes of files, and what
may fail or be cut short. Objects that are not files answer for themselves. -/
structure Host where
  start : Int → Int64
  size : Trace → Int → Int64
  fstat : Trace → Int → Except Errno Unit
  seek : Trace → Int → Int64 → Whence → Except Errno Unit
  read : Trace → Int → Nat → Except Errno (List UInt8)
  write : Trace → Int → List UInt8 → Except Errno Nat
  otherRead : Trace → Int → Nat → Except Errno (List UInt8)
  otherWrite : Trace → Int → List UInt8 → Except Errno Nat
  otherSeek : Trace → Int → Int64 → Except Errno Int64

/-- Position of a handle: where it was last put, and on from there by what was transferred. -/
def cursorFrom (start : Int → Int64) : Trace → Int → Int64
  | [], handle => start handle
  | .seek h _ _ (.ok pos) :: tr, handle => if handle = h then pos else cursorFrom start tr handle
  | .read h _ (.ok data) :: tr, handle =>
    if handle = h then cursorFrom start tr handle + Int64.ofNat data.length
    else cursorFrom start tr handle
  | .write h _ (.ok n) :: tr, handle =>
    if handle = h then cursorFrom start tr handle + Int64.ofNat n else cursorFrom start tr handle
  | .seek _ _ _ (.error _) :: tr, handle | .read _ _ (.error _) :: tr, handle
  | .write _ _ (.error _) :: tr, handle | .other :: tr, handle => cursorFrom start tr handle

variable (host : Host)

/-- The position of a handle after some calls. -/
def Host.cursor : Trace → Int → Int64 := cursorFrom host.start

/-! ### The state of a transfer -/

/-- What transfers read and write of a process: its tables, its soft `RLIMIT_FSIZE`, and the
writes for which it was sent `SIGXFSZ`, by start and length. -/
structure Process where
  fdTable : Int → Option Nat
  ofdTable : Nat → Option OpenFileDesc
  fsizeLimit : Nat
  xfsz : List (Nat × Nat)

/-- A process with the state it shares with others. -/
structure World where
  proc : Process
  memfds : Nat → Option MemFdBacking
  trace : Trace

/-- Calls of the kernel on files. -/
abbrev Io (α : Type) := Effect Errno World α

variable (handle : Int)

/-- `host_fstat`, for the size as a `u64`. -/
def hostFstatSize : Io Nat :=
  Effect.query fun w =>
    ((host.fstat w.trace handle).map fun _ => (host.size w.trace handle).toInt.toNat, w)

/-- `host_seek`. -/
def hostSeek (offset : Int64) (whence : Whence) : Io Int64 :=
  Effect.query fun w =>
    let pos := match whence with
      | .set => offset
      | .fromEnd => host.size w.trace handle + offset
    let answer := (host.seek w.trace handle offset whence).map fun _ => pos
    (answer, { w with trace := .seek handle offset whence answer :: w.trace })

/-- `host_read` of at most `n` bytes. -/
def hostRead (n : Nat) : Io (List UInt8) :=
  Effect.query fun w =>
    let answer := (host.read w.trace handle n).map fun data => data.take n
    (answer, { w with trace := .read handle n answer :: w.trace })

/-- `host_write`; the answer is the number of bytes taken. -/
def hostWrite (data : List UInt8) : Io Nat :=
  Effect.query fun w =>
    let answer := (host.write w.trace handle data).map fun n => min n data.length
    (answer, { w with trace := .write handle data answer :: w.trace })

/-- A read of something that is no file. -/
def otherRead (host : Host) (fd : Int) (n : Nat) : Io (List UInt8) :=
  Effect.query fun w =>
    ((host.otherRead w.trace fd n).map fun data => data.take n,
      { w with trace := .other :: w.trace })

/-- A write to something that is no file. -/
def otherWrite (host : Host) (fd : Int) (data : List UInt8) : Io Nat :=
  Effect.query fun w =>
    ((host.otherWrite w.trace fd data).map fun n => min n data.length,
      { w with trace := .other :: w.trace })

/-- A seek of something that is no file. -/
def otherSeek (host : Host) (fd : Int) (offset : Int64) : Io Int64 :=
  Effect.query fun w => (host.otherSeek w.trace fd offset, { w with trace := .other :: w.trace })

end Kandelo.Kernel.File
