import Kandelo.Kernel.Errno
import Kandelo.Lib.Effect
import Kandelo.Lib.Segments

/-!
# Looking up names

What the path walker of `crates/kernel/src/syscalls.rs` asks for one canonical
path: the metadata that the kernel's own trees, the table of FIFOs or the host give for it, and
the target of a symbolic link. The host is an oracle: its answers may depend on everything it was
asked before.
-/

namespace Kandelo.Kernel.Path

open Lib

/-- Paths. -/
abbrev Bytes := List UInt8

instance : LawfulBEq Bytes := inferInstance

/-- The bytes of an ASCII string. -/
def bytes (s : String) : Bytes := s.toList.map fun c => c.toNat.toUInt8

/-- `/`. -/
def slash : UInt8 := 47

/-! ### Metadata -/

/-- The fields of `WasmStat` that lookups read. -/
structure Stat where
  mode : BitVec 32
  uid : Nat
  gid : Nat

/-- File type bits of a mode; `lib.rs:807-814`. -/
def sIfmt : BitVec 32 := 0o170000

/-- `S_IFLNK`. -/
def sIflnk : BitVec 32 := 0o120000

/-- `S_IFREG`. -/
def sIfreg : BitVec 32 := 0o100000

/-- `S_IFDIR`. -/
def sIfdir : BitVec 32 := 0o040000

/-- `S_IFCHR`. -/
def sIfchr : BitVec 32 := 0o020000

/-- `S_IFIFO`. -/
def sIfifo : BitVec 32 := 0o010000

/-- A directory. -/
def Stat.IsDir (st : Stat) : Prop := st.mode &&& sIfmt = sIfdir

/-- A symbolic link. -/
def Stat.IsLink (st : Stat) : Prop := st.mode &&& sIfmt = sIflnk

instance (st : Stat) : Decidable st.IsDir := inferInstanceAs (Decidable (_ = _))

instance (st : Stat) : Decidable st.IsLink := inferInstanceAs (Decidable (_ = _))

/-- `X_OK`. -/
def xOk : BitVec 32 := 1

/-- `has_access_for_ids`; `syscalls.rs:1720-1742`. -/
def hasAccessForIds (uid gid : Nat) (st : Stat) (amode : BitVec 32) : Bool :=
  if amode = 0 then true
  else if uid = 0 then
    if amode &&& xOk = 0 then true
    else st.mode &&& sIfmt = sIfdir ∨ st.mode &&& 0o111 ≠ 0
  else
    let available :=
      if uid = st.uid then (st.mode >>> 6) &&& 0o7
      else if gid = st.gid then (st.mode >>> 3) &&& 0o7
      else st.mode &&& 0o7
    available &&& amode = amode

/-! ### The host -/

/-- A question to the host with its answer. -/
inductive HostCall
  | lstat (path : Bytes) (answer : Except Errno Stat)
  | readlink (path : Bytes) (answer : Except Errno Bytes)

/-- What the host was asked, last question first. -/
abbrev Trace := List HostCall

/-- The host, as the answers to the next question after the questions before it. -/
structure Host where
  lstat : Trace → Bytes → Except Errno Stat
  readlink : Trace → Bytes → Except Errno Bytes

/-- Lookups, which ask the host. -/
abbrev Lookup (α : Type) := Effect Errno Trace α

/-- `HostIO::host_lstat`. -/
def hostLstat (host : Host) (path : Bytes) : Lookup Stat :=
  Effect.query fun tr => (host.lstat tr path, .lstat path (host.lstat tr path) :: tr)

/-- `HostIO::host_readlink`. -/
def hostReadlink (host : Host) (path : Bytes) : Lookup Bytes :=
  Effect.query fun tr => (host.readlink tr path, .readlink path (host.readlink tr path) :: tr)

/-! ### The kernel's own trees -/

variable (path : Bytes)

/-- `is_procfs_namespace_path`; `syscalls.rs:1835-1837`. -/
def isProcfsNamespacePath : Bool :=
  path = bytes "/proc" || (bytes "/proc/").isPrefixOf path

/-- `is_devfs_namespace_path`; `syscalls.rs:1839-1841`. -/
def isDevfsNamespacePath : Bool :=
  path = bytes "/dev" || (bytes "/dev/").isPrefixOf path

/-- `is_host_backed_devfs_path`; `syscalls.rs:1843-1845`. -/
def isHostBackedDevfsPath : Bool :=
  path = bytes "/dev/shm" || (bytes "/dev/shm/").isPrefixOf path

/-- Links of procfs that are not resolved by their text; `procfs.rs:30-76`. -/
inductive ProcfsLink
  | threadSelf
  | fd
  | text

/-- An entry of procfs: what kind of link it is, and what `procfs_stat` and `procfs_readlink` give
for it if the entry is valid. -/
structure ProcfsEntry where
  link : ProcfsLink
  stat : Except Errno Stat
  target : Except Errno Bytes

/-- What a lookup reads of the process and the kernel: the ids, the entries of procfs, which are
all under `/proc` (`match_procfs`; `procfs.rs:166-219`), and the names of FIFOs, with whether
their pipe exists. -/
structure Caller where
  pid : Nat
  uid : Nat
  gid : Nat
  euid : Nat
  egid : Nat
  procfs : Bytes → Option ProcfsEntry
  fifo : Bytes → Option Bool
  procfs_path : ∀ path, (procfs path).isSome = true → isProcfsNamespacePath path = true

/-- Directories of `match_devfs_dir`; `devfs.rs:41-52`. -/
def devfsDirs : List Bytes :=
  ["/dev", "/dev/pts", "/dev/shm", "/dev/mqueue", "/dev/fd", "/dev/input", "/dev/dri"].map bytes

/-- Names of `match_virtual_device`; `syscalls.rs:150-163`. -/
def virtualDevices : List Bytes :=
  ["/dev/null", "/dev/console", "/dev/zero", "/dev/urandom", "/dev/random", "/dev/full", "/dev/fb0",
    "/dev/input/mice", "/dev/dsp", "/dev/dri/renderD128", "/dev/dri/card0"].map bytes

/-- Decimal digits as an `i32`, none if one is not a digit or the number is too large. -/
def parseI32 : Bytes → Nat → Option Nat
  | [], n => some n
  | b :: rest, n =>
    if b < 48 ∨ b > 57 then none
    else
      let m := n * 10 + (b.toNat - 48)
      if m < 2 ^ 31 then parseI32 rest m else none

/-- `match_dev_fd`; `syscalls.rs:208-233`. -/
def matchDevFd : Option Nat :=
  if path = bytes "/dev/stdin" then some 0
  else if path = bytes "/dev/stdout" then some 1
  else if path = bytes "/dev/stderr" then some 2
  else if (bytes "/dev/fd/").isPrefixOf path then
    if path.drop 8 = [] then none else parseI32 (path.drop 8) 0
  else none

variable (K : Caller)

/-- Metadata of the synthetic devices, terminals, aliases of descriptors and files, in the order
in which they are tried: `match_devfs_stat`, `match_virtual_device`, `match_pty_stat`,
`match_dev_fd` and `synthetic_file_stat`; `syscalls.rs:1873-1887`. -/
def syntheticStat (path : Bytes) : Option Stat :=
  if path ∈ devfsDirs then some ⟨sIfdir ||| 0o755, K.euid, K.egid⟩
  else if path ∈ virtualDevices then some ⟨sIfchr ||| 0o666, K.euid, K.egid⟩
  else if path = bytes "/dev/ptmx" ∨ path = bytes "/dev/tty" ∨
    (bytes "/dev/pts/").isPrefixOf path then
    some ⟨sIfchr ||| 0o620, K.euid, K.egid⟩
  else if (matchDevFd path).isSome then some ⟨sIfchr ||| 0o666, K.euid, K.egid⟩
  else if path = bytes "/etc/mtab" then some ⟨sIfreg ||| 0o444, K.euid, K.egid⟩
  else none

/-- `fifo_path_stat_raw` without following; `syscalls.rs:5473-5494`. -/
def fifoPathStatRaw (host : Host) (path : Bytes) : Lookup (Option Stat) :=
  match K.fifo path with
  | none => pure none
  | some hasPipe => do
    let st ← hostLstat host path
    if hasPipe then pure (some { st with mode := sIfifo ||| (st.mode &&& 0o7777) })
    else throw .EIo

/-- The part of `namespace_lstat_raw` behind `/proc` and `/dev/shm`; `syscalls.rs:1873-1897`. -/
def lstatBelow (host : Host) (path : Bytes) : Lookup Stat :=
  match syntheticStat K path with
  | some st => pure st
  | none =>
    if isDevfsNamespacePath path && !isHostBackedDevfsPath path then throw .ENOENT
    else do
      match ← fifoPathStatRaw K host path with
      | some st => pure st
      | none => hostLstat host path

/-- `namespace_lstat_raw`; `syscalls.rs:1849-1897`. -/
def namespaceLstatRaw (host : Host) (path : Bytes) : Lookup Stat :=
  match K.procfs path with
  | some entry => Effect.ofExcept entry.stat
  | none =>
    if isProcfsNamespacePath path then throw .ENOENT
    else if path = bytes "/dev/shm" then do
      match ← Effect.attempt (hostLstat host path) with
      | .ok st => if st.IsDir then pure st else lstatBelow K host path
      | .error .ENOENT => lstatBelow K host path
      | .error e => throw e
    else lstatBelow K host path

/-- Paths and link targets have fewer bytes, `NAMESPACE_PATH_MAX`; `syscalls.rs:1769`. -/
def namespacePathMax : Nat := 4096

/-- Components have no more bytes, `NAMESPACE_NAME_MAX`; `syscalls.rs:1770`. -/
def namespaceNameMax : Nat := 255

/-- The target of a symbolic link. -/
def linkTarget (host : Host) (path : Bytes) : Lookup Bytes :=
  match K.procfs path with
  | some entry => Effect.ofExcept entry.target
  | none => hostReadlink host path

/-- `namespace_readlink_raw`; `syscalls.rs:1900-1923`. -/
def namespaceReadlinkRaw (host : Host) (path : Bytes) : Lookup Bytes := do
  let target ← linkTarget K host path
  if namespacePathMax ≤ target.length then throw .ENAMETOOLONG
  else if target = [] then throw .ENOENT
  else pure target

end Kandelo.Kernel.Path
