import Kandelo.Kernel.Descriptor.Tables
import Kandelo.Kernel.Memory.Manager
import Kandelo.Lib.Fleet
import Kandelo.Lib.History
import Mathlib.Data.List.Sort

/-!
# Resource limits and their copies

Two soft limits of a process are kept twice: the descriptor table has
`RLIMIT_NOFILE` and the memory manager has `RLIMIT_DATA`. `setrlimit` writes both copies
(`syscalls.rs:14178-14208`), but `fork`, `posix_spawn` and `exec` rebuild the
owners of the copies (`fork.rs:1115-1289`, `process_table.rs:1000-1090`,
`syscalls.rs:713-793`). The memory manager always starts over without a limit, and a fork
writes the descriptor limit as 32 bits. `limits_mirrored` says when the copies agree.
-/

namespace Kandelo.Kernel.Limits

open Lib Fleet Function
open Kandelo.Kernel.Descriptor (FdTable FdEntry)
open Kandelo.Kernel.Memory (MemoryManager)

/-- Soft and hard limit of one resource. -/
structure Rlimit where
  soft : BitVec 64
  hard : BitVec 64

/-- `RLIM_INFINITY`. -/
def infinity : BitVec 64 := BitVec.allOnes 64

/-- `RLIMIT_DATA`. -/
def rlimitData : Fin 16 := 2

/-- `RLIMIT_NOFILE`. -/
def rlimitNofile : Fin 16 := 7

/-- The fields of `Process` that hold limits, and the user that may raise them. -/
structure Process where
  euid : Nat
  rlimits : Fin 16 → Rlimit
  fdTable : FdTable
  memory : MemoryManager

namespace Process

variable (w : PointerWidth)

/-- A table without entries; `fd.rs:36-46`. -/
def emptyTable : FdTable := .withMax 1024

/-- The entries of the standard streams; `fd.rs:49-53`. -/
def preopenStdio : FdTable :=
  { emptyTable with entries := [some ⟨0, 0⟩, some ⟨1, 0⟩, some ⟨2, 0⟩], reserved_lt := nofun }

/-- `Process::new`; `process.rs:747-755`. -/
def new : Process where
  euid := 0
  rlimits r :=
    if r = rlimitNofile then ⟨1024, 4096⟩
    else if r = 3 then ⟨8 * 1024 * 1024, infinity⟩
    else ⟨infinity, infinity⟩
  fdTable := preopenStdio
  memory := .new

/-- The number of descriptors that a soft limit allows; `syscalls.rs:14194-14198`. -/
def maxFdsOf (soft : BitVec 64) : Nat :=
  if soft = infinity then 1024 * 1024 else soft.toNat % (w.usizeMax + 1)

/-- A table with another limit, `FdTable::set_max_fds`; `fd.rs:192-194`. -/
def setMaxFds (t : FdTable) (max : Nat) : FdTable := { t with maxFds := max }

variable (p : Process)

/-- `sys_setrlimit`, which `prlimit` calls with the same arguments; `syscalls.rs:14178-14208`. -/
def sysSetrlimit (resource : Nat) (soft hard : BitVec 64) : Except Errno Process :=
  if h : resource < 16 then
    if hard < soft then .error .EINVAL
    else if p.euid ≠ 0 ∧ (p.rlimits ⟨resource, h⟩).hard < hard then .error .EPERM
    else .ok { p with
      rlimits := Function.update p.rlimits ⟨resource, h⟩ ⟨soft, hard⟩
      fdTable := if resource = 7 then setMaxFds p.fdTable (maxFdsOf w soft) else p.fdTable
      memory := if resource = 2 then { p.memory with dataLimit := soft.toNat } else p.memory }
  else .error .EINVAL

/-! ### Owners that are built anew -/

/-- The memory of a forked child: addresses pass as 32 bits and the break is set again;
`fork.rs:893-916, 1258-1289`. -/
def forkMemory (m : MemoryManager) : MemoryManager :=
  let fresh := { MemoryManager.new with
    initialBrk := m.initialBrk % 2 ^ 32
    maxAddr := m.maxAddr % 2 ^ 32
    brkLimit := m.brkLimit % 2 ^ 32
    mmapBase := m.mmapBase % 2 ^ 32
    reservedUntil := m.reservedUntil % 2 ^ 32 }
  let placed := (fresh.setBrk w (m.programBreak % 2 ^ 32)).2
  let mappings := m.mappings.map fun r =>
    { r with addr := r.addr % 2 ^ 32, len := r.len % 2 ^ 32 }
  { placed with mappings := mappings.insertionSort fun a b => a.addr ≤ b.addr }

/-- The child of a fork; `fork.rs:812-828, 872-875, 1115-1138, 1212-1216`. -/
def forkChild : Process where
  euid := p.euid
  rlimits := p.rlimits
  fdTable := setMaxFds p.fdTable.inherit (p.fdTable.maxFds % 2 ^ 32)
  memory := forkMemory w p.memory

/-- The child of a spawn before its file actions; `process_table.rs:1028-1058`. -/
def spawnChild : Process :=
  { new with euid := p.euid, rlimits := p.rlimits, fdTable := p.fdTable.clone }

/-- The entries that survive `exec`. -/
def keepOnExec (t : FdTable) : FdTable :=
  { t with
    entries :=
      t.entries.map fun e => e.filter fun e => !Descriptor.has e.fdFlags Descriptor.fdCloexec
    reserved_lt := by
      intro i hi
      rw [List.length_map]
      exact t.reserved_lt i hi }

/-- `commit_exec_state_impl`: memory starts over, and the opens that wait are given up with their
numbers; `syscalls.rs:713-793`. -/
def exec : Process := { p with fdTable := (keepOnExec p.fdTable).clone, memory := .new }

/-- The older `exec` through a byte image; `fork.rs:1557-1970`. -/
def legacyExec : Process :=
  { p with
    fdTable := setMaxFds (keepOnExec p.fdTable).clone (p.fdTable.maxFds % 2 ^ 32)
    memory := .new }

end Process

/-! ### Calls that use a copy -/

/-- Calls that change the memory of a process. -/
inductive MemoryCall
  | brk (newBrk : Nat)
  | mmap (hint len prot flags : Nat)
  | munmap (addr len : Nat)
  | mremap (oldAddr oldLen newLen flags : Nat)
  | reserveHostRegion (len : Nat)
  | reserveHostRegionAt (addr len : Nat)
  | setBrkBase (addr : Nat)
  | setMaxAddr (addr : Nat)
  | setMmapBase (addr : Nat)
  | setBrkLimit (addr : Nat)

variable (w : PointerWidth) (m : MemoryManager)

/-- The address space after a call. -/
def MemoryCall.apply : MemoryCall → MemoryManager
  | .brk newBrk => (m.setBrk w newBrk).2
  | .mmap hint len prot flags => (m.mmapAnonymous w hint len prot flags).2
  | .munmap addr len => (m.munmap w addr len).2
  | .mremap oldAddr oldLen newLen flags => (m.sysMremap w oldAddr oldLen newLen flags).2
  | .reserveHostRegion len => (m.reserveHostRegion w len).2
  | .reserveHostRegionAt addr len => (m.reserveHostRegionAt w addr len).2
  | .setBrkBase addr => m.setBrkBase w addr
  | .setMaxAddr addr => m.setMaxAddr addr
  | .setMmapBase addr => m.setMmapBase w addr
  | .setBrkLimit addr => m.setBrkLimit addr

variable (t : FdTable)

/-- Calls that change the descriptors of a process. -/
inductive FdCall
  | alloc (r : Nat) (flags : BitVec 32) (minFd : Int)
  | reserve
  | installReserved (fd r : Nat) (flags : BitVec 32)
  | releaseReserved (fd : Nat)
  | free (fd : Nat)
  | setAt (fd r : Nat) (flags : BitVec 32)

/-- The descriptor a call returns, if it returns one, and the table after it. -/
def FdCall.run : FdCall → Option Nat × FdTable
  | .alloc r flags minFd =>
    match t.allocAtMin r flags minFd with
    | .ok (fd, t) => (some fd, t)
    | .error _ => (none, t)
  | .reserve =>
    match t.reserve with
    | .ok (fd, t) => (some fd, t)
    | .error _ => (none, t)
  | .installReserved fd r flags =>
    match t.installReserved fd r flags with
    | .ok t => (none, t)
    | .error _ => (none, t)
  | .releaseReserved fd => (none, t.releaseReserved fd)
  | .free fd => (none, t.free fd)
  | .setAt fd r flags =>
    match t.setAt fd r flags with
    | (.ok _, t) => (some fd, t)
    | (.error _, t) => (none, t)

/-- The processes. -/
abbrev System := Fleet Nat Process

/-- What happens to the limits and their copies. -/
inductive Call
  | create (pid : Nat)
  | setrlimit (pid resource : Nat) (soft hard : BitVec 64)
  | seteuid (pid uid : Nat)
  | fork (pid child : Nat)
  | spawn (pid child : Nat) (fileActions : List FdCall)
  | exec (pid : Nat)
  | legacyExec (pid : Nat)
  | memory (pid : Nat) (call : MemoryCall)
  | descriptor (pid : Nat) (call : FdCall)
  | exit (pid : Nat)

/-- The process a call is made by, unless it is created. -/
def Call.caller : Call → Option Nat
  | .create _ => none
  | .setrlimit pid _ _ _ | .seteuid pid _ | .fork pid _ | .spawn pid _ _ | .exec pid
  | .legacyExec pid | .memory pid _ | .descriptor pid _ | .exit pid => some pid

/-- The process that a call creates. -/
def Call.created : Call → Option Nat
  | .create pid => some pid
  | .fork _ child | .spawn _ child _ => some child
  | .setrlimit .. | .seteuid .. | .exec _ | .legacyExec _ | .memory .. | .descriptor .. | .exit _ =>
    none

variable (s : System) (call : Call)

/-- The caller exists and the process to be created does not. -/
def Call.Possible : Prop :=
  (∀ pid ∈ call.caller, pid ∈ s.live) ∧ ∀ pid ∈ call.created, pid ∉ s.live

instance (s : System) (call : Call) : Decidable (call.Possible s) :=
  inferInstanceAs (Decidable ((∀ pid ∈ call.caller, _) ∧ ∀ pid ∈ call.created, _))

variable (fileActions : List FdCall)

/-- The table after the file actions of a spawn. -/
def afterActions : FdTable :=
  fileActions.foldl (fun t call => (call.run t).2) t

/-- What a possible call does. -/
def Call.effect (s : System) : Call → System
  | .create pid => s.add pid .new
  | .setrlimit pid resource soft hard =>
    match (s.state pid).sysSetrlimit w resource soft hard with
    | .ok p => s.set pid p
    | .error _ => s
  | .seteuid pid uid => s.set pid { s.state pid with euid := uid }
  | .fork pid child => s.add child ((s.state pid).forkChild w)
  | .spawn pid child fileActions =>
    let p := (s.state pid).spawnChild
    s.add child { p with fdTable := afterActions p.fdTable fileActions }
  | .exec pid => s.set pid (s.state pid).exec
  | .legacyExec pid => s.set pid (s.state pid).legacyExec
  | .memory pid call => s.set pid { s.state pid with memory := call.apply w (s.state pid).memory }
  | .descriptor pid call =>
    s.set pid { s.state pid with fdTable := (call.run (s.state pid).fdTable).2 }
  | .exit pid => s.remove pid

/-- The system after a call. -/
def Call.apply : System :=
  if call.Possible s then call.effect w s else s

/-- The system after some calls, the latest first. -/
def after (calls : List Call) : System :=
  calls.foldr (fun call s => call.apply w s) ⟨∅, fun _ => .new⟩

/-! ### What keeps the copies -/

section

variable {w : PointerWidth} {m m' : MemoryManager} {t : FdTable} {addr : Nat}

lemma dataLimit_setBrk (newBrk : Nat) : (m.setBrk w newBrk).2.dataLimit = m.dataLimit := by
  unfold MemoryManager.setBrk
  split <;> rfl

lemma dataLimit_placed {hint len : Nat} {flags : Nat}
    (h : (if hint ≠ 0 && Memory.isFixed flags then m.placeFixed w hint len
      else m.placeAnywhere w hint len) = some (addr, m')) : m'.dataLimit = m.dataLimit := by
  split at h
  · unfold MemoryManager.placeFixed at h
    dsimp only at h
    split at h
    · cases h
    · cases h
      rfl
  · unfold MemoryManager.placeAnywhere at h
    dsimp only at h
    split at h
    · cases h
      rfl
    · obtain ⟨_, -, he⟩ := Option.map_eq_some_iff.mp h
      cases he
      rfl

lemma dataLimit_mmapAnonymous (hint len prot flags : Nat) :
    (m.mmapAnonymous w hint len prot flags).2.dataLimit = m.dataLimit := by
  unfold MemoryManager.mmapAnonymous
  split
  · rfl
  split
  · rfl
  dsimp only
  split
  · rfl
  next hplaced =>
  have hkept := dataLimit_placed hplaced
  exact hkept

lemma dataLimit_munmap (addr len : Nat) : (m.munmap w addr len).2.dataLimit = m.dataLimit := by
  unfold MemoryManager.munmap
  split
  · rfl
  split <;> rfl

lemma dataLimit_extendMapping (addr oldLen newLen : Nat) :
    (m.extendMapping addr oldLen newLen).2.dataLimit = m.dataLimit := by
  unfold MemoryManager.extendMapping
  dsimp only
  split <;> rfl

lemma dataLimit_growInPlace {oldLen newLen : Nat} {found : Bool}
    (h : m.growInPlace w addr oldLen newLen = some (found, m')) : m'.dataLimit = m.dataLimit := by
  unfold MemoryManager.growInPlace at h
  split at h
  · have hext := dataLimit_extendMapping (m := m) addr oldLen newLen
    rw [Option.some.inj h] at hext
    exact hext
  · cases h

lemma dataLimit_sysMremap (oldAddr oldLen newLen flags : Nat) :
    (m.sysMremap w oldAddr oldLen newLen flags).2.dataLimit = m.dataLimit :=
  MemoryManager.sysMremap_rule (I := fun m' => m'.dataLimit = m.dataLimit)
    (fun _ _ _ h => (dataLimit_munmap _ _).trans h)
    (fun _ _ _ _ _ h => (dataLimit_mmapAnonymous _ _ _ _).trans h)
    (fun _ _ _ _ _ _ _ h hg => (dataLimit_growInPlace hg).trans h) rfl oldAddr oldLen newLen flags

lemma dataLimit_apply (call : MemoryCall) : (call.apply w m).dataLimit = m.dataLimit := by
  cases call with
  | brk => rw [MemoryCall.apply, dataLimit_setBrk]
  | mmap => rw [MemoryCall.apply, dataLimit_mmapAnonymous]
  | munmap => rw [MemoryCall.apply, dataLimit_munmap]
  | mremap => rw [MemoryCall.apply, dataLimit_sysMremap]
  | reserveHostRegion =>
    rw [MemoryCall.apply, MemoryManager.reserveHostRegion]
    split
    · rfl
    split
    · rfl
    split <;> rfl
  | reserveHostRegionAt =>
    rw [MemoryCall.apply, MemoryManager.reserveHostRegionAt]
    split
    · rfl
    split
    · rfl
    split
    · rfl
    split <;> rfl
  | setBrkBase => rw [MemoryCall.apply, MemoryManager.setBrkBase]
  | setMaxAddr =>
    rw [MemoryCall.apply, MemoryManager.setMaxAddr]
    split <;> rfl
  | setMmapBase => rw [MemoryCall.apply, MemoryManager.setMmapBase]
  | setBrkLimit =>
    rw [MemoryCall.apply, MemoryManager.setBrkLimit]
    split <;> rfl

lemma run_within {call : FdCall} :
    (call.run t).2.maxFds = t.maxFds ∧ ∀ fd ∈ (call.run t).1, fd < t.maxFds := by
  have hnone : ∀ fd ∈ (none : Option Nat), fd < t.maxFds := by rintro _ ⟨⟩
  cases call with
  | alloc | reserve =>
    simp only [FdCall.run, FdTable.allocAtMin, FdTable.reserve]
    split
    · next heq =>
      split at heq
      · cases heq
      next hlt =>
      cases heq
      exact ⟨rfl, fun fd hfd => by cases hfd; omega⟩
    · exact ⟨rfl, hnone⟩
  | installReserved =>
    simp only [FdCall.run, FdTable.installReserved]
    split
    · next heq =>
      split at heq
      · cases heq
        exact ⟨rfl, hnone⟩
      · cases heq
    · exact ⟨rfl, hnone⟩
  | releaseReserved => exact ⟨rfl, hnone⟩
  | free => exact ⟨rfl, hnone⟩
  | setAt fd =>
    unfold FdCall.run FdTable.setAt
    dsimp only
    by_cases hmax : t.maxFds ≤ fd
    · rw [if_pos hmax]
      exact ⟨rfl, hnone⟩
    rw [if_neg hmax]
    by_cases hres : fd ∈ (t.grownTo (fd + 1)).reserved
    · rw [if_pos hres]
      exact ⟨rfl, hnone⟩
    · rw [if_neg hres]
      exact ⟨rfl, fun fd hfd => by cases hfd; omega⟩

lemma maxFds_afterActions : (afterActions t fileActions).maxFds = t.maxFds := by
  induction fileActions generalizing t with
  | nil => rfl
  | cons call rest ih => exact ih.trans run_within.1

end

/-! ### When the copies agree -/

/-- The copies are those of the soft limits. -/
structure Process.Mirrored (w : PointerWidth) (p : Process) : Prop where
  data : p.memory.dataLimit = (p.rlimits rlimitData).soft.toNat
  nofile : p.fdTable.maxFds = Process.maxFdsOf w (p.rlimits rlimitNofile).soft

/-- The limit on data is infinite. -/
def Process.Unlimited (p : Process) : Prop := (p.rlimits rlimitData).soft = infinity

namespace Process

variable {w : PointerWidth} {p p' : Process}

lemma mirrored_new : new.Mirrored w := by
  refine ⟨rfl, ?_⟩
  cases w <;> decide

lemma unlimited_iff :
    p.Unlimited ↔ MemoryManager.new.dataLimit = (p.rlimits rlimitData).soft.toNat := by
  rw [Unlimited, ← BitVec.toNat_inj, eq_comm]
  rfl

lemma dataLimit_forkMemory : (forkMemory w m).dataLimit = MemoryManager.new.dataLimit :=
  dataLimit_setBrk _

section

variable (h : p.Mirrored w)

include h

lemma Mirrored.sysSetrlimit {resource : Nat} {soft hard : BitVec 64}
    (hset : p.sysSetrlimit w resource soft hard = .ok p') : p'.Mirrored w := by
  unfold Process.sysSetrlimit at hset
  split at hset
  swap
  · cases hset
  next hlt =>
  split at hset
  · cases hset
  split at hset
  · cases hset
  cases hset
  constructor
  · change (if resource = 2 then _ else p.memory : MemoryManager).dataLimit =
      (Function.update p.rlimits ⟨resource, hlt⟩ ⟨soft, hard⟩ rlimitData).soft.toNat
    by_cases h2 : resource = 2
    · subst h2
      have hself : Function.update p.rlimits ⟨2, hlt⟩ ⟨soft, hard⟩ rlimitData = ⟨soft, hard⟩ :=
        update_self ..
      rw [if_pos rfl, hself]
    · rw [if_neg h2, update_of_ne fun he => h2 (Fin.val_eq_of_eq he).symm]
      exact h.data
  · change (if resource = 7 then _ else p.fdTable : FdTable).maxFds =
      maxFdsOf w (Function.update p.rlimits ⟨resource, hlt⟩ ⟨soft, hard⟩ rlimitNofile).soft
    by_cases h7 : resource = 7
    · subst h7
      rfl
    · rw [if_neg h7, update_of_ne fun he => h7 (Fin.val_eq_of_eq he).symm]
      exact h.nofile

/-- A forked child has the copies of its limits exactly if there is no limit on the data segment and
the descriptor limit fits 32 bits. -/
lemma Mirrored.truncated_iff :
    p.fdTable.maxFds % 2 ^ 32 = maxFdsOf w (p.rlimits rlimitNofile).soft ↔
      p.fdTable.maxFds < 2 ^ 32 := by
  rw [← h.nofile]
  exact Nat.mod_eq_iff_lt (by decide)

lemma Mirrored.forkChild_iff :
    (p.forkChild w).Mirrored w ↔ p.Unlimited ∧ p.fdTable.maxFds < 2 ^ 32 := by
  rw [unlimited_iff, ← h.truncated_iff]
  constructor
  · rintro ⟨hdata, hfds⟩
    exact ⟨(dataLimit_forkMemory p.memory).symm.trans hdata, hfds⟩
  · rintro ⟨hdata, hfds⟩
    exact ⟨(dataLimit_forkMemory p.memory).trans hdata, hfds⟩

lemma Mirrored.spawnChild_iff :
    { p.spawnChild with fdTable := afterActions p.spawnChild.fdTable fileActions }.Mirrored w ↔
      p.Unlimited := by
  rw [unlimited_iff]
  exact ⟨fun hm => hm.data, fun hdata => ⟨hdata, (maxFds_afterActions fileActions).trans h.nofile⟩⟩

lemma Mirrored.exec_iff : p.exec.Mirrored w ↔ p.Unlimited := by
  rw [unlimited_iff]
  exact ⟨fun hm => hm.data, fun hdata => ⟨hdata, h.nofile⟩⟩

lemma Mirrored.legacyExec_iff :
    p.legacyExec.Mirrored w ↔ p.Unlimited ∧ p.fdTable.maxFds < 2 ^ 32 := by
  rw [unlimited_iff, ← h.truncated_iff]
  exact ⟨fun hm => ⟨hm.data, hm.nofile⟩, fun hm => ⟨hm.1, hm.2⟩⟩

end

end Process

/-- Every live process mirrors its limits. -/
def Mirrored (w : PointerWidth) (s : System) : Prop := ∀ pid ∈ s.live, (s.state pid).Mirrored w

/-- What the call builds anew has the copies of its limits. -/
def Call.KeepsCopies : Call → Prop
  | .fork pid _ | .legacyExec pid =>
    (s.state pid).Unlimited ∧ (s.state pid).fdTable.maxFds < 2 ^ 32
  | .spawn pid _ _ | .exec pid => (s.state pid).Unlimited
  | .create _ | .setrlimit .. | .seteuid .. | .memory .. | .descriptor .. | .exit _ => True

/-- The call is impossible, or it does not lose a copy. -/
def Call.Fits : Prop := call.Possible s → call.KeepsCopies s

section

variable {w : PointerWidth} {s : System} {pid : Nat} {p : Process}

lemma Mirrored.set_iff (h : Mirrored w s) (hpid : pid ∈ s.live) :
    Mirrored w (s.set pid p) ↔ p.Mirrored w := by
  constructor
  · intro hs
    have hp := hs pid hpid
    rwa [state_set_self] at hp
  intro hp j hj
  by_cases hj' : j = pid
  · subst hj'
    rwa [state_set_self]
  · rw [state_set_of_ne hj']
    exact h j hj

lemma Mirrored.add_iff (h : Mirrored w s) : Mirrored w (s.add pid p) ↔ p.Mirrored w := by
  constructor
  · intro hs
    have hp := hs pid (mem_live_add.mpr (.inl rfl))
    rwa [state_add_self] at hp
  intro hp j hj
  by_cases hj' : j = pid
  · subst hj'
    rwa [state_add_self]
  · rw [state_add_of_ne hj']
    exact h j ((mem_live_add.mp hj).resolve_left hj')

lemma Mirrored.apply_iff (h : Mirrored w s) (call : Call) :
    Mirrored w (call.apply w s) ↔ call.Fits s := by
  unfold Call.apply
  split
  swap
  · next himp => exact ⟨fun _ hposs => absurd hposs himp, fun _ => h⟩
  next hposs =>
  rw [Call.Fits, forall_prop_of_true hposs]
  have hlive : ∀ pid, call.caller = some pid → (s.state pid).Mirrored w := fun pid hcaller =>
    h pid (hposs.1 pid hcaller)
  cases call with
  | create => exact h.add_iff.trans (iff_true_intro Process.mirrored_new)
  | setrlimit pid =>
    simp only [Call.effect, Call.KeepsCopies, iff_true]
    split
    · next hset => exact (h.set_iff (hposs.1 pid rfl)).mpr ((hlive pid rfl).sysSetrlimit hset)
    · exact h
  | seteuid pid =>
    have hp := hlive pid rfl
    exact (h.set_iff (hposs.1 pid rfl)).trans (iff_true_intro ⟨hp.data, hp.nofile⟩)
  | fork pid => exact h.add_iff.trans (hlive pid rfl).forkChild_iff
  | spawn pid child fileActions =>
    exact h.add_iff.trans ((hlive pid rfl).spawnChild_iff fileActions)
  | exec pid => exact (h.set_iff (hposs.1 pid rfl)).trans (hlive pid rfl).exec_iff
  | legacyExec pid => exact (h.set_iff (hposs.1 pid rfl)).trans (hlive pid rfl).legacyExec_iff
  | memory pid call =>
    have hp := hlive pid rfl
    exact (h.set_iff (hposs.1 pid rfl)).trans
      (iff_true_intro ⟨(dataLimit_apply call).trans hp.data, hp.nofile⟩)
  | descriptor pid call =>
    have hp := hlive pid rfl
    exact (h.set_iff (hposs.1 pid rfl)).trans
      (iff_true_intro ⟨hp.data, run_within.1.trans hp.nofile⟩)
  | exit => exact iff_of_true (fun j hj => h j (mem_live_remove.mp hj).2) trivial

lemma mirrored_after {calls : List Call}
    (h : Always (fun call earlier => call.Fits (after w earlier)) calls) :
    Mirrored w (after w calls) := by
  induction calls with
  | nil => exact fun pid hpid => absurd hpid (Finset.notMem_empty pid)
  | cons call earlier ih =>
    rw [Always.cons_iff] at h
    exact ((ih h.2).apply_iff call).mpr h.1

/-- A break that a call moves up stays within the limit on the data segment, and a descriptor it
returns is below the limit on descriptors. -/
def Call.Respects (w : PointerWidth) (s : System) : Call → Prop
  | .memory pid (.brk newBrk) =>
    let p := s.state pid
    let m := (p.memory.setBrk w newBrk).2
    m.programBreak ≠ p.memory.programBreak →
      m.programBreak - m.initialBrk ≤ (p.rlimits rlimitData).soft.toNat
  | .descriptor pid call =>
    let p := s.state pid
    ∀ fd ∈ (call.run p.fdTable).1, fd < Process.maxFdsOf w (p.rlimits rlimitNofile).soft
  | _ => True

lemma Mirrored.respects (h : Mirrored w s) {call : Call} (hposs : call.Possible s) :
    call.Respects w s := by
  unfold Call.Respects
  split
  · next pid newBrk =>
    have hp := h pid (hposs.1 pid rfl)
    intro p m hmoved
    refine Nat.le_trans (m := p.memory.dataLimit) ?_ (Nat.le_of_eq hp.data)
    simp only [m, MemoryManager.setBrk] at hmoved ⊢
    split
    · next hfail =>
      rw [if_pos hfail] at hmoved
      exact absurd rfl hmoved
    · next hok =>
      simp only [Bool.or_eq_true, Bool.and_eq_true, decide_eq_true_eq] at hok
      dsimp only
      omega
  · next pid call =>
    have hp := h pid (hposs.1 pid rfl)
    intro p fd hfd
    exact Nat.lt_of_lt_of_eq (run_within.2 fd hfd) hp.nofile
  · trivial

/-- The copies of the limits agree at every moment of a run exactly if no process with a limit on
its data segment forks, spawns or executes a program, and none whose descriptor
limit exceeds 32 bits forks; in such a run the break and the descriptors stay within the limits. -/
theorem limits_mirrored (w : PointerWidth) (calls : List Call) :
    (Always (fun call earlier => Mirrored w (call.apply w (after w earlier))) calls ↔
      Always (fun call earlier => call.Fits (after w earlier)) calls) ∧
    (Always (fun call earlier => call.Fits (after w earlier)) calls →
      Always
        (fun call earlier => call.Possible (after w earlier) → call.Respects w (after w earlier))
        calls) := by
  induction calls with
  | nil => exact ⟨iff_of_true Always.nil Always.nil, fun _ => Always.nil⟩
  | cons call earlier ih =>
    rw [Always.cons_iff, Always.cons_iff, Always.cons_iff, ih.1]
    constructor
    · refine and_congr_left fun hearlier => ?_
      exact (mirrored_after hearlier).apply_iff call
    · rintro ⟨-, hearlier⟩
      exact ⟨(mirrored_after hearlier).respects, ih.2 hearlier⟩

/-- A process with a limit of one page on its data segment forks. -/
def limitedFork : List Call := [.fork 1 2, .setrlimit 1 2 4096 4096, .create 1]

/-- The child of a limited process has no copy of the limit, and its break moves past it. -/
theorem limits_mirrored_fork :
    ¬ Mirrored .wasm32 (after .wasm32 limitedFork) ∧
      ¬ (Call.memory 2 (.brk 0x01010000)).Respects .wasm32 (after .wasm32 limitedFork) := by
  constructor
  · intro h
    have hdata := (h 2 (by decide)).data
    exact absurd hdata (by decide)
  · intro h
    have hgrowth := h (by decide)
    exact absurd hgrowth (by decide)

end

end Kandelo.Kernel.Limits
