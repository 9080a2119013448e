import Kandelo.Kernel.Descriptor.RestoredFifo

/-!
# Calls that make descriptors, all or nothing

When `open`, `pipe`, `socket` and `socketpair` leave everything as it was if they
fail. For each call this is a condition on the state before it, and the call is all or nothing if
and only if the condition holds. It asks in the first place for as many free descriptors below
`RLIMIT_NOFILE` as the call takes: the entries that are made before the descriptors are not removed
when there are none.
-/

namespace Kandelo.Kernel.Descriptor

open Lib
open Lib.Effect
open Kandelo.Kernel.Path (Bytes bytes ResolvedNamespacePath)
open File (FileType oPath)
open Pipe

variable {w : World} {host : Host} {path : Bytes} {oflags mode sockType domain : BitVec 32}

/-! ### Opening -/

/-- When a failed open of a named pipe undoes what it has done. -/
def FifoKeeps (host : Host) (w : World) (pipe : Nat) (path : Bytes) (oflags : BitVec 32) : Prop :=
  exclusiveCreate oflags = false → has oflags oDirectory = false →
    if has oflags oPath = true then
      ∀ u w1, exec (lookup (checkSearchPath w.caller host.toHost path)) w = (.ok u, w1) →
        WithdrawKeeps w1 pipe .Path
    else ∀ created w1, exec (checkOpenPermissions host path oflags) w = (.ok created, w1) →
      EndsKeep w1 pipe oflags

/-- When a failed open of a target undoes what it has done. -/
def TargetKeeps (host : Host) (w : World) (path : Bytes) (oflags mode : BitVec 32) : Target → Prop
  | .devFd fd => ∀ entry, w.fds.get fd = .ok entry → ShareKeeps w entry.ofdRef
  | .device dev => Busy w dev ∨ 0 < w.fds.spare
  | .ptmx => w.ptys.alloc = none ∨ 0 < w.fds.spare
  | .pts => OpensPts w path → 0 < w.fds.spare
  | .tty => ∀ ofd, w.controllingTty = some ofd → ShareKeeps w ofd
  | .fifo pipe => FifoKeeps host w pipe path oflags
  | .procfs _ | .synthetic => True
  | .devfsDir => 0 < w.fds.spare
  | .hostFile => ∀ created w1, exec (checkOpenPermissions host path oflags) w = (.ok created, w1) →
      ∀ handle w2, exec (hostOpen host path oflags mode) w1 = (.ok handle, w2) →
        HandleKeeps host created path handle w2

lemma allOrNothing_openFifo_iff (pipe : Nat) :
    AllOrNothing (openFifo host pipe path oflags (exclusiveCreate oflags)) w ↔
      FifoKeeps host w pipe path oflags := by
  unfold openFifo FifoKeeps
  split
  · next hexcl =>
    refine iff_of_true (undoes_of_same_error equivalence_restored rfl) fun h => ?_
    rw [hexcl] at h
    cases h
  split
  · next hdir =>
    refine iff_of_true (undoes_of_same_error equivalence_restored rfl) fun _ h => ?_
    rw [hdir] at h
    cases h
  · next hexcl hdir =>
    rw [Bool.not_eq_true] at hexcl hdir
    simp only [hexcl, hdir, forall_const]
    split
    · exact allOrNothing_openFifoPath_iff
    · exact allOrNothing_openFifoEnds_iff

lemma allOrNothing_openTarget_iff (target : Target) :
    AllOrNothing (openTarget host path oflags mode target) w ↔
      TargetKeeps host w path oflags mode target := by
  cases target with
  | devFd fd =>
    rw [openTarget, openDevFd, allOrNothing_world_bind_iff, AllOrNothing,
      undoes_ofExcept_bind_iff equivalence_restored]
    exact forall₂_congr fun entry _ => allOrNothing_share_iff
  | device dev => exact allOrNothing_openDevice_iff dev
  | ptmx => exact allOrNothing_openPtmx_iff
  | pts => exact allOrNothing_openPts_iff
  | tty => exact allOrNothing_openTty_iff
  | fifo pipe => exact allOrNothing_openFifo_iff pipe
  | procfs kind => exact iff_of_true (allOrNothing_procfsOpen kind) trivial
  | devfsDir => exact allOrNothing_devfsOpenDir_iff
  | synthetic => exact iff_of_true allOrNothing_openSynthetic trivial
  | hostFile => exact allOrNothing_openHostFile_iff

/-- When `open` keeps what there was: with an open that the thread waits for, by that one; and
otherwise by what the path is found to name. -/
def OpenKeeps (host : Host) (w : World) (path : Bytes) (oflags mode : BitVec 32) : Prop :=
  match w.pendingFifoOpen with
  | some (_, waiter) => ResumeKeeps w waiter
  | none => ∀ entry w1, exec (lookup (resolveNamespacePath w.caller host.toHost
        (openOptions oflags) path w.task.cwd)) w = (.ok entry, w1) →
      refuseLink oflags entry.stat = .ok () →
        TargetKeeps host w1 entry.path oflags (w.effectiveMode oflags mode)
          (w.task.target entry.path)

lemma allOrNothing_sysOpen_iff :
    AllOrNothing (sysOpen host path oflags mode) w ↔ OpenKeeps host w path oflags mode := by
  unfold OpenKeeps
  cases hpending : w.pendingFifoOpen with
  | some pending =>
    obtain ⟨pipe, waiter⟩ := pending
    dsimp only
    rw [← allOrNothing_resumeFifoOpen_iff hpending]
    rcases hresume : exec resumeFifoOpen w with ⟨e | r, w1⟩
    · rw [AllOrNothing, AllOrNothing, sysOpen, undoes_iff_of_error hresume,
        undoes_iff_of_error (exec_bind_of_error hresume)]
    · obtain ⟨fd, rfl⟩ := exec_resumeFifoOpen_pending (by rw [hpending]; rintro ⟨⟩) hresume
      exact iff_of_true (undoes_of_ok (exec_bind_of_ok hresume)) (undoes_of_ok hresume)
  | none =>
    have hresume : exec resumeFifoOpen w = (.ok none, w) := by
      rw [resumeFifoOpen, exec_world_bind, hpending]
      rfl
    rw [AllOrNothing, Undoes, sysOpen, exec_bind_of_ok hresume]
    change AllOrNothing (openFresh host path oflags mode) w ↔ _
    rw [openFresh, allOrNothing_world_bind_iff, allOrNothing_asked_bind_iff asked_lookup]
    refine forall₃_congr fun entry w1 _ => ?_
    rw [AllOrNothing, undoes_ofExcept_bind_iff equivalence_restored]
    constructor
    · exact fun h hlink => (allOrNothing_openTarget_iff _).mp (h () hlink)
    · exact fun h _ hlink => (allOrNothing_openTarget_iff _).mpr (h hlink)

/-! ### Creating -/

lemma exec_installPipe (readOfd writeOfd : Nat) (w : World) :
    if 2 ≤ w.fds.spare then ∃ fds w', exec (installPipe readOfd writeOfd) w = (.ok fds, w')
    else ∃ w', exec (installPipe readOfd writeOfd) w = (.error .EMFILE, w') ∧
      w'.pipes = w.pipes := by
  unfold installPipe
  by_cases hfull : w.fds.spare = 0
  · rw [if_neg (by omega), exec_allocFdOr_of_full hfull]
    exact ⟨_, rfl, rfl⟩
  obtain ⟨fds, hfds, hrun⟩ := exec_allocFdOr_of_spare (Nat.pos_of_ne_zero hfull)
  have hspare := FdTable.spare_alloc hfds
  dsimp only
  rw [hrun]
  by_cases hone : fds.spare = 0
  · rw [if_neg (by omega), exec_allocFdOr_of_full (by exact hone)]
    exact ⟨_, rfl, rfl⟩
  rw [if_pos (by omega)]
  obtain ⟨fds', -, hrun'⟩ := exec_allocFdOr_of_spare (w := { w with fds }) (Nat.pos_of_ne_zero hone)
  exact ⟨_, _, hrun'⟩

lemma allOrNothing_createPipe_iff : AllOrNothing createPipe w ↔ 2 ≤ w.fds.spare := by
  -- the pipe is in the table before the descriptors are taken, and stays there
  have hx : ∃ readOfd writeOfd w1, exec createPipe w = exec (installPipe readOfd writeOfd) w1 ∧
      w1.fds = w.fds ∧ w1.pipes = w.pipes.alloc .new := ⟨_, _, _, rfl, rfl, rfl⟩
  obtain ⟨readOfd, writeOfd, w1, hx, hfds, hpipes⟩ := hx
  have hinstall := exec_installPipe readOfd writeOfd w1
  rw [hfds] at hinstall
  split at hinstall
  · next hspare =>
    obtain ⟨fds, w', hok⟩ := hinstall
    exact iff_of_true (undoes_of_ok (hx.trans hok)) hspare
  next hspare =>
  obtain ⟨w', herr, hpipes'⟩ := hinstall
  refine iff_of_false ?_ hspare
  rw [AllOrNothing, undoes_iff_of_error (hx.trans herr)]
  intro h
  have hslot := h.pipes w.pipes.nextSlot
  rw [hpipes', hpipes, PipeTable.get_alloc, if_pos rfl, PipeTable.get_nextSlot] at hslot
  cases hslot

/-- When `pipe` keeps what there was. -/
def PipeKeeps (w : World) : Prop :=
  w.task.forkChild = true ∧ w.forkPipeReplay ≠ [] ∨ 2 ≤ w.fds.spare

lemma allOrNothing_sysPipe_iff : AllOrNothing sysPipe w ↔ PipeKeeps w := by
  unfold PipeKeeps
  rw [sysPipe, allOrNothing_world_bind_iff]
  cases hchild : w.task.forkChild with
  | false => simpa using allOrNothing_createPipe_iff
  | true =>
    cases hreplay : w.forkPipeReplay with
    | nil => simpa using allOrNothing_createPipe_iff
    | cons fds rest =>
      refine iff_of_true ?_ (.inl ⟨rfl, List.cons_ne_nil fds rest⟩)
      exact undoes_of_ok (exec_change_bind _ w)

/-- When `socket` keeps what there was. -/
def SocketKeeps (w : World) (domain sockType : BitVec 32) : Prop :=
  ∀ dom, socketDomain domain = .ok dom → ∀ stype, socketType sockType = .ok stype → 0 < w.fds.spare

lemma allOrNothing_sysSocket_iff {protocol : BitVec 32} :
    AllOrNothing (sysSocket domain sockType protocol) w ↔ SocketKeeps w domain sockType := by
  rw [sysSocket, AllOrNothing, undoes_ofExcept_bind_iff equivalence_restored]
  refine forall₂_congr fun dom _ => ?_
  rw [undoes_ofExcept_bind_iff equivalence_restored]
  refine forall₂_congr fun stype _ => ?_
  exact allOrNothing_open_iff rfl (by rfl) (by rfl)

lemma exec_allocTwo (ofdA ofdB : Nat) (flags : BitVec 32) (w : World) :
    let x : Sys (Nat × Nat) := do
      let fd0 ← allocFd ofdA flags
      let fd1 ← allocFd ofdB flags
      pure (fd0, fd1)
    if 2 ≤ w.fds.spare then ∃ fds w', exec x w = (.ok fds, w')
    else ∃ w', exec x w = (.error .EMFILE, w') ∧ w'.ofds = w.ofds := by
  intro x
  by_cases hfull : w.fds.spare = 0
  · rw [if_neg (by omega)]
    exact ⟨w, exec_bind_of_error (exec_allocFd_of_full hfull), rfl⟩
  obtain ⟨fds, hfds, hrun⟩ := exec_allocFd_of_spare (Nat.pos_of_ne_zero hfull)
  have hspare := FdTable.spare_alloc hfds
  have hx : exec x w = exec (allocFd ofdB flags >>= fun fd1 => pure (w.fds.lowest, fd1))
      { w with fds } := exec_bind_of_ok hrun
  rw [hx]
  by_cases hone : fds.spare = 0
  · rw [if_neg (by omega)]
    exact ⟨{ w with fds }, exec_bind_of_error (exec_allocFd_of_full (by exact hone)), rfl⟩
  rw [if_pos (by omega)]
  obtain ⟨fds', -, hrun'⟩ := exec_allocFd_of_spare (w := { w with fds }) (Nat.pos_of_ne_zero hone)
  exact ⟨_, _, exec_bind_of_ok hrun'⟩

/-- When `socketpair` keeps what there was. -/
def SocketpairKeeps (w : World) (domain sockType : BitVec 32) : Prop :=
  domain = 1 → ∀ stype, pairType sockType = .ok stype → 2 ≤ w.fds.spare

lemma allOrNothing_sysSocketpair_iff :
    AllOrNothing (sysSocketpair domain sockType) w ↔ SocketpairKeeps w domain sockType := by
  unfold sysSocketpair SocketpairKeeps
  split
  · next hdomain =>
    exact iff_of_true (undoes_of_same_error equivalence_restored rfl) fun h => absurd h hdomain
  next hdomain =>
  rw [not_not] at hdomain
  rw [AllOrNothing, undoes_ofExcept_bind_iff equivalence_restored]
  simp only [hdomain, forall_const]
  refine forall₂_congr fun stype _ => ?_
  have hpair : ∃ ofdA ofdB w1, exec (createPair stype (socketStatus sockType)) w =
      (.ok (ofdA, ofdB), w1) ∧ w1.fds = w.fds ∧ (w1.ofds.get w.ofds.firstFree).isSome = true := by
    refine ⟨_, _, _, rfl, rfl, ?_⟩
    change (((w.ofds.insert _).insert _).get w.ofds.firstFree).isSome = true
    rw [Slots.get_insert]
    split
    · rfl
    · rw [Slots.get_insert, if_pos rfl]
      rfl
  obtain ⟨ofdA, ofdB, w1, hpair, hfds, hnew⟩ := hpair
  have hallocs := exec_allocTwo ofdA ofdB (socketFdFlags sockType) w1
  rw [hfds] at hallocs
  dsimp only at hallocs
  split at hallocs
  · next hspare =>
    obtain ⟨fds, w', hok⟩ := hallocs
    exact iff_of_true (undoes_of_ok ((exec_bind_of_ok hpair).trans hok)) hspare
  next hspare =>
  obtain ⟨w', herr, hofds⟩ := hallocs
  refine iff_of_false ?_ hspare
  rw [undoes_iff_of_error ((exec_bind_of_ok hpair).trans herr)]
  apply not_restored_of_new w.ofds.get_firstFree
  rw [hofds, hnew]

/-! ### The calls -/

/-- A call that makes descriptors, with its arguments. -/
inductive Call
  | openFile (path : Bytes) (oflags mode : BitVec 32)
  | pipe
  | socket (domain sockType protocol : BitVec 32)
  | socketpair (domain sockType protocol : BitVec 32)

/-- The descriptors that a call returns. -/
def Call.run (host : Host) : Call → Sys (List Nat)
  | .openFile path oflags mode => do
    let fd ← sysOpen host path oflags mode
    pure [fd]
  | .pipe => do
    let fds ← sysPipe
    pure [fds.1, fds.2]
  | .socket domain sockType protocol => do
    let fd ← sysSocket domain sockType protocol
    pure [fd]
  | .socketpair domain sockType _ => do
    let fds ← sysSocketpair domain sockType
    pure [fds.1, fds.2]

/-- The condition on the state and the arguments under which the call is all or nothing. -/
def Call.Keeps (host : Host) (w : World) : Call → Prop
  | .openFile path oflags mode => OpenKeeps host w path oflags mode
  | .pipe => PipeKeeps w
  | .socket domain sockType _ => SocketKeeps w domain sockType
  | .socketpair domain sockType _ => SocketpairKeeps w domain sockType

/-- For every state, host and call: a failure of the call leaves descriptors, descriptions, pipes,
sockets, terminals and owners of devices as they were, with the handles that the host has opened
closed again, if and only if the condition of the call holds in the state before. -/
theorem call_allOrNothing_iff (host : Host) (c : Call) (w : World) :
    (∀ e w', exec (c.run host) w = (.error e, w') → Restored w w') ↔ c.Keeps host w := by
  change Undoes Restored (c.run host) w ↔ c.Keeps host w
  cases c with
  | openFile => exact (undoes_map_iff fun fd => [fd]).trans allOrNothing_sysOpen_iff
  | pipe => exact (undoes_map_iff fun fds => [fds.1, fds.2]).trans allOrNothing_sysPipe_iff
  | socket => exact (undoes_map_iff fun fd => [fd]).trans allOrNothing_sysSocket_iff
  | socketpair =>
    exact (undoes_map_iff fun fds => [fds.1, fds.2]).trans allOrNothing_sysSocketpair_iff

/-- A host without files. -/
def emptyHost : Host where
  lstat _ _ := .error .ENOENT
  readlink _ _ := .error .ENOENT
  stat _ _ := .error .ENOENT
  openFile _ _ _ _ := .error .ENOENT
  chown _ _ _ _ := .error .ENOENT
  fstat _ _ := .error .EBADF

/-- A process that may not open a descriptor more. -/
def exhaustedWorld : World := .idle 0

/-- With no descriptor left, `socket` fails with `EMFILE` and the socket stays in the table. -/
theorem socket_leaks_slot : ∃ w',
    exec ((Call.socket 1 1 0).run emptyHost) exhaustedWorld = (.error .EMFILE, w') ∧
      exhaustedWorld.sockets.get 0 = none ∧
      w'.sockets.get 0 = some (.new .Unix .Stream 0) ∧ ¬ Restored exhaustedWorld w' := by
  refine ⟨_, rfl, rfl, rfl, fun h => ?_⟩
  exact absurd (h.sockets 0) (by decide)

end Kandelo.Kernel.Descriptor
