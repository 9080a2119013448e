import Kandelo.Kernel.Descriptor.FifoOutcome

/-!
# Opens of named pipes that fail

An open of a named pipe takes a reference to the pipe before it has a descriptor,
and gives it back if there is none. An open that has to wait keeps what it holds when the call
fails with `EAGAIN`, so that the pipe is not what it was; and a signal that ends the wait takes away
what an earlier call had left there.
-/

namespace Kandelo.Kernel.Descriptor

open Option
open Lib.Effect
open Kandelo.Kernel.Path (Bytes)
open File (FileType oAccmode oRdonly oWronly oRdwr oPath)
open Pipe

variable {p q : PipeBuffer} {waiter : FifoOpenWaiter} {w w1 w' : World} {host : Host} {path : Bytes}
  {oflags : BitVec 32} {pipe owner : Nat} {side : FifoOpenSide}

lemma restored_iff_pipes (w w' : World) (hfds : ∀ i, w'.fds.entries.get i = w.fds.entries.get i)
    (hofds : ∀ i, w'.ofds.get i = w.ofds.get i) (hsockets : w'.sockets = w.sockets)
    (hptys : w'.ptys = w.ptys) (howners : w'.owners = w.owners)
    (hhistory : w'.history = w.history) :
    Restored w w' ↔ ∀ i, w'.pipes.get i = w.pipes.get i := by
  constructor
  · exact Restored.pipes
  intro hpipes
  refine ⟨hfds, hofds, hpipes, fun i => ?_, fun i => ?_, howners, ?_⟩
  · rw [hsockets]
  · rw [hptys]
  · rw [hhistory]

/-- A reference that finds no descriptor can be taken back without a trace. -/
def WithdrawKeeps (w : World) (pipe : Nat) (kind : RefKind) : Prop :=
  w.fds.spare = 0 → ∀ p, w.pipes.get pipe = some p →
    p.Idle kind ∧ p.isFullyClosed = false ∧ w.pipes.Collected

lemma allOrNothing_reference_iff {x : Sys Nat} {kind : RefKind} {statusFlags flags : BitVec 32}
    {ok : Nat → Nat → Sys Nat} (hkind : kind ≠ .Read true) (hp : w.pipes.get pipe = some p)
    (hx : exec x w = exec (modifyPipe pipe (·.addReference kind) >>= fun _ =>
      createOfd .Pipe statusFlags (slotHandle pipe) path >>= fun ofd =>
      allocFdOr ofd flags (ok ofd) (abandonFifoOpen pipe ofd kind)) w)
    (hok : ∀ ofd fd w1, (w1.pipes.get pipe).isSome = true →
      ∃ fd' w', exec (ok ofd fd) w1 = (.ok fd', w')) :
    AllOrNothing x w ↔ WithdrawKeeps w pipe kind := by
  rw [modifyPipe, exec_change_bind, exec_createOfd_bind] at hx
  rw [AllOrNothing, Undoes, hx, allOrNothing_giveBack_iff]
  · refine forall_congr' fun _ => ?_
    have hpipe : (∀ q, w.pipes.get pipe = some q →
        q.Idle kind ∧ q.isFullyClosed = false ∧ w.pipes.Collected) ↔
        p.Idle kind ∧ p.isFullyClosed = false ∧ w.pipes.Collected := by
      rw [hp]
      constructor
      · exact fun h => h p rfl
      · rintro h q ⟨⟩
        exact h
    rw [hpipe, ← PipeTable.get_withdraw_iff hkind hp, ← restored_iff_pipes w { w with
      ofds := decRef (World.withOfd { w with pipes := w.pipes.update pipe (·.addReference kind) }
        .Pipe statusFlags (slotHandle pipe) path).ofds w.ofds.firstFree
      nextOfdId := w.nextOfdId + 1
      pipes := (w.pipes.update pipe (·.addReference kind)).withdraw pipe kind }]
    · constructor
      · exact fun h => h _ _ rfl
      · rintro h e w' ⟨⟩
        exact h
    · exact fun _ => rfl
    · exact get_decRef_insert _ rfl
    · rfl
    · rfl
    · rfl
    · rfl
  · rfl
  · intro fd fds
    apply hok
    simp [World.withOfd, hp]

lemma allOrNothing_openFifoPath_iff :
    AllOrNothing (openFifoPath host pipe path oflags) w ↔
      ∀ u w1, exec (lookup (checkSearchPath w.caller host.toHost path)) w = (.ok u, w1) →
        WithdrawKeeps w1 pipe .Path := by
  rw [openFifoPath, allOrNothing_world_bind_iff, allOrNothing_asked_bind_iff asked_lookup]
  refine forall₃_congr fun u w1 hcheck => ?_
  have hpipes : w1.pipes = w.pipes := by rw [(asked_of_exec asked_lookup hcheck).1]
  rw [← hpipes]
  cases hp : w1.pipes.get pipe with
  | none =>
    refine iff_of_true (undoes_of_same_error equivalence_restored rfl) fun _ p hp' => ?_
    rw [hp] at hp'
    cases hp'
  | some => exact allOrNothing_reference_iff (by rintro ⟨⟩) hp rfl fun ofd fd w' _ => ⟨fd, w', rfl⟩

/-! ### Opens that wait -/

lemma reserveFifoOpen_ne (h : p.reserveFifoOpen owner waiter = some q) : q ≠ p := by
  rintro rfl
  unfold PipeBuffer.reserveFifoOpen at h
  split at h
  · cases h
  rw [some.injEq] at h
  have hwaiters := congrArg (List.length ∘ PipeBuffer.fifoOpenWaiters) h
  cases hside : waiter.side with
  | Reader | Writer =>
    rw [hside] at hwaiters
    exact absurd hwaiters (Nat.succ_ne_self _)

lemma allOrNothing_waitFifoOpen_iff (hp : w.pipes.get pipe = some p) :
    AllOrNothing (waitFifoOpen pipe path oflags side) w ↔
      w.task.caughtSignal = true ∨ w.fds.spare = 0 ∨ (p.waiter w.fifoOpenOwner).isSome = true := by
  rw [waitFifoOpen, allOrNothing_world_bind_iff]
  split
  · next hcaught => exact iff_of_true (undoes_of_same_error equivalence_restored rfl) (.inl hcaught)
  next hcaught =>
  rw [AllOrNothing, undoes_ofExcept_bind_iff equivalence_restored]
  by_cases hfull : w.fds.spare = 0
  · refine iff_of_true ?_ (.inr (.inl hfull))
    rw [FdTable.reserve_of_spare_eq_zero hfull]
    rintro _ ⟨⟩
  obtain ⟨fds, hfds⟩ := FdTable.reserve_of_spare_pos (Nat.pos_of_ne_zero hfull)
  rw [hfds, hp]
  cases hreserve : p.reserveFifoOpen w.fifoOpenOwner
      ⟨side, path, statusOf oflags, oflagsToFdFlags oflags, w.fds.lowest, false⟩ with
  | none =>
    refine iff_of_true ?_ (.inr (.inr ?_))
    · rintro a ⟨⟩
      dsimp only [bind_some]
      rw [hreserve]
      rintro e w' ⟨⟩
      have hget := FdTable.get_reserve hfds
      exact ⟨hget, fun _ => rfl, fun _ => rfl, fun _ => rfl, fun _ => rfl, rfl, rfl⟩
    · unfold PipeBuffer.reserveFifoOpen at hreserve
      split at hreserve
      · next h => exact h
      · cases hreserve
  | some q =>
    refine iff_of_false ?_ ?_
    · intro h
      have hq := h _ rfl
      dsimp only [bind_some] at hq
      rw [hreserve] at hq
      have hpipe := (hq _ _ rfl).pipes pipe
      rw [PipeTable.get_update, if_pos rfl, hp, map_some, some.injEq] at hpipe
      exact reserveFifoOpen_ne hreserve hpipe
    · rintro (h | h | h)
      · exact hcaught h
      · exact hfull h
      · unfold PipeBuffer.reserveFifoOpen at hreserve
        rw [if_pos h] at hreserve
        cases hreserve

/-- The reference that an open with these flags takes, by its end. -/
def accessKind (oflags : BitVec 32) : RefKind :=
  if oflags &&& oAccmode = oRdwr then .ReadWrite else endpointKind (accessSide oflags)

/-- Opening the ends of a pipe keeps what there was: it need not wait and could be undone, or it
gives up before it waits. -/
def EndsKeep (w : World) (pipe : Nat) (oflags : BitVec 32) : Prop :=
  oflags &&& oAccmode ≠ oAccmode → ∀ p ready, w.pipes.get pipe = some p →
    fifoReady oflags p = .ok ready →
      if ready = true then WithdrawKeeps w pipe (accessKind oflags)
      else w.task.caughtSignal = true ∨ w.fds.spare = 0 ∨ (p.waiter w.fifoOpenOwner).isSome = true

lemma allOrNothing_openFifoEnds_iff :
    AllOrNothing (openFifoEnds host pipe path oflags) w ↔
      ∀ created w1, exec (checkOpenPermissions host path oflags) w = (.ok created, w1) →
        EndsKeep w1 pipe oflags := by
  rw [openFifoEnds, allOrNothing_asked_bind_iff asked_checkOpenPermissions]
  refine forall₃_congr fun created w1 _ => ?_
  unfold EndsKeep
  split
  · next hmode =>
    exact iff_of_true (undoes_of_same_error equivalence_restored rfl) fun h => absurd hmode h
  next hmode =>
  rw [allOrNothing_world_bind_iff]
  cases hp : w1.pipes.get pipe with
  | none => exact iff_of_true (undoes_of_same_error equivalence_restored rfl) (by rintro - _ _ ⟨⟩)
  | some p =>
    rw [forall_prop_of_true hmode, forall_comm]
    simp only [some.injEq, forall_eq']
    rw [AllOrNothing, undoes_ofExcept_bind_iff equivalence_restored]
    refine forall₂_congr fun ready _ => ?_
    cases ready with
    | false => exact allOrNothing_waitFifoOpen_iff hp
    | true =>
      unfold accessKind
      by_cases hrdwr : oflags &&& oAccmode = oRdwr
      · simp only [hrdwr]
        exact allOrNothing_reference_iff (by simp) hp rfl fun _ _ _ h => ⟨_, _, exec_publish h⟩
      · simp only [hrdwr]
        refine allOrNothing_reference_iff ?_ hp exec_openFifoEnd
          fun _ _ _ h => ⟨_, _, exec_publish h⟩
        cases accessSide oflags <;> decide

/-! ### Opens that are resumed -/

/-- Resuming keeps what there was: no signal takes the waiter away, and the number of a waiter that
is ready can be used. -/
def ResumeKeeps (w : World) (waiter : FifoOpenWaiter) : Prop :=
  w.task.caughtSignal = false ∧ (waiter.ready = true →
    w.fds.entries.get waiter.reservedFd = none ∧ waiter.reservedFd ∈ w.fds.reserved)

lemma not_restored_of_dropped {t : PipeTable} (hp : w.pipes.get pipe = some p)
    (hwaiter : p.waiter owner = some waiter) (hw : w'.pipes = t.freeIfClosed pipe)
    (hq : t.get pipe = some q) (hdrop : q.fifoOpenWaiters = (p.dropWaiter owner).fifoOpenWaiters) :
    ¬ Restored w w' := by
  intro h
  have hpipe := h.pipes pipe
  rw [hp, hw] at hpipe
  obtain ⟨q', hq', hcollected⟩ := PipeTable.get_freeIfClosed hpipe
  have hsame : p.fifoOpenWaiters = q'.fifoOpenWaiters := by rw [hcollected]
  rw [hq, some.injEq] at hq'
  have hdropped := waiter_dropWaiter p owner
  rw [PipeBuffer.waiter, ← hdrop, hq', ← hsame] at hdropped
  rw [PipeBuffer.waiter, hdropped] at hwaiter
  cases hwaiter

lemma exec_installFifoOpen_some (path : Bytes) (statusFlags flags : BitVec 32)
    (side : FifoOpenSide) (fd : Nat) (h : (w.pipes.get pipe).isSome = true) :
    if w.fds.entries.get fd = none ∧ fd ∈ w.fds.reserved then
      ∃ fd' w', exec (installFifoOpen pipe path statusFlags flags side (some fd)) w = (.ok fd', w')
    else ∃ w', exec (installFifoOpen pipe path statusFlags flags side (some fd)) w =
      (.error .EBADF, w') ∧ w'.pipes = w.pipes.withdraw pipe (endpointKind side) := by
  rw [installFifoOpen, exec_createOfd_bind, exec_bind, exec_attempt, installFd, installReservedFd,
    exec_query]
  split
  · next hcan =>
    obtain ⟨fds, hfds⟩ : ∃ fds,
      (w.withOfd .Pipe statusFlags (slotHandle pipe) path).fds.installReserved
        fd w.ofds.firstFree flags = .ok fds := ⟨_, if_pos hcan⟩
    rw [hfds]
    exact ⟨_, _, exec_publish h⟩
  · next hcannot =>
    have hfds : (w.withOfd .Pipe statusFlags (slotHandle pipe) path).fds.installReserved
        fd w.ofds.firstFree flags = .error .EBADF := if_neg hcannot
    rw [hfds]
    exact ⟨_, rfl, rfl⟩

lemma allOrNothing_resumeFifoOpen_iff (h : w.pendingFifoOpen = some (pipe, waiter)) :
    AllOrNothing resumeFifoOpen w ↔ ResumeKeeps w waiter := by
  obtain ⟨p, hp, hwaiter⟩ := pendingFifoOpen_eq_some h
  rw [resumeFifoOpen, allOrNothing_world_bind_iff, h]
  dsimp only
  unfold ResumeKeeps
  split
  · -- the signal takes the waiter away
    next hcaught =>
    refine iff_of_false ?_ fun hk => ?_
    · intro hk
      have hdropped := hk _ _ rfl
      refine not_restored_of_dropped hp hwaiter rfl ?_
        (Rendezvous.waiters_cancelFifoOpen p waiter.side) hdropped
      rw [PipeTable.get_update, if_pos rfl, hp, map_some]
    · rw [hcaught] at hk
      cases hk.1
  next hcaught =>
  rw [Bool.not_eq_true] at hcaught
  split
  · next hready =>
    have hpipe : (w.pipes.update pipe (·.dropWaiter w.fifoOpenOwner)).get pipe =
        some (p.dropWaiter w.fifoOpenOwner) := by
      rw [PipeTable.get_update, if_pos rfl, hp, map_some]
    have hinstall := exec_installFifoOpen_some
      (w := { w with pipes := w.pipes.update pipe (·.dropWaiter w.fifoOpenOwner) })
      waiter.path waiter.statusFlags waiter.fdFlags waiter.side waiter.reservedFd
      (isSome_iff_exists.mpr ⟨_, hpipe⟩)
    rw [AllOrNothing, Undoes, modifyPipe, exec_change_bind]
    by_cases hcan : w.fds.entries.get waiter.reservedFd = none ∧ waiter.reservedFd ∈ w.fds.reserved
    · rw [if_pos hcan] at hinstall
      obtain ⟨fd', w1, hok⟩ := hinstall
      rw [exec_bind_of_ok hok]
      exact iff_of_true (by rintro _ _ ⟨⟩) ⟨hcaught, fun _ => hcan⟩
    rw [if_neg hcan] at hinstall
    obtain ⟨w1, herr, hpipes⟩ := hinstall
    rw [exec_bind_of_error herr]
    refine iff_of_false ?_ fun hk => hcan (hk.2 hready)
    intro hk
    refine not_restored_of_dropped hp hwaiter hpipes ?_
      ((p.dropWaiter w.fifoOpenOwner).waiters_closeReference (endpointKind waiter.side))
      (hk _ _ rfl)
    rw [PipeTable.get_update, if_pos rfl, hpipe, map_some]
  · next hready =>
    exact iff_of_true (undoes_of_same_error equivalence_restored rfl)
      ⟨hcaught, fun hr => absurd hr hready⟩

end Kandelo.Kernel.Descriptor
