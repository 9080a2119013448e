import Kandelo.Kernel.Descriptor.Restored
import Kandelo.Kernel.Descriptor.Tables
import Kandelo.Kernel.Pipe.Rendezvous

/-!
# What an open of a named pipe can do

The outcomes of `try_open_fifo` and `resume_fifo_open`, as changes to the buffer
and to the tables of the process: refused, opened, given back for want of a descriptor, or put off.
Each call ends in one of them.
-/

namespace Kandelo.Kernel.Descriptor

open Lib Option
open Lib.Effect
open Kandelo.Kernel.Path (Bytes)
open File (FileType oAccmode oRdonly oWronly oRdwr oPath)
open Pipe

variable {waiter : FifoOpenWaiter} {r : Except Errno Nat} {w w' : World} {host : Host}
  {path : Bytes} {oflags flags : BitVec 32} {pipe owner : Nat} {p : PipeBuffer}
  {side : FifoOpenSide}

/-! ### Runs -/

lemma exec_publish {ofd fd : Nat} {f : PipeBuffer → PipeBuffer}
    (h : (w.pipes.get pipe).isSome = true) :
    exec (publish pipe ofd fd f) w = (.ok fd, { w with pipes := w.pipes.update pipe f }) := by
  rw [publish, exec_world_bind, if_neg]
  · rfl
  rw [isNone_iff_eq_none]
  intro hnone
  rw [hnone] at h
  cases h

lemma exec_installFifoOpen_none :
    exec (installFifoOpen pipe path statusFlags flags side none) w =
      exec (createOfd .Pipe statusFlags (slotHandle pipe) path >>= fun ofd =>
        allocFdOr ofd flags (publish pipe ofd · (·.publishFifoOpen side))
          (abandonFifoOpen pipe ofd (endpointKind side))) w := by
  rw [installFifoOpen, exec_createOfd_bind, exec_createOfd_bind, exec_bind, exec_attempt, installFd,
    allocFd, allocFdOr, exec_query, exec_query]
  rcases (w.withOfd .Pipe statusFlags (slotHandle pipe) path).fds.alloc w.ofds.firstFree flags with
    e | ⟨fd, fds⟩
  · rfl
  · rfl

lemma waiter_dropWaiter (p : PipeBuffer) (owner : Nat) :
    (p.dropWaiter owner).waiter owner = none := by
  unfold PipeBuffer.waiter PipeBuffer.dropWaiter
  rw [List.lookup_eq_none_iff]
  intro x hx
  rw [List.mem_filter, decide_eq_true_eq] at hx
  simpa using hx.2.symm

lemma pendingFifoOpen_eq_some (h : w.pendingFifoOpen = some (pipe, waiter)) :
    ∃ p, w.pipes.get pipe = some p ∧ p.waiter w.fifoOpenOwner = some waiter := by
  simp only [World.pendingFifoOpen, bind_eq_bind, bind_eq_some_iff] at h
  obtain ⟨pipe', -, p, hp, waiter', hwaiter, rfl, rfl⟩ := h
  exact ⟨p, hp, hwaiter⟩

/-! ### References of descriptions -/

/-- The pipe of a description. -/
def OpenFileDesc.pipeIdx (o : OpenFileDesc) : Option Nat :=
  if o.fileType = .Pipe ∧ o.hostHandle < 0 then some (-(o.hostHandle + 1)).toNat else none

/-- The reference that a description of a named pipe holds. -/
def fifoReference (statusFlags : BitVec 32) : Option RefKind :=
  PipeBuffer.newFifo.referenceKind statusFlags

/-- The description holds a reference of kind `k` to the named pipe `f`. -/
def holds (f : Nat) (k : RefKind) (o : OpenFileDesc) : Bool :=
  o.pipeIdx = some f && fifoReference o.statusFlags = some k

lemma pipeIdx_slotHandle {o : OpenFileDesc} (htype : o.fileType = .Pipe)
    (hhandle : o.hostHandle = slotHandle pipe) : o.pipeIdx = some pipe := by
  rw [OpenFileDesc.pipeIdx, hhandle, if_pos, slotHandle]
  · congr 1
    omega
  · exact ⟨htype, by rw [slotHandle]; omega⟩

lemma referenceKind_of_isFifo (hp : p.isFifo = true) (flags : BitVec 32) :
    p.referenceKind flags = fifoReference flags := by
  unfold fifoReference PipeBuffer.referenceKind
  rw [hp]
  rfl

lemma statusOf_and {mask : BitVec 32} (hmask : ~~~creationFlags &&& mask = mask) :
    statusOf oflags &&& mask = oflags &&& mask := by
  rw [statusOf, BitVec.and_assoc, hmask]

lemma fifoReference_path (h : has oflags oPath = true) :
    fifoReference (statusOf oflags) = some .Path := by
  rw [fifoReference, PipeBuffer.referenceKind, statusOf_and (by decide)]
  rw [has, decide_eq_true_eq] at h
  rw [if_pos h]
  rfl

/-- The reference that an open with these flags takes. -/
def openKind (oflags : BitVec 32) : RefKind :=
  if oflags &&& oAccmode = oRdwr then .ReadWrite else (accessSide oflags).kind

lemma fifoReference_ends (hpath : has oflags oPath = false)
    (hmode : oflags &&& oAccmode ≠ oAccmode) :
    fifoReference (statusOf oflags) = some (openKind oflags) := by
  rw [has, decide_eq_false_iff_not, not_not] at hpath
  rw [fifoReference, PipeBuffer.referenceKind, statusOf_and (by decide), statusOf_and (by decide),
    if_neg (not_not_intro hpath), openKind, accessSide]
  -- two bits make four modes
  have hmodes : oflags &&& oAccmode = oRdonly ∨ oflags &&& oAccmode = oWronly ∨
      oflags &&& oAccmode = oRdwr ∨ oflags &&& oAccmode = oAccmode := by
    have hlt : (oflags &&& oAccmode).toNat < 4 := by
      exact Nat.lt_of_le_of_lt Nat.and_le_right (by decide)
    generalize oflags &&& oAccmode = mode at hlt
    simp only [BitVec.toNat_inj.symm]
    change mode.toNat = 0 ∨ mode.toNat = 1 ∨ mode.toNat = 2 ∨ mode.toNat = 3
    omega
  rcases hmodes with h | h | h | h
  · rw [h]; rfl
  · rw [h]; rfl
  · rw [h]; rfl
  · exact absurd h hmode

/-! ### Outcomes -/

/-- The buffer once a new description holds a reference of this kind. -/
def taken (p : PipeBuffer) : RefKind → PipeBuffer
  | .Path => p.addReference .Path
  | .Read _ => (p.addReference (.Read false)).publishFifoOpen .Reader
  | .Write => (p.addReference .Write).publishFifoOpen .Writer
  | .ReadWrite => (p.addReference .ReadWrite).publishFifoReadWriteOpen

/-- What an open of the named pipe `f` by the thread `owner` can make of the buffer `p`, if it is
still there, and of the tables `t`. -/
inductive Outcome (f owner : Nat) (p : PipeBuffer) (t : Tables) : Option PipeBuffer → Tables → Prop
  | refused : Outcome f owner p t (some p) t
  /-- A description without a descriptor, and its reference, are given back. -/
  | withdrawn {k : RefKind} {q : Option PipeBuffer} {ofds : Slots OpenFileDesc}
      (kind : k ≠ .Read true) (ofds_eq : ∀ i, ofds.get i = t.ofds.get i)
      (buffer : ∀ p', q = some p' →
        p' = { (p.addReference k).closeReference k with ancillaryFds := p'.ancillaryFds }) :
      Outcome f owner p t q ⟨t.fds, ofds⟩
  | opened {k : RefKind} {o : OpenFileDesc} {fd : Nat} {flags : BitVec 32} {fds : FdTable}
      (pipe : o.pipeIdx = some f) (kind : fifoReference o.statusFlags = some k)
      (new : o.refCount = 1 ∧ o.dirHostHandle = -1)
      (alloc : t.fds.alloc t.ofds.firstFree flags = .ok (fd, fds)) :
      Outcome f owner p t (some (taken p k)) ⟨fds, t.ofds.insert o⟩
  /-- The open is put off until the other end is there. -/
  | waits {waiter : FifoOpenWaiter} {fds : FdTable} {q : PipeBuffer}
      (side : if waiter.side = .Reader then p.writeCount = 0 else p.readCount = 0)
      (kind : fifoReference waiter.statusFlags = some waiter.side.kind)
      (unready : waiter.ready = false) (reserve : t.fds.reserve = .ok (waiter.reservedFd, fds))
      (buffer : p.reserveFifoOpen owner waiter = some q) :
      Outcome f owner p t (some q) ⟨fds, t.ofds⟩
  /-- The thread waits already: the number is given back. -/
  | busy {fd : Nat} {fds : FdTable} (reserve : t.fds.reserve = .ok (fd, fds)) :
      Outcome f owner p t (some p) ⟨fds.releaseReserved fd, t.ofds⟩

lemma outcome_reference {k kind : RefKind}
    {ok : Nat → Nat → Sys Nat} {x : Sys Nat} {g : PipeBuffer → PipeBuffer}
    (hkind : kind ≠ .Read true) (hk : fifoReference statusFlags = some k)
    (hp : w.pipes.get pipe = some p) (hg : g (p.addReference kind) = taken p k)
    (hx : exec x w = exec (modifyPipe pipe (·.addReference kind) >>= fun _ =>
      createOfd .Pipe statusFlags (slotHandle pipe) path >>= fun ofd =>
      allocFdOr ofd flags (ok ofd) (abandonFifoOpen pipe ofd kind)) w)
    (hok : ∀ ofd fd w1, (w1.pipes.get pipe).isSome = true →
      (exec (ok ofd fd) w1).2 = { w1 with pipes := w1.pipes.update pipe g })
    (h : exec x w = (r, w')) :
    Outcome pipe owner p ⟨w.fds, w.ofds⟩ (w'.pipes.get pipe) ⟨w'.fds, w'.ofds⟩ := by
  rw [hx, modifyPipe, exec_change_bind, exec_createOfd_bind, allocFdOr, exec_query] at h
  dsimp only [World.withOfd] at h
  cases halloc : w.fds.alloc w.ofds.firstFree flags with
  | error =>
    rw [halloc] at h
    cases h
    refine .withdrawn hkind (get_decRef_insert _ rfl) fun p' hp' => ?_
    obtain ⟨q, hq, hcollected⟩ := PipeTable.get_freeIfClosed hp'
    rw [PipeTable.get_update, if_pos rfl, PipeTable.get_update, if_pos rfl, hp, map_some,
      map_some, some.injEq] at hq
    rwa [← hq] at hcollected
  | ok a =>
    obtain ⟨fd, fds⟩ := a
    rw [halloc] at h
    have hsome : ((w.pipes.update pipe (·.addReference kind)).get pipe).isSome = true := by
      rw [PipeTable.get_update, if_pos rfl, hp]
      rfl
    have hw := hok w.ofds.firstFree fd { w with
      pipes := w.pipes.update pipe (·.addReference kind)
      fds
      ofds :=
        w.ofds.insert ⟨w.nextOfdId, none, .Pipe, statusFlags, slotHandle pipe, 1, path, -1, none⟩
      nextOfdId := w.nextOfdId + 1 } hsome
    dsimp only at h
    rw [h] at hw
    subst hw
    have hbuffer : ((w.pipes.update pipe (·.addReference kind)).update pipe g).get pipe =
        some (taken p k) := by
      rw [PipeTable.get_update, if_pos rfl, PipeTable.get_update, if_pos rfl, hp, map_some,
        map_some, hg]
    rw [hbuffer]
    exact .opened (pipeIdx_slotHandle rfl rfl) hk ⟨rfl, rfl⟩ halloc

lemma exec_openFifoEnd : exec (openFifoEnd pipe path oflags side) w =
    exec (modifyPipe pipe (·.addReference (endpointKind side)) >>= fun _ =>
      createOfd .Pipe (statusOf oflags) (slotHandle pipe) path >>= fun ofd =>
      allocFdOr ofd (oflagsToFdFlags oflags) (publish pipe ofd · (·.publishFifoOpen side))
        (abandonFifoOpen pipe ofd (endpointKind side))) w :=
  exec_installFifoOpen_none

section

variable (hp : w.pipes.get pipe = some p)

include hp

lemma outcome_openFifoReadWrite (hkind : fifoReference (statusOf oflags) = some .ReadWrite)
    (owner : Nat) (h : exec (openFifoReadWrite pipe path oflags) w = (r, w')) :
    Outcome pipe owner p ⟨w.fds, w.ofds⟩ (w'.pipes.get pipe) ⟨w'.fds, w'.ofds⟩ := by
  have hnot : RefKind.ReadWrite ≠ .Read true := nofun
  have hg : (p.addReference .ReadWrite).publishFifoReadWriteOpen = taken p .ReadWrite := rfl
  apply outcome_reference hnot hkind hp hg rfl ?_ h
  intro ofd fd w1 hsome
  rw [exec_publish hsome]

lemma outcome_openFifoEnd (hkind : fifoReference (statusOf oflags) = some side.kind) (owner : Nat)
    (h : exec (openFifoEnd pipe path oflags side) w = (r, w')) :
    Outcome pipe owner p ⟨w.fds, w.ofds⟩ (w'.pipes.get pipe) ⟨w'.fds, w'.ofds⟩ := by
  have hnot : endpointKind side ≠ .Read true := by cases side <;> exact nofun
  have hg : (p.addReference (endpointKind side)).publishFifoOpen side = taken p side.kind := by
    cases side <;> rfl
  apply outcome_reference (g := (·.publishFifoOpen side)) hnot hkind hp hg exec_openFifoEnd ?_ h
  intro ofd fd w1 hsome
  rw [exec_publish hsome]

lemma outcome_openFifoPath (hpath : has oflags oPath = true) (owner : Nat)
    (h : exec (openFifoPath host pipe path oflags) w = (r, w')) :
    Outcome pipe owner p ⟨w.fds, w.ofds⟩ (w'.pipes.get pipe) ⟨w'.fds, w'.ofds⟩ := by
  rw [openFifoPath, exec_world_bind] at h
  rcases exec_bind_cases (lookup (checkSearchPath w.caller host.toHost path)) with
    ⟨e, w1, hx, hrun⟩ | ⟨u, w1, hx, hrun⟩
  · have hasked := asked_of_exec asked_lookup hx
    rw [hrun] at h
    cases h
    rw [hasked.1, hp]
    exact .refused
  · obtain ⟨hist, rfl⟩ : ∃ hist, w1 = { w with history := hist } :=
      ⟨_, (asked_of_exec asked_lookup hx).1⟩
    rw [hrun, if_neg (by rw [hp]; exact nofun)] at h
    have hnot : RefKind.Path ≠ .Read true := nofun
    have hg : p.addReference .Path = taken p .Path := rfl
    apply outcome_reference (w := { w with history := hist }) (g := id) hnot
      (fifoReference_path hpath) hp hg rfl ?_ h
    intro ofd fd w1 _
    rw [exec_pure, PipeTable.update_id]

lemma outcome_waitFifoOpen (hkind : fifoReference (statusOf oflags) = some (accessSide oflags).kind)
    (hnone : if accessSide oflags = .Reader then p.writeCount = 0 else p.readCount = 0)
    (h : exec (waitFifoOpen pipe path oflags (accessSide oflags)) w = (r, w')) :
    Outcome pipe w.fifoOpenOwner p ⟨w.fds, w.ofds⟩ (w'.pipes.get pipe) ⟨w'.fds, w'.ofds⟩ := by
  rw [waitFifoOpen, exec_world_bind] at h
  split at h
  · cases h
    rw [hp]
    exact .refused
  cases hreserve : w.fds.reserve with
  | error =>
    rw [exec_bind_of_error (by rw [exec_ofExcept, hreserve])] at h
    cases h
    rw [hp]
    exact .refused
  | ok a =>
    obtain ⟨fd, fds⟩ := a
    rw [exec_bind_of_ok (by rw [exec_ofExcept, hreserve])] at h
    dsimp only at h
    rw [hp] at h
    split at h
    · cases h
      rw [hp]
      exact .busy hreserve
    next q hq =>
    cases h
    have hbuffer : (w.pipes.update pipe fun _ => q).get pipe = some q := by
      rw [PipeTable.get_update, if_pos rfl, hp, map_some]
    rw [hbuffer]
    exact .waits hnone hkind rfl hreserve hq

end

lemma fifoReady_eq_false (h : fifoReady oflags p = .ok false) :
    oflags &&& oAccmode ≠ oRdwr ∧
      if accessSide oflags = .Reader then p.writeCount = 0 else p.readCount = 0 := by
  unfold fifoReady at h
  unfold accessSide
  split at h
  · next hread =>
    rw [hread]
    rw [Except.ok.injEq, Bool.or_eq_false_iff, PipeBuffer.isWriteEndOpen,
      decide_eq_false_iff_not] at h
    exact ⟨by decide, Nat.eq_zero_of_not_pos h.2⟩
  · next hread =>
    split at h
    · next hwrite =>
      rw [hwrite]
      split at h
      · cases h
      · rw [Except.ok.injEq, PipeBuffer.hasReaders, decide_eq_false_iff_not] at h
        exact ⟨by decide, Nat.eq_zero_of_not_pos h⟩
    · cases h

lemma outcome_openFifoEnds (hp : w.pipes.get pipe = some p) (hpath : has oflags oPath = false)
    (h : exec (openFifoEnds host pipe path oflags) w = (r, w')) :
    Outcome pipe w.fifoOpenOwner p ⟨w.fds, w.ofds⟩ (w'.pipes.get pipe) ⟨w'.fds, w'.ofds⟩ := by
  rw [openFifoEnds] at h
  rcases exec_bind_cases (checkOpenPermissions host path oflags) with
    ⟨e, w1, hx, hrun⟩ | ⟨created, w1, hx, hrun⟩
  · have hasked := asked_of_exec asked_checkOpenPermissions hx
    rw [hrun] at h
    cases h
    rw [hasked.1, hp]
    exact .refused
  obtain ⟨hist, rfl⟩ : ∃ hist, w1 = { w with history := hist } :=
    ⟨_, (asked_of_exec asked_checkOpenPermissions hx).1⟩
  rw [hrun] at h
  split at h
  · cases h
    rw [hp]
    exact .refused
  next hmode =>
  have hkind := fifoReference_ends hpath hmode
  rw [exec_world_bind] at h
  rw [hp] at h
  cases hready : fifoReady oflags p with
  | error =>
    rw [exec_bind_of_error (by rw [exec_ofExcept, hready])] at h
    cases h
    rw [hp]
    exact .refused
  | ok ready =>
    rw [exec_bind_of_ok (by rw [exec_ofExcept, hready])] at h
    cases ready with
    | false =>
      obtain ⟨hends, hnone⟩ := fifoReady_eq_false hready
      rw [openKind, if_neg hends] at hkind
      exact outcome_waitFifoOpen (w := { w with history := hist }) hp hkind hnone h
    | true =>
      rw [openKind] at hkind
      simp only [Bool.not_true, Bool.false_eq_true, if_false] at h
      split at h
      · next hboth =>
        rw [if_pos hboth] at hkind
        exact outcome_openFifoReadWrite (w := { w with history := hist }) hp hkind _ h
      · next hends =>
        rw [if_neg hends] at hkind
        exact outcome_openFifoEnd (w := { w with history := hist }) hp hkind _ h

lemma outcome_openFifo {exclusiveCreate : Bool} (hp : w.pipes.get pipe = some p)
    (h : exec (openFifo host pipe path oflags exclusiveCreate) w = (r, w')) :
    Outcome pipe w.fifoOpenOwner p ⟨w.fds, w.ofds⟩ (w'.pipes.get pipe) ⟨w'.fds, w'.ofds⟩ := by
  unfold openFifo at h
  split at h
  · cases h
    rw [hp]
    exact .refused
  split at h
  · cases h
    rw [hp]
    exact .refused
  · split at h
    · next hpath => exact outcome_openFifoPath hp hpath _ h
    · next hpath => exact outcome_openFifoEnds hp (Bool.eq_false_iff.mpr hpath) h

/-! ### Opens that go on -/

/-- What resuming or giving up the open of `owner` can make of the buffer `p` and the tables `t`. -/
inductive Resumption (f owner : Nat) (p : PipeBuffer) (t : Tables) (waiter : FifoOpenWaiter) :
    Option PipeBuffer → Tables → Prop
  | still : Resumption f owner p t waiter (some p) t
  | cancelled {q : Option PipeBuffer}
      (buffer : ∀ p', q = some p' →
        p' = { p.cancelFifoOpen owner waiter.side with ancillaryFds := p'.ancillaryFds }) :
      Resumption f owner p t waiter q ⟨t.fds.releaseReserved waiter.reservedFd, t.ofds⟩
  | opened {o : OpenFileDesc} {fds : FdTable} {flags : BitVec 32} (pipe : o.pipeIdx = some f)
      (kind : o.statusFlags = waiter.statusFlags) (new : o.refCount = 1 ∧ o.dirHostHandle = -1)
      (install : t.fds.installReserved waiter.reservedFd t.ofds.firstFree flags = .ok fds) :
      Resumption f owner p t waiter (some ((p.dropWaiter owner).publishFifoOpen waiter.side))
        ⟨fds, t.ofds.insert o⟩
  /-- The number that was reserved is gone. -/
  | lost {q : Option PipeBuffer} {t' : Tables}
      (gone : ¬ (t.fds.entries.get waiter.reservedFd = none ∧ waiter.reservedFd ∈ t.fds.reserved))
      (ofds_eq : ∀ i, t'.ofds.get i = t.ofds.get i) : Resumption f owner p t waiter q t'

lemma resumption_cancel (hp : w.pipes.get pipe = some p) :
    Resumption pipe owner p ⟨w.fds, w.ofds⟩ waiter
      (((w.pipes.update pipe (·.cancelFifoOpen owner waiter.side)).freeIfClosed pipe).get pipe)
      ⟨w.fds.releaseReserved waiter.reservedFd, w.ofds⟩ := by
  apply Resumption.cancelled
  intro p' hp'
  obtain ⟨q, hq, hcollected⟩ := PipeTable.get_freeIfClosed hp'
  rw [PipeTable.get_update, if_pos rfl, hp, map_some, some.injEq] at hq
  rwa [← hq] at hcollected

lemma resumption_install (hp : w.pipes.get pipe = some p)
    (h : exec (installFifoOpen pipe waiter.path waiter.statusFlags waiter.fdFlags waiter.side
      (some waiter.reservedFd)) { w with pipes := w.pipes.update pipe (·.dropWaiter owner) } =
        (r, w')) :
    Resumption pipe owner p ⟨w.fds, w.ofds⟩ waiter (w'.pipes.get pipe) ⟨w'.fds, w'.ofds⟩ := by
  rw [installFifoOpen, exec_createOfd_bind, exec_bind, exec_attempt, installFd, installReservedFd,
    exec_query] at h
  dsimp only [World.withOfd] at h
  by_cases hcan : w.fds.entries.get waiter.reservedFd = none ∧ waiter.reservedFd ∈ w.fds.reserved
  · obtain ⟨fds, hfds⟩ : ∃ fds, w.fds.installReserved waiter.reservedFd w.ofds.firstFree
        waiter.fdFlags = .ok fds := ⟨_, if_pos hcan⟩
    rw [hfds] at h
    have hdropped : (w.pipes.update pipe (·.dropWaiter owner)).get pipe =
        some (p.dropWaiter owner) := by rw [PipeTable.get_update, if_pos rfl, hp, map_some]
    rw [exec_publish (isSome_iff_exists.mpr ⟨_, hdropped⟩)] at h
    cases h
    rw [PipeTable.get_update, if_pos rfl, hdropped]
    exact .opened (pipeIdx_slotHandle rfl rfl) rfl ⟨rfl, rfl⟩ hfds
  · obtain ⟨e, hfds⟩ : ∃ e, w.fds.installReserved waiter.reservedFd w.ofds.firstFree
        waiter.fdFlags = .error e := ⟨_, if_neg hcan⟩
    rw [hfds] at h
    cases h
    exact .lost hcan (get_decRef_insert _ rfl)

lemma resumption_resumeFifoOpen {r : Except Errno (Option Nat)}
    (hpending : w.pendingFifoOpen = some (pipe, waiter)) (hp : w.pipes.get pipe = some p)
    (h : exec resumeFifoOpen w = (r, w')) :
    Resumption pipe w.fifoOpenOwner p ⟨w.fds, w.ofds⟩ waiter (w'.pipes.get pipe)
      ⟨w'.fds, w'.ofds⟩ := by
  rw [resumeFifoOpen, exec_world_bind, hpending] at h
  dsimp only at h
  split at h
  · cases h
    exact resumption_cancel hp
  split at h
  · rw [modifyPipe, exec_change_bind] at h
    rcases exec_bind_cases (installFifoOpen pipe waiter.path waiter.statusFlags waiter.fdFlags
      waiter.side (some waiter.reservedFd)) with
      ⟨e, w1, hx, hrun⟩ | ⟨fd, w1, hx, hrun⟩
    · rw [hrun] at h
      cases h
      exact resumption_install hp hx
    · rw [hrun] at h
      cases h
      exact resumption_install hp hx
  · cases h
    rw [hp]
    exact .still

lemma exec_resumeFifoOpen_pending {r : Option Nat} (hpending : w.pendingFifoOpen ≠ none)
    (h : exec resumeFifoOpen w = (.ok r, w')) : ∃ fd, r = some fd := by
  rw [resumeFifoOpen, exec_world_bind] at h
  cases hsome : w.pendingFifoOpen with
  | none => exact absurd hsome hpending
  | some =>
    rw [hsome] at h
    dsimp only at h
    split at h
    · cases h
    split at h
    · rw [modifyPipe, exec_change_bind, exec_bind_eq_ok] at h
      obtain ⟨fd, w1, -, hfd⟩ := h
      cases hfd
      exact ⟨fd, rfl⟩
    · cases h

end Kandelo.Kernel.Descriptor
