import Kandelo.Kernel.Descriptor.FifoOutcome
import Kandelo.Lib.ShareCount

/-!
# What an open leaves behind

Whatever `open` finds under a path, it adds at most one description to the tables
and asks the host for at most one handle. `OpenOutcome` lists what can become of both. A handle that
the host gave out is then held by the new description or closed again, unless the file was created
and could not be given to the caller.
-/

namespace Kandelo.Kernel.Descriptor

open Lib Slots Tables
open Lib.Effect
open Kandelo.Kernel.Path (Bytes Lookup)
open File (FileType oPath)
open Pipe
variable {ofd : Nat} {flags : BitVec 32} {dev : VirtualDevice} {p : PipeBuffer}
  {q : Option PipeBuffer} {exclusiveCreate : Bool} {handle : Int} {Given : Prop} {o : OpenFileDesc}
  {r : Except Errno Nat} {pipe : Nat} {α β : Type} {w w1 w' : World} {host : Host} {path : Bytes}
  {oflags mode : BitVec 32}

/-! ### Handles of the host -/

/-- The handles that the host gave out and was told to close, last call first. -/
def handleEvents : List FileCall → List (ShareCount.Event Int)
  | [] => []
  | .openFile _ _ _ (.ok handle) :: calls => .opened handle :: handleEvents calls
  | .close handle :: calls => .closed handle :: handleEvents calls
  | .openFile _ _ _ (.error _) :: calls | .stat .. :: calls | .chown .. :: calls
  | .fstat .. :: calls => handleEvents calls

/-- No handle is opened or closed on the host. -/
structure Still (w w' : World) : Prop where
  events : handleEvents w'.history.calls = handleEvents w.history.calls

namespace Still

variable {i : Nat} {fileType : FileType} {statusFlags fdFlags : BitVec 32} {created : Bool}
  {side : FifoOpenSide} {reservedFd : Option Nat} {kind : RefKind} {f : PipeBuffer → PipeBuffer}
  {e : Errno} {x : Sys α} {r : Except Errno α}

lemma refl (w : World) : Still w w := ⟨rfl⟩

lemma trans {w1 w2 w3 : World} (h : Still w1 w2) (h' : Still w2 w3) : Still w1 w3 :=
  ⟨h'.events.trans h.events⟩

lemma of_history (h : w'.history = w.history) : Still w w' := ⟨by rw [h]⟩

lemma bind {f : α → Sys β} (hx : Respects Still x) (hf : ∀ a, Respects Still (f a)) :
    Respects Still (x >>= f) :=
  respects_bind (fun _ _ _ => Still.trans) hx hf

lemma world : Respects Still world := refl

lemma change {f : World → World} (h : ∀ w, (f w).history = w.history) :
    Respects Still (change f) := fun w => of_history (h w)

lemma ofExcept : Respects Still (Effect.ofExcept r : Sys α) := respects_ofExcept refl r

lemma throw : Respects Still (throw e : Sys α) := respects_throw refl e

lemma pure {a : α} : Respects Still (pure a : Sys α) := respects_pure refl a

lemma lookup {x : Lookup α} : Respects Still (lookup x) := fun _ => ⟨rfl⟩

lemma hostStat : Respects Still (hostStat host path) := fun _ => ⟨rfl⟩

lemma createOfd : Respects Still (createOfd fileType statusFlags handle path) := fun _ => ⟨rfl⟩

lemma allocFd : Respects Still (Descriptor.allocFd ofd flags) := by
  intro w
  rw [Descriptor.allocFd, exec_query]
  split <;> exact ⟨rfl⟩

lemma allocFdOr {ok : Nat → Sys α} {undo : Errno → Sys α}
    (hok : ∀ fd, Respects Still (ok fd)) (hundo : ∀ e, Respects Still (undo e)) :
    Respects Still (Descriptor.allocFdOr ofd flags ok undo) := by
  intro w
  rw [Descriptor.allocFdOr, exec_query]
  split
  · next fd fds _ => exact ⟨(hok fd { w with fds }).events⟩
  · next e _ => exact hundo e w

lemma dropRef : Respects Still (dropRef i) := change fun _ => rfl

lemma checkOpenPermissions : Respects Still (checkOpenPermissions host path oflags) := by
  refine bind world fun w => bind lookup fun _ => bind (respects_attempt hostStat) ?_
  rintro (e | st)
  · cases e with
    | ENOENT =>
      dsimp only
      split
      · exact bind lookup fun _ => pure
      · exact pure
    | _ => exact throw
  · dsimp only
    split
    · exact throw
    · exact bind lookup fun _ => pure

lemma chownCreated : Respects Still (chownCreated host created path) := by
  refine bind world fun w => ?_
  split
  · exact fun _ => ⟨rfl⟩
  · exact pure

lemma of_exec (hx : Respects Still x) (h : exec x w = (r, w')) : Still w w' := by
  have hw := hx w
  rwa [h] at hw

/-! ### Named pipes -/

lemma modifyPipe : Respects Still (modifyPipe i f) := change fun _ => rfl

lemma publish {fd : Nat} : Respects Still (publish pipe ofd fd f) := by
  refine bind world fun w => ?_
  split
  · exact bind (change fun _ => rfl) fun _ => bind dropRef fun _ => throw
  · exact bind modifyPipe fun _ => pure

lemma installFd : Respects Still (Descriptor.installFd ofd flags reservedFd) := by
  cases reservedFd with
  | none => exact allocFd
  | some =>
    intro w
    rw [Descriptor.installFd, installReservedFd, exec_query]
    split <;> exact ⟨rfl⟩

lemma installFifoOpen :
    Respects Still (installFifoOpen pipe path statusFlags fdFlags side reservedFd) := by
  refine bind createOfd fun ofd => bind (respects_attempt installFd) ?_
  rintro (e | fd)
  · refine bind dropRef fun _ => ?_
    split
    · exact bind (change fun _ => rfl) fun _ => bind (change fun _ => rfl) fun _ => throw
    · exact bind (change fun _ => rfl) fun _ => throw
  · exact publish

lemma resumeFifoOpen : Respects Still resumeFifoOpen := by
  refine bind world fun w => ?_
  split
  · exact pure
  split
  · refine bind (bind modifyPipe fun _ => bind (change fun _ => rfl) fun _ =>
      change fun _ => rfl) fun _ => throw
  · split
    · exact bind modifyPipe fun _ => bind installFifoOpen fun _ => pure
    · exact throw

lemma abandonFifoOpen : Respects Still (abandonFifoOpen pipe ofd kind e) :=
  bind dropRef fun _ => bind (change fun _ => rfl) fun _ => throw

lemma waitFifoOpen : Respects Still (waitFifoOpen pipe path oflags side) := by
  refine bind world fun w => ?_
  split
  · exact throw
  refine bind ofExcept fun reserved => ?_
  dsimp only
  split
  · exact bind (change fun _ => rfl) fun _ => throw
  · exact bind (change fun _ => rfl) fun _ => throw

lemma openFifoEnds : Respects Still (openFifoEnds host pipe path oflags) := by
  refine bind checkOpenPermissions fun _ => ?_
  split
  · exact throw
  refine bind world fun w => ?_
  split
  · exact throw
  refine bind ofExcept fun ready => ?_
  split
  · exact waitFifoOpen
  split
  · exact bind modifyPipe fun _ => bind createOfd fun _ =>
      allocFdOr (fun _ => publish) fun _ => abandonFifoOpen
  · exact bind modifyPipe fun _ => installFifoOpen

lemma openFifo : Respects Still (Descriptor.openFifo host pipe path oflags exclusiveCreate) := by
  unfold Descriptor.openFifo
  split
  · exact throw
  split
  · exact throw
  split
  · refine bind world fun w => bind lookup fun _ => ?_
    split
    · exact throw
    · exact bind modifyPipe fun _ => bind createOfd fun _ =>
        allocFdOr (fun _ => pure) fun _ => abandonFifoOpen
  · exact openFifoEnds

end Still

/-! ### Descriptions -/

/-- The descriptors and descriptions of the process. -/
def World.tables (w : World) : Tables := ⟨w.fds, w.ofds⟩

/-- The description holds a handle of the host; `process_table.rs:167-176`. -/
def OpenFileDesc.ownsHandle (o : OpenFileDesc) : Bool :=
  decide (0 ≤ o.hostHandle) &&
    decide (o.fileType ∈ [FileType.Regular, .Directory, .CharDevice, .Pipe])

/-- A new description that has neither a handle of the host nor a directory that is being read, and
is not an epoll instance. -/
structure OpenFileDesc.Plain (o : OpenFileDesc) : Prop where
  new : o.refCount = 1
  unread : o.dirHostHandle < 0
  unheld : o.ownsHandle = false
  notEpoll : o.fileType ≠ .Epoll

lemma OpenFileDesc.Plain.of_create (hnew : o.refCount = 1) (hunread : o.dirHostHandle = -1)
    (hunheld : o.ownsHandle = false) (htype : o.fileType ≠ .Epoll) : o.Plain :=
  ⟨hnew, by rw [hunread]; decide, hunheld, htype⟩

lemma unheld_of_neg (h : o.hostHandle < 0) : o.ownsHandle = false := by
  rw [OpenFileDesc.ownsHandle, decide_eq_false (Int.not_le.mpr h), Bool.false_and]

lemma get_update_insert {ofds : Slots OpenFileDesc}
    {f : OpenFileDesc → OpenFileDesc} (i : Nat) :
    ((ofds.insert o).update ofds.firstFree f).get i = (ofds.insert (f o)).get i := by
  rw [get_update, get_insert, get_insert]
  split <;> rfl

/-- At most one plain description is new. -/
def Describes (w w' : World) : Prop :=
  ∃ new : Option OpenFileDesc, (∀ o, new = some o → o.Plain) ∧
    (w.tables.Counted → Tables.Change w.tables w'.tables none new)

namespace Describes

lemma of_ofds (h : ∀ i, w'.ofds.get i = w.ofds.get i) : Describes w w' :=
  ⟨none, nofun, fun hc => change_of_get hc h⟩

lemma of_insert (ho : o.Plain)
    (h : ∀ i, w'.ofds.get i = (w.ofds.insert o).get i) : Describes w w' := by
  refine ⟨some o, fun o' ho' => (Option.some.inj ho') ▸ ho, fun hc => ?_⟩
  exact change_of_insert hc ho.new h

lemma of_before (hofds : w1.ofds = w.ofds) (h : Describes w1 w') : Describes w w' := by
  obtain ⟨new, hnew, hchange⟩ := h
  have hbefore : w.tables = ⟨w.fds, w1.ofds⟩ := by rw [hofds]; rfl
  refine ⟨new, hnew, fun hc => ?_⟩
  rw [hbefore] at hc ⊢
  exact ⟨(hchange hc).count, (hchange hc).counted⟩

/-! ### Named pipes -/

lemma plain_pipe (hpipe : o.pipeIdx = some pipe)
    (hnew : o.refCount = 1 ∧ o.dirHostHandle = -1) : o.Plain := by
  unfold OpenFileDesc.pipeIdx at hpipe
  split at hpipe
  · next hkernel =>
    refine .of_create hnew.1 hnew.2 (unheld_of_neg hkernel.2) ?_
    rw [hkernel.1]
    exact nofun
  · cases hpipe

variable {owner : Nat}

lemma of_outcome (h : Outcome pipe owner p w.tables q w'.tables) : Describes w w' := by
  generalize ht : w'.tables = t' at h
  have hofds : w'.ofds = t'.ofds := congrArg ofds ht
  cases h with
  | refused | waits _ _ _ _ _ | busy _ => exact of_ofds fun i => by rw [hofds]; rfl
  | withdrawn _ hback => exact of_ofds fun i => by rw [hofds]; exact hback i
  | opened hpipe _ hnew => exact of_insert (plain_pipe hpipe hnew) fun i => by rw [hofds]; rfl

lemma of_resumption {waiter : FifoOpenWaiter}
    (h : Resumption pipe owner p w.tables waiter q w'.tables) :
    Describes w w' := by
  generalize ht : w'.tables = t' at h
  have hofds : w'.ofds = t'.ofds := congrArg ofds ht
  cases h with
  | still | cancelled _ => exact of_ofds fun i => by rw [hofds]; rfl
  | opened hpipe _ hnew => exact of_insert (plain_pipe hpipe hnew) fun i => by rw [hofds]; rfl
  | lost _ hback => exact of_ofds fun i => by rw [hofds]; exact hback i

lemma openFifo_gone (hgone : w.pipes.get pipe = none)
    (h : exec (openFifo host pipe path oflags exclusiveCreate) w = (r, w')) : w'.ofds = w.ofds := by
  unfold openFifo at h
  split at h
  · cases h
    rfl
  split at h
  · cases h
    rfl
  split at h
  · rw [openFifoPath, exec_world_bind] at h
    rcases exec_bind_cases (lookup (checkSearchPath w.caller host.toHost path)) with
      ⟨e, w1, hx, hrun⟩ | ⟨u, w1, hx, hrun⟩
    · rw [hrun] at h
      cases h
      rw [(asked_of_exec asked_lookup hx).1]
    · rw [hrun, if_pos (by rw [hgone]; rfl)] at h
      cases h
      rw [(asked_of_exec asked_lookup hx).1]
  · rcases exec_bind_cases (checkOpenPermissions host path oflags) with
      ⟨e, w1, hx, hrun⟩ | ⟨created, w1, hx, hrun⟩
    · rw [openFifoEnds, hrun] at h
      cases h
      rw [(asked_of_exec asked_checkOpenPermissions hx).1]
    have hasked := (asked_of_exec asked_checkOpenPermissions hx).1
    rw [openFifoEnds, hrun] at h
    have hpipe : w1.pipes.get pipe = none := by rw [hasked]; exact hgone
    have hofds : w1.ofds = w.ofds := by rw [hasked]
    split at h
    · cases h
      exact hofds
    · rw [exec_world_bind, hpipe] at h
      cases h
      exact hofds

lemma openFifo (h : exec (openFifo host pipe path oflags exclusiveCreate) w = (r, w')) :
    Describes w w' := by
  cases hp : w.pipes.get pipe with
  | none => exact of_ofds fun i => by rw [openFifo_gone hp h]
  | some => exact of_outcome (outcome_openFifo hp h)

end Describes

/-! ### Everything but files of the host -/

/-- The host is not asked, and at most a plain description is new. -/
structure Unasked (w w' : World) : Prop where
  history : w'.history = w.history
  describes : Describes w w'

namespace Unasked

lemma refl (w : World) : Unasked w w := ⟨rfl, .of_ofds fun _ => rfl⟩

lemma allocFd (ho : o.Plain) (hofds : ∀ i, w1.ofds.get i = (w.ofds.insert o).get i)
    (h : exec (allocFd ofd flags) w1 = (r, w')) (hhist : w1.history = w.history) :
    Unasked w w' := by
  rw [Descriptor.allocFd, exec_query] at h
  split at h <;> cases h <;> exact ⟨hhist, .of_insert ho hofds⟩

lemma allocFdOr {undo : Errno → Sys Nat}
    (ho : o.Plain) (hofds : ∀ i, w1.ofds.get i = (w.ofds.insert o).get i)
    (hundo : ∀ e, (exec (undo e) w1).2.history = w1.history ∧
      (exec (undo e) w1).2.ofds = decRef w1.ofds w.ofds.firstFree)
    (h : exec (allocFdOr w.ofds.firstFree flags Pure.pure undo) w1 = (r, w'))
    (hhist : w1.history = w.history) : Unasked w w' := by
  rw [Descriptor.allocFdOr, exec_query] at h
  split at h
  · cases h
    exact ⟨hhist, .of_insert ho hofds⟩
  next e _ =>
  have hw := hundo e
  rw [h] at hw
  refine ⟨hw.1.trans hhist, .of_ofds fun i => ?_⟩
  rw [hw.2]
  apply get_decRef_new w.ofds.get_firstFree _ ho.new
  · intro i hi
    rw [hofds, get_insert, if_neg hi]
  · rw [hofds, get_insert, if_pos rfl]

lemma share (h : exec (share ofd oflags) w = (r, w')) : Unasked w w' := by
  have hsame : w'.history = w.history ∧ w'.ofds = Tables.incRef w.ofds ofd := by
    rw [Descriptor.share, Descriptor.incRef, modifyOfd, exec_change_bind, Descriptor.allocFd,
      exec_query] at h
    split at h <;> cases h <;> exact ⟨rfl, rfl⟩
  obtain ⟨hhist, hofds⟩ := hsame
  refine ⟨hhist, none, by rintro _ ⟨⟩, fun hc => ?_⟩
  have hnew : w'.tables = ⟨w'.fds, Tables.incRef w.ofds ofd⟩ := by rw [← hofds]; rfl
  rw [hnew]
  exact ⟨fun q hq => congrArg (· + _) (count_incRef _ _ hq), counted_incRef hc _⟩

lemma openDevFd {fd : Nat} (h : exec (openDevFd fd oflags) w = (r, w')) : Unasked w w' := by
  rw [Descriptor.openDevFd, exec_world_bind] at h
  cases hget : w.fds.get fd with
  | error =>
    rw [hget] at h
    cases h
    exact refl _
  | ok =>
    rw [hget] at h
    exact share h

lemma openTty (h : exec (openTty oflags) w = (r, w')) : Unasked w w' := by
  rw [Descriptor.openTty, exec_world_bind] at h
  split at h
  · cases h
    exact refl _
  · exact share h

lemma openDeviceNode (h : exec (openDeviceNode dev path oflags) w = (r, w')) : Unasked w w' := by
  rw [Descriptor.openDeviceNode, exec_createOfd_bind, installDriStateOnOpen] at h
  have hneg : dev.hostHandle < 0 := by cases dev <;> decide
  split at h
  · rw [modifyOfd] at h
    refine allocFd ?_ get_update_insert h rfl
    exact .of_create rfl rfl (unheld_of_neg hneg) (by rintro ⟨⟩)
  · refine allocFd ?_ (fun _ => rfl) h rfl
    exact .of_create rfl rfl (unheld_of_neg hneg) (by rintro ⟨⟩)

lemma openDevice (h : exec (openDevice dev path oflags) w = (r, w')) : Unasked w w' := by
  have hacquire : (exec (acquireOrBusy dev) w).2.history = w.history ∧
      (exec (acquireOrBusy dev) w).2.ofds = w.ofds := by
    rw [acquireOrBusy, exec_query]
    split
    · split <;> exact ⟨rfl, rfl⟩
    · exact ⟨rfl, rfl⟩
  unfold Descriptor.openDevice at h
  split at h
  · rcases exec_bind_cases (acquireOrBusy dev) with ⟨e, w1, hx, hrun⟩ | ⟨u, w1, hx, hrun⟩
    · rw [hx] at hacquire
      rw [hrun] at h
      cases h
      exact ⟨hacquire.1, .of_ofds fun i => by rw [hacquire.2]⟩
    · rw [hx] at hacquire
      rw [hrun] at h
      obtain ⟨hhist, hdescribes⟩ := openDeviceNode h
      exact ⟨hhist.trans hacquire.1, .of_before hacquire.2 hdescribes⟩
  · exact openDeviceNode h

lemma openPtmx (h : exec (openPtmx path oflags) w = (r, w')) : Unasked w w' := by
  rw [Descriptor.openPtmx, exec_world_bind] at h
  split at h
  · cases h
    exact refl _
  · rw [exec_change_bind] at h
    refine allocFd ?_ (fun _ => rfl) h rfl
    exact .of_create rfl rfl (Bool.and_false _) (by rintro ⟨⟩)

lemma openPts (h : exec (openPts path oflags) w = (r, w')) : Unasked w w' := by
  unfold Descriptor.openPts at h
  split at h
  · cases h
    exact refl _
  rw [exec_world_bind] at h
  split at h
  · cases h
    exact refl _
  split at h
  · cases h
    exact refl _
  · rw [exec_change_bind] at h
    refine allocFd ?_ (fun _ => rfl) h rfl
    exact .of_create rfl rfl (Bool.and_false _) nofun

lemma devfsOpenDir (h : exec (devfsOpenDir path oflags) w = (r, w')) : Unasked w w' := by
  rw [Descriptor.devfsOpenDir] at h
  refine allocFd ?_ get_update_insert h rfl
  exact ⟨rfl, Int.negSucc_lt_zero 159, rfl, by rintro ⟨⟩⟩

lemma procfsOpen {kind : ProcfsKind}
    (h : exec (procfsOpen kind path oflags) w = (r, w')) : Unasked w w' := by
  unfold Descriptor.procfsOpen at h
  split at h
  · cases h
    exact refl _
  cases kind with
  | symlink =>
    cases h
    exact refl _
  | dir valid =>
    cases valid with
    | error =>
      cases h
      exact refl _
    | ok =>
      refine allocFdOr ?_ get_update_insert (fun _ => ⟨rfl, rfl⟩) h rfl
      exact ⟨rfl, Int.negSucc_lt_zero 149, rfl, nofun⟩
  | file objectId content =>
    cases objectId with
    | none =>
      cases h
      exact refl _
    | some =>
      cases content with
      | error =>
        cases h
        exact refl _
      | ok =>
        refine allocFdOr ?_ get_update_insert (fun _ => ⟨rfl, rfl⟩) h rfl
        refine .of_create rfl rfl (unheld_of_neg ?_) nofun
        change -(200 + (w.procfsBufs.firstFree : Int)) < 0
        omega

lemma openSynthetic (h : exec (openSynthetic path oflags) w = (r, w')) : Unasked w w' := by
  unfold Descriptor.openSynthetic at h
  split at h
  · cases h
    exact refl _
  split at h
  · cases h
    exact refl _
  refine allocFdOr ?_ get_update_insert (fun _ => ⟨rfl, rfl⟩) h rfl
  refine .of_create rfl rfl (unheld_of_neg ?_) nofun
  change -(1000000000 + (w.syntheticRegulars.firstFree : Int)) < 0
  omega

end Unasked

/-! ### Outcomes -/

/-- What an open can make of the tables and the handles of the host, if `Given` says that a file it
creates can be given to the caller. -/
inductive OpenOutcome (Given : Prop) (w w' : World) : Prop
  /-- Nothing on the host, and at most a plain description. -/
  | plain (given : Given) (still : Still w w') (describes : Describes w w')
  /-- A handle, and a description that holds it. -/
  | opened {handle : Int} {o : OpenFileDesc} (given : Given) (hostHandle : o.hostHandle = handle)
      (file : o.fileType = .Regular ∨ o.fileType = .Directory) (unread : o.dirHostHandle = -1)
      (change : w.tables.Counted → Tables.Change w.tables w'.tables none (some o))
      (events : handleEvents w'.history.calls = .opened handle :: handleEvents w.history.calls)
  /-- A handle without metadata that is closed again. -/
  | closed {handle : Int} (given : Given) (tables : w'.tables = w.tables)
      (events : handleEvents w'.history.calls =
        .closed handle :: .opened handle :: handleEvents w.history.calls)
  /-- A handle that nobody holds and nobody has closed. -/
  | leaked {handle : Int} (ungiven : ¬ Given) (tables : w'.tables = w.tables)
      (events : handleEvents w'.history.calls = .opened handle :: handleEvents w.history.calls)

/-- The file that an open created, if it did, is given to the caller. -/
def FileGiven (host : Host) (w : World) (path : Bytes) (oflags mode : BitVec 32) : Prop :=
  ∀ created w1, exec (checkOpenPermissions host path oflags) w = (.ok created, w1) →
    ∀ handle w2, exec (hostOpen host path oflags mode) w1 = (.ok handle, w2) →
      ∃ w3, exec (chownCreated host created path) w2 = (.ok (), w3)

lemma change_describeHandle {stat : LiveStat}
    (h : exec (describeHandle path oflags handle stat) w = (r, w')) :
    ∃ o : OpenFileDesc, o.hostHandle = handle ∧ (o.fileType = .Regular ∨ o.fileType = .Directory) ∧
      o.dirHostHandle = -1 ∧ w'.history = w.history ∧
      (w.tables.Counted → Tables.Change w.tables w'.tables none (some o)) := by
  have halloc {o : OpenFileDesc} {ofd : Nat} {flags : BitVec 32} {w1 : World}
      (hone : o.refCount = 1) (hofds : ∀ i, w1.ofds.get i = (w.ofds.insert o).get i)
      (h : exec (allocFd ofd flags) w1 = (r, w')) : w'.history = w1.history ∧
        (w.tables.Counted → Tables.Change w.tables w'.tables none (some o)) := by
    have hsame : w'.history = w1.history ∧ w'.ofds = w1.ofds := by
      rw [allocFd, exec_query] at h
      split at h <;> cases h <;> exact ⟨rfl, rfl⟩
    refine ⟨hsame.1, fun hc => change_of_insert hc hone fun i => ?_⟩
    exact (congrArg (get · i) hsame.2).trans (hofds i)
  rw [describeHandle, exec_createOfd_bind] at h
  have htype (b : Bool) : (if b then .Directory else .Regular : FileType) = .Regular ∨
      (if b then .Directory else .Regular : FileType) = .Directory := by
    cases b
    · exact .inl rfl
    · exact .inr rfl
  split at h
  · rw [modifyOfd] at h
    obtain ⟨hhist, hchange⟩ := halloc (by rfl) get_update_insert h
    exact ⟨_, rfl, htype _, rfl, hhist, hchange⟩
  · obtain ⟨hhist, hchange⟩ := halloc
      (o := ⟨w.nextOfdId, none, _, statusOf oflags, handle, 1, path, -1, none⟩) rfl (fun _ => rfl) h
    exact ⟨_, rfl, htype _, rfl, hhist, hchange⟩

lemma outcome_openHandle {created : Bool} (htables : w1.tables = w.tables)
    (hevents : handleEvents w1.history.calls = .opened handle :: handleEvents w.history.calls)
    (hgiven : Given ↔ ∃ w2, exec (chownCreated host created path) w1 = (.ok (), w2))
    (h : exec (openHandle host created path oflags handle) w1 = (r, w')) :
    OpenOutcome Given w w' := by
  have hkeep {w2 : World} (hasked : Asked w1 w2) : w2.tables = w.tables := by
    rw [hasked.1]
    exact htables
  rw [openHandle] at h
  rcases exec_bind_cases (chownCreated host created path) with
    ⟨e, w2, hchown, hrun⟩ | ⟨u, w2, hchown, hrun⟩
  · rw [hrun] at h
    cases h
    have hstill := Still.of_exec Still.chownCreated hchown
    refine .leaked ?_ (hkeep (asked_of_exec asked_chownCreated hchown))
      (hstill.events.trans hevents)
    rw [hgiven, hchown]
    rintro ⟨w3, ⟨⟩⟩
  have hg : Given := hgiven.mpr ⟨w2, hchown⟩
  have hstill := Still.of_exec Still.chownCreated hchown
  have hasked := asked_of_exec asked_chownCreated hchown
  rw [hrun] at h
  rcases exec_liveStat host handle w2 with ⟨stat, w3, hfstat, hlive, hasked'⟩ |
      ⟨e, w3, hfstat, hlive, hasked'⟩
  · have hstill' : Still w1 w3 := hstill.trans (Still.of_exec (fun _ => ⟨rfl⟩) hfstat)
    rw [exec_bind_of_ok hlive] at h
    obtain ⟨o, hhandle, hfile, hunread, hhist, hchange⟩ := change_describeHandle h
    rw [hkeep (hasked.trans hasked')] at hchange
    refine .opened hg hhandle hfile hunread hchange ?_
    rw [hhist, hstill'.events, hevents]
  · have hstill' : Still w1 w3 := hstill.trans (Still.of_exec (fun _ => ⟨rfl⟩) hfstat)
    rw [exec_bind_of_error hlive] at h
    cases h
    have hsame : w3.tables = w.tables := hkeep (hasked.trans hasked')
    have hclosed := congrArg (ShareCount.Event.closed handle :: ·) (hstill'.events.trans hevents)
    exact .closed hg hsame hclosed

lemma outcome_openHostFile (h : exec (openHostFile host path oflags mode) w = (r, w')) :
    OpenOutcome (FileGiven host w path oflags mode) w w' := by
  rw [openHostFile] at h
  rcases exec_bind_cases (checkOpenPermissions host path oflags) with
    ⟨e, w1, hcheck, hrun⟩ | ⟨created, w1, hcheck, hrun⟩
  · rw [hrun] at h
    cases h
    refine .plain ?_ (Still.of_exec Still.checkOpenPermissions hcheck) ?_
    · intro created w2 hok
      rw [hcheck] at hok
      cases hok
    · exact .of_ofds fun i => by rw [(asked_of_exec asked_checkOpenPermissions hcheck).1]
  have hstill := Still.of_exec Still.checkOpenPermissions hcheck
  have hasked := asked_of_exec asked_checkOpenPermissions hcheck
  have htables : w1.tables = w.tables := by rw [hasked.1]; rfl
  rw [hrun] at h
  have hquery : exec (hostOpen host path oflags mode) w1 =
      (host.openFile w1.history path oflags mode, w1.record
        (.openFile path oflags mode (host.openFile w1.history path oflags mode))) := rfl
  cases hopen : host.openFile w1.history path oflags mode with
  | error =>
    rw [hopen] at hquery
    rw [exec_bind_of_error hquery] at h
    cases h
    refine .plain ?_ ⟨hstill.events⟩ ?_
    · intro created' w2 hok handle w3 hopened
      rw [hcheck] at hok
      cases hok
      rw [hquery] at hopened
      cases hopened
    · exact .of_ofds fun i => congrArg (get · i) (congrArg ofds htables)
  | ok handle =>
    rw [hopen] at hquery
    rw [exec_bind_of_ok hquery] at h
    apply outcome_openHandle (by exact htables)
      (by exact congrArg (.opened handle :: ·) hstill.events) _ h
    constructor
    · exact fun hg => hg created w1 hcheck handle _ hquery
    rintro hg created' w2 hok handle' w3 hopened
    rw [hcheck] at hok
    cases hok
    rw [hquery] at hopened
    cases hopened
    exact hg

/-- The file that the call created, if it did, is given to the caller. -/
def OpenGiven (host : Host) (w : World) (path : Bytes) (oflags mode : BitVec 32) : Prop :=
  w.pendingFifoOpen = none → ∀ entry w1, exec (lookup (resolveNamespacePath w.caller host.toHost
      (openOptions oflags) path w.task.cwd)) w = (.ok entry, w1) →
    refuseLink oflags entry.stat = .ok () → w.task.target entry.path = .hostFile →
      FileGiven host w1 entry.path oflags (w.effectiveMode oflags mode)

lemma Unasked.outcome (h : Unasked w w') (hgiven : Given) : OpenOutcome Given w w' :=
  .plain hgiven (.of_history h.history) h.describes

lemma outcome_openTarget {target : Target}
    (h : exec (openTarget host path oflags mode target) w = (r, w')) :
    OpenOutcome (target = .hostFile → FileGiven host w path oflags mode) w w' := by
  cases target with
  | devFd => exact (Unasked.openDevFd h).outcome nofun
  | device => exact (Unasked.openDevice h).outcome nofun
  | ptmx => exact (Unasked.openPtmx h).outcome nofun
  | pts => exact (Unasked.openPts h).outcome nofun
  | tty => exact (Unasked.openTty h).outcome nofun
  | fifo => exact .plain nofun (Still.of_exec Still.openFifo h) (.openFifo h)
  | procfs => exact (Unasked.procfsOpen h).outcome nofun
  | devfsDir => exact (Unasked.devfsOpenDir h).outcome nofun
  | synthetic => exact (Unasked.openSynthetic h).outcome nofun
  | hostFile =>
    rw [forall_prop_of_true rfl]
    exact outcome_openHostFile h

lemma OpenOutcome.of_before {Given' : Prop} (hasked : Asked w w1) (hstill : Still w w1)
    (hiff : Given ↔ Given') (h : OpenOutcome Given w1 w') : OpenOutcome Given' w w' := by
  have htables : w1.tables = w.tables := by rw [hasked.1]; rfl
  cases h with
  | plain hgiven hstill' hdescribes =>
    exact .plain (hiff.mp hgiven) (hstill.trans hstill')
      (.of_before (congrArg ofds htables) hdescribes)
  | opened hgiven hhandle hfile hunread hchange hevents =>
    rw [htables] at hchange
    exact .opened (hiff.mp hgiven) hhandle hfile hunread hchange (by rw [hevents, hstill.events])
  | closed hgiven hsame hevents =>
    exact .closed (hiff.mp hgiven) (hsame.trans htables) (by rw [hevents, hstill.events])
  | leaked hungiven hsame hevents =>
    exact .leaked (mt hiff.mpr hungiven) (hsame.trans htables) (by rw [hevents, hstill.events])

lemma outcome_sysOpen (h : exec (sysOpen host path oflags mode) w = (r, w')) :
    OpenOutcome (OpenGiven host w path oflags mode) w w' := by
  cases hpending : w.pendingFifoOpen with
  | some pending =>
    obtain ⟨pipe, waiter⟩ := pending
    obtain ⟨p, hp, -⟩ := pendingFifoOpen_eq_some hpending
    have hgiven : OpenGiven host w path oflags mode := by
      intro hnone
      rw [hpending] at hnone
      cases hnone
    rcases exec_bind_cases resumeFifoOpen with ⟨e, w1, hx, hrun⟩ | ⟨fd, w1, hx, hrun⟩
    · rw [sysOpen, hrun] at h
      cases h
      exact .plain hgiven (Still.of_exec Still.resumeFifoOpen hx)
        (.of_resumption (resumption_resumeFifoOpen hpending hp hx))
    · obtain ⟨fd, rfl⟩ := exec_resumeFifoOpen_pending (by rw [hpending]; exact nofun) hx
      rw [sysOpen, hrun] at h
      cases h
      exact .plain hgiven (Still.of_exec Still.resumeFifoOpen hx)
        (.of_resumption (resumption_resumeFifoOpen hpending hp hx))
  | none =>
    have hresume : exec resumeFifoOpen w = (.ok none, w) := by
      rw [resumeFifoOpen, exec_world_bind, hpending]
      rfl
    rw [sysOpen, exec_bind_of_ok hresume] at h
    dsimp only at h
    rw [openFresh, exec_world_bind] at h
    rcases exec_bind_cases (lookup (resolveNamespacePath w.caller host.toHost (openOptions oflags)
      path w.task.cwd)) with ⟨e, w1, hx, hrun⟩ | ⟨entry, w1, hx, hrun⟩
    · rw [hrun] at h
      cases h
      refine .plain ?_ (Still.of_exec Still.lookup hx) (.of_ofds fun i => ?_)
      · intro _ entry w2 hok
        rw [hx] at hok
        cases hok
      · rw [(asked_of_exec asked_lookup hx).1]
    have hstill := Still.of_exec Still.lookup hx
    have hasked := asked_of_exec asked_lookup hx
    rw [hrun] at h
    cases hlink : refuseLink oflags entry.stat with
    | error =>
      rw [hlink] at h
      cases h
      refine .plain ?_ hstill (.of_ofds fun i => by rw [hasked.1])
      intro _ entry' w2 hok hfollow
      rw [hx] at hok
      cases hok
      rw [hlink] at hfollow
      cases hfollow
    | ok =>
      rw [hlink] at h
      refine (outcome_openTarget h).of_before hasked hstill ?_
      constructor
      · intro hg _ entry' w2 hok _ htarget
        rw [hx] at hok
        cases hok
        exact hg htarget
      · exact fun hg htarget => hg hpending entry w1 hx hlink htarget

end Kandelo.Kernel.Descriptor
