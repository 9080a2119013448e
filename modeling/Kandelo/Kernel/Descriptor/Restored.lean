import Kandelo.Kernel.Descriptor.Create

/-!
# What a call that fails should leave

Two states are the same to whoever looks up descriptors, descriptions, pipes,
sockets, terminals, owners of devices and open handles of the host. A call is all or nothing from
a state if its failure leaves a state that is the same in this sense. The lemmas here say when that
is so for the ways in which descriptors are made: with nothing given back, or with a description
given back.
-/

namespace Kandelo.Kernel.Descriptor

open Lib Slots FdTable
open Lib.Effect
open Kandelo.Kernel.Path (Bytes bytes slash Stat Lookup)
open File (FileType)
variable {x : Sys Nat} {ofd : Nat} {flags : BitVec 32} {handle : Int} {o : OpenFileDesc} {α : Type}
  {w w1 w' : World} {host : Host} {path : Bytes} {oflags mode : BitVec 32} {undo : Errno → Sys α}
  {ok : Nat → Sys α} {created : Bool}

/-- The state after is, to lookups, the state before: descriptors, descriptions with their counts,
pipes, sockets, terminals and owners of devices; and what was opened on the host is closed. -/
structure Restored (w w' : World) : Prop where
  fds : ∀ fd, w'.fds.entries.get fd = w.fds.entries.get fd
  ofds : ∀ i, w'.ofds.get i = w.ofds.get i
  pipes : ∀ i, w'.pipes.get i = w.pipes.get i
  sockets : ∀ i, w'.sockets.get i = w.sockets.get i
  ptys : ∀ i, w'.ptys.get i = w.ptys.get i
  owners : w'.owners = w.owners
  handles : held w'.history.calls = held w.history.calls

lemma equivalence_restored : Equivalence Restored where
  refl _ := ⟨fun _ => rfl, fun _ => rfl, fun _ => rfl, fun _ => rfl, fun _ => rfl, rfl, rfl⟩
  symm h := ⟨fun i => (h.fds i).symm, fun i => (h.ofds i).symm, fun i => (h.pipes i).symm,
    fun i => (h.sockets i).symm, fun i => (h.ptys i).symm, h.owners.symm, h.handles.symm⟩
  trans h h' := ⟨fun i => (h'.fds i).trans (h.fds i), fun i => (h'.ofds i).trans (h.ofds i),
    fun i => (h'.pipes i).trans (h.pipes i), fun i => (h'.sockets i).trans (h.sockets i),
    fun i => (h'.ptys i).trans (h.ptys i), h'.owners.trans h.owners, h'.handles.trans h.handles⟩

/-- A failure of the call leaves the state as it was. -/
abbrev AllOrNothing (x : Sys α) (w : World) : Prop := Undoes Restored x w

/-! ### Steps that change no table -/

/-- The host was asked, with no handle opened or closed, and nothing else has changed. -/
def Asked (w w' : World) : Prop :=
  w' = { w with history := w'.history } ∧ held w'.history.calls = held w.history.calls

lemma Asked.refl (w : World) : Asked w w := ⟨rfl, rfl⟩

lemma Asked.trans {w1 w2 w3 : World} (h : Asked w1 w2) (h' : Asked w2 w3) : Asked w1 w3 := by
  refine ⟨?_, h'.2.trans h.2⟩
  rw [h'.1, h.1]

lemma Asked.restored (h : Asked w w') : Restored w w' := by
  have hheld := h.2
  rw [h.1]
  exact ⟨fun _ => rfl, fun _ => rfl, fun _ => rfl, fun _ => rfl, fun _ => rfl, rfl, hheld⟩

lemma asked_world : Respects Asked world := Asked.refl

lemma asked_lookup {x : Lookup α} : Respects Asked (lookup x) := fun _ => ⟨rfl, rfl⟩

lemma asked_hostStat : Respects Asked (hostStat host path) := fun _ => ⟨rfl, rfl⟩

lemma asked_bind {β : Type} {x : Sys α} {f : α → Sys β} (hx : Respects Asked x)
    (hf : ∀ a, Respects Asked (f a)) : Respects Asked (x >>= f) :=
  respects_bind (fun _ _ _ => Asked.trans) hx hf

lemma asked_checkOpenPermissions : Respects Asked (checkOpenPermissions host path oflags) := by
  refine asked_bind asked_world fun w => asked_bind asked_lookup fun _ =>
    asked_bind (respects_attempt asked_hostStat) ?_
  rintro (e | st)
  · cases e with
    | ENOENT =>
      dsimp only
      split
      · exact asked_bind asked_lookup fun _ => respects_pure Asked.refl true
      · exact respects_pure Asked.refl false
    | _ => exact respects_throw Asked.refl _
  · dsimp only
    split
    · exact respects_throw Asked.refl _
    · exact asked_bind asked_lookup fun _ => respects_pure Asked.refl false

lemma asked_chownCreated : Respects Asked (chownCreated host created path) := by
  refine asked_bind asked_world fun w => ?_
  split
  · exact fun _ => ⟨rfl, rfl⟩
  · exact respects_pure Asked.refl ()

lemma asked_of_exec {x : Sys α} {r : Except Errno α} (hx : Respects Asked x)
    (h : exec x w = (r, w')) : Asked w w' := by
  have hw := hx w
  rwa [h] at hw

lemma allOrNothing_asked_bind_iff {β : Type} {x : Sys α} {f : α → Sys β} (hx : Respects Asked x) :
    AllOrNothing (x >>= f) w ↔ ∀ a w1, exec x w = (.ok a, w1) → AllOrNothing (f a) w1 :=
  undoes_bind_iff equivalence_restored fun w => (hx w).restored

lemma allOrNothing_world_bind_iff {f : World → Sys α} :
    AllOrNothing (world >>= f) w ↔ AllOrNothing (f w) w := by
  rw [allOrNothing_asked_bind_iff asked_world]
  constructor
  · exact fun h => h w w rfl
  · rintro h a w1 ⟨⟩
    exact h

/-! ### Descriptors -/

lemma exec_allocFd_of_full (h : w.fds.spare = 0) :
    exec (allocFd ofd flags) w = (.error .EMFILE, w) := by
  rw [allocFd, exec_query, alloc_of_spare_eq_zero h]

lemma exec_allocFd_of_spare (h : 0 < w.fds.spare) :
    ∃ fds, w.fds.alloc ofd flags = .ok (w.fds.lowest, fds) ∧
      exec (allocFd ofd flags) w = (.ok w.fds.lowest, { w with fds }) := by
  obtain ⟨fds, hfds⟩ := alloc_of_spare_pos h
  refine ⟨fds, hfds, ?_⟩
  rw [allocFd, exec_query, hfds]

lemma allOrNothing_leak_iff (hx : exec x w = exec (allocFd ofd flags) w1) (hfds : w1.fds = w.fds)
    (hleak : ¬ Restored w w1) : AllOrNothing x w ↔ 0 < w.fds.spare := by
  constructor
  · intro h
    by_contra hfull
    have hspare : w1.fds.spare = 0 := by rw [hfds]; omega
    exact hleak (h _ _ (hx.trans (exec_allocFd_of_full hspare)))
  · intro h
    rw [← hfds] at h
    obtain ⟨fds, -, hok⟩ := exec_allocFd_of_spare h
    exact undoes_of_ok (hx.trans hok)

lemma not_restored_of_new {i : Nat} (hold : w.ofds.get i = none)
    (hnew : (w1.ofds.get i).isSome = true) : ¬ Restored w w1 := by
  intro h
  rw [h.ofds, hold] at hnew
  cases hnew

lemma allOrNothing_create_iff (hx : exec x w = exec (allocFd ofd flags) w1) (hfds : w1.fds = w.fds)
    (hnew : (w1.ofds.get w.ofds.firstFree).isSome = true) : AllOrNothing x w ↔ 0 < w.fds.spare :=
  allOrNothing_leak_iff hx hfds (not_restored_of_new w.ofds.get_firstFree hnew)

/-! ### Descriptors that are given to a description that is there -/

/-- Sharing a description is all or nothing if it is not there or if a descriptor is free. -/
def ShareKeeps (w : World) (ofd : Nat) : Prop := w.ofds.get ofd = none ∨ 0 < w.fds.spare

lemma allOrNothing_share_iff : AllOrNothing (share ofd oflags) w ↔ ShareKeeps w ofd := by
  have hx : exec (share ofd oflags) w = exec (allocFd ofd (oflagsToFdFlags oflags))
      { w with ofds := w.ofds.update ofd fun o => { o with refCount := o.refCount + 1 } } := rfl
  cases hofd : w.ofds.get ofd with
  | some =>
    rw [allOrNothing_leak_iff hx rfl, ShareKeeps, hofd]
    · simp
    intro h
    have hcount := h.ofds ofd
    rw [get_update, if_pos rfl, hofd, Option.map_some, Option.some.injEq] at hcount
    exact absurd (congrArg OpenFileDesc.refCount hcount) (Nat.succ_ne_self _)
  | none =>
    refine iff_of_true ?_ (.inl hofd)
    intro e w' he
    have hsame (i : Nat) :
        (w.ofds.update ofd fun o => { o with refCount := o.refCount + 1 }).get i =
        w.ofds.get i := by
      rw [get_update]
      split
      · next hi => rw [hi, hofd, Option.map_none]
      · rfl
    by_cases hfull : w.fds.spare = 0
    · rw [hx, exec_allocFd_of_full (by exact hfull)] at he
      cases he
      exact ⟨fun _ => rfl, hsame, fun _ => rfl, fun _ => rfl, fun _ => rfl, rfl, rfl⟩
    · obtain ⟨fds, -, hok⟩ := exec_allocFd_of_spare (w := { w with
        ofds := w.ofds.update ofd fun o => { o with refCount := o.refCount + 1 } })
        (Nat.pos_of_ne_zero hfull)
      rw [hx, hok] at he
      cases he

lemma allOrNothing_openTty_iff :
    AllOrNothing (openTty oflags) w ↔ ∀ ofd, w.controllingTty = some ofd → ShareKeeps w ofd := by
  rw [openTty, allOrNothing_world_bind_iff]
  cases htty : w.controllingTty with
  | none => exact iff_of_true (undoes_of_same_error equivalence_restored rfl) nofun
  | some ofd =>
    rw [allOrNothing_share_iff]
    constructor
    · rintro h ofd' ⟨⟩
      exact h
    · exact fun h => h ofd rfl

/-! ### Devices and terminals -/

/-- The device has another owner. -/
def Busy (w : World) (dev : VirtualDevice) : Prop :=
  dev.hasOwner = true ∧ ∃ pid, w.owners dev = some pid ∧ pid ≠ w.task.pid

variable (dev : VirtualDevice)

lemma exec_openDeviceNode (path : Bytes) (oflags : BitVec 32) (w : World) :
    ∃ w1, exec (openDeviceNode dev path oflags) w =
        exec (allocFd w.ofds.firstFree (oflagsToFdFlags oflags)) w1 ∧ w1.fds = w.fds ∧
      (w1.ofds.get w.ofds.firstFree).isSome = true := by
  rw [openDeviceNode, exec_createOfd_bind, installDriStateOnOpen]
  cases dev.driState with
  | some => exact ⟨_, rfl, rfl, by simp [World.withOfd]⟩
  | none => exact ⟨_, exec_bind_of_ok rfl, rfl, by simp [World.withOfd]⟩

lemma allOrNothing_openDevice_iff :
    AllOrNothing (openDevice dev path oflags) w ↔ Busy w dev ∨ 0 < w.fds.spare := by
  -- once the device is owned, what is left makes a description and takes a descriptor
  have hrest (w1 : World) (hfds : w1.fds = w.fds) (hofds : w1.ofds = w.ofds)
      (hx : exec (openDevice dev path oflags) w = exec (openDeviceNode dev path oflags) w1) :
      AllOrNothing (openDevice dev path oflags) w ↔ 0 < w.fds.spare := by
    obtain ⟨w2, hnode, hfds2, hnew⟩ := exec_openDeviceNode dev path oflags w1
    rw [hofds] at hnew
    exact allOrNothing_create_iff (hx.trans hnode) (hfds2.trans hfds) hnew
  unfold Busy
  cases howner : dev.hasOwner with
  | false =>
    have hx : exec (openDevice dev path oflags) w = exec (openDeviceNode dev path oflags) w := by
      rw [openDevice, howner]
      rfl
    rw [hrest w rfl rfl hx]
    simp
  | true =>
    have hbind : exec (openDevice dev path oflags) w =
        exec (acquireOrBusy dev >>= fun _ => openDeviceNode dev path oflags) w := by
      rw [openDevice, howner]
      rfl
    cases hpid : w.owners dev with
    | none =>
      have hok : exec (acquireOrBusy dev) w = (.ok (), { w with
          owners := fun d => if d = dev then some w.task.pid else w.owners d }) := by
        rw [acquireOrBusy, exec_query, hpid]
      have hx := hbind.trans (exec_bind_of_ok hok)
      rw [hrest _ (by rfl) (by rfl) hx]
      simp
    | some pid =>
      by_cases hme : pid = w.task.pid
      · have hok : exec (acquireOrBusy dev) w = (.ok (), w) := by
          rw [acquireOrBusy, exec_query, hpid]
          exact if_pos hme
        rw [hrest _ rfl rfl (hbind.trans (exec_bind_of_ok hok))]
        simp [hme]
      · have herr : exec (acquireOrBusy dev) w = (.error .EBUSY, w) := by
          rw [acquireOrBusy, exec_query, hpid]
          exact if_neg hme
        refine iff_of_true ?_ (.inl ⟨rfl, pid, rfl, hme⟩)
        exact undoes_of_same_error equivalence_restored (hbind.trans (exec_bind_of_error herr))

lemma allOrNothing_open_iff {fileType : FileType} {statusFlags : BitVec 32}
    (hx : exec x w = exec (createOfd fileType statusFlags handle path >>= fun ofd =>
      allocFd ofd flags) w1) (hfds : w1.fds = w.fds) (hofds : w1.ofds = w.ofds) :
    AllOrNothing x w ↔ 0 < w.fds.spare := by
  rw [exec_createOfd_bind] at hx
  apply allOrNothing_create_iff hx hfds
  rw [World.withOfd, hofds]
  simp

lemma allOrNothing_openPtmx_iff :
    AllOrNothing (openPtmx path oflags) w ↔ w.ptys.alloc = none ∨ 0 < w.fds.spare := by
  rw [openPtmx, allOrNothing_world_bind_iff]
  cases halloc : w.ptys.alloc with
  | none => exact iff_of_true (undoes_of_same_error equivalence_restored rfl) (.inl rfl)
  | some fresh =>
    obtain ⟨pty, ptys⟩ := fresh
    rw [allOrNothing_open_iff (exec_change_bind _ w) (by rfl) (by rfl)]
    simp

/-- The path is that of an unlocked terminal. -/
def OpensPts (w : World) (path : Bytes) : Prop :=
  ∃ pty pair, parseAsciiUsize (path.drop 9) = some pty ∧ w.ptys.get pty = some pair ∧
    pair.isLocked = false

lemma allOrNothing_openPts_iff :
    AllOrNothing (openPts path oflags) w ↔ (OpensPts w path → 0 < w.fds.spare) := by
  have hrefuse {x : Sys Nat} {e : Errno} (hx : exec x w = (.error e, w))
      (hno : ¬ OpensPts w path) : AllOrNothing x w ↔ (OpensPts w path → 0 < w.fds.spare) :=
    iff_of_true (undoes_of_same_error equivalence_restored hx) fun h => absurd h hno
  unfold openPts
  cases hparse : parseAsciiUsize (path.drop 9) with
  | none =>
    apply hrefuse rfl
    rintro ⟨pty, pair, hpty, -⟩
    rw [hparse] at hpty
    cases hpty
  | some pty =>
    rw [allOrNothing_world_bind_iff]
    cases hget : w.ptys.get pty with
    | none =>
      apply hrefuse rfl
      rintro ⟨pty', pair, hpty, hpair, -⟩
      rw [hparse] at hpty
      cases hpty
      rw [hget] at hpair
      cases hpair
    | some pair =>
      dsimp only
      split
      · next hlocked =>
        apply hrefuse rfl
        rintro ⟨pty', pair', hpty, hpair, hunlocked⟩
        rw [hparse] at hpty
        cases hpty
        rw [hget] at hpair
        cases hpair
        rw [hlocked] at hunlocked
        cases hunlocked
      · next hunlocked =>
        rw [allOrNothing_open_iff (exec_change_bind _ w) (by rfl) (by rfl)]
        have hopens : OpensPts w path :=
          ⟨pty, pair, hparse, hget, Bool.eq_false_of_not_eq_true hunlocked⟩
        exact ⟨fun h _ => h, fun h => h hopens⟩

/-! ### Descriptions that are given back -/

lemma exec_allocFdOr_of_full (h : w.fds.spare = 0) :
    exec (allocFdOr ofd flags ok undo) w = exec (undo .EMFILE) w := by
  rw [allocFdOr, exec_query, alloc_of_spare_eq_zero h]

lemma exec_allocFdOr_of_spare (h : 0 < w.fds.spare) :
    ∃ fds, w.fds.alloc ofd flags = .ok (w.fds.lowest, fds) ∧
      exec (allocFdOr ofd flags ok undo) w = exec (ok w.fds.lowest) { w with fds } := by
  obtain ⟨fds, hfds⟩ := alloc_of_spare_pos h
  refine ⟨fds, hfds, ?_⟩
  rw [allocFdOr, exec_query, hfds]

lemma allOrNothing_giveBack_iff (hfds : w1.fds = w.fds)
    (hok : ∀ fd fds, ∃ a w', exec (ok fd) { w1 with fds } = (.ok a, w')) :
    (∀ e w', exec (allocFdOr ofd flags ok undo) w1 = (.error e, w') → Restored w w') ↔
      (w.fds.spare = 0 → ∀ e w', exec (undo .EMFILE) w1 = (.error e, w') → Restored w w') := by
  by_cases hfull : w.fds.spare = 0
  · rw [exec_allocFdOr_of_full (by rw [hfds, hfull])]
    exact ⟨fun h _ => h, fun h => h hfull⟩
  refine iff_of_true ?_ fun h => absurd h hfull
  have hspare : 0 < w1.fds.spare := Nat.pos_of_ne_zero (by rwa [hfds])
  obtain ⟨fds, -, hrun⟩ := exec_allocFdOr_of_spare hspare
  obtain ⟨a, w', ha⟩ := hok w1.fds.lowest fds
  rw [hrun, ha]
  exact nofun

lemma get_decRef_new {t t' : Slots OpenFileDesc} {i : Nat}
    (hold : t.get i = none) (hnew : t'.get i = some o) (hone : o.refCount = 1)
    (hothers : ∀ j, j ≠ i → t'.get j = t.get j) (j : Nat) : (decRef t' i).get j = t.get j := by
  unfold decRef
  rw [hnew]
  dsimp only
  rw [if_pos (by rw [hone]), get_clear]
  by_cases hj : j = i
  · rw [if_pos hj, hj, hold]
  · rw [if_neg hj, hothers j hj]

variable (t : Slots OpenFileDesc)

lemma get_decRef_insert (hone : o.refCount = 1) (j : Nat) :
    (decRef (t.insert o) t.firstFree).get j = t.get j := by
  apply get_decRef_new t.get_firstFree _ hone
  · intro i hi
    rw [get_insert, if_neg hi]
  · rw [get_insert, if_pos rfl]

lemma get_decRef_update_insert {f : OpenFileDesc → OpenFileDesc} (hone : (f o).refCount = 1)
    (j : Nat) : (decRef ((t.insert o).update t.firstFree f) t.firstFree).get j = t.get j := by
  apply get_decRef_new t.get_firstFree _ hone
  · intro i hi
    rw [get_update, if_neg hi, get_insert, if_neg hi]
  · rw [get_update, if_pos rfl, get_insert, if_pos rfl, Option.map_some]

lemma restored_of_ofds {ofds : Slots OpenFileDesc} (h : ∀ i, ofds.get i = w.ofds.get i)
    {n : Nat} {bufs : Slots (SharedBacking Bytes)} {regulars : Slots (SharedBacking Unit)} :
    Restored w { w with ofds, nextOfdId := n, procfsBufs := bufs, syntheticRegulars := regulars } :=
  ⟨fun _ => rfl, h, fun _ => rfl, fun _ => rfl, fun _ => rfl, rfl, rfl⟩

lemma allOrNothing_procfsOpen (kind : ProcfsKind) :
    AllOrNothing (procfsOpen kind path oflags) w := by
  unfold procfsOpen
  split
  · exact undoes_of_same_error equivalence_restored rfl
  cases kind with
  | symlink => exact undoes_of_same_error equivalence_restored rfl
  | dir =>
    refine (undoes_ofExcept_bind_iff equivalence_restored).mpr fun _ _ => ?_
    rw [Undoes, exec_createOfd_bind, modifyOfd, exec_change_bind]
    rw [allOrNothing_giveBack_iff]
    · rintro - e w' ⟨⟩
      exact restored_of_ofds (get_decRef_update_insert _ rfl)
    · rfl
    · exact fun fd fds => ⟨fd, _, rfl⟩
  | file =>
    refine (undoes_ofExcept_bind_iff equivalence_restored).mpr fun _ _ => ?_
    refine (undoes_ofExcept_bind_iff equivalence_restored).mpr fun _ _ => ?_
    rw [Undoes, exec_world_bind, exec_change_bind, exec_createOfd_bind, modifyOfd, exec_change_bind]
    rw [allOrNothing_giveBack_iff]
    · rintro - e w' ⟨⟩
      exact restored_of_ofds (get_decRef_update_insert _ rfl)
    · rfl
    · exact fun fd fds => ⟨fd, _, rfl⟩

lemma allOrNothing_openSynthetic : AllOrNothing (openSynthetic path oflags) w := by
  unfold AllOrNothing openSynthetic
  split
  · exact undoes_of_same_error equivalence_restored rfl
  split
  · exact undoes_of_same_error equivalence_restored rfl
  rw [Undoes, exec_world_bind, exec_change_bind, exec_createOfd_bind, modifyOfd, exec_change_bind,
    allOrNothing_giveBack_iff]
  · rintro - e w' ⟨⟩
    exact restored_of_ofds (get_decRef_update_insert _ rfl)
  · rfl
  · exact fun fd fds => ⟨fd, _, rfl⟩

lemma allOrNothing_devfsOpenDir_iff :
    AllOrNothing (devfsOpenDir path oflags) w ↔ 0 < w.fds.spare := by
  unfold devfsOpenDir
  apply allOrNothing_create_iff
  · rw [exec_createOfd_bind, modifyOfd, exec_change_bind]
  · rfl
  · simp [World.withOfd]

/-! ### Files of the host -/

/-- An open of a host file that got a handle keeps what there was: giving the file to the caller
works, and a descriptor is free if the host then has metadata. -/
def HandleKeeps (host : Host) (created : Bool) (path : Bytes) (handle : Int) (w : World) : Prop :=
  ∃ w1, exec (chownCreated host created path) w = (.ok (), w1) ∧
    ((∃ stat w2, exec (hostFstat host handle) w1 = (.ok stat, w2)) → 0 < w.fds.spare)

lemma exec_liveStat (host : Host) (handle : Int) (w : World) :
    (∃ stat w1, exec (hostFstat host handle) w = (.ok stat, w1) ∧
        exec (liveStat host handle) w = (.ok stat, w1) ∧ Asked w w1) ∨
      ∃ e w1, exec (hostFstat host handle) w = (.error e, w1) ∧
        exec (liveStat host handle) w = (.error e, w1.record (.close handle)) ∧ Asked w w1 := by
  cases hstat : host.fstat w.history handle with
  | ok stat =>
    refine .inl ⟨stat, w.record (.fstat handle (.ok stat)), ?_, ?_, rfl, rfl⟩
    · rw [hostFstat, exec_query, hstat]
    · rw [liveStat, hostFstat, exec_bind, exec_attempt, exec_query, hstat]
      rfl
  | error e =>
    refine .inr ⟨e, w.record (.fstat handle (.error e)), ?_, ?_, rfl, rfl⟩
    · rw [hostFstat, exec_query, hstat]
    · rw [liveStat, hostFstat, exec_bind, exec_attempt, exec_query, hstat]
      rfl

lemma exec_describeHandle (stat : LiveStat) :
    ∃ w1, exec (describeHandle path oflags handle stat) w =
        exec (allocFd w.ofds.firstFree (oflagsToFdFlags oflags)) w1 ∧ w1.fds = w.fds ∧
      (w1.ofds.get w.ofds.firstFree).isSome = true := by
  rw [describeHandle, exec_createOfd_bind]
  split
  · exact ⟨_, rfl, rfl, by simp [World.withOfd]⟩
  · exact ⟨_, rfl, rfl, by simp [World.withOfd]⟩

lemma allOrNothing_openHandle_iff
    (hx : exec x w = exec (openHandle host created path oflags handle) w1)
    (hsame : w1 = { w with history := w1.history })
    (hheld : held w1.history.calls = handle :: held w.history.calls) :
    AllOrNothing x w ↔ HandleKeeps host created path handle w1 := by
  have hfds : w1.fds = w.fds := by rw [hsame]
  rcases hchown : exec (chownCreated host created path) w1 with ⟨e | u, w2⟩
  · -- the handle stays open
    have hasked : Asked w1 w2 := asked_of_exec asked_chownCreated hchown
    refine iff_of_false ?_ ?_
    · rw [AllOrNothing, undoes_iff_of_error (hx.trans (exec_bind_of_error hchown))]
      intro hr
      rw [← hr.handles, hasked.2] at hheld
      exact absurd (congrArg List.length hheld) (by simp)
    · rintro ⟨w', hok, -⟩
      rw [hchown] at hok
      cases hok
  have hasked : Asked w1 w2 := asked_of_exec asked_chownCreated hchown
  have hkeeps : HandleKeeps host created path handle w1 ↔
      ((∃ stat w3, exec (hostFstat host handle) w2 = (.ok stat, w3)) → 0 < w.fds.spare) := by
    rw [HandleKeeps, hchown, hfds]
    constructor
    · rintro ⟨w', ⟨⟩, h⟩
      exact h
    · exact fun h => ⟨w2, rfl, h⟩
  rw [openHandle, exec_bind_of_ok hchown] at hx
  rw [hkeeps]
  rcases exec_liveStat host handle w2 with ⟨stat, w3, hfstat, hlive, hasked'⟩ |
      ⟨e, w3, hfstat, hlive, hasked'⟩
  · rw [exec_bind_of_ok hlive] at hx
    obtain ⟨w4, hnode, hfds4, hnew⟩ := exec_describeHandle stat
    have hsame3 : w3 = { w with history := w3.history } :=
      (hasked.trans hasked').1.trans (by rw [hsame])
    have hofds : w3.ofds = w.ofds := by rw [hsame3]
    rw [hofds] at hnew
    rw [allOrNothing_create_iff (hx.trans hnode) (hfds4.trans (by rw [hsame3])) hnew]
    exact ⟨fun h _ => h, fun h => h ⟨stat, w3, hfstat⟩⟩
  · -- the handle is closed again
    rw [exec_bind_of_error hlive] at hx
    refine iff_of_true ?_ ?_
    · have hclosed : held (w3.record (.close handle)).history.calls = held w.history.calls := by
        change (held w3.history.calls).erase handle = _
        rw [hasked'.2, hasked.2, hheld, List.erase_cons_head]
      have hsame3 : w3.record (.close handle) =
          { w with history := (w3.record (.close handle)).history } := by
        conv_lhs => rw [(hasked.trans hasked').1, hsame]
        rfl
      rw [AllOrNothing, undoes_iff_of_error hx]
      exact Asked.restored ⟨hsame3, hclosed⟩
    · rintro ⟨stat, w', hok⟩
      rw [hfstat] at hok
      cases hok

lemma allOrNothing_openHostFile_iff :
    AllOrNothing (openHostFile host path oflags mode) w ↔
      ∀ created w1, exec (checkOpenPermissions host path oflags) w = (.ok created, w1) →
        ∀ handle w2, exec (hostOpen host path oflags mode) w1 = (.ok handle, w2) →
          HandleKeeps host created path handle w2 := by
  rw [openHostFile, allOrNothing_asked_bind_iff asked_checkOpenPermissions]
  refine forall₃_congr fun created w1 _ => ?_
  have hquery : exec (hostOpen host path oflags mode) w1 =
      (host.openFile w1.history path oflags mode, w1.record
        (.openFile path oflags mode (host.openFile w1.history path oflags mode))) := rfl
  cases hopen : host.openFile w1.history path oflags mode with
  | error =>
    rw [hopen] at hquery
    refine iff_of_true ?_ fun handle w2 h => ?_
    · exact (undoes_iff_of_error (exec_bind_of_error hquery)).mpr (Asked.restored ⟨rfl, rfl⟩)
    · rw [hquery] at h
      cases h
  | ok handle =>
    rw [hopen] at hquery
    rw [allOrNothing_openHandle_iff (exec_bind_of_ok hquery) (by rfl) (by rfl)]
    constructor
    · intro h handle' w2 heq
      rw [hquery] at heq
      cases heq
      exact h
    · exact fun h => h handle _ hquery

end Kandelo.Kernel.Descriptor
