import Kandelo.Kernel.Descriptor.Calls

/-!
# Epoll instances in every run

A description of type `Epoll` names an instance by its index in a table of the
process. Every operation keeps the descriptions of a process on instances of their own, except
`fork` and `posix_spawn`: a child starts with no instances, so it must inherit no such description.
-/

namespace Kandelo.Kernel.Descriptor

open Lib List Option Slots Fleet Tables Process Bool
open Kandelo.Kernel.Path (bytes)
open File (FileType oRdwr)

variable {epfd fd : Nat} {op : Int} {events : BitVec 32} {data : BitVec 64}
  {before batch after : List OpenFileDesc}

/-- Every epoll description names an instance of the process, and different ones name different
instances. -/
structure Process.Identified (p : Process) : Prop where
  named : ∀ i o, p.tables.ofds.get i = some o → o.fileType = .Epoll →
    ∃ e ep, o.hostHandle = slotHandle e ∧ p.epolls.get e = some ep
  apart : ∀ i j o o', p.tables.ofds.get i = some o → p.tables.ofds.get j = some o' →
    o.fileType = .Epoll → o'.fileType = .Epoll → o.hostHandle = o'.hostHandle → i = j

namespace System

/-- A child inherits no epoll description: after `fork` through its descriptors, after `posix_spawn`
once the actions are done and the descriptors with `FD_CLOEXEC` are closed. What is left then
depends on the host's answers to the actions, so it is read off the tables that they leave. -/
def InheritsNoEpoll (s : System) : Op → Prop
  | .fork pid _ => ∀ i o, (s.tables pid).ofds.get i = some o → 0 < (s.tables pid).inheritedRefs i →
      o.fileType ≠ .Epoll
  | .spawn pid child actions => ∀ t, s.spawnedTables pid child actions = some t →
      ∀ i o, t.ofds.get i = some o → o.fileType ≠ .Epoll
  | _ => True

end System

/-! ### The invariant -/

/-- The description is the one of the instance that the handle encodes. -/
def names (h : Int) (o : OpenFileDesc) : Bool := o.fileType = .Epoll && o.hostHandle = h

variable (epolls : Slots EpollInstance)

/-- Whether the handle is that of an instance, as a number. -/
def instances (h : Int) : Nat :=
  if ((slotOf h).bind epolls.get).isSome then 1 else 0

/-- No more descriptions than instances. -/
structure Process.Instanced (p : Process) : Prop where
  counted : p.tables.Counted
  named : ∀ h, p.tables.ofds.count (names h) ≤ instances p.epolls h

variable {p p' : Process} {t t' : Tables} {o : OpenFileDesc} {h : Int} {e : Nat}

lemma lasting_names (h : Int) : Tables.Lasting (names h) := fun _ _ => rfl

lemma names_of_ne (ho : o.fileType ≠ .Epoll) : names h o = false := by
  rw [names, decide_eq_false ho, Bool.false_and]

lemma names_self (ho : o.fileType = .Epoll) : names o.hostHandle o = true := by
  rw [names, decide_eq_true ho, decide_eq_true rfl, Bool.true_and]

lemma slotOf_eq_some : slotOf h = some e ↔ h = slotHandle e := by
  unfold slotOf slotHandle
  split
  · rw [some.injEq]
    omega
  constructor
  · exact nofun
  · intro heq
    omega

namespace Process

lemma Instanced.identified (hp : p.Instanced) : p.Identified where
  named i o ho hkind := by
    have hpos := count_pos ho (names_self hkind)
    have hle := hp.named o.hostHandle
    unfold instances at hle
    split at hle
    · next hsome =>
      obtain ⟨ep, hep⟩ := isSome_iff_exists.mp hsome
      obtain ⟨e, hslot, hget⟩ := bind_eq_some_iff.mp hep
      exact ⟨e, ep, slotOf_eq_some.mp hslot, hget⟩
    · omega
  apart i j o o' ho ho' hkind hkind' heq := by
    have hle := hp.named o.hostHandle
    have hone : p.tables.ofds.count (names o.hostHandle) ≤ 1 := by
      unfold instances at hle
      split at hle <;> omega
    refine eq_of_count_le_one hone ho ho' (names_self hkind) ?_
    rw [heq]
    exact names_self hkind'

lemma get_forgetEpoll :
    (p.forgetEpoll o).epolls.get e = if names (slotHandle e) o then none else p.epolls.get e := by
  unfold forgetEpoll
  split
  · next slot hkind hslot =>
    rw [names, hkind, slotOf_eq_some.mp hslot]
    have hiff : slotHandle slot = slotHandle e ↔ e = slot := by
      unfold slotHandle
      omega
    simp [hiff]
  · next hnot =>
    rw [if_neg]
    intro hnames
    simp only [names, and_eq_true, decide_eq_true_eq] at hnames
    exact hnot e hnames.1 (slotOf_eq_some.mpr hnames.2)

lemma instances_forgetEpoll :
    instances (p.forgetEpoll o).epolls h = if names h o then 0 else instances p.epolls h := by
  unfold instances
  cases hslot : slotOf h with
  | none => simp
  | some =>
    rw [slotOf_eq_some.mp hslot, bind_some, get_forgetEpoll]
    split <;> rfl

/-- The process forgets the instance of a description that is gone. -/
def leave (p : Process) (gone : Option OpenFileDesc) : Process := gone.elim p p.forgetEpoll

lemma tables_leave (gone : Option OpenFileDesc) : (p.leave gone).tables = p.tables := by
  cases gone with
  | none => rfl
  | some o => exact System.tables_forgetEpoll p o

lemma Instanced.leave {gone : Option OpenFileDesc} (hp : p.Instanced)
    (hc : Tables.Change p.tables t' gone none) :
    (leave { p with tables := t' } gone).Instanced := by
  constructor
  · rw [tables_leave]
    exact hc.counted
  intro h
  rw [tables_leave]
  have hcount := hc.count _ (lasting_names h)
  have hle := hp.named h
  simp only [Tables.share, any_none, Bool.false_eq_true, if_false] at hcount
  cases gone with
  | none => exact hcount.le.trans hle
  | some o =>
    change t'.ofds.count (names h) ≤ instances (forgetEpoll { p with tables := t' } o).epolls h
    rw [instances_forgetEpoll]
    rw [any_some] at hcount
    split
    · next hnames =>
      rw [if_pos hnames] at hcount
      unfold instances at hle
      split at hle <;> omega
    · exact (Nat.le_add_right _ _).trans (hcount.le.trans hle)

lemma Instanced.fewer (hp : p.Instanced) (hc : t'.Counted)
    (hle : ∀ h, t'.ofds.count (names h) ≤ p.tables.ofds.count (names h)) :
    Instanced { p with tables := t' } :=
  ⟨hc, fun h => (hle h).trans (hp.named h)⟩

lemma count_names_change {new : Option OpenFileDesc} (hc : Tables.Change t t' none new)
    (hnew : ∀ o, new = some o → o.fileType ≠ .Epoll) :
    t'.ofds.count (names h) = t.ofds.count (names h) := by
  have hcount := hc.count _ (lasting_names h)
  have hshare : Tables.share (names h) new = 0 := by
    cases new with
    | none => rfl
    | some o => rw [Tables.share, any_some, names_of_ne (hnew o rfl)]; rfl
  rw [hshare] at hcount
  exact hcount

lemma instances_congr {epolls epolls' : Slots EpollInstance}
    (heq : ∀ e, (epolls.get e).isSome = (epolls'.get e).isSome) :
    instances epolls h = instances epolls' h := by
  unfold instances
  cases slotOf h with
  | none => rfl
  | some => rw [bind_some, bind_some, heq]

lemma instances_insert (ep : EpollInstance) :
    instances (epolls.insert ep) h =
      if h = slotHandle epolls.firstFree then 1 else instances epolls h := by
  unfold instances
  cases hslot : slotOf h with
  | none =>
    have hne : h ≠ slotHandle epolls.firstFree := by
      intro heq
      rw [slotOf_eq_some.mpr heq] at hslot
      cases hslot
    rw [if_neg hne]
    rfl
  | some e =>
    rw [slotOf_eq_some.mp hslot, bind_some, get_insert]
    have hiff : slotHandle e = slotHandle epolls.firstFree ↔ e = epolls.firstFree := by
      unfold slotHandle
      omega
    simp only [hiff]
    split <;> rfl

lemma Instanced.sysEpollCreate1 (hp : p.Instanced) (ofdId : Nat) (flags : BitVec 32) :
    (p.sysEpollCreate1 ofdId flags).2.Instanced := by
  unfold Process.sysEpollCreate1
  split
  · exact hp
  split
  · next fd fds halloc =>
    have hinsert := Tables.change_insert hp.counted (o := ⟨ofdId, none, .Epoll, oRdwr,
      slotHandle p.epolls.firstFree, 1, bytes "/dev/epoll", -1, none⟩) rfl fds
    refine ⟨hinsert.counted, fun h => ?_⟩
    have hcount := hinsert.count _ (lasting_names h)
    have hle := hp.named h
    simp only [Tables.share, any_some, names,
      decide_true, Bool.true_and, decide_eq_true_eq] at hcount
    rw [instances_insert]
    by_cases hslot : h = slotHandle p.epolls.firstFree
    · -- the slot was free, so no description named it
      have hnone : instances p.epolls h = 0 := by
        rw [instances, slotOf_eq_some.mpr hslot, bind_some, Slots.get_firstFree]
        rfl
      rw [if_pos hslot]
      rw [if_pos hslot.symm] at hcount
      dsimp only at hcount ⊢
      omega
    · rw [if_neg hslot]
      rw [if_neg (Ne.symm hslot)] at hcount
      exact hcount.le.trans hle
  · have hback {o : OpenFileDesc} (ho : o.refCount = 1) : Tables.Change p.tables
        ⟨p.tables.fds, decRef (p.tables.ofds.insert o) p.tables.ofds.firstFree⟩ none none :=
      Tables.change_of_get hp.counted (get_decRef_insert _ ho)
    refine ⟨(hback rfl).counted, fun h => ?_⟩
    refine (count_names_change (hback rfl) (by rintro _ ⟨⟩)).le.trans ((hp.named h).trans_eq ?_)
    exact instances_congr (fun e => by rw [Slots.get_clear_insert])

lemma Instanced.sysEpollCtl (hp : p.Instanced)
    (hctl : p.sysEpollCtl epfd op fd events data = .ok p') : p'.Instanced := by
  obtain ⟨slot, ep, rfl⟩ := System.sysEpollCtl_cases hctl
  refine ⟨hp.counted, fun h => (hp.named h).trans_eq (instances_congr (fun e => ?_))⟩
  rw [get_update]
  split
  · rw [isSome_map]
  · rfl

end Process

namespace System

variable {s s1 s' : System} {pid child : Nat} {Q : System → Nat → Opening → Prop}

/-- The descriptions of every process have their instances, and none is on its way to another
process. -/
structure Polling (s : System) : Prop where
  instanced : ∀ pid ∈ s.procs.live, (s.procs.state pid).Instanced
  sent : ∀ o ∈ s.inFlight, o.refCount = 1 ∧ o.fileType ≠ .Epoll

lemma state_letGo (gone : Option OpenFileDesc) :
    (s.letGo pid gone).procs.state pid = (s.procs.state pid).leave gone := by
  cases gone with
  | none => rfl
  | some o =>
    by_cases hkind : o.fileType = .Epoll
    · rw [letGo, hkind]
      exact state_set_self _ _ _
    rcases s.procs_letGo pid (some o) with hsame | ⟨o', ho', hepoll, -⟩
    · rw [hsame, leave, elim_some, forgetEpoll]
      split
      · next hepoll _ => exact absurd hepoll hkind
      · rfl
    · cases ho'
      exact absurd hepoll hkind

lemma Polling.moved (hs : Polling s) (hlive : s'.procs.live = s.procs.live)
    (hflight : s'.inFlight = s.inFlight)
    (hothers : ∀ pid', pid' ≠ pid → s'.procs.state pid' = s.procs.state pid')
    (hp : pid ∈ s.procs.live → (s'.procs.state pid).Instanced) : Polling s' := by
  refine ⟨fun pid' hlive' => ?_, hflight ▸ hs.sent⟩
  rw [hlive] at hlive'
  by_cases hpid : pid' = pid
  · rw [hpid] at hlive' ⊢
    exact hp hlive'
  · rw [hothers pid' hpid]
    exact hs.instanced pid' hlive'

namespace Polling

variable {t : Tables}

section

variable (hs : Polling s)

include hs

lemma congr (hprocs : s'.procs = s.procs) (hflight : s'.inFlight = s.inFlight) : Polling s' :=
  ⟨hprocs ▸ hs.instanced, hflight ▸ hs.sent⟩

section

variable (hlive : pid ∈ s.procs.live)

include hlive

lemma moves (h : Moves pid s s') : Polling s' := by
  have hcalls : Calls Fresh pid s s' := .moves .refl h
  obtain ⟨hsame, hflight, hothers⟩ := hcalls.others
  obtain ⟨t', gone, hchange, rfl⟩ := h
  refine hs.moved hsame hflight hothers fun _ => ?_
  rw [state_letGo, System.setTables, setProc, state_set_self]
  exact (hs.instanced pid hlive).leave (hchange (hs.instanced pid hlive).counted)

lemma setTables (hc : t.Counted)
    (hle : ∀ h, t.ofds.count (names h) ≤ (s.tables pid).ofds.count (names h)) :
    Polling (s.setTables pid t) := by
  refine hs.moved rfl rfl (fun _ hpid => state_setProc_of_ne hpid) fun _ => ?_
  rw [System.setTables, setProc, state_set_self]
  exact (hs.instanced pid hlive).fewer hc hle

lemma openFile {a : Opening} : Polling (s.openFile pid a).2 := by
  obtain ⟨new, hnew, hchange⟩ := change_openFile (a := a) (hs.instanced pid hlive).counted
  have htables : (s.openFile pid a).2.tables pid = (a.run s pid).2.tables := s.tables_setTables
  rw [htables] at hchange
  have hset := hs.setTables hlive hchange.counted fun h =>
    (count_names_change hchange (fun o ho => (hnew o ho).2)).le
  exact hset.congr rfl rfl

lemma calls (h : Calls Q pid s s') : Polling s' := by
  have hkeep := h.rule (I := fun s => Polling s ∧ pid ∈ s.procs.live) ⟨hs, hlive⟩ ?_ ?_
  · exact hkeep.1
  · rintro s1 s2 ⟨hs1, hlive1⟩ hmoves
    have hcalls : Calls Fresh pid s1 s2 := .moves .refl hmoves
    exact ⟨hs1.moves hlive1 hmoves, hcalls.others.1 ▸ hlive1⟩
  · rintro s1 a ⟨hs1, hlive1⟩ -
    exact ⟨hs1.openFile hlive1, hlive1⟩

lemma setDir {i : Nat} {h0 : Int} : Polling (s.setDir pid i h0) := by
  refine hs.setTables hlive (counted_setDir (hs.instanced pid hlive).counted) fun h => ?_
  apply Nat.le_of_eq
  apply count_update
  exact fun _ => rfl

lemma sysEpollCreate1 {ofdId : Nat} {flags : BitVec 32} :
    Polling (s.sysEpollCreate1 pid ofdId flags) := by
  refine hs.moved rfl rfl (fun _ hpid => state_setProc_of_ne hpid) fun _ => ?_
  rw [System.sysEpollCreate1, setProc, state_set_self]
  exact (hs.instanced pid hlive).sysEpollCreate1 ofdId flags

lemma sysEpollCtl : Polling (s.sysEpollCtl pid epfd op fd events data) := by
  unfold System.sysEpollCtl
  split
  · next p hctl =>
    refine hs.moved rfl rfl (fun _ hpid => state_setProc_of_ne hpid) fun _ => ?_
    rw [setProc, state_set_self]
    exact (hs.instanced pid hlive).sysEpollCtl hctl
  · exact hs

end

/-! ### Processes and messages -/

lemma adopt (hc : t.Counted)
    (hnone : ∀ i o, t.ofds.get i = some o → o.fileType ≠ .Epoll) : Polling (s.adopt child t) := by
  refine ⟨fun pid hlive => ?_, hs.sent⟩
  change ((s.procs.add child ⟨t, []⟩).state pid).Instanced
  by_cases hpid : pid = child
  · rw [hpid, state_add_self]
    refine ⟨hc, fun h => ?_⟩
    rw [count_eq_zero fun i o ho => names_of_ne (hnone i o ho)]
    exact Nat.zero_le _
  · rw [state_add_of_ne hpid]
    exact hs.instanced pid ((mem_live_add.mp hlive).resolve_left hpid)

lemma send {os : List OpenFileDesc} {queued : Bool}
    (hsent : queued = true → ∀ o ∈ os, o.refCount = 1 ∧ o.fileType ≠ .Epoll) :
    Polling (s.send os queued) := by
  unfold System.send
  split
  · next hqueued =>
    refine ⟨hs.instanced, fun o ho => ?_⟩
    exact (mem_append.mp ho).elim (hs.sent o) (hsent hqueued o)
  · exact hs.congr rfl rfl

lemma receive {capacity : Nat}
    {socket : OpenFileDesc → Option Nat} (hlive : pid ∈ s.procs.live)
    (hqueue : s.inFlight = before ++ batch ++ after) :
    Polling (s.receive pid before batch after capacity socket) := by
  have hbatch : ∀ o ∈ batch.take capacity, o.refCount = 1 ∧ o.fileType ≠ .Epoll :=
    fun o ho => hs.sent o (mem_inFlight_batch hqueue (mem_of_mem_take ho))
  have hsocket (h : Int) (o : OpenFileDesc) (h' : Int) (hkind : o.fileType = .Socket) :
      names h { o with hostHandle := h' } = names h o := by
    rw [names_of_ne (by rw [hkind]; decide), names_of_ne (by rw [hkind]; decide)]
  have hinstall (h : Int) := count_installScmRightsFds (lasting_names h) (hsocket h) socket
    (fun o ho => (hbatch o ho).1) (hs.instanced pid hlive).counted
  have hrest : Polling { s with inFlight := before ++ after } :=
    ⟨hs.instanced, fun o ho => hs.sent o (mem_inFlight_rest hqueue ho)⟩
  refine (hrest.setTables hlive (hinstall 0).1 fun h => ?_).congr rfl rfl
  have hnone : (batch.take capacity).countP (names h) = 0 := by
    refine countP_eq_zero.mpr fun o ho => ?_
    rw [names_of_ne (hbatch o ho).2]
    exact false_ne_true
  have hcount := (hinstall h).2
  rw [hnone] at hcount
  exact (Nat.le_add_right _ _).trans hcount.le

lemma discard (hqueue : s.inFlight = before ++ batch ++ after) :
    Polling (s.discard before batch after) :=
  ⟨hs.instanced, fun o ho => hs.sent o (mem_inFlight_rest hqueue ho)⟩

lemma fork (hnone : s.InheritsNoEpoll (.fork pid child)) : Polling (s.fork pid child) := by
  refine hs.adopt (counted_fork _) fun i o ho => ?_
  obtain ⟨o', ho', hrefs, rfl⟩ := get_fork ho
  exact hnone i o' ho' hrefs

lemma beside (hcalls : Calls Q child (s.adopt child t) s1) :
    (∀ pid ∈ s1.procs.live, pid ≠ child → (s1.procs.state pid).Instanced) ∧
      ∀ o ∈ s1.inFlight, o.refCount = 1 ∧ o.fileType ≠ .Epoll := by
  obtain ⟨hlive, hflight, hothers⟩ := hcalls.others
  refine ⟨fun pid hpid hne => ?_, hflight ▸ hs.sent⟩
  rw [hlive] at hpid
  rw [hothers pid hne]
  change ((s.procs.add child ⟨t, []⟩).state pid).Instanced
  rw [state_add_of_ne hne]
  exact hs.instanced pid ((mem_live_add.mp hpid).resolve_left hne)

end

lemma ignoresDirs (pid : Nat) : IgnoresDirs pid fun s => Polling s ∧ pid ∈ s.procs.live where
  stored _ _ _ hs := ⟨hs.1.setDir hs.2, hs.2⟩
  noted _ _ _ hs := ⟨hs.1.congr rfl rfl, hs.2⟩

lemma of_remove (hothers : ∀ pid' ∈ s.procs.live, pid' ≠ pid → (s.procs.state pid').Instanced)
    (hsent : ∀ o ∈ s.inFlight, o.refCount = 1 ∧ o.fileType ≠ .Epoll) : Polling (s.remove pid) := by
  obtain ⟨hprocs, hflight, -, -⟩ := frame_closeDirs { s with procs := s.procs.remove pid }
    (s.tables pid).ofds.entries
  refine Polling.congr (s := { s with procs := s.procs.remove pid }) ⟨fun pid' hlive' => ?_, hsent⟩
    hprocs hflight
  obtain ⟨hne, hlive⟩ := mem_live_remove.mp hlive'
  exact hothers pid' hlive hne

end Polling

lemma Polling.spawn {actions : List FileAction} (hs : Polling s)
    (hpossible : s.Possible (.spawn pid child actions))
    (hnone : s.InheritsNoEpoll (.spawn pid child actions)) :
    Polling (s.spawn pid child actions) := by
  obtain ⟨hlive, hfresh, hactions⟩ := hpossible
  obtain ⟨s1, hcalls, hend⟩ := spawn_cases hactions
  obtain ⟨hothers, hsent⟩ := hs.beside hcalls
  rcases hend with ⟨hend, htables⟩ | ⟨hend, -⟩
  · rw [hend]
    refine ⟨fun pid' hlive' => ?_, hsent⟩
    by_cases hpid : pid' = child
    · have hcounted := hcalls.counted (by
        rw [tables_adopt]
        exact counted_spawn (hs.instanced pid hlive).counted)
      rw [hpid]
      refine ⟨hcounted, fun h => ?_⟩
      have hzero : (s1.tables child).ofds.count (names h) = 0 :=
        count_eq_zero fun i o ho => names_of_ne (hnone _ htables i o ho)
      exact hzero.le.trans (Nat.zero_le _)
    · exact hothers pid' hlive' hpid
  · rw [hend]
    exact Polling.of_remove hothers hsent

/-! ### Runs -/

lemma Polling.step {op : Op} (hs : Polling s) (hpossible : s.Possible op)
    (hnone : s.InheritsNoEpoll op) : Polling (s.step op) := by
  cases op with
  | openFile => exact hs.openFile hpossible.1
  | dup pid fd => exact hs.moves hpossible s.moves_sysDup
  | dup2 pid old new => exact hs.moves hpossible s.moves_sysDup2
  | close pid fd => exact hs.moves hpossible (s.moves_sysClose pid fd)
  | getdents64 pid => exact ((Polling.ignoresDirs pid).sysGetdents64 ⟨hs, hpossible.1⟩).1
  | lseek pid => exact ((Polling.ignoresDirs pid).sysLseek ⟨hs, hpossible.1⟩).1
  | epollCreate1 => exact hs.sysEpollCreate1 hpossible
  | epollCtl => exact hs.sysEpollCtl hpossible
  | fork => exact hs.fork hnone
  | spawn => exact hs.spawn hpossible hnone
  | exit pid => exact hs.calls hpossible (calls_foldl_sysClose (Q := Fresh) s)
  | remove => exact Polling.of_remove (fun pid' hlive _ => hs.instanced pid' hlive) hs.sent
  | send =>
    refine hs.send fun hqueued o ho => ?_
    have hmem := mem_of_mem_take ho
    exact ⟨(mem_extractScmRights hmem).1, (hpossible.2 hqueued).2 o hmem⟩
  | receive => exact hs.receive hpossible.1 hpossible.2
  | discard => exact hs.discard hpossible

lemma Initial.polling (hs : Initial s) : Polling s := by
  refine ⟨fun pid hlive => ⟨hs.counted pid hlive, fun h => ?_⟩, ?_⟩
  · have hzero : (s.tables pid).ofds.count (names h) = 0 :=
      count_eq_zero fun i o ho => names_of_ne (hs.plain pid hlive i o ho).2
    exact hzero.le.trans (Nat.zero_le _)
  · rw [hs.empty.1]
    exact nofun

lemma ReachedBy.polling (h : ReachedBy InheritsNoEpoll s) : Polling s := by
  induction h with
  | init hinit => exact hinit.polling
  | step op _ hpossible hnone ih => exact ih.step hpossible hnone

/-! ### Children that inherit one -/

lemma Calls.noInstances (h : Calls Q pid s s')
    (hnone : ∀ e, (s.procs.state pid).epolls.get e = none) :
    ∀ e, (s'.procs.state pid).epolls.get e = none := by
  refine h.rule (I := fun s' => ∀ e, (s'.procs.state pid).epolls.get e = none) hnone ?_ ?_
  · rintro s1 s2 hnone1 ⟨t', gone, -, rfl⟩ e
    rw [state_letGo, setTables, setProc, state_set_self]
    cases gone with
    | none => exact hnone1 e
    | some =>
      rw [leave, elim_some, get_forgetEpoll]
      split
      · rfl
      · exact hnone1 e
  · intro s1 a hnone1 _ e
    have hstate : (s1.openFile pid a).2.procs.state pid =
        { s1.procs.state pid with tables := (a.run s1 pid).2.tables } := state_set_self _ _ _
    rw [hstate]
    exact hnone1 e

/-- In every run whose forks and spawns hand no epoll description to the child, the descriptions of
a process name instances of their own; such a fork or spawn breaks this. -/
theorem epolls_identified (h : ReachedBy InheritsNoEpoll s) :
    (∀ pid ∈ s.procs.live, (s.procs.state pid).Identified) ∧ ∀ op, s.Possible op →
      ((∀ pid ∈ (s.step op).procs.live, ((s.step op).procs.state pid).Identified) ↔
        s.InheritsNoEpoll op) := by
  have hs := h.polling
  refine ⟨fun pid hlive => (hs.instanced pid hlive).identified,
    fun op hpossible => ⟨fun hident => ?_, fun hnone pid hlive => ?_⟩⟩
  · cases op with
    | fork pid child =>
      intro i o ho hrefs hkind
      have hstate : (s.fork pid child).procs.state child = ⟨(s.tables pid).fork, []⟩ :=
        state_add_self _ _ _
      have hchild := hident child (mem_live_add.mpr (.inl rfl))
      rw [step, hstate] at hchild
      have hget := (s.tables pid).get_fork_eq i
      rw [ho, bind_some, if_neg (Nat.pos_iff_ne_zero.mp hrefs)] at hget
      obtain ⟨e, ep, -, hep⟩ := hchild.named i _ hget hkind
      cases hep
    | spawn pid child =>
      intro t ht i o ho hkind
      obtain ⟨s1, hcalls, ⟨hend, htables⟩ | ⟨-, htables⟩⟩ := spawn_cases hpossible.2.2
      · have hlive1 : child ∈ s1.procs.live := by
          rw [hcalls.others.1]
          exact mem_live_add.mpr (.inl rfl)
        rw [step, hend] at hident
        rw [htables] at ht
        cases ht
        obtain ⟨e, ep, -, hep⟩ := (hident child hlive1).named i o ho hkind
        rw [hcalls.noInstances] at hep
        · cases hep
        intro e
        rw [state_adopt]
        rfl
      · rw [htables] at ht
        cases ht
    | _ => trivial
  · exact ((hs.step hpossible hnone).instanced pid hlive).identified

/-- A process with an instance that is closed in the child it spawns, and an instance of the
child. -/
theorem epolls_identified_spawned :
    let s := ((bare.step (.epollCreate1 1 0 oCloexec)).step (.spawn 1 2 [])).step
      (.epollCreate1 2 1 0)
    (s.procs.state 1).Identified ∧ (s.procs.state 2).Identified ∧
      ((s.tables 1).ofds.get 0).map (·.fileType) = some .Epoll ∧
      ((s.tables 2).ofds.get 0).map (·.fileType) = some .Epoll := by
  have hparent : 1 ∈ bare.procs.live := by decide
  have hcreate : ReachedBy InheritsNoEpoll (bare.step (.epollCreate1 1 0 oCloexec)) :=
    (ReachedBy.init initial_bare).step _ hparent trivial
  have hspawn := hcreate.step (.spawn 1 2 []) ⟨by decide, by decide, trivial⟩ <| by
    rintro t ⟨⟩ i o ho
    rcases i with _ | i <;> cases ho
  have hchild : 2 ∈ ((bare.step (.epollCreate1 1 0 oCloexec)).step (.spawn 1 2 [])).procs.live := by
    decide
  have hreach := hspawn.step (.epollCreate1 2 1 0) hchild trivial
  obtain ⟨hident, -⟩ := epolls_identified hreach
  exact ⟨hident 1 (by decide), hident 2 (by decide), rfl, rfl⟩

/-- After a fork the child names an instance that it does not have, and its first own instance takes
that place. -/
theorem epoll_shared_after_fork : ∃ s, ReachedBy (fun _ _ => True) s ∧
    (∃ o o', (s.tables 2).ofds.get 0 = some o ∧ (s.tables 2).ofds.get 1 = some o' ∧
      o.fileType = .Epoll ∧ o'.fileType = .Epoll ∧ o.hostHandle = o'.hostHandle) ∧
      ¬ (s.procs.state 2).Identified := by
  have hparent : 1 ∈ bare.procs.live := by decide
  have hcreate : ReachedBy (fun _ _ => True) (bare.step (.epollCreate1 1 0 0)) :=
    (ReachedBy.init initial_bare).step _ hparent trivial
  have hfork := hcreate.step (.fork 1 2) ⟨by decide, by decide⟩ trivial
  have hchild : 2 ∈ ((bare.step (.epollCreate1 1 0 0)).step (.fork 1 2)).procs.live := by decide
  have hagain := hfork.step (.epollCreate1 2 1 0) hchild trivial
  refine ⟨_, hagain, ⟨_, _, rfl, rfl, rfl, rfl, rfl⟩, fun h => ?_⟩
  exact absurd (h.apart 0 1 _ _ rfl rfl rfl rfl rfl) (by decide)

end System

end Kandelo.Kernel.Descriptor
