import Kandelo.Kernel.Descriptor.Calls

/-!
# Handles of the host in every run

A handle that the host gave out is held by descriptions and by descriptors in
flight, and closed when the last of them goes. Every operation keeps this, except an open that
creates a file and then cannot give it to the caller: its handle is held by nobody and never closed.
-/

namespace Kandelo.Kernel.Descriptor

open Lib List Option Tables OpenFileDesc Slots Fleet
open Lib.ShareCount (closesSince Kept Event)
open Kandelo.Kernel.Path (bytes sIfdir)
open File (FileType oWronly)

namespace System

variable {i : Nat} {new : Option OpenFileDesc} {a : Opening}
  {before batch after : List OpenFileDesc} {actions : List FileAction} {s s1 s' : System}
  {pid child : Nat} {t t' : Tables} {o : OpenFileDesc} {h : Int} {n : Int → Nat}
  {os : List OpenFileDesc} {Q : System → Nat → Opening → Prop}

/-- Since the host gave a handle out the last time, it was told to close it once if nobody holds it,
and not at all as long as somebody does. -/
def ClosedWithLast (s : System) : Prop :=
  ∀ h closes, closesSince h (handleEvents s.calls) = some closes →
    closes = if s.holders h = 0 then 1 else 0

/-- A file that the open creates is given to the caller. -/
def Given (s : System) (pid : Nat) (a : Opening) : Prop :=
  OpenGiven a.host (s.view pid a.env) a.path a.oflags a.mode

/-- Every file that an operation creates is given to the process that creates it. -/
def FilesGiven (s : System) : Op → Prop
  | .openFile pid a => s.Given pid a
  | .spawn pid child actions =>
      (s.adopt child (s.tables pid).spawn).ActionsMeet Given child actions
  | _ => True

/-! ### The invariant -/

/-- The description owns the handle. -/
def holds (h : Int) (o : OpenFileDesc) : Bool := o.handle = some h

/-- The counts are those of the holders, and what nobody holds is closed. -/
structure Held (s : System) : Prop where
  counted : ∀ pid ∈ s.procs.live, (s.tables pid).Counted
  kept : Kept s.holders s.refs (handleEvents s.calls)
  sent : ∀ o ∈ s.inFlight, o.refCount = 1

lemma lasting_holds (h : Int) : Tables.Lasting (holds h) := fun _ _ => rfl

lemma holders_eq : s.holders h = s.having (holds h) + s.inFlight.countP (holds h) := rfl

lemma holds_of_handle (ho : o.handle = none) : holds h o = false := by
  rw [holds, ho]
  rfl

lemma holders_pos (hlive : pid ∈ s.procs.live) (ho : (s.tables pid).ofds.get i = some o)
    (hhandle : o.handle = some h) : 0 < s.holders h :=
  Nat.add_pos_left ((count_pos ho (decide_eq_true hhandle)).trans_le (le_having hlive _)) _

lemma Held.closedWithLast (hs : Held s) : s.ClosedWithLast :=
  fun h closes hcloses => ((hs.kept h).2 closes hcloses).closes_eq

/-! ### Sharing and dropping -/

lemma count_handles : (os.filterMap handle).count h = os.countP (holds h) := by
  rw [List.count, countP_filterMap]
  apply countP_congr
  intro o _
  cases hhandle : o.handle with
  | none => simp [holds, hhandle]
  | some => simp [holds, hhandle]

lemma handleEvents_close (hs : List Int) (calls : List FileCall) :
    handleEvents ((hs.map FileCall.close).reverse ++ calls) =
      (hs.map Event.closed).reverse ++ handleEvents calls := by
  induction hs generalizing calls with
  | nil => rfl
  | cons h hs ih =>
    rw [map_cons, reverse_cons, append_assoc, singleton_append, ih,
      map_cons, reverse_cons, append_assoc, singleton_append, handleEvents]

lemma kept_release
    (hkept : Kept (fun h => n h + os.countP (holds h)) s.refs (handleEvents s.calls)) :
    Kept n (s.release os).refs (handleEvents (s.release os).calls) := by
  simp only [← count_handles] at hkept
  rw [release]
  rw [handleEvents_close]
  exact Kept.dropAll _ hkept

lemma kept_retain {events : List (Event Int)} (hkept : Kept n s.refs events)
    (hheld : ∀ o ∈ os, ∀ h, o.handle = some h → 0 < n h) :
    Kept (fun h => n h + os.countP (holds h)) (s.retain os).refs events := by
  simp only [← count_handles]
  refine hkept.shareAll _ fun h hmem => ?_
  obtain ⟨o, ho, hhandle⟩ := mem_filterMap.mp hmem
  exact hheld o ho h hhandle

/-! ### Calls of one process -/

lemma counted_setTables (hcounted : ∀ pid ∈ s.procs.live, (s.tables pid).Counted) (hc : t.Counted) :
    ∀ pid' ∈ (s.setTables pid t).procs.live, ((s.setTables pid t).tables pid').Counted := by
  intro pid' hlive
  by_cases hpid : pid' = pid
  · rw [hpid, tables_setTables]
    exact hc
  · rw [tables, setTables, state_setProc_of_ne hpid]
    exact hcounted pid' hlive

lemma frame_release_closeDirs (os os' : List OpenFileDesc) :
    ((s.closeDirs os).release os').procs = (s.release os').procs ∧
      ((s.closeDirs os).release os').inFlight = (s.release os').inFlight ∧
      ((s.closeDirs os).release os').refs = (s.release os').refs ∧
      ((s.closeDirs os).release os').calls = (s.release os').calls := by
  obtain ⟨hprocs, hflight, hrefs, hcalls⟩ := s.frame_closeDirs os
  refine ⟨hprocs, hflight, ?_, ?_⟩
  · rw [release, hrefs, release]
  · rw [release, hrefs, hcalls, release]

lemma handle_of_kind (hkind : o.fileType ∉ [FileType.Regular, .Directory, .CharDevice, .Pipe]) :
    o.handle = none := by
  rw [handle, ownsHandle, decide_eq_false hkind, Bool.and_false]
  rfl

lemma holders_setTables (hlive : pid ∈ s.procs.live) (hc : Tables.Change (s.tables pid) t' none new)
    (hnew : ∀ o, new = some o → o.handle = none) : (s.setTables pid t').holders = s.holders := by
  funext h
  have hset := having_setTables hlive hc (lasting_holds h)
  have hshare : Tables.share (holds h) new = 0 := by
    cases new with
    | none => rfl
    | some o => rw [Tables.share, any_some, holds_of_handle (hnew o rfl)]; rfl
  rw [hshare] at hset
  exact congrArg (· + _) hset

/-- The descriptions `os` are no holders any more, and their handles are dropped. -/
structure Releases (s s' : System) (os : List OpenFileDesc) : Prop where
  holders : ∀ h, s'.holders h + os.countP (holds h) = s.holders h
  refs : s'.refs = (s.release os).refs
  calls : s'.calls = (s.release os).calls

lemma Releases.kept (hr : Releases s s' os) (hkept : Kept s.holders s.refs (handleEvents s.calls)) :
    Kept s'.holders s'.refs (handleEvents s'.calls) := by
  rw [hr.refs, hr.calls]
  apply kept_release
  rw [funext hr.holders]
  exact hkept

lemma releases_moves (hlive : pid ∈ s.procs.live) (hc : (s.tables pid).Counted)
    (hmoves : Moves pid s s') : ∃ os, Releases s s' os := by
  obtain ⟨t', gone, hchange, rfl⟩ := hmoves
  have hholders (h : Int) : ((s.setTables pid t').letGo pid gone).holders h +
      Tables.share (holds h) gone = s.holders h := by
    have hset := having_setTables hlive (hchange hc) (lasting_holds h)
    have hsame := having_congr (live_letGo _ pid gone) (tables_letGo (s.setTables pid t') pid gone)
      (holds h)
    simp only [Tables.share, any_none, Bool.false_eq_true, if_false] at hset ⊢
    rw [holders_eq, holders_eq, inFlight_letGo]
    change _ + s.inFlight.countP _ + _ = _
    omega
  cases gone with
  | none => exact ⟨[], hholders, rfl, rfl⟩
  | some o =>
    have hone (h : Int) : Tables.share (holds h) (some o) = [o].countP (holds h) := by
      rw [Tables.share, any_some, countP_singleton]
    have hunheld
      (hkind : o.fileType ∉ [FileType.Regular, .Directory, .CharDevice, .Pipe]) (h : Int) :
        Tables.share (holds h) (some o) = 0 := by
      rw [Tables.share, any_some, holds_of_handle (handle_of_kind hkind)]
      rfl
    obtain ⟨-, -, hrefs, hcalls⟩ := (s.setTables pid t').frame_release_closeDirs [o] [o]
    rw [letGo] at hholders ⊢
    cases hkind : o.fileType with
    | Regular | Directory | CharDevice =>
      simp only [hkind, hone] at hholders
      exact ⟨[o], hholders, hrefs, hcalls⟩
    | Pipe =>
      simp only [hkind, hone] at hholders
      exact ⟨[o], hholders, rfl, rfl⟩
    | Epoll | Socket | EventFd | TimerFd | SignalFd | MemFd | PtyMaster | PtySlave =>
      simp only [hunheld (by rw [hkind]; decide)] at hholders
      simp only [hkind] at hholders
      exact ⟨[], hholders, rfl, rfl⟩

lemma releases_remove (hlive : pid ∈ s.procs.live) :
    Releases s (s.remove pid) (s.tables pid).ofds.entries := by
  obtain ⟨-, hflight, hrefs, hcalls⟩ :=
    frame_release_closeDirs (s.tables pid).ofds.entries (s.tables pid).ofds.entries
  refine ⟨fun h => ?_, hrefs, hcalls⟩
  have hremove := having_remove hlive (holds h)
  have hsame : (s.remove pid).inFlight = s.inFlight := hflight
  rw [countP_entries, holders_eq, hsame, holders_eq]
  omega

/-- Nothing holds the handle, and the host has closed it or not opened it yet. -/
def Unopened (s : System) (h : Int) : Prop :=
  s.holders h = 0 ∧ closesSince h (handleEvents s.calls) ≠ some 0

/-- What an open can make of the holders and the handles. -/
inductive Opens (given : Prop) (s s' : System) : Prop
  | nothing (hgiven : given) (holders : s'.holders = s.holders)
      (events : handleEvents s'.calls = handleEvents s.calls)
  | held {handle : Int} (hgiven : given) (fresh : s.Unopened handle)
      (holders : ∀ h, s'.holders h = s.holders h + if h = handle then 1 else 0)
      (events : handleEvents s'.calls = .opened handle :: handleEvents s.calls)
  | closed {handle : Int} (hgiven : given) (fresh : s.Unopened handle)
      (holders : s'.holders = s.holders)
      (events : handleEvents s'.calls = .closed handle :: .opened handle :: handleEvents s.calls)
  | leaked {handle : Int} (ungiven : ¬ given) (fresh : s.Unopened handle)
      (holders : s'.holders = s.holders)
      (events : handleEvents s'.calls = .opened handle :: handleEvents s.calls)

lemma opens_openFile (hlive : pid ∈ s.procs.live) (hcounted : (s.tables pid).Counted)
    (hfresh : s.Fresh pid a) : Opens (s.Given pid a) s (s.openFile pid a).2 := by
  have hview : (s.view pid a.env).tables = s.tables pid := rfl
  unfold Fresh at hfresh
  unfold System.openFile
  rcases hrun : a.run s pid with ⟨r, w'⟩
  rw [hrun] at hfresh
  have hsame (htables : w'.tables = s.tables pid) :
      (s.setTables pid w'.tables).holders = s.holders := by
    have hchange : Tables.Change (s.tables pid) w'.tables none none := by
      rw [htables]
      exact Tables.Change.refl hcounted
    exact holders_setTables hlive hchange nofun
  cases outcome_sysOpen hrun with
  | plain hgiven hstill hdescribes =>
    obtain ⟨new, hplain, hchange⟩ := hdescribes
    refine .nothing hgiven (holders_setTables hlive (hchange hcounted) fun o ho => ?_) hstill.events
    rw [OpenFileDesc.handle, (hplain o ho).unheld]
    rfl
  | @opened handle o hgiven hhandle hfile _ hchange hevents =>
    obtain ⟨hpos, hunopened⟩ := hfresh handle (hevents ▸ suffix_rfl)
    have howns : o.handle = some handle := by
      have hkind : o.fileType ∈ [FileType.Regular, .Directory, .CharDevice, .Pipe] := by
        rcases hfile with hfile | hfile <;> rw [hfile] <;> decide
      rw [OpenFileDesc.handle, OpenFileDesc.ownsHandle, hhandle, decide_eq_true hpos,
        decide_eq_true hkind]
      rfl
    refine .held hgiven hunopened (fun h => ?_) hevents
    have hset := having_setTables hlive (hchange hcounted) (lasting_holds h)
    have hshare : Tables.share (holds h) (some o) = if h = handle then 1 else 0 := by
      simp only [Tables.share, any_some, holds, howns, some.injEq,
        decide_eq_true_eq, eq_comm (a := handle)]
    rw [hshare] at hset
    rw [holders_eq, holders_eq, Nat.add_right_comm, ← hset]
    rfl
  | @closed handle hgiven htables hevents =>
    obtain ⟨-, hunopened⟩ := hfresh handle (hevents ▸ suffix_cons _ _)
    exact .closed hgiven hunopened (hsame (htables.trans hview)) hevents
  | @leaked handle hungiven htables hevents =>
    obtain ⟨-, hunopened⟩ := hfresh handle (hevents ▸ suffix_rfl)
    exact .leaked hungiven hunopened (hsame (htables.trans hview)) hevents

namespace Held

lemma congr (hs : Held s) (hlive : s'.procs.live = s.procs.live) (htables : s'.tables = s.tables)
    (hflight : s'.inFlight = s.inFlight) (hrefs : s'.refs = s.refs) (hcalls : s'.calls = s.calls) :
    Held s' := by
  have hholders : s'.holders = s.holders := by
    funext h
    rw [holders_eq, having_congr hlive htables, hflight, ← holders_eq]
  constructor
  · rw [hlive, htables]
    exact hs.counted
  · rw [hholders, hrefs, hcalls]
    exact hs.kept
  · rw [hflight]
    exact hs.sent

lemma counted_calls (hs : Held s) (hcalls : Calls Q pid s s') :
    ∀ pid' ∈ s'.procs.live, (s'.tables pid').Counted := by
  obtain ⟨hlive, -, hothers⟩ := hcalls.others
  intro pid' hlive'
  rw [hlive] at hlive'
  by_cases hpid : pid' = pid
  · rw [hpid] at hlive' ⊢
    exact hcalls.counted (hs.counted pid hlive')
  · rw [tables, hothers pid' hpid]
    exact hs.counted pid' hlive'

section

variable (hs : Held s) (hlive : pid ∈ s.procs.live)

include hs hlive

lemma moves (hmoves : Moves pid s s') : Held s' := by
  obtain ⟨os, hreleases⟩ := releases_moves hlive (hs.counted pid hlive) hmoves
  have hcalls : Calls Fresh pid s s' := .moves .refl hmoves
  exact ⟨hs.counted_calls hcalls, hreleases.kept hs.kept, hcalls.others.2.1 ▸ hs.sent⟩

lemma setTables (hc : Tables.Change (s.tables pid) t' none new)
    (hnew : ∀ o, new = some o → o.handle = none) :
    Held (s.setTables pid t') := by
  refine ⟨counted_setTables hs.counted hc.counted, ?_, hs.sent⟩
  rw [holders_setTables hlive hc hnew]
  exact hs.kept

lemma openFile (hfresh : s.Fresh pid a) (hgiven : s.Given pid a) : Held (s.openFile pid a).2 := by
  have hcalls : Calls Fresh pid s (s.openFile pid a).2 := .opens .refl hfresh
  refine ⟨hs.counted_calls hcalls, ?_, hs.sent⟩
  cases opens_openFile hlive (hs.counted pid hlive) hfresh with
  | nothing _ hholders hevents =>
    rw [hholders, hevents]
    exact hs.kept
  | held _ hunopened hholders hevents =>
    rw [funext hholders, hevents]
    exact hs.kept.opened hunopened.1
  | closed _ hunopened hholders hevents =>
    rw [hholders, hevents]
    exact hs.kept.opened_closed hunopened.1
  | leaked hungiven => exact absurd hgiven hungiven

lemma setDir {h0 : Int} : Held (s.setDir pid i h0) := by
  refine ⟨counted_setTables hs.counted (counted_setDir (hs.counted pid hlive)), ?_, hs.sent⟩
  have hholders : (s.setDir pid i h0).holders = s.holders := by
    funext h
    have hset := having_setTables_add hlive
      ⟨(s.tables pid).fds, (s.tables pid).ofds.update i fun o => { o with dirHostHandle := h0 }⟩
      (holds h)
    have hcount : ((s.tables pid).ofds.update i fun o => { o with dirHostHandle := h0 }).count
        (holds h) = (s.tables pid).ofds.count (holds h) := by
      apply count_update
      exact fun _ => rfl
    rw [hcount, Nat.add_right_cancel_iff] at hset
    exact congrArg (· + _) hset
  rw [hholders]
  exact hs.kept

end

lemma ignoresDirs (pid : Nat) : IgnoresDirs pid fun s => Held s ∧ pid ∈ s.procs.live where
  stored _ _ _ hs := ⟨hs.1.setDir hs.2, hs.2⟩
  noted _ _ _ hs := ⟨hs.1.congr rfl rfl rfl rfl rfl, hs.2⟩

section

variable (hs : Held s)

include hs

lemma sysEpollCreate1 {ofdId : Nat} {flags : BitVec 32}
    (hlive : pid ∈ s.procs.live) : Held (s.sysEpollCreate1 pid ofdId flags) := by
  obtain ⟨new, hnew, hchange⟩ := change_sysEpollCreate1 (hs.counted pid hlive)
  have hset := hs.setTables hlive hchange fun o ho => (hnew o ho).2
  exact hset.congr rfl s.tables_setProc rfl rfl rfl

lemma sysEpollCtl {epfd fd : Nat} {op : Int} {events : BitVec 32} {data : BitVec 64} :
    Held (s.sysEpollCtl pid epfd op fd events data) := by
  refine hs.congr ?_ tables_sysEpollCtl ?_ ?_ ?_
  all_goals
    unfold System.sysEpollCtl
    split <;> rfl

lemma calls (hlive : pid ∈ s.procs.live)
    (hcalls : Calls (fun s pid a => s.Fresh pid a ∧ s.Given pid a) pid s s') :
    Held s' ∧ pid ∈ s'.procs.live := by
  refine hcalls.rule (I := fun s => Held s ∧ pid ∈ s.procs.live) ⟨hs, hlive⟩ ?_ ?_
  · rintro s1 s2 ⟨hs1, hlive1⟩ hmoves
    have hcalls : Calls Fresh pid s1 s2 := .moves .refl hmoves
    exact ⟨hs1.moves hlive1 hmoves, hcalls.others.1 ▸ hlive1⟩
  · rintro s1 a ⟨hs1, hlive1⟩ ⟨hfresh, hgiven⟩
    exact ⟨hs1.openFile hlive1 hfresh hgiven, hlive1⟩

/-! ### Processes and messages -/

lemma adopt (hfresh : child ∉ s.procs.live) (hc : t.Counted)
    (hheld : ∀ i o, t.ofds.get i = some o → ∀ h, o.handle = some h → 0 < s.holders h) :
    Held (s.adopt child t) := by
  refine ⟨fun pid hlive => ?_, ?_, hs.sent⟩
  · by_cases hpid : pid = child
    · rw [hpid, tables_adopt]
      exact hc
    · change ((s.procs.add child ⟨t, []⟩).state pid).tables.Counted
      rw [state_add_of_ne hpid]
      exact hs.counted pid ((mem_live_add.mp hlive).resolve_left hpid)
  · have hholders (h : Int) : (s.adopt child t).holders h =
        s.holders h + t.ofds.entries.countP (holds h) := by
      rw [countP_entries, holders_eq, having_adopt hfresh, Nat.add_right_comm]
      rfl
    have hopen : ∀ o ∈ t.ofds.entries, ∀ h, o.handle = some h → 0 < s.holders h := by
      intro o ho
      obtain ⟨i, hi⟩ := mem_entries.mp ho
      exact hheld i o hi
    have hkept := kept_retain hs.kept hopen
    rw [← funext hholders] at hkept
    exact hkept

lemma fork (hlive : pid ∈ s.procs.live) (hfresh : child ∉ s.procs.live) :
    Held (s.fork pid child) := by
  refine hs.adopt hfresh (counted_fork _) fun i o ho h hhandle => ?_
  obtain ⟨o', ho', -, rfl⟩ := get_fork ho
  exact holders_pos hlive ho' hhandle

lemma remove (hlive : pid ∈ s.procs.live) : Held (s.remove pid) := by
  obtain ⟨hprocs, hflight, -, -⟩ :=
    frame_release_closeDirs (s.tables pid).ofds.entries (s.tables pid).ofds.entries
  refine ⟨fun pid' hlive' => ?_, (releases_remove hlive).kept hs.kept, ?_⟩
  · rw [System.remove, hprocs] at hlive'
    rw [tables, System.remove, hprocs]
    exact hs.counted pid' (mem_live_remove.mp hlive').2
  · rw [System.remove, hflight]
    exact hs.sent

lemma send {queued : Bool} (hone : ∀ o ∈ os, o.refCount = 1)
    (hheld : ∀ o ∈ os, ∀ h, o.handle = some h → 0 < s.holders h) : Held (s.send os queued) := by
  have hkept := kept_retain hs.kept hheld
  unfold System.send
  split
  · have hholders (h : Int) : System.holders { s.retain os with inFlight := s.inFlight ++ os } h =
        s.holders h + os.countP (holds h) := by
      rw [holders_eq, countP_append, ← Nat.add_assoc]
      rfl
    rw [← funext hholders] at hkept
    exact ⟨hs.counted, hkept, fun o ho => (mem_append.mp ho).elim (hs.sent o) (hone o)⟩
  · exact ⟨hs.counted, kept_release (s := s.retain os) hkept, hs.sent⟩

lemma discard (hqueue : s.inFlight = before ++ batch ++ after) :
    Held (s.discard before batch after) := by
  have hreleases : Releases s (s.discard before batch after) batch := by
    refine ⟨fun h => ?_, rfl, rfl⟩
    rw [holders_eq, holders_eq, hqueue]
    change s.having _ + (before ++ after).countP _ + _ = _
    simp only [countP_append]
    omega
  exact ⟨hs.counted, hreleases.kept hs.kept, fun o ho => hs.sent o (mem_inFlight_rest hqueue ho)⟩

lemma receive {capacity : Nat} {socket : OpenFileDesc → Option Nat} (hlive : pid ∈ s.procs.live)
    (hqueue : s.inFlight = before ++ batch ++ after) :
    Held (s.receive pid before batch after capacity socket) := by
  have hbatch : ∀ o ∈ batch.take capacity, o.refCount = 1 :=
    fun o ho => hs.sent o (mem_inFlight_batch hqueue (mem_of_mem_take ho))
  have hsocket (h : Int) (o : OpenFileDesc) (h' : Int) (hkind : o.fileType = .Socket) :
      holds h { o with hostHandle := h' } = holds h o := by
    rw [holds_of_handle (handle_of_kind (by rw [hkind]; decide)),
      holds_of_handle (handle_of_kind (by rw [hkind]; decide))]
  have hinstall (h : Int) := count_installScmRightsFds (lasting_holds h) (hsocket h) socket hbatch
    (hs.counted pid hlive)
  unfold System.receive
  generalize installScmRightsFds socket (s.tables pid) (batch.take capacity) =
    installed at hinstall ⊢
  obtain ⟨t', dropped⟩ := installed
  have hreleases :
      Releases s ((System.setTables { s with inFlight := before ++ after } pid t').release
      (batch.drop capacity ++ dropped)) (batch.drop capacity ++ dropped) := by
    refine ⟨fun h => ?_, rfl, rfl⟩
    have hset := having_setTables_add hlive t' (holds h)
    have hcount := (hinstall h).2
    have hsplit : batch.countP (holds h) =
        (batch.take capacity).countP (holds h) + (batch.drop capacity).countP (holds h) := by
      rw [← countP_append, take_append_drop]
    rw [holders_eq, holders_eq, hqueue]
    change (s.setTables pid t').having _ + (before ++ after).countP _ + _ = _
    simp only [countP_append]
    dsimp only at hset hcount
    omega
  refine ⟨?_, hreleases.kept hs.kept, fun o ho => hs.sent o (mem_inFlight_rest hqueue ho)⟩
  exact counted_setTables (s := { s with inFlight := before ++ after }) hs.counted (hinstall 0).1

lemma spawn (hpossible : s.Possible (.spawn pid child actions))
    (hgiven : s.FilesGiven (.spawn pid child actions)) : Held (s.spawn pid child actions) := by
  obtain ⟨hlive, hfresh, hactions⟩ := hpossible
  have hadopted : Held (s.adopt child (s.tables pid).spawn) :=
    hs.adopt hfresh (counted_spawn (hs.counted pid hlive)) fun i o ho h hhandle =>
      holders_pos (i := i) hlive ho hhandle
  obtain ⟨s1, hcalls, hend⟩ := spawn_cases (hactions.and hgiven)
  obtain ⟨hs1, hlive1⟩ := hadopted.calls (mem_live_add.mpr (.inl rfl)) hcalls
  rcases hend with ⟨hend, -⟩ | ⟨hend, -⟩
  · rw [hend]
    exact hs1
  · rw [hend]
    exact hs1.remove hlive1

/-! ### Runs -/

lemma step {op : Op} (hpossible : s.Possible op) (hgiven : s.FilesGiven op) : Held (s.step op) := by
  cases op with
  | openFile => exact hs.openFile hpossible.1 hpossible.2 hgiven
  | dup pid fd => exact hs.moves hpossible s.moves_sysDup
  | dup2 pid old new => exact hs.moves hpossible s.moves_sysDup2
  | close pid fd => exact hs.moves hpossible (s.moves_sysClose pid fd)
  | getdents64 pid => exact ((ignoresDirs pid).sysGetdents64 ⟨hs, hpossible.1⟩).1
  | lseek pid => exact ((ignoresDirs pid).sysLseek ⟨hs, hpossible.1⟩).1
  | epollCreate1 => exact hs.sysEpollCreate1 hpossible
  | epollCtl => exact hs.sysEpollCtl
  | fork => exact hs.fork hpossible.1 hpossible.2
  | spawn => exact hs.spawn hpossible hgiven
  | exit pid => exact (hs.calls hpossible (calls_foldl_sysClose s)).1
  | remove => exact hs.remove hpossible
  | send =>
    refine hs.send (fun o ho => (mem_extractScmRights (mem_of_mem_take ho)).1) ?_
    intro o ho h hhandle
    obtain ⟨i, o', ho', rfl⟩ := get_of_mem_extractScmRights (mem_of_mem_take ho)
    exact holders_pos hpossible.1 ho' hhandle
  | receive => exact hs.receive hpossible.1 hpossible.2
  | discard => exact hs.discard hpossible

end

end Held

lemma Initial.held (hs : Initial s) : Held s := by
  obtain ⟨hflight, hcalls, -, -⟩ := hs.empty
  refine ⟨hs.counted, fun h => ?_, ?_⟩
  · rw [hs.unshared, hcalls]
    exact ⟨nofun, nofun⟩
  · rw [hflight]
    exact nofun

lemma ReachedBy.held (h : ReachedBy FilesGiven s) : Held s := by
  induction h with
  | init hinit => exact hinit.held
  | step op _ hpossible hgiven ih => exact ih.step hpossible hgiven

/-! ### Files that could not be given away -/

/-- The host gave out a handle that nobody holds and nobody has closed. -/
structure Leaked (pid : Nat) (h : Int) (s : System) : Prop where
  live : pid ∈ s.procs.live
  counted : (s.tables pid).Counted
  unheld : s.holders h = 0
  unclosed : closesSince h (handleEvents s.calls) = some 0

lemma Leaked.not_closedWithLast (hs : Leaked pid h s) : ¬ s.ClosedWithLast := by
  intro hclosed
  have hcloses := hclosed h 0 hs.unclosed
  rw [if_pos hs.unheld] at hcloses
  cases hcloses

lemma Releases.leak (hr : Releases s s' os) (hunheld : s.holders h = 0)
    (hunclosed : closesSince h (handleEvents s.calls) = some 0) :
    s'.holders h = 0 ∧ closesSince h (handleEvents s'.calls) = some 0 := by
  have hnone := hr.holders h
  rw [hunheld, Nat.add_eq_zero_iff] at hnone
  refine ⟨hnone.1, ?_⟩
  have hcount : (ShareCount.dropAll (os.filterMap handle) s.refs).1.count h = 0 := by
    apply count_eq_zero_of_not_mem
    intro hmem
    have hkey := count_pos_iff.mpr (ShareCount.mem_dropAll _ hmem)
    rw [count_handles, hnone.2] at hkey
    exact Nat.lt_irrefl 0 hkey
  rw [hr.calls, release]
  rw [handleEvents_close, ShareCount.closesSince_closed, hunclosed, hcount]
  rfl

lemma Opens.leak {given : Prop} (ho : Opens given s s') (hunheld : s.holders h = 0)
    (hunclosed : closesSince h (handleEvents s.calls) = some 0) :
    s'.holders h = 0 ∧ closesSince h (handleEvents s'.calls) = some 0 := by
  have hother {handle : Int} (hfresh : s.Unopened handle) : handle ≠ h := by
    rintro rfl
    exact hfresh.2 hunclosed
  cases ho with
  | nothing _ hholders hevents => exact ⟨hholders ▸ hunheld, hevents ▸ hunclosed⟩
  | held _ hfresh hholders hevents =>
    rw [hholders, hevents, if_neg (hother hfresh).symm, closesSince, if_neg (hother hfresh)]
    exact ⟨hunheld, hunclosed⟩
  | closed _ hfresh hholders hevents =>
    rw [hholders, hevents, closesSince, if_neg (hother hfresh), closesSince, if_neg (hother hfresh)]
    exact ⟨hunheld, hunclosed⟩
  | leaked _ hfresh hholders hevents =>
    rw [hholders, hevents, closesSince, if_neg (hother hfresh)]
    exact ⟨hunheld, hunclosed⟩

lemma Leaked.calls (hs : Leaked pid h s) (hcalls : Calls Fresh pid s s') : Leaked pid h s' := by
  refine hcalls.rule hs (fun s1 s2 hs1 hmoves => ?_) fun s1 a hs1 hfresh => ?_
  · have hcalls : Calls Fresh pid s1 s2 := .moves .refl hmoves
    obtain ⟨os, hreleases⟩ := releases_moves hs1.live hs1.counted hmoves
    obtain ⟨hunheld, hunclosed⟩ := hreleases.leak hs1.unheld hs1.unclosed
    exact ⟨hcalls.others.1 ▸ hs1.live, hcalls.counted hs1.counted, hunheld, hunclosed⟩
  · have hcalls : Calls Fresh pid s1 (s1.openFile pid a).2 := .opens .refl hfresh
    obtain ⟨hunheld, hunclosed⟩ :=
      (opens_openFile hs1.live hs1.counted hfresh).leak hs1.unheld hs1.unclosed
    exact ⟨hs1.live, hcalls.counted hs1.counted, hunheld, hunclosed⟩

lemma leaked_openFile (hlive : pid ∈ s.procs.live) (hc : (s.tables pid).Counted)
    (hfresh : s.Fresh pid a) (hnot : ¬ s.Given pid a) : ∃ h, Leaked pid h (s.openFile pid a).2 := by
  have hcalls : Calls Fresh pid s (s.openFile pid a).2 := .opens .refl hfresh
  cases opens_openFile hlive hc hfresh with
  | nothing hgiven _ _ | held hgiven _ _ _ | closed hgiven _ _ _ => exact absurd hgiven hnot
  | @leaked handle _ hunopened hholders hevents =>
    refine ⟨handle, hlive, hcalls.counted hc, ?_, ?_⟩
    · rw [hholders]
      exact hunopened.1
    · rw [hevents, closesSince, if_pos rfl]

lemma leaked_applyActions {as : List FileAction} (hlive : child ∈ s.procs.live)
    (hc : (s.tables child).Counted) (hfresh : s.ActionsMeet Fresh child as)
    (hnot : ¬ s.ActionsMeet Given child as) : ∃ h, Leaked child h (s.applyActions child as).2 := by
  induction as generalizing s with
  | nil => exact absurd trivial hnot
  | cons a as ih =>
    have hcalls := calls_applyAction hfresh.1
    by_cases hgiven : ∀ fd o, a = .Open fd o → s.Given child o
    · have hrest := not_and.mp hnot hgiven
      push Not at hrest
      obtain ⟨u, s', hrun, hnot'⟩ := hrest
      rw [hrun] at hcalls
      rw [applyActions, hrun]
      exact ih (hcalls.others.1 ▸ hlive) (hcalls.counted hc) (hfresh.2 u s' hrun) hnot'
    push Not at hgiven
    obtain ⟨fd, o, rfl, hnot'⟩ := hgiven
    obtain ⟨h, hleaked⟩ := leaked_openFile hlive hc (hfresh.1 fd o rfl) hnot'
    have hafter := hleaked.calls (s.calls_open_applyAction child fd o)
    refine ⟨h, ?_⟩
    rw [applyActions]
    split
    · next hrun =>
      rw [hrun] at hafter
      exact hafter
    · next s' hrun =>
      rw [hrun] at hafter
      exact hafter.calls (calls_applyActions (hfresh.2 _ s' hrun))

lemma leaked_spawn (hs : Held s) (hpossible : s.Possible (.spawn pid child actions))
    (hnot : ¬ s.FilesGiven (.spawn pid child actions)) :
    ¬ (s.spawn pid child actions).ClosedWithLast := by
  obtain ⟨hlive, hfresh, hactions⟩ := hpossible
  have hcounted : ((s.adopt child (s.tables pid).spawn).tables child).Counted := by
    rw [tables_adopt]
    exact counted_spawn (hs.counted pid hlive)
  obtain ⟨h, hleaked⟩ := leaked_applyActions (mem_live_add.mpr (.inl rfl)) hcounted hactions hnot
  rw [spawn]
  split
  · next s1 hrun =>
    rw [hrun] at hleaked
    obtain ⟨hunheld, hunclosed⟩ :=
      (releases_remove hleaked.live).leak hleaked.unheld hleaked.unclosed
    intro hclosed
    have hcloses := hclosed h 0 hunclosed
    rw [if_pos hunheld] at hcloses
    cases hcloses
  · next s1 hrun =>
    rw [hrun] at hleaked
    exact (hleaked.calls (calls_foldl_sysClose s1)).not_closedWithLast

/-- As long as every file that an open creates is given to the caller, a handle is closed exactly
once after it was given out, when its last holder goes; an open that creates a file and cannot give
it away breaks this. -/
theorem handles_closed_with_last (h : ReachedBy FilesGiven s) :
    s.ClosedWithLast ∧ ∀ op, s.Possible op → ((s.step op).ClosedWithLast ↔ s.FilesGiven op) := by
  have hs := h.held
  refine ⟨hs.closedWithLast, fun op hpossible => ⟨fun hclosed => ?_, fun hgiven => ?_⟩⟩
  · by_contra hnot
    cases op with
    | openFile pid =>
      obtain ⟨hlive, hfresh⟩ := hpossible
      obtain ⟨h, hleaked⟩ := leaked_openFile hlive (hs.counted pid hlive) hfresh hnot
      exact hleaked.not_closedWithLast hclosed
    | spawn => exact leaked_spawn hs hpossible hnot hclosed
    | _ => exact hnot trivial
  · exact (hs.step hpossible hgiven).closedWithLast

variable (chown : Except Errno Unit)

/-- A host with an empty root directory, where files can be created, and can be given to somebody or
not. -/
def rootHost : Host where
  lstat _ path := if path = bytes "/" then .ok ⟨sIfdir ||| 0o777, 0, 0⟩ else .error .ENOENT
  readlink _ _ := .error .EINVAL
  stat _ path := if path = bytes "/" then .ok ⟨sIfdir ||| 0o777, 0, 0⟩ else .error .ENOENT
  openFile _ _ _ _ := .ok 3
  chown _ _ _ _ := chown
  fstat _ _ := .ok ⟨0o100644, 0, 0⟩

/-- A process without descriptors. -/
def idleWorld : World := .idle 1024

/-- A file is created and opened to write. -/
def creating : Opening :=
  ⟨idleWorld, rootHost chown, bytes "/f", oCreat ||| oWronly, 0o644⟩

lemma possible_creating {chown : Except Errno Unit}
    (hevents : handleEvents ((creating chown).run bare 1).2.history.calls = [.opened 3]) :
    bare.Possible (.openFile 1 (creating chown)) := by
  refine ⟨by decide, fun h hsuffix => ?_⟩
  rw [hevents] at hsuffix
  obtain rfl : h = 3 := by
    have hmem := hsuffix.subset mem_cons_self
    rw [mem_singleton, Event.opened.injEq] at hmem
    exact hmem
  exact ⟨by decide, by decide, nofun⟩

/-- A file is created, given to the caller and closed. -/
theorem handles_closed_with_last_created :
    ((bare.step (.openFile 1 (creating (.ok ())))).step (.close 1 0)).ClosedWithLast := by
  have hgiven : bare.Given 1 (creating (.ok ())) := by
    intro _ entry w1 _ _ _ created w2 _ handle w3 _
    cases created <;> exact ⟨_, rfl⟩
  have hreach : ReachedBy FilesGiven (bare.step (.openFile 1 (creating (.ok ())))) :=
    (ReachedBy.init initial_bare).step _ (possible_creating (by decide)) hgiven
  have hlive : 1 ∈ (bare.step (.openFile 1 (creating (.ok ())))).procs.live := by decide
  exact ((handles_closed_with_last hreach).2 (.close 1 0) hlive).mpr trivial

/-- A file is created and cannot be given to the caller: the open fails and its handle stays open on
the host. -/
theorem handle_leaked_by_chown : ∃ s, ReachedBy (fun _ _ => True) s ∧ s.holders 3 = 0 ∧
    closesSince 3 (handleEvents s.calls) = some 0 ∧ ¬ s.ClosedWithLast := by
  have hreach : ReachedBy (fun _ _ => True) (bare.step (.openFile 1 (creating (.error .EPERM)))) :=
    (ReachedBy.init initial_bare).step _ (possible_creating (by decide)) trivial
  refine ⟨_, hreach, by decide, by decide, fun h => ?_⟩
  exact absurd (h 3 0 (by decide)) (by decide)

end System

end Kandelo.Kernel.Descriptor
