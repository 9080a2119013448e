import Kandelo.Kernel.Descriptor.Calls

/-!
# Directory iterators in every run

A description that lists a directory of the host stores an iterator of the host.
Every operation keeps iterators apart, and closes none that another description stores, except
`posix_spawn`: it copies descriptions with their iterators, so it breaks this whenever the parent is
in the middle of a directory.
-/

namespace Kandelo.Kernel.Descriptor

open Lib List Slots Fleet Tables OpenFileDesc
open Kandelo.Kernel.Path (bytes)
open File (FileType)

namespace System

variable {new : Option OpenFileDesc} {os before batch after : List OpenFileDesc} {a : Opening}
  {listing : Listing} {answer : Except Errno Int} {actions : List FileAction}
  {gone : Option OpenFileDesc} {i fd : Nat} {h0 : Int} {s s1 s' : System} {pid child : Nat}
  {t t' : Tables} {o : OpenFileDesc} {h : Int} {Q : System → Nat → Opening → Prop}

/-- No two descriptions of live processes store one iterator, and no iterator was closed while
another description stored it. -/
structure Unshared (s : System) : Prop where
  apart : ∀ pid ∈ s.procs.live, ∀ pid' ∈ s.procs.live, ∀ i j o o' h,
    (s.tables pid).ofds.get i = some o → (s.tables pid').ofds.get j = some o' →
      o.iterator = some h → o'.iterator = some h → pid = pid' ∧ i = j
  closes : ∀ c ∈ s.dirCloses, c.sharers = 0

/-- A process that spawns is not in the middle of a directory. -/
def BetweenListings (s : System) : Op → Prop
  | .spawn pid _ _ => ∀ i o, (s.tables pid).ofds.get i = some o → o.iterator = none
  | _ => True

/-! ### The invariant -/

/-- An iterator where a close would not look for it. -/
def astray (o : OpenFileDesc) : Bool := o.iterator.isSome && o.fileType ≠ .Directory

/-- Every description has a descriptor, and only directories store iterators. -/
structure Tidy (t : Tables) : Prop where
  counted : t.Counted
  listed : t.ofds.count astray = 0

/-- Each iterator that is open on the host is stored at most once, and no other is. -/
structure Iterating (s : System) : Prop where
  tidy : ∀ pid ∈ s.procs.live, Tidy (s.tables pid)
  stored : ∀ h, s.readers h ≤ if h ∈ s.dirs then 1 else 0
  closes : ∀ c ∈ s.dirCloses, c.sharers = 0
  sent : ∀ o ∈ s.inFlight, o.refCount = 1 ∧ o.iterator = none

lemma lasting_iterator (h : Int) : Tables.Lasting fun o => decide (o.iterator = some h) :=
  fun _ _ => rfl

lemma astray_of_none (h : o.iterator = none) : astray o = false := by
  rw [astray, h]
  rfl

lemma Tidy.change (ht : Tidy t) (hc : Tables.Change t t' gone new)
    (hnew : ∀ o, new = some o → o.iterator = none) : Tidy t' := by
  refine ⟨hc.counted, ?_⟩
  have hcount := hc.count astray fun _ _ => rfl
  have hshare : Tables.share astray new = 0 := by
    cases new with
    | none => rfl
    | some o => rw [Tables.share, Option.any_some, astray_of_none (hnew o rfl)]; rfl
  rw [ht.listed, hshare] at hcount
  exact (Nat.add_eq_zero_iff.mp hcount).1

lemma readers_eq : s.readers h = s.having fun o => decide (o.iterator = some h) := rfl

namespace Iterating

lemma readers_le_one (hs : Iterating s) (h : Int) : s.readers h ≤ 1 := by
  have hle := hs.stored h
  split at hle <;> omega

lemma unshared (hs : Iterating s) : s.Unshared where
  apart _ hlive _ hlive' _ _ _ _ h ho ho' hi hi' :=
    eq_of_having_le_one (hs.readers_le_one h) hlive hlive' ho ho' (decide_eq_true hi)
      (decide_eq_true hi')
  closes := hs.closes

end Iterating

/-! ### Closing iterators -/

lemma dirs_closeDirs (s : System) (os : List OpenFileDesc) :
    (∀ h, h ∈ (s.closeDirs os).dirs ↔ h ∈ s.dirs ∧ ∀ o ∈ os, o.iterator ≠ some h) ∧
      ∀ c, c ∈ (s.closeDirs os).dirCloses ↔ c ∈ s.dirCloses ∨
        ∃ o ∈ os, o.iterator = some c.handle ∧ c.sharers = s.readers c.handle := by
  induction os generalizing s with
  | nil => simp [closeDirs]
  | cons o os ih =>
    cases hiter : o.iterator with
    | none =>
      have hskip : s.closeDirs (o :: os) = s.closeDirs os := by
        rw [closeDirs, filterMap_cons_none hiter, closeDirs]
      rw [hskip]
      constructor
      · intro h
        rw [(ih s).1, forall_mem_cons, hiter]
        simp
      · intro c
        rw [(ih s).2, exists_mem_cons_iff, hiter]
        simp
    | some h0 =>
      have hclose : s.closeDirs (o :: os) = (s.closeDir h0 (s.readers h0)).closeDirs os := by
        rw [closeDirs, filterMap_cons_some hiter, closeDirs, foldl_cons]
      rw [hclose]
      constructor
      · intro h
        rw [(ih _).1, forall_mem_cons, hiter, closeDir, Finset.mem_erase, ne_eq, ne_eq,
          Option.some.injEq]
        tauto
      intro c
      rw [(ih _).2, exists_mem_cons_iff, hiter, closeDir, mem_cons, Option.some.injEq]
      have hentry : c = ⟨h0, s.readers h0⟩ ↔ h0 = c.handle ∧ c.sharers = s.readers c.handle := by
        constructor
        · rintro rfl
          exact ⟨rfl, rfl⟩
        · rintro ⟨rfl, hc⟩
          rw [← hc]
      rw [hentry, or_comm (a := h0 = c.handle ∧ _), or_assoc]
      rfl

/-! ### Calls of one process -/

/-- How many descriptions have the iterator. -/
def storing (os : List OpenFileDesc) (h : Int) : Nat := os.countP fun o => o.iterator = some h

namespace Iterating

lemma congr (hs : Iterating s) (hlive : s'.procs.live = s.procs.live)
    (htables : s'.tables = s.tables)
    (hflight : s'.inFlight = s.inFlight) (hdirs : s'.dirs = s.dirs)
    (hcloses : s'.dirCloses = s.dirCloses) : Iterating s' := by
  constructor
  · rw [hlive, htables]
    exact hs.tidy
  · intro h
    rw [readers_eq, having_congr hlive htables, hdirs]
    exact hs.stored h
  · rw [hcloses]
    exact hs.closes
  · rw [hflight]
    exact hs.sent

lemma release (hs : Iterating s) (os : List OpenFileDesc) : Iterating (s.release os) :=
  hs.congr rfl rfl rfl rfl rfl

lemma retain (hs : Iterating s) (os : List OpenFileDesc) : Iterating (s.retain os) :=
  hs.congr rfl rfl rfl rfl rfl

lemma closeDirs (htidy : ∀ pid ∈ s.procs.live, Tidy (s.tables pid))
    (hstored : ∀ h, s.readers h + storing os h ≤ if h ∈ s.dirs then 1 else 0)
    (hcloses : ∀ c ∈ s.dirCloses, c.sharers = 0)
    (hsent : ∀ o ∈ s.inFlight, o.refCount = 1 ∧ o.iterator = none) :
    Iterating (s.closeDirs os) := by
  obtain ⟨hprocs, hflight, -, -⟩ := s.frame_closeDirs os
  obtain ⟨hdirs, hnotes⟩ := s.dirs_closeDirs os
  have hpos {o : OpenFileDesc} {h : Int} (ho : o ∈ os) (hiter : o.iterator = some h) :
      s.readers h = 0 := by
    have hle := hstored h
    have hone : 0 < storing os h := countP_pos_iff.mpr ⟨o, ho, decide_eq_true hiter⟩
    split at hle <;> omega
  constructor
  · intro pid hlive
    rw [hprocs] at hlive
    rw [tables, hprocs]
    exact htidy pid hlive
  · intro h
    rw [readers, procs_closeDirs, ← readers]
    split
    · have hle := hstored h
      split at hle <;> omega
    next hnot =>
    rw [hdirs, not_and_or] at hnot
    rcases hnot with hnot | hnot
    · have hle := hstored h
      rw [if_neg hnot] at hle
      omega
    · push Not at hnot
      obtain ⟨o, ho, hiter⟩ := hnot
      rw [hpos ho hiter]
  · intro c hc
    rcases (hnotes c).mp hc with hc | ⟨o, ho, hiter, hsharers⟩
    · exact hcloses c hc
    · rw [hsharers, hpos ho hiter]
  · rw [hflight]
    exact hsent

section

variable (hs : Iterating s) (hlive : pid ∈ s.procs.live)

include hs hlive

lemma setTables (hc : Tables.Change (s.tables pid) t' gone new)
    (hnew : ∀ o, new = some o → o.iterator = none) :
    (∀ pid' ∈ (s.setTables pid t').procs.live, Tidy ((s.setTables pid t').tables pid')) ∧
      ∀ h, (s.setTables pid t').readers h + storing gone.toList h ≤
        if h ∈ s.dirs then 1 else 0 := by
  constructor
  · intro pid' hlive'
    by_cases hpid : pid' = pid
    · rw [hpid, tables_setTables]
      exact (hs.tidy pid hlive).change hc hnew
    · rw [tables, System.setTables, state_setProc_of_ne hpid]
      exact hs.tidy pid' hlive'
  intro h
  have hshare : Tables.share (fun o => decide (o.iterator = some h)) new = 0 := by
    cases new with
    | none => rfl
    | some o => rw [Tables.share, Option.any_some, hnew o rfl]; rfl
  have hgone : Tables.share (fun o => decide (o.iterator = some h)) gone =
      storing gone.toList h := by
    cases gone with
    | none => rfl
    | some => rw [storing, Option.toList_some, countP_singleton]; rfl
  have hset := having_setTables hlive hc (lasting_iterator h)
  rw [hshare, hgone, ← readers_eq] at hset
  rw [hset]
  exact hs.stored h

lemma moves (h : Moves pid s s') : Iterating s' := by
  obtain ⟨t', gone, hchange, rfl⟩ := h
  obtain ⟨htidy, hstored⟩ := hs.setTables hlive (hchange (hs.tidy pid hlive).counted) nofun
  have hplain : Iterating (s.setTables pid t') :=
    ⟨htidy, fun h => (Nat.le_add_right _ _).trans (hstored h), hs.closes, hs.sent⟩
  cases gone with
  | none => exact hplain
  | some o =>
    have hclosed : Iterating ((s.setTables pid t').closeDirs [o]) :=
      closeDirs htidy hstored hs.closes hs.sent
    have htables := (s.setTables pid t').tables_letGo pid (some o)
    have hsame := (s.setTables pid t').live_letGo pid (some o)
    rw [letGo] at htables hsame ⊢
    cases hkind : o.fileType with
    | Regular | Directory | CharDevice => exact hclosed.release [o]
    | Pipe => exact hplain.release [o]
    | Epoll =>
      rw [hkind] at htables hsame
      exact hplain.congr hsame htables rfl rfl rfl
    | Socket | EventFd | TimerFd | SignalFd | MemFd | PtyMaster | PtySlave => exact hplain

lemma openFile : Iterating (s.openFile pid a).2 := by
  obtain ⟨new, hnew, hchange⟩ := change_openFile (a := a) (hs.tidy pid hlive).counted
  have htables : (s.openFile pid a).2.tables pid = (a.run s pid).2.tables := s.tables_setTables
  rw [htables] at hchange
  obtain ⟨htidy, hstored⟩ := hs.setTables hlive hchange fun o ho => (hnew o ho).1
  exact ⟨htidy, hstored, hs.closes, hs.sent⟩

lemma calls (h : Calls Q pid s s') : Iterating s' ∧ pid ∈ s'.procs.live := by
  refine h.rule (I := fun s => Iterating s ∧ pid ∈ s.procs.live) ⟨hs, hlive⟩ ?_ ?_
  · rintro s1 s2 ⟨hs1, hlive1⟩ hmoves
    refine ⟨hs1.moves hlive1 hmoves, ?_⟩
    obtain ⟨t', gone, -, rfl⟩ := hmoves
    rw [live_letGo]
    exact hlive1
  · rintro s1 a ⟨hs1, hlive1⟩ -
    exact ⟨hs1.openFile hlive1, hlive1⟩

end

/-! ### Listing directories -/

lemma readers_setDir (hlive : pid ∈ s.procs.live)
    (ho : (s.tables pid).ofds.get i = some o) (h0 h : Int) :
    (s.setDir pid i h0).readers h + storing [o] h =
      s.readers h + storing [{ o with dirHostHandle := h0 }] h := by
  have hupdate := count_update_of_get ho (fun o => { o with dirHostHandle := h0 })
    fun o => decide (o.iterator = some h)
  have hset := total_set (x := { s.procs.state pid with tables := { s.tables pid with
    ofds := (s.tables pid).ofds.update i fun o => { o with dirHostHandle := h0 } } }) hlive
    fun p => p.tables.ofds.count fun o => decide (o.iterator = some h)
  simp only [readers, setDir, System.setTables, setProc, storing, countP_singleton, tables]
    at hupdate hset ⊢
  omega

section

variable (hs : Iterating s) (hlive : pid ∈ s.procs.live) (ho : (s.tables pid).ofds.get i = some o)

include hs hlive ho

lemma tidy_setDir (hkind : 0 ≤ h0 → o.fileType = .Directory) :
    ∀ pid' ∈ (s.setDir pid i h0).procs.live, Tidy ((s.setDir pid i h0).tables pid') := by
  intro pid' hlive'
  by_cases hpid : pid' = pid
  · rw [hpid, setDir, tables_setTables]
    constructor
    · exact counted_setDir (hs.tidy pid hlive).counted
    have hupdate := count_update_of_get ho (fun o => { o with dirHostHandle := h0 }) astray
    have hfine : astray { o with dirHostHandle := h0 } = false := by
      by_cases hneg : 0 ≤ h0
      · simp [astray, hkind hneg]
      · exact astray_of_none (if_neg hneg)
    rw [hfine, (hs.tidy pid hlive).listed] at hupdate
    dsimp only at hupdate ⊢
    simp only [Bool.false_eq_true, if_false] at hupdate
    omega
  · rw [tables, setDir, System.setTables, state_setProc_of_ne hpid]
    exact hs.tidy pid' hlive'

lemma setDir_neg (hneg : h0 < 0) : Iterating (s.setDir pid i h0) := by
  refine ⟨hs.tidy_setDir hlive ho fun hpos => absurd hneg (Int.not_lt.mpr hpos), fun h => ?_,
    hs.closes, hs.sent⟩
  have hread := readers_setDir hlive ho h0 h
  have hnone : storing [{ o with dirHostHandle := h0 }] h = 0 := by
    simp [storing, iterator, Int.not_le.mpr hneg]
  have hle := hs.stored h
  change _ ≤ if h ∈ s.dirs then 1 else 0
  omega

lemma closeDir {h1 : Int} (hiter : o.iterator = some h1)
    (hneg : h0 < 0) : Iterating ((s.closeDir h1 (s.readers h1 - 1)).setDir pid i h0) := by
  have hone := hs.readers_le_one h1
  have hread := readers_setDir hlive ho h0
  have hnone (h : Int) : storing [{ o with dirHostHandle := h0 }] h = 0 := by
    simp [storing, iterator, Int.not_le.mpr hneg]
  refine ⟨hs.tidy_setDir hlive ho fun hpos => absurd hneg (Int.not_lt.mpr hpos), fun h => ?_, ?_,
    hs.sent⟩
  · change (s.setDir pid i h0).readers h ≤ if h ∈ s.dirs.erase h1 then 1 else 0
    have hle := hs.stored h
    have hh := hread h
    rw [hnone] at hh
    by_cases hsame : h = h1
    · have hstored : storing [o] h = 1 := by simp [storing, hiter, hsame]
      rw [hsame] at hh hstored ⊢
      split <;> omega
    · simp only [Finset.mem_erase, ne_eq, hsame, not_false_eq_true, true_and]
      omega
  · refine forall_mem_cons.mpr ⟨?_, hs.closes⟩
    change s.readers h1 - 1 = 0
    omega

lemma openDir (hiter : o.iterator = none)
    (hkind : o.fileType = .Directory) (hfresh : h0 ∉ s.dirs) : Iterating (s.openDir pid i h0) := by
  refine ⟨hs.tidy_setDir hlive ho fun _ => hkind, fun h => ?_, hs.closes, hs.sent⟩
  have hread := readers_setDir hlive ho h0 h
  have hle := hs.stored h
  change (s.setDir pid i h0).readers h ≤ if h ∈ insert h0 s.dirs then 1 else 0
  have hzero : storing [o] h = 0 := by simp [storing, hiter]
  have hstored : storing [{ o with dirHostHandle := h0 }] h ≤ if h = h0 then 1 else 0 := by
    rw [storing, countP_singleton]
    by_cases hsame : h = h0
    · split <;> omega
    have hno : ({ o with dirHostHandle := h0 } : OpenFileDesc).iterator ≠ some h := by
      unfold iterator
      split
      · exact fun heq => hsame (Option.some.inj heq).symm
      · exact nofun
    rw [decide_eq_false hno]
    exact Nat.zero_le _
  by_cases hsame : h = h0
  · rw [hsame, if_pos (Finset.mem_insert_self _ _)]
    rw [if_pos hsame] at hstored
    rw [hsame, if_neg hfresh] at hle
    rw [hsame] at hread hstored hzero
    omega
  · simp only [Finset.mem_insert, hsame, false_or]
    rw [if_neg hsame] at hstored
    omega

lemma readDir (hiter : o.iterator = some h) : Iterating (s.readDir pid i h listing) := by
  cases listing with
  | more => exact hs
  | ended pending =>
    apply hs.closeDir hlive ho hiter
    cases pending <;> decide

end

end Iterating

lemma get_ioDescription (h : s.ioDescription pid fd = some (i, o)) :
    (s.tables pid).ofds.get i = some o := by
  simp only [ioDescription, Option.bind_eq_bind, Option.bind_eq_some_iff] at h
  obtain ⟨entry, -, o', ho', hsome⟩ := h
  split at hsome
  · cases hsome
  · cases hsome
    exact ho'

lemma get_setDir (ho : (s.tables pid).ofds.get i = some o) :
    ((s.setDir pid i h).tables pid).ofds.get i = some { o with dirHostHandle := h } := by
  rw [setDir, tables_setTables]
  rw [get_update, if_pos rfl, ho, Option.map_some]

namespace Iterating

lemma sysGetdents64 (hs : Iterating s)
    (hlive : pid ∈ s.procs.live) (hanswer : ∀ h, answer = .ok h → 0 ≤ h ∧ h ∉ s.dirs) :
    Iterating (s.sysGetdents64 pid fd answer listing) := by
  unfold System.sysGetdents64
  split
  · exact hs
  next i o hdesc =>
  have ho := get_ioDescription hdesc
  split
  · exact hs
  next hkind =>
  split
  · cases listing with
    | more => exact hs
    | ended => exact hs.setDir_neg hlive ho (by decide)
  next hge =>
  split
  · next hnone =>
    cases answer with
    | error => exact hs
    | ok h =>
      obtain ⟨hpos, hfresh⟩ := hanswer h rfl
      have hiter : o.iterator = none := by rw [iterator, hnone]; rfl
      have hopen := hs.openDir hlive ho hiter (not_not.mp hkind) hfresh
      have ho' : ((s.openDir pid i h).tables pid).ofds.get i = some { o with dirHostHandle := h } :=
        get_setDir ho
      exact hopen.readDir hlive ho' (if_pos hpos)
  · next hne =>
    refine hs.readDir hlive ho (if_pos ?_)
    omega

lemma rewind (hs : Iterating s) (hlive : pid ∈ s.procs.live)
    (ho : (s.tables pid).ofds.get i = some o) : Iterating (s.rewind pid i o) := by
  unfold System.rewind
  split
  · exact hs.setDir_neg hlive ho (by decide)
  · next hiter => exact hs.closeDir hlive ho hiter (by decide)

lemma get_rewind (ho : (s.tables pid).ofds.get i = some o) :
    ((s.rewind pid i o).tables pid).ofds.get i = some { o with dirHostHandle := -1 } := by
  unfold System.rewind
  split
  · exact get_setDir ho
  · exact get_setDir (s := s) ho

lemma mem_dirs_rewind : h ∈ (s.rewind pid i o).dirs ↔ h ∈ s.dirs ∧ o.iterator ≠ some h := by
  unfold System.rewind
  split
  · next hnone =>
    rw [hnone]
    exact ⟨fun hmem => ⟨hmem, nofun⟩, And.left⟩
  · next h1 hsome =>
    rw [hsome]
    change h ∈ s.dirs.erase h1 ↔ _
    rw [Finset.mem_erase, and_comm, ne_eq, ne_eq, Option.some.injEq, eq_comm]

section

variable (hs : Iterating s)

include hs

lemma sysLseek {offset : Int} {seekSet : Bool} (hlive : pid ∈ s.procs.live)
    (hanswer : ∀ h, answer = .ok h → 0 ≤ h ∧ (h ∈ s.dirs → ∃ i o,
      s.ioDescription pid fd = some (i, o) ∧ o.iterator = some h)) :
    Iterating (s.sysLseek pid fd offset seekSet answer) := by
  unfold System.sysLseek
  split
  · exact hs
  next i o hdesc =>
  have ho := get_ioDescription hdesc
  split
  · exact hs
  next hcond =>
  have hkind : o.fileType = .Directory := not_not.mp (not_or.mp hcond).1
  have hrewound := hs.rewind hlive ho
  have hlive' : pid ∈ (s.rewind pid i o).procs.live := by
    unfold System.rewind
    split <;> exact hlive
  cases answer with
  | error => exact hrewound
  | ok h =>
    dsimp only
    split
    · -- the host may give the iterator that was just closed
      refine hrewound.openDir hlive' (get_rewind ho) rfl hkind fun hmem => ?_
      obtain ⟨hmem, hother⟩ := mem_dirs_rewind.mp hmem
      obtain ⟨i', o', hdesc', hiter'⟩ := (hanswer h rfl).2 hmem
      rw [hdesc] at hdesc'
      cases hdesc'
      exact hother hiter'
    · exact hrewound

/-! ### Processes and messages -/

lemma adopt (hfresh : child ∉ s.procs.live) (hcounted : t.Counted)
    (hnone : ∀ i o, t.ofds.get i = some o → o.iterator = none) : Iterating (s.adopt child t) := by
  refine ⟨?_, fun h => ?_, hs.closes, hs.sent⟩
  · intro pid hlive
    change Tidy ((s.procs.add child ⟨t, []⟩).state pid).tables
    by_cases hpid : pid = child
    · rw [hpid, state_add_self]
      exact ⟨hcounted, count_eq_zero fun i o ho => astray_of_none (hnone i o ho)⟩
    · rw [state_add_of_ne hpid]
      exact hs.tidy pid ((mem_live_add.mp hlive).resolve_left hpid)
  · have hzero : t.ofds.count (fun o => decide (o.iterator = some h)) = 0 := by
      refine count_eq_zero fun i o ho => ?_
      rw [hnone i o ho]
      rfl
    rw [readers_eq, having_adopt hfresh, hzero]
    exact hs.stored h

lemma fork (hfresh : child ∉ s.procs.live) : Iterating (s.fork pid child) := by
  refine hs.adopt hfresh (counted_fork _) fun i o ho => ?_
  obtain ⟨o', -, -, rfl⟩ := get_fork ho
  rfl

lemma remove (hlive : pid ∈ s.procs.live) : Iterating (s.remove pid) := by
  apply Iterating.release
  apply closeDirs
  · exact fun pid' hlive' => hs.tidy pid' (mem_live_remove.mp hlive').2
  · intro h
    have hremove := having_remove hlive fun o => decide (o.iterator = some h)
    rw [having, System.remove, procs_release, procs_closeDirs] at hremove
    rw [storing, countP_entries]
    exact hremove.le.trans (hs.stored h)
  · exact hs.closes
  · exact hs.sent

lemma send {queued : Bool}
    (hsent : ∀ o ∈ os, o.refCount = 1 ∧ o.iterator = none) : Iterating (s.send os queued) := by
  unfold System.send
  split
  · exact { hs.retain os with
      sent := fun o ho => (mem_append.mp ho).elim (hs.sent o) (hsent o) }
  · exact (hs.retain os).release os

lemma receive {capacity : Nat} {socket : OpenFileDesc → Option Nat} (hlive : pid ∈ s.procs.live)
    (hqueue : s.inFlight = before ++ batch ++ after) :
    Iterating (s.receive pid before batch after capacity socket) := by
  have hbatch : ∀ o ∈ batch.take capacity, o.refCount = 1 ∧ o.iterator = none :=
    fun o ho => hs.sent o (mem_inFlight_batch hqueue (mem_of_mem_take ho))
  have hinstall (h : Int) := count_installScmRightsFds (lasting_iterator h)
    (fun _ _ _ => rfl) socket (fun o ho => (hbatch o ho).1) (hs.tidy pid hlive).counted
  apply Iterating.release
  constructor
  · intro pid' hlive'
    by_cases hpid : pid' = pid
    · rw [hpid, tables_setTables]
      have hinstall := count_installScmRightsFds (q := astray) (fun _ _ => rfl)
        (fun _ _ _ => rfl) socket (fun o ho => (hbatch o ho).1) (hs.tidy pid hlive).counted
      have hnone : (batch.take capacity).countP astray = 0 := by
        refine countP_eq_zero.mpr fun o ho => ?_
        rw [astray_of_none (hbatch o ho).2]
        exact Bool.false_ne_true
      rw [(hs.tidy pid hlive).listed, hnone] at hinstall
      exact ⟨hinstall.1, (Nat.add_eq_zero_iff.mp hinstall.2).1⟩
    · rw [tables, System.setTables, state_setProc_of_ne hpid]
      exact hs.tidy pid' hlive'
  · intro h
    have hnone : (batch.take capacity).countP (fun o => decide (o.iterator = some h)) = 0 := by
      rw [countP_eq_zero]
      intro o ho
      rw [(hbatch o ho).2]
      simp
    have hset := having_setTables_add (s := { s with inFlight := before ++ after }) hlive
      (installScmRightsFds socket (s.tables pid) (batch.take capacity)).1
      fun o => decide (o.iterator = some h)
    have hcount := (hinstall h).2
    change _ + (s.tables pid).ofds.count _ = s.readers h + _ at hset
    refine Nat.le_trans ?_ (hs.stored h)
    rw [readers_eq]
    omega
  · exact hs.closes
  · exact fun o ho => hs.sent o (mem_inFlight_rest hqueue ho)

lemma discard (hqueue : s.inFlight = before ++ batch ++ after) :
    Iterating (s.discard before batch after) := by
  apply Iterating.release
  exact { hs with sent := fun o ho => hs.sent o (mem_inFlight_rest hqueue ho) }

lemma exit (hlive : pid ∈ s.procs.live) : Iterating (s.exit pid) :=
  (hs.calls hlive (calls_foldl_sysClose (Q := Fresh) s)).1

lemma spawn (hpossible : s.Possible (.spawn pid child actions))
    (hbetween : s.BetweenListings (.spawn pid child actions)) :
    Iterating (s.spawn pid child actions) := by
  obtain ⟨hlive, hfresh, hactions⟩ := hpossible
  have hadopted : Iterating (s.adopt child (s.tables pid).spawn) := by
    refine hs.adopt hfresh (counted_spawn (hs.tidy pid hlive).counted) hbetween
  obtain ⟨s1, hcalls, hend⟩ := spawn_cases hactions
  obtain ⟨hs1, hlive1⟩ := hadopted.calls (mem_live_add.mpr (.inl rfl)) hcalls
  rcases hend with ⟨hend, -⟩ | ⟨hend, -⟩
  · rw [hend]
    exact hs1
  · rw [hend]
    exact hs1.remove hlive1

lemma sysEpollCreate1 {ofdId : Nat} {flags : BitVec 32}
    (hlive : pid ∈ s.procs.live) : Iterating (s.sysEpollCreate1 pid ofdId flags) := by
  obtain ⟨new, hnew, hchange⟩ := change_sysEpollCreate1 (hs.tidy pid hlive).counted
  obtain ⟨htidy, hstored⟩ := hs.setTables hlive hchange fun o ho => (hnew o ho).1
  have hset : Iterating (s.setTables pid _) := ⟨htidy, hstored, hs.closes, hs.sent⟩
  exact hset.congr rfl s.tables_setProc rfl rfl rfl

lemma sysEpollCtl {epfd : Nat} {op : Int} {events : BitVec 32} {data : BitVec 64} :
    Iterating (s.sysEpollCtl pid epfd op fd events data) := by
  refine hs.congr ?_ tables_sysEpollCtl ?_ ?_ ?_
  all_goals
    unfold System.sysEpollCtl
    split <;> rfl

/-! ### Runs -/

lemma step {op : Op} (hpossible : s.Possible op)
    (hbetween : s.BetweenListings op) : Iterating (s.step op) := by
  cases op with
  | openFile => exact hs.openFile hpossible.1
  | dup pid fd => exact hs.moves hpossible s.moves_sysDup
  | dup2 pid old new => exact hs.moves hpossible s.moves_sysDup2
  | close pid fd => exact hs.moves hpossible (s.moves_sysClose pid fd)
  | getdents64 => exact hs.sysGetdents64 hpossible.1 hpossible.2
  | lseek => exact hs.sysLseek hpossible.1 hpossible.2
  | epollCreate1 => exact hs.sysEpollCreate1 hpossible
  | epollCtl => exact hs.sysEpollCtl
  | fork => exact hs.fork hpossible.2
  | spawn => exact hs.spawn hpossible hbetween
  | exit => exact hs.exit hpossible
  | remove => exact hs.remove hpossible
  | send => exact hs.send fun o ho => mem_extractScmRights (mem_of_mem_take ho)
  | receive => exact hs.receive hpossible.1 hpossible.2
  | discard => exact hs.discard hpossible

end

end Iterating

lemma Initial.iterating (hs : Initial s) : Iterating s := by
  have hnone {pid i : Nat} {o : OpenFileDesc} (hlive : pid ∈ s.procs.live)
      (ho : (s.tables pid).ofds.get i = some o) : o.iterator = none :=
    if_neg (Int.not_le.mpr (hs.plain pid hlive i o ho).1)
  obtain ⟨hflight, -, -, hcloses⟩ := hs.empty
  refine ⟨fun pid hlive => ⟨hs.counted pid hlive, ?_⟩, fun h => ?_, ?_, ?_⟩
  · exact count_eq_zero fun i o ho => astray_of_none (hnone hlive ho)
  · have hzero : s.readers h = 0 := by
      refine Finset.sum_eq_zero fun pid hlive => count_eq_zero fun i o ho => ?_
      rw [hnone hlive ho]
      rfl
    rw [hzero]
    exact Nat.zero_le _
  · rw [hcloses]
    exact nofun
  · rw [hflight]
    exact nofun

lemma ReachedBy.iterating (h : ReachedBy BetweenListings s) : Iterating s := by
  induction h with
  | init hinit => exact hinit.iterating
  | step op _ hpossible hbetween ih => exact ih.step hpossible hbetween

/-! ### A spawn in the middle of a directory -/

/-- The parent stores the iterator, and so does the child, unless it was closed under the parent. -/
structure Doubled (pid child : Nat) (h : Int) (s : System) : Prop where
  parent : pid ∈ s.procs.live ∧ 0 < (s.tables pid).ofds.count fun o => o.iterator = some h
  tidy : Tidy (s.tables child)
  child : (0 < (s.tables child).ofds.count fun o => o.iterator = some h) ∨
    ∃ c ∈ s.dirCloses, c.sharers ≠ 0

lemma mem_dirCloses_letGo {c : DirClose} (h : c ∈ s.dirCloses) :
    c ∈ (s.letGo pid gone).dirCloses := by
  cases gone with
  | none => exact h
  | some o =>
    rw [letGo]
    cases o.fileType
    case Regular | Directory | CharDevice => exact ((s.dirs_closeDirs [o]).2 c).mpr (.inl h)
    all_goals exact h

namespace Doubled

section

variable (hs : Doubled pid child h s) (hne : pid ≠ child)

include hs hne

lemma moves (hmoves : Moves child s s') : Doubled pid child h s' := by
  obtain ⟨t', gone, hchange, rfl⟩ := hmoves
  have hc := hchange hs.tidy.counted
  have htables := (s.setTables child t').tables_letGo child gone
  have hparent : ((s.setTables child t').letGo child gone).tables pid = s.tables pid := by
    rw [htables, tables, setTables, state_setProc_of_ne hne, tables]
  have hchild : ((s.setTables child t').letGo child gone).tables child = t' := by
    rw [htables, tables_setTables]
  constructor
  · rw [hparent, live_letGo]
    exact hs.parent
  · rw [hchild]
    exact hs.tidy.change hc (by rintro _ ⟨⟩)
  rw [hchild]
  rcases hs.child with hstores | ⟨c, hmem, hc⟩
  · by_cases hkept : 0 < t'.ofds.count fun o => decide (o.iterator = some h)
    · exact .inl hkept
    -- the description that stored it for the child is gone, so it is closed
    right
    have hcount := hc.count _ (lasting_iterator h)
    have hstray := hc.count astray fun _ _ => rfl
    rw [hs.tidy.listed] at hstray
    cases gone with
    | none => omega
    | some o =>
      have hiter : o.iterator = some h := by
        by_contra hno
        simp only [Tables.share, Option.any_some, decide_eq_false hno, Bool.false_eq_true,
          if_false] at hcount
        omega
      have hkind : o.fileType = .Directory := by
        by_contra hno
        simp [Tables.share, astray, hiter, hno] at hstray
      refine ⟨⟨h, (s.setTables child t').readers h⟩, ?_, ?_⟩
      · rw [letGo, hkind]
        exact ((dirs_closeDirs _ [o]).2 _).mpr (.inr ⟨o, mem_cons_self, hiter, rfl⟩)
      have hlive : pid ∈ (s.setTables child t').procs.live := hs.parent.1
      have hle := le_having hlive fun o => decide (o.iterator = some h)
      rw [← (s.setTables child t').tables_letGo child (some o), hparent] at hle
      exact Nat.pos_iff_ne_zero.mp (hs.parent.2.trans_le hle)
  · exact .inr ⟨c, mem_dirCloses_letGo hmem, hc⟩

lemma openFile : Doubled pid child h (s.openFile child a).2 := by
  obtain ⟨new, hnew, hc⟩ := change_openFile (a := a) hs.tidy.counted
  have hparent : (s.openFile child a).2.tables pid = s.tables pid :=
    congrArg Process.tables (state_setProc_of_ne hne)
  constructor
  · rw [hparent]
    exact hs.parent
  · exact hs.tidy.change hc fun o ho => (hnew o ho).1
  refine hs.child.imp_left fun hstores => ?_
  have hcount := hc.count _ (lasting_iterator h)
  simp only [Tables.share, Option.any_none, Bool.false_eq_true, if_false] at hcount
  omega

lemma calls (hcalls : Calls Q child s s') : Doubled pid child h s' :=
  hcalls.rule hs (fun _ _ h hmoves => h.moves hne hmoves) fun _ _ h _ => h.openFile hne

lemma not_unshared (hlive : child ∈ s.procs.live) : ¬ s.Unshared := by
  intro hunshared
  rcases hs.child with hstores | ⟨c, hmem, hc⟩
  · obtain ⟨i, o, ho, hi⟩ := exists_of_count_pos hs.parent.2
    obtain ⟨j, o', ho', hj⟩ := exists_of_count_pos hstores
    exact hne (hunshared.apart pid hs.parent.1 child hlive i j o o' h ho ho' (of_decide_eq_true hi)
      (of_decide_eq_true hj)).1
  · exact hc (hunshared.closes c hmem)

lemma not_unshared_remove : ¬ (s.remove child).Unshared := by
  intro hunshared
  obtain ⟨-, hcloses⟩ := dirs_closeDirs { s with procs := s.procs.remove child }
    (s.tables child).ofds.entries
  rcases hs.child with hstores | ⟨c, hmem, hc⟩
  · obtain ⟨j, o, ho, hj⟩ := exists_of_count_pos hstores
    have hparent : 0 < (s.procs.remove child).total fun p =>
        p.tables.ofds.count fun o => decide (o.iterator = some h) :=
      hs.parent.2.trans_le (le_total (f := s.procs.remove child)
        (mem_live_remove.mpr ⟨hne, hs.parent.1⟩) fun p => p.tables.ofds.count _)
    have hnoted := hunshared.closes ⟨h, readers { s with procs := s.procs.remove child } h⟩
      ((hcloses _).mpr
      (.inr ⟨o, mem_entries.mpr ⟨j, ho⟩, of_decide_eq_true hj, rfl⟩))
    exact hparent.ne' hnoted
  · exact hc (hunshared.closes c ((hcloses c).mpr (.inl hmem)))

end

end Doubled

lemma not_unshared_spawn (hs : Iterating s) (hpossible : s.Possible (.spawn pid child actions))
    (ho : (s.tables pid).ofds.get i = some o) (hiter : o.iterator = some h) :
    ¬ (s.spawn pid child actions).Unshared := by
  obtain ⟨hlive, hfresh, hactions⟩ := hpossible
  have hne : pid ≠ child := fun heq => hfresh (heq ▸ hlive)
  have hstores : 0 < (s.tables pid).ofds.count fun o => decide (o.iterator = some h) :=
    count_pos ho (decide_eq_true hiter)
  have hparent : (s.adopt child (s.tables pid).spawn).tables pid = s.tables pid :=
    congrArg Process.tables (state_add_of_ne hne)
  have hchild : (s.adopt child (s.tables pid).spawn).tables child = (s.tables pid).spawn :=
    congrArg Process.tables (state_add_self _ _ _)
  have hdoubled : Doubled pid child h (s.adopt child (s.tables pid).spawn) := by
    constructor
    · rw [hparent]
      exact ⟨mem_live_add.mpr (.inr hlive), hstores⟩
    · rw [hchild]
      exact ⟨counted_spawn (hs.tidy pid hlive).counted, (hs.tidy pid hlive).listed⟩
    · rw [hchild]
      exact .inl hstores
  obtain ⟨s1, hcalls, hend⟩ := spawn_cases hactions
  have hlive1 : child ∈ s1.procs.live := by
    rw [hcalls.others.1]
    exact mem_live_add.mpr (.inl rfl)
  have hdoubled1 := hdoubled.calls hne hcalls
  rcases hend with ⟨hend, -⟩ | ⟨hend, -⟩
  · rw [hend]
    exact hdoubled1.not_unshared hne hlive1
  · rw [hend]
    exact hdoubled1.not_unshared_remove hne

/-- As long as no process spawns in the middle of a directory, no iterator is shared and none is
closed that another description stores; such a spawn breaks this, whether it succeeds or not. -/
theorem iterators_unshared (h : ReachedBy BetweenListings s) :
    s.Unshared ∧ ∀ op, s.Possible op → ((s.step op).Unshared ↔ s.BetweenListings op) := by
  have hs := h.iterating
  refine ⟨hs.unshared, fun op hpossible => ⟨fun hunshared => ?_, fun hbetween => ?_⟩⟩
  · cases op with
    | spawn =>
      intro i o ho
      by_contra hsome
      obtain ⟨h, hiter⟩ := Option.ne_none_iff_exists'.mp hsome
      exact not_unshared_spawn hs hpossible ho hiter hunshared
    | _ => trivial
  · exact (hs.step hpossible hbetween).unshared

/-- A process with a directory open. -/
def atDirectory : System where
  procs := ⟨{1}, fun _ => ⟨⟨⟨[some ⟨0, 0⟩], [], 1024, nofun⟩,
    [some ⟨1, none, .Directory, 0, 7, 1, bytes "/", -1, none⟩]⟩, []⟩⟩
  inFlight := []
  refs := fun _ => none
  calls := []
  dirs := ∅
  dirCloses := []

lemma get_atDirectory (h : (atDirectory.tables pid).ofds.get i = some o) :
    o = ⟨1, none, .Directory, 0, 7, 1, bytes "/", -1, none⟩ := by
  cases i with
  | zero => exact (Option.some.inj h).symm
  | succ => cases h

lemma initial_atDirectory : Initial atDirectory where
  counted pid _ i o ho := by
    rw [get_atDirectory ho]
    decide
  plain pid _ i o ho := by
    rw [get_atDirectory ho]
    decide
  empty := ⟨rfl, rfl, rfl, rfl⟩
  unshared := rfl

/-- The process has read the first entries of the directory. -/
def midDirectory : System := atDirectory.step (.getdents64 1 0 (.ok 5) .more)

lemma possible_midDirectory : atDirectory.Possible (.getdents64 1 0 (.ok 5) .more) := by
  refine ⟨by decide, ?_⟩
  rintro h ⟨⟩
  exact ⟨by decide, nofun⟩

/-- A process and the child that it spawned before the listing began each list the directory. -/
theorem iterators_unshared_bothList :
    let s := ((atDirectory.step (.spawn 1 2 [])).step (.getdents64 1 0 (.ok 5) .more)).step
      (.getdents64 2 0 (.ok 6) .more)
    s.Unshared ∧ (s.step (.fork 1 3)).Unshared ∧
      ((s.tables 1).ofds.get 0).bind (·.iterator) = some 5 ∧
      ((s.tables 2).ofds.get 0).bind (·.iterator) = some 6 := by
  have hspawn : ReachedBy BetweenListings (atDirectory.step (.spawn 1 2 [])) := by
    refine (ReachedBy.init initial_atDirectory).step _ ⟨by decide, by decide, trivial⟩ ?_
    rintro i o ho
    rw [get_atDirectory ho]
    rfl
  have hfirst := hspawn.step (.getdents64 1 0 (.ok 5) .more) ⟨by decide, by
    rintro h ⟨⟩
    exact ⟨by decide, by decide⟩⟩ trivial
  have hreach := hfirst.step (.getdents64 2 0 (.ok 6) .more) ⟨by decide, by
    rintro h ⟨⟩
    exact ⟨by decide, by decide⟩⟩ trivial
  obtain ⟨hunshared, hstep⟩ := iterators_unshared hreach
  exact ⟨hunshared, (hstep (.fork 1 3) ⟨by decide, by decide⟩).mpr trivial, rfl, rfl⟩

/-- A spawn copies the iterator. -/
theorem iterator_shared_by_spawn : ∃ s, ReachedBy (fun _ _ => True) s ∧
    (∃ o o', (s.tables 1).ofds.get 0 = some o ∧ (s.tables 2).ofds.get 0 = some o' ∧
      o.iterator = some 5 ∧ o'.iterator = some 5) ∧ ¬ s.Unshared := by
  have hreach : ReachedBy (fun _ _ => True) midDirectory :=
    (ReachedBy.init initial_atDirectory).step _ possible_midDirectory trivial
  have hspawn : midDirectory.Possible (.spawn 1 2 []) := ⟨by decide, by decide, trivial⟩
  refine ⟨_, hreach.step (.spawn 1 2 []) hspawn trivial, ⟨_, _, rfl, rfl, rfl, rfl⟩, fun h => ?_⟩
  have hsame := h.apart 1 (by decide) 2 (by decide) 0 0 _ _ 5 rfl rfl rfl rfl
  exact absurd hsame.1 (by decide)

end System

end Kandelo.Kernel.Descriptor
