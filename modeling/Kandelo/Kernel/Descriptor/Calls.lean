import Kandelo.Kernel.Descriptor.System

/-!
# Calls of one process, one after the other

Closing and duplicating move the tables of one process and let at most one
description go (`Moves`). Exit, the sweep of `exec` and the actions of `posix_spawn` are such calls
and opens in a row (`Calls`), so what these keep is kept by whole rows of them.
-/

namespace Kandelo.Kernel.Descriptor

open Lib List Option Fleet Tables Slots Process
open File (FileType)

namespace System

variable {as : List FileAction} {listing : Listing} {before batch after : List OpenFileDesc}
  {fds : List Nat} {p : Process} {pid' i : Nat} {h : Int} {q : OpenFileDesc → Bool}
  {s s1 s' : System} {pid child : Nat} {t t' : Tables} {o : OpenFileDesc}
  {Q : System → Nat → Opening → Prop}

/-! ### Processes and tables -/

variable (s)

@[simp] lemma live_setTables (pid : Nat) (t : Tables) :
    (s.setTables pid t).procs.live = s.procs.live := rfl

@[simp] lemma tables_setTables : (s.setTables pid t).tables pid = t := by
  rw [tables, setTables, setProc, state_set_self]

variable {s}

lemma state_setProc_of_ne (h : pid' ≠ pid) :
    (s.setProc pid p).procs.state pid' = s.procs.state pid' := state_set_of_ne h

variable (s) {fd : Nat}

@[simp] lemma procs_release (os : List OpenFileDesc) : (s.release os).procs = s.procs := rfl

lemma frame_closeDirs (os : List OpenFileDesc) :
    (s.closeDirs os).procs = s.procs ∧ (s.closeDirs os).inFlight = s.inFlight ∧
      (s.closeDirs os).refs = s.refs ∧ (s.closeDirs os).calls = s.calls := by
  unfold closeDirs
  induction os.filterMap OpenFileDesc.iterator generalizing s with
  | nil => exact ⟨rfl, rfl, rfl, rfl⟩
  | cons h hs ih => exact ih _

@[simp] lemma procs_closeDirs (os : List OpenFileDesc) :
    (s.closeDirs os).procs = s.procs := (s.frame_closeDirs os).1

lemma procs_letGo (pid : Nat) (gone : Option OpenFileDesc) :
    (s.letGo pid gone).procs = s.procs ∨ ∃ o, gone = some o ∧ o.fileType = .Epoll ∧
      (s.letGo pid gone).procs = s.procs.set pid ((s.procs.state pid).forgetEpoll o) := by
  cases gone with
  | none => exact .inl rfl
  | some o =>
    cases htype : o.fileType
    case Epoll =>
      refine .inr ⟨o, rfl, htype, ?_⟩
      rw [letGo, htype]
      rfl
    all_goals exact .inl (by simp [letGo, htype])

@[simp] lemma live_letGo (pid : Nat) (gone : Option OpenFileDesc) :
    (s.letGo pid gone).procs.live = s.procs.live := by
  rcases s.procs_letGo pid gone with h | ⟨o, -, -, h⟩
  · rw [h]
  · rw [h, live_set]

lemma inFlight_letGo (pid : Nat) (gone : Option OpenFileDesc) :
    (s.letGo pid gone).inFlight = s.inFlight := by
  cases gone with
  | none => rfl
  | some o =>
    rw [letGo]
    cases o.fileType
    case Regular | Directory | CharDevice => exact (s.frame_closeDirs [o]).2.1
    all_goals rfl

lemma tables_forgetEpoll (p : Process) (o : OpenFileDesc) :
    (p.forgetEpoll o).tables = p.tables := by
  unfold forgetEpoll
  split <;> rfl

lemma tables_letGo (pid : Nat) (gone : Option OpenFileDesc) :
    (s.letGo pid gone).tables = s.tables := by
  funext pid'
  rcases s.procs_letGo pid gone with h | ⟨o, -, -, h⟩
  · rw [tables, h, tables]
  rw [tables, h]
  by_cases hpid : pid' = pid
  · rw [hpid, state_set_self, tables_forgetEpoll, tables]
  · rw [state_set_of_ne hpid, tables]

/-! ### Moves -/

/-- A call of the process moves its tables, and at most one description goes. -/
def Moves (pid : Nat) (s s' : System) : Prop :=
  ∃ t' gone, ((s.tables pid).Counted → Tables.Change (s.tables pid) t' gone none) ∧
    s' = (s.setTables pid t').letGo pid gone

lemma moves_sysClose (pid fd : Nat) : Moves pid s (s.sysClose pid fd) :=
  ⟨_, _, fun hc => change_close hc fd, rfl⟩

lemma moves_sysDup : Moves pid s (s.sysDup pid fd) := ⟨_, none, fun hc => change_dup hc fd, rfl⟩

lemma moves_sysDup2 {old new : Nat} : Moves pid s (s.sysDup2 pid old new).2 :=
  ⟨_, _, fun hc => change_dup2 hc old new, rfl⟩

variable {s} {events : BitVec 32} {data : BitVec 64} {epfd : Nat}

lemma change_openFile {a : Opening} (hc : (s.tables pid).Counted) :
    ∃ new, (∀ o, new = some o → o.iterator = none ∧ o.fileType ≠ .Epoll) ∧
      Tables.Change (s.tables pid) ((s.openFile pid a).2.tables pid) none new := by
  have htables : (s.openFile pid a).2.tables pid = (a.run s pid).2.tables := s.tables_setTables
  rw [htables]
  have hsame (htables : (a.run s pid).2.tables = s.tables pid) :
      ∃ new, (∀ o, new = some o → o.iterator = none ∧ o.fileType ≠ .Epoll) ∧
        Tables.Change (s.tables pid) (a.run s pid).2.tables none new := by
    refine ⟨none, nofun, ?_⟩
    rw [htables]
    exact Tables.Change.refl hc
  rcases hrun : a.run s pid with ⟨r, w'⟩
  rw [hrun] at hsame
  cases outcome_sysOpen hrun with
  | plain _ _ hdescribes =>
    obtain ⟨new, hplain, hchange⟩ := hdescribes
    refine ⟨new, fun o ho => ⟨?_, (hplain o ho).notEpoll⟩, hchange hc⟩
    exact if_neg (Int.not_le.mpr (hplain o ho).unread)
  | opened _ _ hfile hunread hchange _ =>
    refine ⟨_, ?_, hchange hc⟩
    rintro o ⟨⟩
    refine ⟨?_, ?_⟩
    · rw [OpenFileDesc.iterator, hunread]
      rfl
    · rcases hfile with hfile | hfile <;> rw [hfile] <;> decide
  | closed _ htables => exact hsame htables
  | leaked _ htables => exact hsame htables

/-! ### Epoll instances -/

lemma tables_setProc : (s.setProc pid p).tables = (s.setTables pid p.tables).tables := by
  funext pid'
  by_cases hpid : pid' = pid
  · rw [hpid, tables_setTables, tables, setProc, state_set_self]
  · rw [tables, state_setProc_of_ne hpid, tables, setTables, state_setProc_of_ne hpid]

lemma change_sysEpollCreate1 (hc : p.tables.Counted) {ofdId : Nat}
    {flags : BitVec 32} : ∃ new, (∀ o, new = some o → o.iterator = none ∧ o.handle = none) ∧
      Tables.Change p.tables (p.sysEpollCreate1 ofdId flags).2.tables none new := by
  unfold Process.sysEpollCreate1
  split
  · exact ⟨none, nofun, Tables.Change.refl hc⟩
  split
  · refine ⟨_, ?_, change_insert hc rfl _⟩
    rintro o ⟨⟩
    exact ⟨rfl, rfl⟩
  · exact ⟨none, nofun, change_of_get hc (get_decRef_insert _ rfl)⟩

lemma sysEpollCtl_cases {p' : Process} {op : Int}
    (h : p.sysEpollCtl epfd op fd events data = .ok p') :
    ∃ slot ep, p' = { p with epolls := p.epolls.update slot fun _ => ep } := by
  simp only [Process.sysEpollCtl, bind, Except.bind] at h
  iterate 7
    split at h
    · cases h
  next slot _ _ _ _ ep _ =>
  cases h
  exact ⟨_, ep, rfl⟩

lemma tables_sysEpollCtl {op : Int} :
    (s.sysEpollCtl pid epfd op fd events data).tables = s.tables := by
  unfold sysEpollCtl
  split
  · next p hctl =>
    obtain ⟨slot, ep, rfl⟩ := sysEpollCtl_cases hctl
    funext pid'
    by_cases hpid : pid' = pid
    · rw [hpid, tables_setProc, tables_setTables, tables]
    · rw [tables, state_setProc_of_ne hpid, tables]
  · rfl

/-! ### Rows of calls -/

/-- Calls of the process that move its tables, and opens that meet `Q`, in a row. -/
inductive Calls (Q : System → Nat → Opening → Prop) (pid : Nat) (s : System) : System → Prop
  | refl : Calls Q pid s s
  | moves {s1 s2 : System} : Calls Q pid s s1 → Moves pid s1 s2 → Calls Q pid s s2
  | opens {s1 : System} {a : Opening} : Calls Q pid s s1 → Q s1 pid a →
      Calls Q pid s (s1.openFile pid a).2

lemma Calls.rule {I : System → Prop} (h : Calls Q pid s s') (hs : I s)
    (hmoves : ∀ s1 s2, I s1 → Moves pid s1 s2 → I s2)
    (hopens : ∀ s1 a, I s1 → Q s1 pid a → I (s1.openFile pid a).2) : I s' := by
  induction h with
  | refl => exact hs
  | moves _ hstep ih => exact hmoves _ _ ih hstep
  | opens _ hfresh ih => exact hopens _ _ ih hfresh

lemma Calls.trans (h : Calls Q pid s s1) (h' : Calls Q pid s1 s') : Calls Q pid s s' :=
  h'.rule h (fun _ _ h hstep => h.moves hstep) fun _ _ h hfresh => h.opens hfresh

lemma Calls.others (h : Calls Q pid s s') : s'.procs.live = s.procs.live ∧
    s'.inFlight = s.inFlight ∧ ∀ pid', pid' ≠ pid → s'.procs.state pid' = s.procs.state pid' := by
  refine h.rule (I := fun s' => s'.procs.live = s.procs.live ∧ s'.inFlight = s.inFlight ∧
    ∀ pid', pid' ≠ pid → s'.procs.state pid' = s.procs.state pid') ⟨rfl, rfl, fun _ _ => rfl⟩ ?_ ?_
  · rintro s1 s2 ⟨hlive, hflight, hstate⟩ ⟨t', gone, -, rfl⟩
    refine ⟨by rw [live_letGo, live_setTables, hlive], ?_, fun pid' hpid => ?_⟩
    · rw [inFlight_letGo, ← hflight]
      rfl
    rw [← hstate pid' hpid, ← state_setProc_of_ne (s := s1) hpid, ← setTables]
    rcases (s1.setTables pid t').procs_letGo pid gone with h | ⟨o, -, -, h⟩
    · rw [h]
    · rw [h, state_set_of_ne hpid]
  · rintro s1 a ⟨hlive, hflight, hstate⟩ -
    refine ⟨hlive, hflight, fun pid' hpid => ?_⟩
    rw [← hstate pid' hpid]
    exact state_setProc_of_ne hpid

lemma Calls.counted (h : Calls Q pid s s') (hc : (s.tables pid).Counted) :
    (s'.tables pid).Counted := by
  refine h.rule (I := fun s' => (s'.tables pid).Counted) hc ?_ ?_
  · rintro s1 s2 hc1 ⟨t', gone, hchange, rfl⟩
    rw [tables_letGo, tables_setTables]
    exact (hchange hc1).counted
  · intro s1 a hc1 _
    obtain ⟨new, -, hchange⟩ := change_openFile (a := a) hc1
    exact hchange.counted

lemma calls_foldl_sysClose (s : System) : Calls Q pid s (fds.foldl (sysClose · pid) s) := by
  induction fds generalizing s with
  | nil => exact .refl
  | cons fd fds ih => exact (Calls.moves .refl (s.moves_sysClose pid fd)).trans (ih _)

lemma ActionsMeet.and {R : System → Nat → Opening → Prop}
    (hQ : s.ActionsMeet Q child as) (hR : s.ActionsMeet R child as) :
    s.ActionsMeet (fun s pid a => Q s pid a ∧ R s pid a) child as := by
  induction as generalizing s with
  | nil => trivial
  | cons a as ih =>
    refine ⟨fun fd o ho => ⟨hQ.1 fd o ho, hR.1 fd o ho⟩, fun u s' hrun => ?_⟩
    exact ih (hQ.2 u s' hrun) (hR.2 u s' hrun)

lemma calls_open_applyAction (s : System) (child fd : Nat) (a : Opening) :
    Calls Q child (s.openFile child a).2 (s.applyAction child (.Open fd a)).2 := by
  rw [applyAction]
  split
  · next hrun =>
    rw [hrun]
    exact .refl
  · next opened s1 hrun =>
    rw [hrun]
    split
    · exact .refl
    · exact (Calls.moves .refl s1.moves_sysDup2).moves (moves_sysClose _ _ _)

lemma calls_applyAction {a : FileAction} (hopens : ∀ fd o, a = .Open fd o → Q s child o) :
    Calls Q child s (s.applyAction child a).2 := by
  cases a with
  | Close fd => exact .moves .refl (s.moves_sysClose child fd)
  | Dup2 srcfd fd =>
    rw [applyAction]
    split
    · split
      · exact .refl
      · exact .moves .refl
          ⟨{ s.tables child with fds := (s.tables child).fds.clearCloexec fd }, none,
          fun hc => change_of_get hc fun _ => rfl, rfl⟩
    · exact .moves .refl s.moves_sysDup2
  | Open fd a =>
    exact (Calls.opens .refl (hopens fd a rfl)).trans (s.calls_open_applyAction child fd a)
  | Chdir => exact .refl
  | Fchdir => exact .refl

lemma calls_applyActions (hopens : s.ActionsMeet Q child as) :
    Calls Q child s (s.applyActions child as).2 := by
  induction as generalizing s with
  | nil => exact .refl
  | cons a as ih =>
    have hfirst := calls_applyAction hopens.1
    rw [applyActions]
    split
    · next hrun =>
      rw [hrun] at hfirst
      exact hfirst
    · next s1 hrun =>
      rw [hrun] at hfirst
      exact hfirst.trans (ih (hopens.2 _ s1 hrun))

lemma state_adopt : (s.adopt child t).procs.state child = ⟨t, []⟩ := state_add_self _ _ _

lemma tables_adopt (s : System) (child : Nat) (t : Tables) : (s.adopt child t).tables child = t :=
  congrArg Process.tables s.state_adopt

/-- The tables that a child of `posix_spawn` starts with, if its actions succeed. -/
def spawnedTables (s : System) (pid child : Nat) (actions : List FileAction) : Option Tables :=
  match (s.adopt child (s.tables pid).spawn).applyActions child actions with
  | (.error _, _) => none
  | (.ok _, s) => some (((s.cloexecFds child).foldl (sysClose · child) s).tables child)

lemma spawn_cases {actions : List FileAction}
    (hopens : (s.adopt child (s.tables pid).spawn).ActionsMeet Q child actions) :
    ∃ s1, Calls Q child (s.adopt child (s.tables pid).spawn) s1 ∧
      (s.spawn pid child actions = s1 ∧ s.spawnedTables pid child actions = some (s1.tables child) ∨
        s.spawn pid child actions = s1.remove child ∧
          s.spawnedTables pid child actions = none) := by
  have hactions := calls_applyActions hopens
  rw [spawn, spawnedTables]
  rcases hrun : (s.adopt child (s.tables pid).spawn).applyActions child actions with ⟨r, s1⟩
  rw [hrun] at hactions
  cases r with
  | error => exact ⟨s1, hactions, .inr ⟨rfl, rfl⟩⟩
  | ok => exact ⟨_, hactions.trans (calls_foldl_sysClose s1), .inl ⟨rfl, rfl⟩⟩

/-! ### Listing directories -/

/-- What is said of the system does not change with iterators. -/
structure IgnoresDirs (pid : Nat) (I : System → Prop) : Prop where
  stored : ∀ s i h, I s → I (s.setDir pid i h)
  noted : ∀ (s : System) dirs dirCloses, I s → I { s with dirs, dirCloses }

namespace IgnoresDirs

variable {I : System → Prop} {fd : Nat} {answer : Except Errno Int}

section

variable (hI : IgnoresDirs pid I) (hs : I s)

include hI hs

lemma readDir : I (s.readDir pid i h listing) := by
  cases listing with
  | more => exact hs
  | ended => exact hI.stored _ _ _ (hI.noted _ _ _ hs)

lemma openDir : I (s.openDir pid i h) := hI.noted _ _ _ (hI.stored _ _ _ hs)

lemma sysGetdents64 : I (s.sysGetdents64 pid fd answer listing) := by
  unfold System.sysGetdents64
  split
  · exact hs
  split
  · exact hs
  split
  · cases listing with
    | more => exact hs
    | ended => exact hI.stored _ _ _ hs
  split
  · cases answer with
    | error => exact hs
    | ok => exact hI.readDir (hI.openDir hs)
  · exact hI.readDir hs

lemma rewind : I (s.rewind pid i o) := by
  unfold System.rewind
  split
  · exact hI.stored _ _ _ hs
  · exact hI.stored _ _ _ (hI.noted _ _ _ hs)

lemma sysLseek {offset : Int} {seekSet : Bool} : I (s.sysLseek pid fd offset seekSet answer) := by
  unfold System.sysLseek
  split
  · exact hs
  split
  · exact hs
  cases answer with
  | error => exact hI.rewind hs
  | ok =>
    dsimp only
    split
    · exact hI.openDir (hI.rewind hs)
    · exact hI.rewind hs

end

end IgnoresDirs

lemma counted_setDir (hc : (s.tables pid).Counted) :
    (Tables.mk (s.tables pid).fds ((s.tables pid).ofds.update i fun o =>
      { o with dirHostHandle := h })).Counted := by
  intro j o ho
  rw [get_update] at ho
  split at ho
  · obtain ⟨o', ho', rfl⟩ := map_eq_some_iff.mp ho
    exact hc j o' ho'
  · exact hc j o ho

/-! ### Sums over the descriptions -/

/-- How many descriptions of all processes have a property. -/
def having (s : System) (q : OpenFileDesc → Bool) : Nat :=
  s.procs.total fun p => p.tables.ofds.count q

lemma having_congr (hlive : s'.procs.live = s.procs.live) (htables : s'.tables = s.tables)
    (q : OpenFileDesc → Bool) : s'.having q = s.having q := by
  rw [having, total, hlive]
  exact Finset.sum_congr rfl fun pid _ =>
    congrArg (count · q) (congrArg ofds (congrFun htables pid))

lemma having_setTables_add (hlive : pid ∈ s.procs.live) (t : Tables) (q : OpenFileDesc → Bool) :
    (s.setTables pid t).having q + (s.tables pid).ofds.count q = s.having q + t.ofds.count q := by
  have hset := total_set (x := { s.procs.state pid with tables := t }) hlive
    fun p => p.tables.ofds.count q
  exact hset

lemma having_setTables {gone new : Option OpenFileDesc} (hlive : pid ∈ s.procs.live)
    (hc : Tables.Change (s.tables pid) t' gone new) (hq : Tables.Lasting q) :
    (s.setTables pid t').having q + Tables.share q gone = s.having q + Tables.share q new := by
  have hset := having_setTables_add hlive t' q
  have hcount := hc.count q hq
  omega

lemma having_adopt (hfresh : child ∉ s.procs.live) (t : Tables) (q : OpenFileDesc → Bool) :
    (s.adopt child t).having q = s.having q + t.ofds.count q :=
  total_add_party hfresh fun p => p.tables.ofds.count q

lemma having_remove (hlive : pid ∈ s.procs.live) (q : OpenFileDesc → Bool) :
    (s.remove pid).having q + (s.tables pid).ofds.count q = s.having q := by
  have hremove := total_remove hlive fun p => p.tables.ofds.count q
  rw [having, remove, procs_release, procs_closeDirs]
  exact hremove

lemma le_having (hlive : pid ∈ s.procs.live) (q : OpenFileDesc → Bool) :
    (s.tables pid).ofds.count q ≤ s.having q :=
  le_total hlive fun p => p.tables.ofds.count q

lemma add_le_having (hlive : pid ∈ s.procs.live) (hlive' : pid' ∈ s.procs.live)
    (hne : pid ≠ pid') (q : OpenFileDesc → Bool) :
    (s.tables pid).ofds.count q + (s.tables pid').ofds.count q ≤ s.having q := by
  have hremove := s.having_remove hlive q
  have hle := le_total (f := s.procs.remove pid)
    (mem_live_remove.mpr ⟨hne.symm, hlive'⟩) fun p => p.tables.ofds.count q
  rw [state_remove] at hle
  rw [having, remove, procs_release, procs_closeDirs] at hremove
  simp only [tables] at hremove hle ⊢
  omega

lemma eq_of_having_le_one {j : Nat} {o o' : OpenFileDesc}
    (h : s.having q ≤ 1) (hlive : pid ∈ s.procs.live) (hlive' : pid' ∈ s.procs.live)
    (ho : (s.tables pid).ofds.get i = some o) (ho' : (s.tables pid').ofds.get j = some o')
    (hq : q o = true) (hq' : q o' = true) : pid = pid' ∧ i = j := by
  by_cases hpid : pid = pid'
  · subst hpid
    refine ⟨rfl, eq_of_count_le_one ?_ ho ho' hq hq'⟩
    exact (le_having hlive q).trans h
  · have hadd := add_le_having hlive hlive' hpid q
    have hpos := count_pos ho hq
    have hpos' := count_pos ho' hq'
    omega

/-! ### Descriptors in messages -/

lemma mem_inFlight_rest (hqueue : s.inFlight = before ++ batch ++ after)
    (ho : o ∈ before ++ after) : o ∈ s.inFlight := by
  rw [hqueue]
  simp only [mem_append] at ho ⊢
  tauto

lemma mem_inFlight_batch (hqueue : s.inFlight = before ++ batch ++ after) (ho : o ∈ batch) :
    o ∈ s.inFlight := by
  rw [hqueue]
  exact mem_append_left _ (mem_append_right _ ho)

lemma get_of_mem_extractScmRights (h : o ∈ s.extractScmRights pid fds) :
    ∃ i o', (s.tables pid).ofds.get i = some o' ∧ o = o'.transit := by
  obtain ⟨fd, -, hsome⟩ := mem_filterMap.mp h
  simp only [bind_eq_bind, bind_eq_some_iff] at hsome
  obtain ⟨entry, -, o', ho', hsome⟩ := hsome
  exact ⟨entry.ofdRef, o', ho', (some.inj hsome).symm⟩

lemma mem_extractScmRights (h : o ∈ s.extractScmRights pid fds) :
    o.refCount = 1 ∧ o.iterator = none := by
  obtain ⟨i, o', -, rfl⟩ := get_of_mem_extractScmRights h
  exact ⟨rfl, rfl⟩

lemma count_installScmRightsFds (hq : Tables.Lasting q)
    (hsocket : ∀ (o : OpenFileDesc) h, o.fileType = .Socket → q { o with hostHandle := h } = q o)
    (socket : OpenFileDesc → Option Nat) {os : List OpenFileDesc} (hone : ∀ o ∈ os, o.refCount = 1)
    (hc : t.Counted) :
    (installScmRightsFds socket t os).1.Counted ∧
      (installScmRightsFds socket t os).1.ofds.count q +
        (installScmRightsFds socket t os).2.countP q = t.ofds.count q + os.countP q := by
  induction os generalizing t with
  | nil => exact ⟨hc, rfl⟩
  | cons o os ih =>
    have hone' : ∀ o ∈ os, o.refCount = 1 := fun o ho => hone o (mem_cons_of_mem _ ho)
    rw [installScmRightsFds, countP_cons]
    split
    · obtain ⟨hcounted, hcount⟩ := ih hone' hc
      refine ⟨hcounted, ?_⟩
      dsimp only
      rw [countP_cons]
      omega
    next h hhandle =>
    have hnew : ({ o with hostHandle := h } : OpenFileDesc).refCount = 1 := hone o mem_cons_self
    have hsame : q { o with hostHandle := h } = q o := by
      split at hhandle
      · next htype => exact hsocket o h htype
      · cases hhandle
        rfl
    split
    · next fd fds halloc =>
      have hinsert := change_insert hc hnew fds
      obtain ⟨hcounted, hcount⟩ := ih hone' hinsert.counted
      refine ⟨hcounted, ?_⟩
      have hadded := count_insert t.ofds { o with hostHandle := h } q
      rw [hsame] at hadded
      dsimp only at hcount
      omega
    · have hback := get_decRef_insert t.ofds hnew
      have hundone : Tables.Change t ⟨t.fds,
          decRef (t.ofds.insert { o with hostHandle := h }) t.ofds.firstFree⟩ none none :=
        change_of_get hc hback
      obtain ⟨hcounted, hcount⟩ := ih hone' hundone.counted
      refine ⟨hcounted, ?_⟩
      have hkept := hundone.count q hq
      dsimp only at hkept hcount ⊢
      rw [countP_cons]
      omega

end System

end Kandelo.Kernel.Descriptor
