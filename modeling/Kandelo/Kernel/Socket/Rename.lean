import Kandelo.Kernel.Path.Walk
import Kandelo.Kernel.Pipe.Table
import Kandelo.Lib.Entries
import Mathlib.Data.List.Sort

/-!
# Removing and renaming names

`sys_unlink` and `sys_rename` of `crates/kernel/src/syscalls.rs`, on the tables of the kernel that
are keyed by path: the registry of Unix sockets, and the table of FIFOs with the names that each
pipe counts. The host can refuse at every step. A rename moves the FIFOs inside a directory, but of
the sockets only one that has the very name; an unlink drops a socket's name before it asks the
host.
-/

namespace Kandelo.Kernel.Socket

open Lib List Entries
open Kandelo.Kernel.Path (Bytes Stat ResolvedNamespacePath sIfmt sIfdir)
open Pipe (PipeTable)

/-! ### The registry of Unix sockets -/

/-- `UnixSocketEntry`; `unix_socket.rs:13-24`. -/
structure UnixSocketEntry where
  pid : Nat
  sockIdx : Nat
  owners : List (Nat × Nat)

/-- `UnixSocketRegistry`; `unix_socket.rs:27-29`. -/
abbrev UnixSocketRegistry := AList fun _ : Bytes => UnixSocketEntry

namespace UnixSocketRegistry

variable (r : UnixSocketRegistry) (path : Bytes)

/-- `rename_path`; `unix_socket.rs:111-120`. -/
def renamePath (oldpath newpath : Bytes) : UnixSocketRegistry :=
  let rest := (r.erase oldpath).erase newpath
  match r.lookup oldpath with
  | none => rest
  | some e => rest.insert newpath e

/-- `lookup`; `unix_socket.rs:122-126`. -/
def find : Option UnixSocketEntry := (r.lookup path).filter (·.owners ≠ [])

/-- `unregister`; `unix_socket.rs:130-132`. -/
def unregister : UnixSocketRegistry := r.erase path

end UnixSocketRegistry

/-! ### The calls -/

/-- The path is inside the directory. -/
def below (dir path : Bytes) : Bool := (dir ++ [47]).isPrefixOf path

/-- `FifoTable`; `fifo.rs:27-29`. -/
abbrev FifoTable := AList fun _ : Bytes => Nat

/-- `rebase_path`; `fifo.rs:101-116`. -/
def rebasePath (path oldpath newpath : Bytes) : Option Bytes :=
  if path = oldpath then some newpath
  else if below oldpath path then some (newpath ++ path.drop oldpath.length)
  else none

/-- `FifoTable::rename_path`, with the pipes whose name is replaced; `fifo.rs:68-98`. -/
def FifoTable.renamePath (t : FifoTable) (oldpath newpath : Bytes) : List Nat × FifoTable :=
  if oldpath = newpath then ([], t)
  else
    let moving := (t.entries.filterMap fun e =>
      (rebasePath e.1 oldpath newpath).map fun name => (e.1, name, e.2)).insertionSort (·.1 ≤ ·.1)
    if moving = [] then ((t.lookup newpath).toList, t.erase newpath)
    else
      moving.foldl (fun r m => (r.1 ++ (r.2.lookup m.2.1).toList, r.2.insert m.2.1 m.2.2))
        ([], moving.foldl (fun t m => t.erase m.1) t)

/-- `PipeTable::remove_fifo_name`; `pipe.rs:1483-1488`. -/
def removeFifoName (t : PipeTable) (i : Nat) : PipeTable :=
  (t.update i fun p => { p with fifoNames := p.fifoNames - 1 }).freeIfClosed i

/-- The tables that are keyed by path, and the pipes of the FIFOs. -/
structure NameTables where
  sockets : UnixSocketRegistry
  fifos : FifoTable
  pipes : PipeTable

/-- What the host answers at each place where one of the two calls asks it, and what the checks
answer that read none of the tables: what is proved holds for every such answer, and `Path.Walk` has
the resolution itself. The new name is resolved in another way if a directory is renamed. -/
structure NameHost where
  resolve : Except Errno ResolvedNamespacePath
  resolveNew : Bool → Except Errno ResolvedNamespacePath
  ensureMutable : Bytes → Except Errno Unit
  parentWritable : Bytes → Except Errno Unit
  stickyChild : Bytes → Except Errno Unit
  lstat : Bytes → Except Errno Stat
  lstatFifo : Bytes → Except Errno Stat
  timestamp : Except Errno (Nat × Nat)
  stat : Bytes → Except Errno Stat
  unlink : Bytes → Except Errno Unit
  rename : Bytes → Bytes → Except Errno Unit

variable (h : NameHost) (t : NameTables) (path old new : Bytes)

/-- `unlink_host_entry`; `syscalls.rs:5779-5795`. -/
def unlinkHostEntry : Except Errno Unit :=
  match h.unlink path with
  | .error .EPERM =>
    match h.stat path with
    | .ok st => if st.mode &&& sIfmt = sIfdir then .error .EISDIR else .error .EPERM
    | .error _ => .error .EPERM
  | answer => answer

/-- `fifo_path_stat_raw` of a FIFO, and the time; `syscalls.rs:5473-5494, 5798-5801`. -/
def refreshFifo (pipe : Nat) : Except Errno Unit := do
  let _ ← h.lstatFifo path
  if t.pipes.get pipe = none then throw .EIo
  let _ ← h.timestamp

/-- `unlink_fifo_marker`; `syscalls.rs:5795-5813`. -/
def unlinkFifoMarker (pipe : Nat) : Except Errno Unit × NameTables :=
  match refreshFifo h t path pipe >>= fun _ => unlinkHostEntry h path with
  | .error e => (.error e, t)
  | .ok _ =>
    let t' := { t with fifos := t.fifos.erase path }
    if t.fifos.lookup path ≠ some pipe then (.error .EIo, t')
    else (.ok (), { t' with pipes := removeFifoName t.pipes pipe })

/-- `sys_unlink` after its checks; `syscalls.rs:5881-5900`. -/
def removeName : Except Errno Unit × NameTables :=
  match t.fifos.lookup path with
  | some pipe => unlinkFifoMarker h t path pipe
  | none =>
    if (t.sockets.lookup path).isSome then
      let t' := { t with sockets := t.sockets.unregister path }
      match h.unlink path with
      | .ok _ => (.ok (), t')
      | .error e => (if e = .ENOENT then .ok () else .error e, t')
    else (unlinkHostEntry h path, t)

/-- The checks of `sys_unlink`; `syscalls.rs:5877-5880`. -/
def checkUnlink : Except Errno Bytes := do
  let entry ← h.resolve
  h.ensureMutable entry.path
  h.parentWritable entry.path
  h.stickyChild entry.path
  return entry.path

/-- `sys_unlink`; `syscalls.rs:5876-5901`. -/
def sysUnlink : Except Errno Unit × NameTables :=
  match checkUnlink h with
  | .error e => (.error e, t)
  | .ok path => removeName h t path

/-- `refresh_displaced_fifo_before_rename`; `syscalls.rs:5840-5853`. -/
def refreshDisplacedFifo : Except Errno Unit :=
  match t.fifos.lookup new with
  | some pipe => if some pipe = t.fifos.lookup old then .ok () else refreshFifo h t new pipe
  | none => .ok ()

/-- `rekey_fifo_names_after_rename`; `syscalls.rs:5815-5838`. -/
def rekeyFifoNames : NameTables :=
  if t.fifos.lookup old ≠ none ∧ t.fifos.lookup old = t.fifos.lookup new then t
  else
    let r := t.fifos.renamePath old new
    { t with fifos := r.2, pipes := r.1.foldl removeFifoName t.pipes }

/-- `sys_rename` after its checks; `syscalls.rs:5928-5935`. -/
def renameName : Except Errno Unit × NameTables :=
  match refreshDisplacedFifo h t old new >>= fun _ => h.rename old new with
  | .error e => (.error e, t)
  | .ok _ => (.ok (), { rekeyFifoNames t old new with sockets := t.sockets.renamePath old new })

/-- The checks of `sys_rename`; `syscalls.rs:5909-5927`. -/
def checkRename : Except Errno (Bytes × Bytes) := do
  let old ← h.resolve
  let new ← h.resolveNew (old.stat.any fun st => st.mode &&& sIfmt = sIfdir)
  h.ensureMutable old.path
  h.ensureMutable new.path
  h.parentWritable old.path
  h.parentWritable new.path
  h.stickyChild old.path
  if (h.lstat new.path).isOk then h.stickyChild new.path
  return (old.path, new.path)

/-- `sys_rename`; `syscalls.rs:5903-5936`. -/
def sysRename : Except Errno Unit × NameTables :=
  match checkRename h with
  | .error e => (.error e, t)
  | .ok (old, new) => renameName h t old new

/-! ### A call that fails -/

variable {h path}

/-- A call that fails leaves the tables as they were. -/
def Kept (r : Except Errno Unit × NameTables) : Prop := ∀ e, r.1 = .error e → r.2 = t

lemma kept_ok {t' : NameTables} : Kept t (.ok (), t') := by rintro _ ⟨⟩

lemma kept_self {r : Except Errno Unit} : Kept t (r, t) := fun _ _ => rfl

lemma kept_removeName_iff : Kept t (removeName h t path) ↔
    (t.fifos.lookup path = none → (t.sockets.lookup path).isSome →
      h.unlink path = .ok () ∨ h.unlink path = .error .ENOENT) := by
  unfold removeName
  cases hfifo : t.fifos.lookup path with
  | some pipe =>
    refine iff_of_true ?_ (by rintro ⟨⟩)
    dsimp only
    unfold unlinkFifoMarker
    split
    · exact kept_self _
    · rw [hfifo, if_neg (not_not.mpr rfl)]
      exact kept_ok _
  | none =>
    dsimp only
    split
    · next hsock =>
      rw [forall_prop_of_true rfl, forall_prop_of_true hsock]
      cases h.unlink path with
      | ok => exact iff_of_true (kept_ok _) (.inl rfl)
      | error e =>
        dsimp only
        by_cases he : e = .ENOENT
        · rw [he]
          exact iff_of_true (kept_ok _) (.inr rfl)
        -- the name is gone from the registry, and the file is not
        rw [if_neg he]
        refine iff_of_false (fun hkept => ?_) (by simpa using he)
        rw [← hkept e rfl] at hsock
        dsimp only [UnixSocketRegistry.unregister] at hsock
        rw [AList.lookup_erase] at hsock
        cases hsock
    · next hsock => exact iff_of_true (kept_self _) fun _ hs => absurd hs hsock

lemma kept_sysRename : Kept t (sysRename h t) := by
  unfold sysRename renameName
  split
  · exact kept_self _
  · split
    · exact kept_self _
    · exact kept_ok _

/-- An unlink and a rename that fail leave the tables as they were, if and only if the host does not
refuse to remove the file of a socket. -/
theorem failing_call_keeps_names_iff (h : NameHost) (t : NameTables) :
    Kept t (sysUnlink h t) ∧ Kept t (sysRename h t) ↔
      ∀ path, checkUnlink h = .ok path → t.fifos.lookup path = none →
        (t.sockets.lookup path).isSome →
          h.unlink path = .ok () ∨ h.unlink path = .error .ENOENT := by
  rw [and_iff_left (kept_sysRename t)]
  unfold sysUnlink
  cases checkUnlink h with
  | error => exact iff_of_true (kept_self _) (by rintro _ ⟨⟩)
  | ok path =>
    simp only [Except.ok.injEq, forall_eq']
    exact kept_removeName_iff t

/-- A host with a file `/a`, which it renames to `/b` but refuses to remove. -/
def refusingHost (mode : BitVec 32) : NameHost where
  resolve := .ok ⟨[47, 97], some ⟨mode, 0, 0⟩⟩
  resolveNew := fun _ => .ok ⟨[47, 98], none⟩
  ensureMutable := fun _ => .ok ()
  parentWritable := fun _ => .ok ()
  stickyChild := fun _ => .ok ()
  lstat := fun _ => .error .ENOENT
  lstatFifo := fun _ => .error .ENOENT
  timestamp := .ok (0, 0)
  stat := fun _ => .error .ENOENT
  unlink := fun _ => .error .EROFS
  rename := fun _ _ => .ok ()

lemma free_empty_nil : ∀ i ∈ ([] : List Nat), i < ([] : Slots PipeBuffer).length ∧
    Slots.get ([] : Slots PipeBuffer) i = none := by simp

/-- The tables of a system with one socket. -/
def oneSocket (path : Bytes) : NameTables where
  sockets := AList.singleton path ⟨1, 0, [(1, 0)]⟩
  fifos := ∅
  pipes := ⟨[], [], free_empty_nil, nodup_nil⟩

/-- The host refuses to remove the file, and the socket is no longer found. -/
theorem refused_unlink_loses_socket :
    let t := oneSocket [47, 97]
    let r := sysUnlink (refusingHost 0o140777) t
    r.1 = .error .EROFS ∧ (t.sockets.find [47, 97]).isSome ∧ r.2.sockets.find [47, 97] = none :=
  ⟨rfl, rfl, rfl⟩

/-! ### Renaming a directory -/

variable {old new}

lemma find_renamePath {r : UnixSocketRegistry} {path : Bytes} (hold : path ≠ old)
    (hnew : path ≠ new) : (r.renamePath old new).find path = r.find path := by
  unfold UnixSocketRegistry.find UnixSocketRegistry.renamePath
  split
  · rw [lookup_erase_eq, if_neg hnew, lookup_erase_eq, if_neg hold]
  · rw [lookup_insert_eq, if_neg hnew, lookup_erase_eq, if_neg hnew, lookup_erase_eq, if_neg hold]

/-- The sockets inside one directory are found inside the other instead, and what is neither at nor
inside one of the two stays as it was. -/
def Carried (r r' : UnixSocketRegistry) (old new : Bytes) : Prop :=
  (∀ rest e, r.find (old ++ 47 :: rest) = some e →
    r'.find (new ++ 47 :: rest) = some e ∧ r'.find (old ++ 47 :: rest) = none) ∧
  ∀ path, path ≠ old → path ≠ new → below old path = false → below new path = false →
    r'.find path = r.find path

lemma ne_inside {rest : Bytes} : path ++ 47 :: rest ≠ path := by simp

lemma carried_renamePath_iff (r : UnixSocketRegistry) (new : Bytes) :
    Carried r (r.renamePath old new) old new ↔ ∀ rest, r.find (old ++ 47 :: rest) = none := by
  constructor
  · intro hcarried
    -- the entry of a name inside the directory is still there, unless the name is the new one
    have hnew : ∀ rest e, r.find (old ++ 47 :: rest) = some e → old ++ 47 :: rest = new := by
      intro rest e he
      by_contra hne
      have hgone := (hcarried.1 rest e he).2
      rw [find_renamePath ne_inside hne, he] at hgone
      cases hgone
    intro rest
    by_contra hsome
    obtain ⟨e, he⟩ := Option.ne_none_iff_exists'.mp hsome
    have heq := hnew rest e he
    have hfound := (hcarried.1 rest e he).1
    have hlonger : old ++ 47 :: (rest ++ 47 :: rest) = new ++ 47 :: rest := by
      rw [← heq, append_assoc, cons_append]
    rw [← hlonger, find_renamePath ne_inside (by rw [hlonger]; exact ne_inside)] at hfound
    have hsame := hnew _ e hfound
    rw [hlonger] at hsame
    exact ne_inside hsame
  · intro hnone
    refine ⟨fun rest e he => ?_, fun path hold hnew _ _ => find_renamePath hold hnew⟩
    rw [hnone] at he
    cases he

/-- A directory that is renamed carries its sockets along if and only if there are none. -/
theorem renamed_directory_carries_iff (h : NameHost) (t : NameTables) (old new : Bytes)
    (hcheck : checkRename h = .ok (old, new)) (hok : (sysRename h t).1 = .ok ()) :
    Carried t.sockets (sysRename h t).2.sockets old new ↔
      ∀ rest, t.sockets.find (old ++ 47 :: rest) = none := by
  rw [← carried_renamePath_iff _ new]
  unfold sysRename renameName at hok ⊢
  rw [hcheck] at hok ⊢
  dsimp only at hok ⊢
  split at hok
  · cases hok
  · rfl

/-- The socket is outside the directory. -/
theorem renamed_directory_carries_no_socket :
    let t := oneSocket [47, 99]
    Carried t.sockets (sysRename (refusingHost sIfdir) t).2.sockets [47, 97] [47, 98] :=
  (renamed_directory_carries_iff _ _ _ _ rfl rfl).mpr fun _ => rfl

/-- The socket inside the directory is still found at its old name. -/
theorem renamed_directory_leaves_socket :
    let t := oneSocket [47, 97, 47, 115]
    let r := sysRename (refusingHost sIfdir) t
    r.1 = .ok () ∧ (t.sockets.find [47, 97, 47, 115]).isSome ∧
      r.2.sockets.find [47, 98, 47, 115] = none ∧ (r.2.sockets.find [47, 97, 47, 115]).isSome :=
  ⟨rfl, rfl, rfl, rfl⟩

end Kandelo.Kernel.Socket
