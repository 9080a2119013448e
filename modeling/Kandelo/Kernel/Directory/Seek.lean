import Mathlib.Logic.Function.Iterate
import Kandelo.Kernel.Directory.Getdents

/-!
# Positions in a directory stream

The streams of `opendir`: `sys_readdir`, `sys_telldir` and `sys_seekdir` of
`syscalls.rs:6179-6363`. A position counts the entries that the guest was given, but seeking
counts those that the host lists, its own `.` and `..` among them.
-/

namespace Kandelo.Kernel.Directory

open List Function
open Kandelo.Kernel.Path (bytes appendPathComponent)

/-- `DirStream` with the entries that the host's handle has not yielded yet; `process.rs:15-21`. -/
structure DirStream where
  unread : List HostEntry
  position : Nat
  synthDotState : Nat

namespace Dir

variable (D : Dir)

/-- `opendir`. -/
def opendir : DirStream := ⟨D.entries, 0, 0⟩

/-- The entry that a reader gets for one of the host's. -/
def dirent (h : HostEntry) : HostEntry :=
  if appendPathComponent D.path h.name ∈ D.fifos then { h with type := 1 } else h

/-- The calls of `host_readdir` up to an entry that is not the host's `.` or `..`. -/
def nextEntry : List HostEntry → Option HostEntry × List HostEntry
  | [] => (none, [])
  | h :: hs => if h.IsDot then nextEntry hs else (some (D.dirent h), hs)

/-- `sys_readdir`, without an entry at the end; `syscalls.rs:6179-6269`. -/
def sysReaddir (s : DirStream) : Option HostEntry × DirStream :=
  if s.synthDotState < 2 then
    (some ⟨1, 4, bytes (if s.synthDotState = 0 then "." else "..")⟩,
      { s with position := s.position + 1, synthDotState := s.synthDotState + 1 })
  else
    match D.nextEntry s.unread with
    | (none, rest) => (none, { s with unread := rest })
    | (e, rest) => (e, { s with unread := rest, position := s.position + 1 })

/-- `sys_seekdir`, which opens the directory again; `syscalls.rs:6325-6363`. -/
def sysSeekdir (s : DirStream) (loc : Nat) : DirStream :=
  { s with unread := D.entries.drop (loc - 2), position := loc, synthDotState := min loc 2 }

/-- The stream after some calls of `sys_readdir`. -/
def after (n : Nat) : DirStream → DirStream := (fun s => (D.sysReaddir s).2)^[n]

/-- The host's entries that the stream shows. -/
def kept (hs : List HostEntry) : List HostEntry := (hs.filter (¬·.IsDot)).map D.dirent

/-- What is left to read. -/
def ahead (s : DirStream) : List HostEntry :=
  [⟨1, 4, bytes "."⟩, ⟨1, 4, bytes ".."⟩].drop s.synthDotState ++ D.kept s.unread

lemma nextEntry_spec (hs : List HostEntry) :
    (D.nextEntry hs).1 = (D.kept hs).head? ∧ D.kept (D.nextEntry hs).2 = (D.kept hs).tail := by
  induction hs with
  | nil => exact ⟨rfl, rfl⟩
  | cons h hs ih => by_cases hd : h.IsDot <;> simp_all [nextEntry, kept]

variable (s : DirStream) (n : Nat)

lemma sysReaddir_spec : (D.sysReaddir s).1 = (D.ahead s).head? ∧
    D.ahead (D.sysReaddir s).2 = (D.ahead s).tail ∧
    (D.sysReaddir s).2.position = s.position + if D.ahead s = [] then 0 else 1 := by
  obtain ⟨unread, position, _ | _ | dots⟩ := s
  · exact ⟨rfl, rfl, rfl⟩
  · exact ⟨rfl, rfl, rfl⟩
  · have hread : D.sysReaddir ⟨unread, position, dots + 2⟩ = _ := if_neg (Nat.not_lt.mpr (by simp))
    obtain ⟨hhead, htail⟩ := D.nextEntry_spec unread
    rw [hread]
    cases hnext : D.nextEntry unread with | mk e rest =>
    rw [hnext] at hhead htail
    cases e with
    | none =>
      rw [head?_eq_none_iff.mp hhead.symm] at htail
      simp [ahead, head?_eq_none_iff.mp hhead.symm, htail]
    | some e =>
      obtain ⟨es, hes⟩ := head?_eq_some_iff.mp hhead.symm
      simp [ahead, htail, hes]

lemma ahead_after : D.ahead (D.after n s) = (D.ahead s).drop n := by
  induction n with
  | zero => rfl
  | succ n ih =>
    rw [after, iterate_succ_apply', (D.sysReaddir_spec _).2.1, ← tail_drop, ← ih, after]

lemma position_after : (D.after n s).position = s.position + min n (D.ahead s).length := by
  induction n with
  | zero => simp [after]
  | succ n ih =>
    rw [after, iterate_succ_apply', (D.sysReaddir_spec _).2.2, ← after, ahead_after]
    simp only [drop_eq_nil_iff]
    split <;> omega

variable {n}

/-- Skipping entries of the host skips as many for the reader if none is dropped. -/
lemma kept_drop_iff {hs : List HostEntry} (hn : n ≤ (D.kept hs).length) :
    D.kept (hs.drop n) = (D.kept hs).drop n ↔ ∀ h ∈ hs.take n, ¬h.IsDot := by
  have hsplit : D.kept hs = D.kept (hs.take n) ++ D.kept (hs.drop n) := by
    rw [kept, kept, kept, ← map_append, ← filter_append, take_append_drop]
  have hlen : (D.kept (hs.take n)).length = n ↔ ∀ h ∈ hs.take n, ¬h.IsDot := by
    have hle : n ≤ hs.length := Nat.le_trans hn (by simpa [kept] using length_filter_le _ hs)
    simpa [kept, hle] using length_filter_eq_length_iff (p := (¬·.IsDot)) (l := hs.take n)
  rw [hsplit, length_append] at hn
  rw [← hlen, hsplit]
  constructor
  · intro h
    have := congrArg length h
    rw [length_drop, length_append] at this
    omega
  · exact fun h => (drop_left' h).symm

/-- Seeking to a position brings back what was read there iff the host has listed no dot entry
among as many entries. -/
theorem seekdir_restores_iff (D : Dir) (k : Nat) : let s := D.after k D.opendir
    (∀ m n, (D.sysReaddir (D.after n (D.sysSeekdir (D.after m s) s.position))).1 =
      (D.sysReaddir (D.after n s)).1) ↔ ∀ h ∈ D.entries.take (s.position - 2), ¬h.IsDot := by
  intro s
  have hpos : s.position = min k (D.ahead D.opendir).length := by
    rw [position_after, opendir, Nat.zero_add]
  have hs : D.ahead s = (D.ahead D.opendir).drop s.position := by
    rw [ahead_after, drop_eq_drop_iff]
    omega
  simp only [(D.sysReaddir_spec _).1, ahead_after, head?_drop]
  refine Iff.trans (b := D.ahead (D.sysSeekdir s s.position) = D.ahead s)
    ⟨fun h => ext_getElem? (h 0), fun h _ n => congrArg (·[n]?) h⟩ ?_
  rw [hs]
  have hle : s.position ≤ (D.ahead D.opendir).length := hpos ▸ Nat.min_le_right ..
  rcases hp : s.position with _ | _ | p
  · simp [sysSeekdir, opendir]
  · simp [sysSeekdir, opendir, ahead]
  · rw [← D.kept_drop_iff]
    · simp [sysSeekdir, opendir, ahead]
    · simpa [opendir, ahead, hp] using hle

/-- The host lists its own `.` first: the only file is read a second time. -/
theorem seekdir_repeats_entry :
    let D : Dir := ⟨bytes "/d", [⟨2, 4, bytes "."⟩, ⟨3, 8, bytes "a"⟩], []⟩
    let s := D.after 3 D.opendir
    (D.sysReaddir s).1 = none ∧
      (D.sysReaddir (D.sysSeekdir s s.position)).1 = some ⟨3, 8, bytes "a"⟩ := by
  decide

end Dir

end Kandelo.Kernel.Directory
