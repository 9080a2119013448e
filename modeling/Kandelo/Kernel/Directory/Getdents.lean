import Kandelo.Kernel.Path.Walk

/-!
# Directory enumeration

`sys_getdents64` of `syscalls.rs:6375-6709` on a directory
that the host holds. One call fills the caller's buffer with whole records; what it leaves for
the next call is kept in three fields of the open file description and in the host's iterator.
Directories of `/dev` and `/proc` are generated elsewhere and carry a handle of their own.
-/

namespace Kandelo.Kernel.Directory

open List
open Kandelo.Kernel.Path (Bytes bytes appendPathComponent)

/-! ### Records -/

/-- What a record says about a name. -/
structure Entry where
  ino : UInt64
  type : UInt8
  name : Bytes
  deriving DecidableEq

/-- A `linux_dirent64`: an entry with its `d_off`, the cookie for `seekdir`. -/
structure Dirent where
  entry : Entry
  off : Int

/-- Length of a record: header, name and its terminator, rounded up to eight bytes. -/
def Entry.reclen (e : Entry) : Nat := (19 + e.name.length + 1 + 7) / 8 * 8

/-- Bytes of the records. -/
def size (es : List Entry) : Nat := (es.map Entry.reclen).sum

/-- An entry of type `DT_DIR` that the kernel makes up. -/
def synthetic (ino : UInt64) (name : String) : Entry := ⟨ino, 4, bytes name⟩

/-- The buffer so far, and the `d_off` given last. -/
structure Buf where
  recs : List Dirent
  off : Int

variable {es pre : List Entry} {len : Nat} {b : Buf} {e : Entry}

/-- `pos`: the bytes in use. -/
def Buf.pos (b : Buf) : Nat := size (b.recs.map Dirent.entry)

/-- `write_dirent64`: append a record with the next `d_off` unless it would not fit. -/
def Buf.writeDirent64 (len : Nat) (b : Buf) (e : Entry) : Option Buf :=
  if len < b.pos + e.reclen then none
  else some ⟨b.recs ++ [⟨e, b.off + 1⟩], b.off + 1⟩

/-- The loops over entries of the kernel's own. One that does not fit stops the loop with the
number of those before it; its `d_off` is given back (`entry_offset - 1`). -/
def writeSynthetic (len : Nat) : List Entry → Buf → Except (Nat × Buf) Buf
  | [], b => .ok b
  | e :: es, b =>
    match b.writeDirent64 len e with
    | none => .error (0, b)
    | some b' => (writeSynthetic len es b').mapError fun stop => (stop.1 + 1, stop.2)

/-! ### The host's directory -/

/-- What `host_readdir` reports for an entry. -/
structure HostEntry where
  ino : UInt64
  type : UInt32
  name : Bytes
  deriving DecidableEq

/-- The host's own `.` and `..`. -/
def HostEntry.IsDot (h : HostEntry) : Prop := h.name = bytes "." ∨ h.name = bytes ".."

instance (h : HostEntry) : Decidable h.IsDot := inferInstanceAs (Decidable (_ ∨ _))

/-- A directory: its path, what the host lists for it, and the paths in the table of FIFOs. -/
structure Dir where
  path : Bytes
  entries : List HostEntry
  fifos : List Bytes

variable (D : Dir)

/-- The record for an entry of the host; a name in the table of FIFOs has type `DT_FIFO`. -/
def Dir.entry (h : HostEntry) : Entry :=
  ⟨h.ino, if appendPathComponent D.path h.name ∈ D.fifos then 1 else h.type.toUInt8, h.name⟩

/-- The loop over the host's entries, given those not read yet: whether an entry did not fit, the
buffer, and what is then left to read. The entry that did not fit has been read. -/
def Dir.readHost (D : Dir) (len : Nat) : List HostEntry → Buf → Bool × Buf × List HostEntry
  | [], b => (false, b, [])
  | h :: hs, b =>
    if h.IsDot then D.readHost len hs b
    else
      match b.writeDirent64 len (D.entry h) with
      | none => (true, { b with off := b.off + 1 }, hs)
      | some b' => D.readHost len hs b'

/-! ### One call -/

/-- `dir_host_handle`: `-1`, a handle of the host, `-2` and `-3`. -/
inductive DirHandle
  | unopened
  | host
  | exhausted
  | virtuals

/-- The fields of an open file description that enumeration keeps, with the entries that the
host's iterator has not yielded yet. -/
structure OfdCursor where
  handle : DirHandle
  synthState : Nat
  entryOffset : Int
  unread : List HostEntry

/-- A descriptor just opened; `ofd.rs:390-392`. -/
def OfdCursor.fresh : OfdCursor := ⟨.unopened, 0, 0, []⟩

/-- The root directory. -/
def rootPath : Bytes := bytes "/"

/-- `.` and `..`, or what is left of them. -/
def dots (synthState : Nat) : List Entry :=
  if synthState = 0 then [synthetic 1 ".", synthetic 1 ".."] else [synthetic 1 ".."]

/-- The entries added when the host's have ended: to the root only. -/
def Dir.virtuals : List Entry := if D.path = rootPath then [synthetic 2 "proc"] else []

/-- The entries added to the root by a call that finds them pending. -/
def pendingVirtuals : List Entry := [synthetic 2 "dev", synthetic 2 "proc"]

/-- Result of a call: an error, or the records it wrote. -/
abbrev Result := Except Errno (List Dirent)

/-- The answer when the next record does not fit. -/
def Buf.stopped (b : Buf) : Result := if b.pos = 0 then .error .EINVAL else .ok b.recs

/-- The entries of the kernel's own after those of the host; `virtuals` are all of them. -/
def writeVirtuals (virtuals : List Entry) (s : OfdCursor) (len : Nat) (b : Buf) :
    Result × OfdCursor :=
  let start := s.synthState - 2
  match writeSynthetic len (virtuals.drop start) b with
  | .error (i, b') => (b'.stopped,
      { s with handle := .virtuals, synthState := 2 + (start + i), entryOffset := b'.off })
  | .ok b' => (.ok b'.recs, { s with handle := .exhausted, entryOffset := b'.off })

variable (s : OfdCursor)

/-- The entries that the host lists, then those of the kernel. -/
def Dir.writeHost (len : Nat) (b : Buf) : Result × OfdCursor :=
  match D.readHost len s.unread b with
  | (true, b', rest) =>
    if b'.pos = 0 then (.error .EINVAL, { s with unread := rest })
    else (.ok b'.recs, { s with unread := rest, entryOffset := b'.off })
  | (false, b', rest) =>
    writeVirtuals D.virtuals { s with unread := rest } len b'

/-- The dots, then the host's entries. -/
def Dir.writeOpen (len : Nat) : Result × OfdCursor :=
  if s.synthState < 2 then
    match writeSynthetic len (dots s.synthState) ⟨[], s.entryOffset⟩ with
    | .error (_, b) =>
      if b.pos = 0 then (.error .EINVAL, s) else (.ok b.recs, { s with entryOffset := b.off })
    | .ok b => D.writeHost { s with synthState := 2 } len b
  else D.writeHost s len ⟨[], s.entryOffset⟩

/-- `sys_getdents64` with a buffer of `len` bytes; `syscalls.rs:6375-6709`. -/
def Dir.getdents64 (len : Nat) : Result × OfdCursor :=
  match s.handle with
  | .exhausted => (.ok [], s)
  | .virtuals =>
    if D.path = rootPath then writeVirtuals pendingVirtuals s len ⟨[], s.entryOffset⟩
    else (.ok [], s)
  | .unopened => D.writeOpen { s with handle := .host, unread := D.entries } len
  | .host => D.writeOpen s len

/-- Successive calls with the given buffers until one returns `0`: all the records they wrote.
There are none if a call fails or the buffers run out first. -/
def Dir.enumerate (D : Dir) : List Nat → OfdCursor → Option (List Dirent)
  | [], _ => none
  | len :: lens, s =>
    match D.getdents64 s len with
    | (.error _, _) => none
    | (.ok [], _) => some []
    | (.ok recs, s') => (D.enumerate lens s').map (recs ++ ·)

/-! ### What an enumeration is for -/

/-- The records of the host's entries, without its dots. -/
def Dir.shown (hs : List HostEntry) : List Entry :=
  (hs.filter fun h => ¬ h.IsDot).map D.entry

/-- The entries that callers should see, in order. -/
def Dir.listing : List Entry := dots 0 ++ D.shown D.entries ++ D.virtuals

/-- Records with consecutive cookies after `off`. -/
def number : Int → List Entry → List Dirent
  | _, [] => []
  | off, e :: es => ⟨e, off + 1⟩ :: number (off + 1) es

variable (off : Int)

@[simp] lemma number_append (es fs : List Entry) :
    number off (es ++ fs) = number off es ++ number (off + es.length) fs := by
  induction es generalizing off with
  | nil => simp [number]
  | cons e es ih =>
    rw [cons_append, number, ih, number, length_cons, cons_append]
    rw [show off + 1 + (es.length : Int) = off + ((es.length + 1 : Nat) : Int) by omega]

@[simp] lemma map_entry_number (es : List Entry) : (number off es).map Dirent.entry = es := by
  induction es generalizing off with
  | nil => rfl
  | cons e es ih => simp [number, ih]

lemma lt_off_of_mem_number {off : Int} {d : Dirent} (h : d ∈ number off es) : off < d.off := by
  induction es generalizing off with
  | nil => cases h
  | cons e es ih =>
    rcases mem_cons.mp h with rfl | h
    · exact Int.lt_succ off
    · have := ih h
      omega

/-! ### Filling the buffer -/

@[simp] lemma size_nil : size [] = 0 := rfl

@[simp] lemma size_cons (e : Entry) (es : List Entry) : size (e :: es) = e.reclen + size es := rfl

@[simp] lemma size_append (es fs : List Entry) : size (es ++ fs) = size es + size fs := by
  simp [size]

/-- The buffer with more records. -/
def Buf.add (b : Buf) (es : List Entry) : Buf := ⟨b.recs ++ number b.off es, b.off + es.length⟩

@[simp] lemma Buf.add_nil (b : Buf) : b.add [] = b := by simp [Buf.add, number]

lemma Buf.add_append (b : Buf) (es fs : List Entry) : b.add (es ++ fs) = (b.add es).add fs := by
  simp only [Buf.add, number_append, append_assoc, length_append, Buf.mk.injEq, true_and]
  omega

lemma Buf.add_add_singleton : (b.add [e]).add es = b.add (e :: es) := (b.add_append [e] es).symm

@[simp] lemma Buf.pos_add (b : Buf) (es : List Entry) : (b.add es).pos = b.pos + size es := by
  simp [Buf.add, Buf.pos]

lemma Buf.pos_start_add (es : List Entry) : (Buf.add ⟨[], off⟩ es).pos = size es := by
  rw [Buf.pos_add]
  exact Nat.zero_add _

lemma Buf.writeDirent64_eq :
    b.writeDirent64 len e = if len < b.pos + e.reclen then none else some (b.add [e]) := rfl

/-- `Stops len b es pre e`: of the entries `es`, those of `pre` are followed by `e`, and `e` does
not fit into the buffer behind them. -/
structure Stops (len : Nat) (b : Buf) (es pre : List Entry) (e : Entry) : Prop where
  split : ∃ post, es = pre ++ e :: post
  full : len < b.pos + size pre + e.reclen

lemma Stops.cons {d : Entry}
    (h : Stops len (b.add [d]) es pre e) : Stops len b (d :: es) (d :: pre) e := by
  obtain ⟨⟨post, rfl⟩, hfull⟩ := h
  simp only [Buf.pos_add, size_cons, size_nil] at hfull
  refine ⟨⟨post, rfl⟩, ?_⟩
  rw [size_cons]
  omega

lemma Stops.lt_size (h : Stops len b es pre e) : len < b.pos + size es := by
  obtain ⟨⟨post, rfl⟩, hfull⟩ := h
  simp only [size_append, size_cons]
  omega

lemma writeSynthetic_cases (es : List Entry) (hb : b.pos ≤ len) :
    b.pos + size es ≤ len ∧ writeSynthetic len es b = .ok (b.add es) ∨
      ∃ pre e, Stops len b es pre e ∧ writeSynthetic len es b = .error (pre.length, b.add pre) := by
  induction es generalizing b with
  | nil => exact .inl ⟨hb, by simp [writeSynthetic]⟩
  | cons d es ih =>
    by_cases hd : len < b.pos + d.reclen
    · refine .inr ⟨[], d, ⟨⟨es, rfl⟩, hd⟩, ?_⟩
      simp [writeSynthetic, Buf.writeDirent64_eq, hd]
    have hstep : writeSynthetic len (d :: es) b =
        (writeSynthetic len es (b.add [d])).mapError fun stop => (stop.1 + 1, stop.2) := by
      simp [writeSynthetic, Buf.writeDirent64_eq, hd]
    have hb' : (b.add [d]).pos ≤ len := by simpa using hd
    rw [hstep]
    rcases ih hb' with ⟨hfits, hok⟩ | ⟨pre, e, hstops, herr⟩
    · refine .inl ⟨by simpa [Nat.add_assoc] using hfits, ?_⟩
      rw [hok, Buf.add_add_singleton]
      rfl
    · refine .inr ⟨d :: pre, e, hstops.cons, ?_⟩
      rw [herr, Buf.add_add_singleton]
      rfl

/-- The entries of the host are all written, or written up to one that does not fit; that one has
been read, and has used up a `d_off`. -/
lemma Dir.readHost_cases (D : Dir) (hs : List HostEntry) (hb : b.pos ≤ len) :
    b.pos + size (D.shown hs) ≤ len ∧ D.readHost len hs b = (false, b.add (D.shown hs), []) ∨
      ∃ pre e rest, Stops len b (D.shown hs) pre e ∧
        D.readHost len hs b = (true, ⟨(b.add pre).recs, (b.add pre).off + 1⟩, rest) := by
  induction hs generalizing b with
  | nil => exact .inl ⟨hb, by simp [Dir.readHost, Dir.shown]⟩
  | cons h hs ih =>
    by_cases hdot : h.IsDot
    · have hshown : D.shown (h :: hs) = D.shown hs := by simp [Dir.shown, hdot]
      rw [hshown, Dir.readHost, if_pos hdot]
      exact ih hb
    have hshown : D.shown (h :: hs) = D.entry h :: D.shown hs := by simp [Dir.shown, hdot]
    rw [hshown, Dir.readHost, if_neg hdot, Buf.writeDirent64_eq]
    by_cases hd : len < b.pos + (D.entry h).reclen
    · exact .inr ⟨[], D.entry h, hs, ⟨⟨_, rfl⟩, hd⟩, by simp [hd]⟩
    have hb' : (b.add [D.entry h]).pos ≤ len := by simpa using hd
    simp only [hd, if_false]
    rcases ih hb' with ⟨hfits, hok⟩ | ⟨pre, e, rest, hstops, hstop⟩
    · refine .inl ⟨by simpa [Nat.add_assoc] using hfits, ?_⟩
      rw [hok, Buf.add_add_singleton]
    · refine .inr ⟨D.entry h :: pre, e, rest, hstops.cons, ?_⟩
      rw [hstop, Buf.add_add_singleton]

end Kandelo.Kernel.Directory
