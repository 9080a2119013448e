import Kandelo.Kernel.File.Confined

/-!
# Positioned transfers and the position

`sys_pread` and `sys_pwrite` move the cursor of the host's handle and put it back
(`syscalls.rs:4191-4195, 4388-4392`). `positioned_keep_position_iff` says when the position of the
descriptor is the same afterwards, whatever the host answers.
-/

namespace Kandelo.Kernel.File

open Lib.Effect

variable {w : PointerWidth} {α : Type} {host : Host} {s s' : World} {fd : Int} {o : OpenFileDesc}
  {offset : Int64} {x : Io α} {moved : α → Int64} {i : Nat}

variable (host)

/-- Where the next `sys_read`, or `sys_write` without `O_APPEND`, on a descriptor acts: at the
cursor of the host's handle, at the offset of the memfd, or at the offset of the description. -/
def World.position (s : World) (fd : Int) : Option Int64 :=
  (s.lookup fd).bind fun (_, o) =>
    if o.fileType = .MemFd then (s.memfds o.memfdIdx).map (·.offset)
    else if o.fileType = .Regular ∧ o.isSnapshot = false then
      some (host.cursor s.trace o.hostHandle)
    else some o.offset

/-- Seek, transfer and seek back to the offset that the description has. -/
def seekBack (o : OpenFileDesc) (offset : Int64) (x : Io α) : Io α := do
  let _ ← hostSeek host o.hostHandle offset .set
  let a ← x
  let _ ← hostSeek host o.hostHandle o.offset .set
  pure a

/-- The three calls leave the cursor where it was: the first seek fails; or the transfer fails or
the last seek does, and the cursor is by chance where it was; or all succeed, and the offset of the
description was the cursor. -/
def Undisturbed (o : OpenFileDesc) (offset : Int64) (x : Io α) (moved : α → Int64) (s : World) :
    Prop :=
  match exec (hostSeek host o.hostHandle offset .set) s with
  | (.error _, _) => True
  | (.ok _, s1) =>
    match exec x s1 with
    | (.error _, _) => offset = host.cursor s.trace o.hostHandle
    | (.ok a, s2) =>
      match exec (hostSeek host o.hostHandle o.offset .set) s2 with
      | (.error _, _) => offset + moved a = host.cursor s.trace o.hostHandle
      | (.ok _, _) => o.offset = host.cursor s.trace o.hostHandle

/-- A transfer moves the cursor by what it transferred, and changes nothing in the kernel. -/
def Advances (handle : Int) (x : Io α) (moved : α → Int64) : Prop :=
  ∀ s, (exec x s).2.proc = s.proc ∧ (exec x s).2.memfds = s.memfds ∧
    host.cursor (exec x s).2.trace handle =
      (exec x s).1.toOption.elim (host.cursor s.trace handle) (host.cursor s.trace handle + moved ·)

lemma advances_hostRead (handle : Int) (n : Nat) :
    Advances host handle (hostRead host handle n) (Int64.ofNat ·.length) := by
  intro s
  refine ⟨rfl, rfl, ?_⟩
  simp only [hostRead, exec_query, Host.cursor]
  cases host.read s.trace handle n <;> simp [Except.map, cursorFrom, Except.toOption]

lemma advances_hostWrite (handle : Int) (data : List UInt8) :
    Advances host handle (hostWrite host handle data) Int64.ofNat := by
  intro s
  refine ⟨rfl, rfl, ?_⟩
  simp only [hostWrite, exec_query, Host.cursor]
  cases host.write s.trace handle data <;> simp [Except.map, cursorFrom, Except.toOption]

/-- A seek to an offset puts the cursor there, or fails. -/
lemma exec_hostSeek_set (handle : Int) (offset : Int64) (s : World) :
    ((∃ e s1, exec (hostSeek host handle offset .set) s = (.error e, s1) ∧
        host.cursor s1.trace handle = host.cursor s.trace handle ∧ s1.proc = s.proc ∧
        s1.memfds = s.memfds)) ∨
      ∃ s1, exec (hostSeek host handle offset .set) s = (.ok offset, s1) ∧
        host.cursor s1.trace handle = offset ∧ s1.proc = s.proc ∧ s1.memfds = s.memfds := by
  simp only [hostSeek, exec_query, Host.cursor]
  cases host.seek s.trace handle offset .set with
  | error e => exact .inl ⟨e, _, rfl, rfl, rfl, rfl⟩
  | ok _ =>
    refine .inr ⟨_, rfl, ?_, rfl, rfl⟩
    simp [cursorFrom, Except.map]

variable {host}

lemma cursor_seekBack_iff (hx : Advances host o.hostHandle x moved) :
    host.cursor (exec (seekBack host o offset x) s).2.trace o.hostHandle =
      host.cursor s.trace o.hostHandle ↔ Undisturbed host o offset x moved s := by
  unfold seekBack Undisturbed
  rcases exec_hostSeek_set host o.hostHandle offset s with
    ⟨e, s1, hseek, hcur, -, -⟩ | ⟨s1, hseek, hcur, -, -⟩
  · rw [exec_bind_of_error hseek, hseek]
    exact iff_of_true hcur trivial
  rw [exec_bind_of_ok hseek, hseek]
  dsimp only
  have hmoves := (hx s1).2.2
  rw [hcur] at hmoves
  rcases hrun : exec x s1 with ⟨r, s2⟩
  rw [hrun] at hmoves
  cases r with
  | error =>
    rw [exec_bind_of_error hrun]
    rw [hmoves]
    rfl
  | ok =>
    rw [exec_bind_of_ok hrun]
    dsimp only
    rcases exec_hostSeek_set host o.hostHandle o.offset s2 with
      ⟨e, s3, hback, hcur', -, -⟩ | ⟨s3, hback, hcur', -, -⟩
    · rw [exec_bind_of_error hback, hback]
      rw [hcur', hmoves]
      rfl
    · rw [exec_bind_of_ok hback, hback]
      rw [exec_pure, hcur']

/-- Descriptors, descriptions and memfds are the same. -/
def SameTables (s s' : World) : Prop :=
  s'.proc.fdTable = s.proc.fdTable ∧ s'.proc.ofdTable = s.proc.ofdTable ∧ s'.memfds = s.memfds

lemma SameTables.refl (s : World) : SameTables s s := ⟨rfl, rfl, rfl⟩

lemma SameTables.trans (s1 s2 s3 : World) (h : SameTables s1 s2) (h' : SameTables s2 s3) :
    SameTables s1 s3 :=
  ⟨h'.1.trans h.1, h'.2.1.trans h.2.1, h'.2.2.trans h.2.2⟩

lemma SameTables.lookup (h : SameTables s s') (fd : Int) : s'.lookup fd = s.lookup fd := by
  rw [World.lookup, World.lookup, h.1, h.2.1]

lemma sameTables_seekBack (offset : Int64) (hx : Advances host o.hostHandle x moved) :
    Respects SameTables (seekBack host o offset x) := by
  have hseek : ∀ offset, Respects SameTables (hostSeek host o.hostHandle offset .set) :=
    fun _ _ => ⟨rfl, rfl, rfl⟩
  apply respects_bind SameTables.trans (hseek offset)
  intro _
  apply respects_bind SameTables.trans
  · intro s
    rw [SameTables, (hx s).1, (hx s).2.1]
    exact ⟨rfl, rfl, rfl⟩
  · exact fun a => respects_bind SameTables.trans (hseek o.offset) fun _ =>
      respects_pure SameTables.refl a

lemma position_of_lookup (hl : s.lookup fd = some (i, o)) : s.position host fd =
    if o.fileType = .MemFd then (s.memfds o.memfdIdx).map (·.offset)
    else if o.fileType = .Regular ∧ o.isSnapshot = false then
      some (host.cursor s.trace o.hostHandle)
    else some o.offset := by
  rw [World.position, hl]
  rfl

/-- What changes neither the tables nor the cursor of the handle keeps the position. -/
lemma SameTables.position (h : SameTables s s') (hcur : ∀ i o, s.lookup fd = some (i, o) →
      host.cursor s'.trace o.hostHandle = host.cursor s.trace o.hostHandle) :
    s'.position host fd = s.position host fd := by
  cases hl : s.lookup fd with
  | none =>
    rw [World.position, World.position, h.lookup, hl]
    rfl
  | some a =>
    obtain ⟨i, o⟩ := a
    rw [position_of_lookup ((h.lookup fd).trans hl), position_of_lookup hl, h.2.2, hcur i o hl]

/-- The part for files of the host decides about the position. -/
lemma position_seekBack_iff (hl : s.lookup fd = some (i, o)) (hreg : o.fileType = .Regular)
    (hsnap : o.isSnapshot = false) (hx : Advances host o.hostHandle x moved) :
    (exec (seekBack host o offset x) s).2.position host fd = s.position host fd ↔
      Undisturbed host o offset x moved s := by
  have htables := sameTables_seekBack offset hx s
  rw [← cursor_seekBack_iff hx, position_of_lookup ((htables.lookup fd).trans hl),
    position_of_lookup hl, if_neg (by rw [hreg]; decide), if_pos ⟨hreg, hsnap⟩,
    if_neg (by rw [hreg]; decide), if_pos ⟨hreg, hsnap⟩, Option.some.injEq]

/-- The limit on file sizes is looked up, and a signal sent. -/
lemma budget_still (w : PointerWidth) (host : Host) (offset : Int64) (fd : Int) (len : Nat)
    (s : World) :
    SameTables s (exec (writeOperationBudget w host fd (some offset) len) s).2 ∧
      (exec (writeOperationBudget w host fd (some offset) len) s).2.trace = s.trace := by
  have htrans : ∀ s1 s2 s3 : World, (SameTables s1 s2 ∧ s2.trace = s1.trace) →
      (SameTables s2 s3 ∧ s3.trace = s2.trace) → SameTables s1 s3 ∧ s3.trace = s1.trace :=
    fun s1 s2 s3 h h' => ⟨SameTables.trans _ _ _ h.1 h'.1, h'.2.trans h.2⟩
  have hrefl : ∀ s : World, SameTables s s ∧ s.trace = s.trace := fun s => ⟨SameTables.refl s, rfl⟩
  revert s
  apply respects_bind htrans
  · intro s
    rw [exec_getOfd]
    exact hrefl s
  rintro ⟨_, o⟩
  dsimp only
  split
  · exact respects_throw hrefl _
  split
  · exact respects_pure hrefl _
  split
  · exact respects_pure hrefl _
  apply respects_bind htrans (respects_ofExcept hrefl _)
  intro start
  unfold fsizeLimitedWriteLen
  split
  · exact respects_pure hrefl _
  apply respects_bind htrans
  · exact fun s => hrefl s
  intro limit
  split
  · exact respects_pure hrefl _
  split
  · apply respects_bind htrans
    · exact fun s => ⟨⟨rfl, rfl, rfl⟩, rfl⟩
    · exact fun _ => respects_throw hrefl _
  · dsimp only
    split <;> exact respects_pure hrefl _

/-- A positioned write to a memfd changes its data only. -/
lemma position_memfdPwrite (hl : s.lookup fd = some (i, o)) (hmem : o.fileType = .MemFd)
    (buf : Slice w) :
    (exec (memfdPwrite o buf offset) s).2.position host fd = s.position host fd := by
  unfold memfdPwrite
  cases toUsize w offset with
  | error => rfl
  | ok start =>
    rw [exec_bind_of_ok (exec_ofExcept (.ok start) s)]
    split
    · rfl
    cases hb : s.memfds o.memfdIdx with
    | none => rw [exec_bind_of_error (exec_getMemfd_none hb)]
    | some =>
      rw [exec_bind_of_ok (exec_getMemfd hb), exec_bind_of_ok exec_setMemfd, exec_pure,
        position_of_lookup hl, if_pos hmem, hb]
      have hset (b' : MemFdBacking) :
          World.lookup { s with memfds := update s.memfds o.memfdIdx b' } fd = some (i, o) := hl
      rw [position_of_lookup (hset _), if_pos hmem]
      dsimp only
      rw [update_self]
      rfl

lemma position_sysPread_iff (n : Nat) :
    (exec (sysPread w host fd n offset) s).2.position host fd = s.position host fd ↔
      ∀ i o, s.lookup fd = some (i, o) → checkPositioned o offset o.isWriteOnly = .ok () →
        o.fileType = .Regular → o.isSnapshot = false →
        Undisturbed host o offset (hostRead host o.hostHandle n) (Int64.ofNat ·.length) s := by
  unfold sysPread
  cases hl : s.lookup fd with
  | none =>
    rw [exec_getOfd_bind_none hl]
    exact iff_of_true rfl nofun
  | some a =>
    obtain ⟨i, o⟩ := a
    rw [exec_getOfd_bind hl]
    dsimp only
    cases hcheck : checkPositioned o offset o.isWriteOnly with
    | error =>
      refine iff_of_true rfl ?_
      rintro _ _ ⟨⟩ h
      rw [hcheck] at h
      cases h
    | ok _ =>
      rw [exec_bind_of_ok (exec_ofExcept (.ok ()) s)]
      split
      · next hmem =>
        refine iff_of_true ?_ ?_
        · cases toUsize w offset with
          | error => rfl
          | ok start =>
            rw [exec_bind_of_ok (exec_ofExcept (.ok start) s)]
            cases hb : s.memfds o.memfdIdx with
            | none => rw [exec_bind_of_error (exec_getMemfd_none hb)]
            | some =>
              rw [exec_bind_of_ok (exec_getMemfd hb)]
              rfl
        · rintro _ _ ⟨⟩ - hreg
          rw [hmem] at hreg
          cases hreg
      split
      · next hother =>
        refine iff_of_true ?_ ?_
        · exact SameTables.position ⟨rfl, rfl, rfl⟩ fun _ _ _ => rfl
        rintro _ _ ⟨⟩ - hreg hsnap
        rcases hother with h | h
        · exact absurd hreg h
        · rw [hsnap] at h
          cases h
      · next hfile =>
        simp only [not_or, not_not, Bool.not_eq_true] at hfile
        refine (position_seekBack_iff hl hfile.1 hfile.2 (advances_hostRead _ _ n)).trans ?_
        constructor
        · rintro h _ _ ⟨⟩ - - -
          exact h
        · exact fun h => h i o rfl hcheck hfile.1 hfile.2

lemma position_sysPwrite_iff (buf : Slice w) :
    (exec (sysPwrite host fd buf offset) s).2.position host fd = s.position host fd ↔
      ∀ i o, s.lookup fd = some (i, o) → checkPositioned o offset o.isReadOnly = .ok () →
        o.fileType = .Regular → o.isSnapshot = false → ∀ len s1,
        exec (writeOperationBudget w host fd (some offset) buf.len) s = (.ok len, s1) →
        Undisturbed host o offset
          (hostWrite host o.hostHandle (buf.take len).bytes) Int64.ofNat s1 := by
  unfold sysPwrite
  cases hl : s.lookup fd with
  | none =>
    rw [exec_getOfd_bind_none hl]
    exact iff_of_true rfl nofun
  | some a =>
    obtain ⟨i, o⟩ := a
    rw [exec_getOfd_bind hl]
    dsimp only
    cases hcheck : checkPositioned o offset o.isReadOnly with
    | error =>
      refine iff_of_true rfl ?_
      rintro _ _ ⟨⟩ h
      rw [hcheck] at h
      cases h
    | ok _ =>
      rw [exec_bind_of_ok (exec_ofExcept (.ok ()) s)]
      by_cases hother : o.fileType ≠ .Regular ∧ o.fileType ≠ .MemFd
      · rw [if_pos hother]
        refine iff_of_true ?_ ?_
        · exact SameTables.position ⟨rfl, rfl, rfl⟩ fun _ _ _ => rfl
        · rintro _ _ ⟨⟩ - hreg
          exact absurd hreg hother.1
      rw [if_neg hother]
      have hstill := budget_still w host offset fd buf.len s
      rcases hbudget : exec (writeOperationBudget w host fd (some offset) buf.len) s with ⟨r, s1⟩
      rw [hbudget] at hstill
      have hl1 : s1.lookup fd = some (i, o) := (hstill.1.lookup fd).trans hl
      have hsame : s1.position host fd = s.position host fd :=
        hstill.1.position fun _ o _ => congrArg (host.cursor · o.hostHandle) hstill.2
      cases r with
      | error =>
        rw [exec_bind_of_error hbudget]
        exact iff_of_true hsame fun _ _ _ _ _ _ _ _ h => nomatch h
      | ok len =>
        rw [exec_bind_of_ok hbudget]
        split
        · next hmem =>
          rw [position_memfdPwrite hl1 hmem]
          refine iff_of_true hsame ?_
          rintro _ _ ⟨⟩ - hreg
          rw [hmem] at hreg
          cases hreg
        next hmem =>
        have hreg : o.fileType = .Regular := by
          by_contra hne
          exact hother ⟨hne, hmem⟩
        have hadv := advances_hostWrite host o.hostHandle (buf.take len).bytes
        cases hsnap : o.isSnapshot with
        | true =>
          refine iff_of_true ?_ ?_
          · have htables := sameTables_seekBack offset hadv s1
            rw [← hsame, position_of_lookup hl1, if_neg hmem, if_neg (by simp [hsnap])]
            refine (position_of_lookup ((htables.lookup fd).trans hl1)).trans ?_
            rw [if_neg hmem, if_neg (by simp [hsnap])]
          · rintro _ _ ⟨⟩ - - h
            rw [hsnap] at h
            cases h
        | false =>
          rw [← hsame]
          refine (position_seekBack_iff hl1 hreg hsnap hadv).trans ?_
          constructor
          · rintro h _ _ ⟨⟩ - - - _ _ ⟨⟩
            exact h
          · exact fun h => h i o rfl hcheck hreg hsnap len s1 rfl

/-- A positioned read or write keeps the position of the descriptor exactly if the host's three
calls leave its cursor where it was. Every other way through the calls keeps it. -/
theorem positioned_keep_position_iff (host : Host) (s : World) (fd : Int) (offset : Int64) :
    (∀ n, (exec (sysPread w host fd n offset) s).2.position host fd = s.position host fd ↔
      ∀ i o, s.lookup fd = some (i, o) → checkPositioned o offset o.isWriteOnly = .ok () →
        o.fileType = .Regular → o.isSnapshot = false →
        Undisturbed host o offset (hostRead host o.hostHandle n) (Int64.ofNat ·.length) s) ∧
    ∀ buf : Slice w,
      (exec (sysPwrite host fd buf offset) s).2.position host fd = s.position host fd ↔
        ∀ i o, s.lookup fd = some (i, o) → checkPositioned o offset o.isReadOnly = .ok () →
          o.fileType = .Regular → o.isSnapshot = false → ∀ len s1,
          exec (writeOperationBudget w host fd (some offset) buf.len) s = (.ok len, s1) →
          Undisturbed host o offset (hostWrite host o.hostHandle (buf.take len).bytes)
            Int64.ofNat s1 :=
  ⟨fun n => position_sysPread_iff n,
    fun buf => position_sysPwrite_iff buf⟩

/-- A host that refuses every read. -/
def unreadableHost : Host where
  start _ := 0
  size _ _ := 0
  fstat _ _ := .ok ()
  seek _ _ _ _ := .ok ()
  read _ _ _ := .error .EINVAL
  write _ _ data := .ok data.length
  otherRead _ _ _ := .ok []
  otherWrite _ _ data := .ok data.length
  otherSeek _ _ offset := .ok offset

/-- A process with one file. -/
def readableFile : World where
  proc := ⟨fun fd => if fd = 3 then some 0 else none,
    fun i => if i = 0 then some ⟨.Regular, oRdwr, 5, 0⟩ else none, rlimInfinity, []⟩
  memfds _ := none
  trace := []

/-- A read at offset 7 fails, and the next read is there. -/
theorem pread_error_moves_position :
    (exec (sysPread .wasm32 unreadableHost 3 4 7) readableFile).1 = .error .EINVAL ∧
      readableFile.position unreadableHost 3 = some 0 ∧
      (exec (sysPread .wasm32 unreadableHost 3 4 7) readableFile).2.position
      unreadableHost 3 = some 7 := by
  decide +kernel

end Kandelo.Kernel.File
