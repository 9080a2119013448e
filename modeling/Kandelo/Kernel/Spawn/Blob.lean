import Kandelo.Kernel.Errno
import Kandelo.Kernel.Usize
import Kandelo.Lib.Fallible
import Kandelo.Lib.Wire

/-!
# Parsing a spawn request

Models the parser of the `SYS_SPAWN` blob in `spawn.rs:128-310`, the trust
boundary between user code and the kernel. An access in brackets that is outside its slice stops the
kernel, so the model gives it an outcome of its own next to the error numbers;
no input reaches it, and every string that is returned is a part of the blob.
-/

namespace Kandelo.Kernel.Spawn

open Lib Lib.Wire List
open Fallible

/-- Attributes carried by `posix_spawnattr_t`; `spawn.rs:36-66`. -/
structure SpawnAttrs where
  flags : BitVec 32
  pgrp : BitVec 32
  sigdef : BitVec 64
  sigmask : BitVec 64

/-- One file action; `spawn.rs:68-88`. -/
inductive FileAction
  | open (fd : BitVec 32) (path : List UInt8) (oflag mode : BitVec 32)
  | close (fd : BitVec 32)
  | dup2 (srcfd fd : BitVec 32)
  | chdir (path : List UInt8)
  | fchdir (fd : BitVec 32)

/-- The path of an action, if it has one. -/
def FileAction.paths : FileAction → List (List UInt8)
  | .open _ path _ _ | .chdir path => [path]
  | .close _ | .dup2 _ _ | .fchdir _ => []

/-- Parsed view over a blob. -/
structure ParsedBlob where
  argv : List (List UInt8)
  envp : List (List UInt8)
  fileActions : List FileAction
  attrs : SpawnAttrs

/-- All strings of the blob. -/
def ParsedBlob.strings (p : ParsedBlob) : List (List UInt8) :=
  p.argv ++ p.envp ++ p.fileActions.flatMap FileAction.paths

/-- How the parser stops without a result. -/
inductive Fault
  /-- An error number returned to the caller. -/
  | errno (e : Errno)
  /-- An access outside a slice. -/
  | outOfBounds

/-- Parsing, which can fail. -/
abbrev Parse (α : Type) := Except Fault α

/-- The value of a checked access, or `EINVAL`. -/
def orEinval {α : Type} : Option α → Parse α
  | some a => .ok a
  | none => .error (.errno .EINVAL)

/-! ### Accesses in brackets -/

/-- The element `xs[i]`. -/
def index {α : Type} (xs : List α) (i : Nat) : Parse α :=
  match xs[i]? with
  | some a => .ok a
  | none => .error .outOfBounds

/-- The slice `xs[lo..]`. -/
def sliceFrom {α : Type} (xs : List α) (lo : Nat) : Parse (List α) :=
  if lo ≤ xs.length then .ok (xs.drop lo) else .error .outOfBounds

/-- The slice `xs[..hi]`. -/
def sliceTo {α : Type} (xs : List α) (hi : Nat) : Parse (List α) :=
  if hi ≤ xs.length then .ok (xs.take hi) else .error .outOfBounds

/-! ### Words and strings -/

/-- Bytes of the header. -/
def HEADER_LEN : Nat := 40

/-- Bytes of a record. -/
def ACTION_RECORD_LEN : Nat := 28

variable (bytes : List UInt8) (off : Nat)

/-- Read a little-endian `u32`; `spawn.rs:132-135`. The offsets it is called with are far below the
largest `usize`, so the end of the range is their plain sum. -/
def readU32 : Parse (BitVec 32) := do
  let slice ← orEinval (range? bytes off (off + 4))
  let b0 ← index slice 0
  let b1 ← index slice 1
  let b2 ← index slice 2
  let b3 ← index slice 3
  return BitVec.ofNat 32 (ofLe [b0, b1, b2, b3])

/-- Read an `i32`, kept as its bits; `spawn.rs:137-139`. -/
def readI32 : Parse (BitVec 32) := readU32 bytes off

/-- Read a little-endian `u64`; `copy_from_slice` needs a slice of the buffer's
length; `spawn.rs:141-146`. -/
def readU64 : Parse (BitVec 64) := do
  let slice ← orEinval (range? bytes off (off + 8))
  if slice.length = 8 then return BitVec.ofNat 64 (ofLe slice) else .error .outOfBounds

variable (w : PointerWidth) (strings : List UInt8)

/-- Resolve an offset and a length against the strings region, without a trailing
NUL; `spawn.rs:151-164`. -/
def readString (off len : BitVec 32) : Parse (List UInt8) := do
  let stop ← orEinval (w.checkedAdd off.toNat len.toNat)
  let raw ← orEinval (range? strings off.toNat stop)
  if raw.getLast? = some 0 then sliceTo raw (raw.length - 1) else return raw

/-- One round of `decode_strings_by_offset`. -/
def decodeStringAt (off : BitVec 32) : Parse (List UInt8) :=
  if strings.length < off.toNat then .error (.errno .EINVAL) else do
    let tail ← sliceFrom strings off.toNat
    -- without a NUL, `position` finds none and the whole tail is taken
    sliceTo tail (tail.findIdx (· == 0))

variable (offsets : List (BitVec 32))

/-- Decode the strings that start at the given offsets; `spawn.rs:279-291`. -/
def decodeStringsByOffset (strings : List UInt8) : Parse (List (List UInt8)) :=
  offsets.mapM (decodeStringAt strings)

/-! ### The parser -/

/-- The most arguments. -/
def MAX_ARGV : Nat := 4096

/-- Largest accepted number of environment strings. -/
def MAX_ENVP : Nat := 4096

/-- The most file actions. -/
def MAX_ACTIONS : Nat := 1024

/-- Multiply as `usize::checked_mul` does. -/
def checkedMul (a b : Nat) : Option Nat :=
  if a * b ≤ w.usizeMax then some (a * b) else none

/-- Borrow the table of `n` records of a size that starts at `cursor`, with its end. -/
def tableAt (bytes : List UInt8) (cursor n size : Nat) : Parse (List UInt8 × Nat) := do
  let total ← orEinval (checkedMul w n size)
  let stop ← orEinval (w.checkedAdd cursor total)
  let table ← orEinval (range? bytes cursor stop)
  return (table, stop)

variable (table : List UInt8) (n : Nat)

/-- A table of offsets. -/
def readOffsets : Parse (List (BitVec 32)) :=
  (List.range n).mapM fun i => readU32 table (i * 4)

/-- The seven words of an action record. -/
structure ActionRecord where
  op : BitVec 32
  fd : BitVec 32
  newfd : BitVec 32
  pathOff : BitVec 32
  pathLen : BitVec 32
  oflag : BitVec 32
  mode : BitVec 32

variable (actions : List UInt8) (base : Nat)

/-- Read the action record that starts at `base`; `spawn.rs:245-251`. -/
def readRecord : Parse ActionRecord := do
  let op ← readU32 actions base
  let fd ← readI32 actions (base + 4)
  let newfd ← readI32 actions (base + 8)
  let pathOff ← readU32 actions (base + 12)
  let pathLen ← readU32 actions (base + 16)
  let oflag ← readI32 actions (base + 20)
  let mode ← readU32 actions (base + 24)
  return ⟨op, fd, newfd, pathOff, pathLen, oflag, mode⟩

variable (r : ActionRecord)

/-- The file action a record stands for; `spawn.rs:252-272`. -/
def decodeRecord : Parse FileAction :=
  if r.op = 0 then do
    let path ← readString w strings r.pathOff r.pathLen
    return .open r.fd path r.oflag r.mode
  else if r.op = 1 then return .close r.fd
  else if r.op = 2 then return .dup2 r.fd r.newfd
  else if r.op = 3 then do
    let path ← readString w strings r.pathOff r.pathLen
    return .chdir path
  else if r.op = 4 then return .fchdir r.fd
  else .error (.errno .EINVAL)

/-- Decode the action record at a position; `spawn.rs:243-274`. -/
def parseAction (strings : List UInt8) (i : Nat) : Parse FileAction := do
  let r ← readRecord actions (i * ACTION_RECORD_LEN)
  decodeRecord w strings r

/-- Parse a blob; `spawn.rs:168-291`. -/
def parseBlob (bytes : List UInt8) : Parse ParsedBlob :=
  if bytes.length < HEADER_LEN then .error (.errno .EINVAL) else do
    let argc ← readU32 bytes 0
    let envc ← readU32 bytes 4
    let nActions ← readU32 bytes 8
    let flags ← readU32 bytes 12
    let pgrp ← readI32 bytes 16
    let sigdef ← readU64 bytes 24
    let sigmask ← readU64 bytes 32
    if MAX_ARGV < argc.toNat ∨ MAX_ENVP < envc.toNat ∨ MAX_ACTIONS < nActions.toNat then
      .error (.errno .EINVAL)
    else do
      let (argvTable, argvEnd) ← tableAt w bytes HEADER_LEN argc.toNat 4
      let argvOffsets ← readOffsets argvTable argc.toNat
      let (envpTable, envpEnd) ← tableAt w bytes argvEnd envc.toNat 4
      let envpOffsets ← readOffsets envpTable envc.toNat
      let (actions, actionsEnd) ← tableAt w bytes envpEnd nActions.toNat ACTION_RECORD_LEN
      let strings ← orEinval (range? bytes actionsEnd bytes.length)
      let argv ← decodeStringsByOffset argvOffsets strings
      let envp ← decodeStringsByOffset envpOffsets strings
      let fileActions ← (List.range nActions.toNat).mapM (parseAction w actions strings)
      return ⟨argv, envp, fileActions, ⟨flags, pgrp, sigdef, sigmask⟩⟩

/-! ### What the reads return -/

lemma orEinval_eq_ok {α : Type} {o : Option α} {a : α} : orEinval o = .ok a ↔ o = some a := by
  cases o <;> simp [orEinval]

lemma readU32_eq :
    readU32 bytes off =
      orEinval ((range? bytes off (off + 4)).map fun s => BitVec.ofNat 32 (ofLe s)) := by
  unfold readU32
  cases hr : range? bytes off (off + 4) with
  | none => rfl
  | some s =>
    have hlen : s.length = 4 := by
      rw [length_of_range? hr]
      omega
    match s, hlen with
    | [_, _, _, _], _ => rfl

lemma readU64_eq :
    readU64 bytes off =
      orEinval ((range? bytes off (off + 8)).map fun s => BitVec.ofNat 64 (ofLe s)) := by
  unfold readU64
  cases hr : range? bytes off (off + 8) with
  | none => rfl
  | some s =>
    have hlen : s.length = 8 := by
      rw [length_of_range? hr]
      omega
    change (if s.length = 8 then _ else _) = _
    rw [if_pos hlen]
    rfl

lemma readString_spec (off len : BitVec 32) :
    readString w strings off len = .error (.errno .EINVAL) ∨
      ∃ s, readString w strings off len = .ok s ∧ s <:+: strings := by
  unfold readString
  cases w.checkedAdd off.toNat len.toNat with
  | none => exact .inl rfl
  | some stop =>
    cases hr : range? strings off.toNat stop with
    | none =>
      left
      change (orEinval (range? strings off.toNat stop) >>= _) = _
      rw [hr]
      rfl
    | some raw =>
      right
      change ∃ s, (orEinval (range? strings off.toNat stop) >>= _) = _ ∧ _
      rw [hr]
      change ∃ s, (if raw.getLast? = some 0 then sliceTo raw (raw.length - 1) else Except.ok raw) =
        .ok s ∧ s <:+: strings
      split
      · refine ⟨_, if_pos (Nat.sub_le _ _), ?_⟩
        exact (List.take_prefix _ _).isInfix.trans (isInfix_of_range? hr)
      · exact ⟨raw, rfl, isInfix_of_range? hr⟩

lemma decodeStringAt_eq {strings : List UInt8} {off : BitVec 32} (h : off.toNat ≤ strings.length) :
    decodeStringAt strings off =
      .ok ((strings.drop off.toNat).take ((strings.drop off.toNat).findIdx (· == 0))) := by
  unfold decodeStringAt sliceFrom
  rw [if_neg (by omega), if_pos h]
  exact if_pos findIdx_le_length

lemma decodeStringAt_spec (off : BitVec 32) :
    decodeStringAt strings off = .error (.errno .EINVAL) ∨
      ∃ s, decodeStringAt strings off = .ok s ∧ s <:+: strings := by
  by_cases h : off.toNat ≤ strings.length
  · right
    refine ⟨_, decodeStringAt_eq h, ?_⟩
    exact (List.take_prefix _ _).isInfix.trans (drop_suffix _ _).isInfix
  · left
    exact if_pos (by omega)

/-! ### Inside the bounds -/

/-- No byte outside the blob is read. -/
def InBounds {α : Type} (x : Parse α) : Prop := x ≠ .error .outOfBounds

lemma inBounds_orEinval {α : Type} {o : Option α} : InBounds (orEinval o) := by
  cases o <;> exact nofun

lemma inBounds_readU32 : InBounds (readU32 bytes off) := by
  rw [readU32_eq]
  exact inBounds_orEinval

lemma inBounds_readU64 : InBounds (readU64 bytes off) := by
  rw [readU64_eq]
  exact inBounds_orEinval

lemma inBounds_decodeStringsByOffset (strings : List UInt8) :
    InBounds (decodeStringsByOffset offsets strings) := by
  apply mapM_ne_error
  intro off _
  rcases decodeStringAt_spec strings off with h | ⟨s, h, -⟩ <;> rw [h] <;> exact nofun

lemma inBounds_tableAt {bytes : List UInt8} {size : Nat} {n : Nat} {cursor : Nat} :
    InBounds (tableAt w bytes cursor n size) :=
  bind_ne_error inBounds_orEinval fun _ _ =>
    bind_ne_error inBounds_orEinval fun _ _ => bind_ne_error inBounds_orEinval fun _ _ => nofun

lemma inBounds_readOffsets : InBounds (readOffsets table n) :=
  mapM_ne_error fun _ _ => inBounds_readU32 _ _

lemma inBounds_readRecord : InBounds (readRecord actions base) := by
  iterate 6 refine bind_ne_error (inBounds_readU32 _ _) fun _ _ => ?_
  exact bind_ne_error (inBounds_readU32 _ _) fun _ _ => nofun

lemma decodeRecord_spec :
    decodeRecord w strings r = .error (.errno .EINVAL) ∨
      ∃ a, decodeRecord w strings r = .ok a ∧ ∀ path ∈ a.paths, path <:+: strings := by
  unfold decodeRecord
  split
  · rcases readString_spec w strings r.pathOff r.pathLen with h | ⟨s, h, hs⟩ <;> rw [h]
    · exact .inl rfl
    · exact .inr ⟨_, rfl, forall_mem_singleton.mpr hs⟩
  split
  · exact .inr ⟨_, rfl, forall_mem_nil _⟩
  split
  · exact .inr ⟨_, rfl, forall_mem_nil _⟩
  split
  · rcases readString_spec w strings r.pathOff r.pathLen with h | ⟨s, h, hs⟩ <;> rw [h]
    · exact .inl rfl
    · exact .inr ⟨_, rfl, forall_mem_singleton.mpr hs⟩
  split
  · exact .inr ⟨_, rfl, forall_mem_nil _⟩
  · exact .inl rfl

lemma inBounds_parseAction (strings : List UInt8) (i : Nat) :
    InBounds (parseAction w actions strings i) := by
  refine bind_ne_error (inBounds_readRecord _ _) fun r _ => ?_
  rcases decodeRecord_spec w strings r with h | ⟨a, h, -⟩ <;> rw [h] <;> exact nofun

lemma inBounds_parseBlob (bytes : List UInt8) : InBounds (parseBlob w bytes) := by
  unfold parseBlob
  split
  · exact nofun
  -- the header
  refine bind_ne_error (inBounds_readU32 _ _) fun argc _ => ?_
  refine bind_ne_error (inBounds_readU32 _ _) fun envc _ => ?_
  refine bind_ne_error (inBounds_readU32 _ _) fun nActions _ => ?_
  refine bind_ne_error (inBounds_readU32 _ _) fun _ _ => ?_
  refine bind_ne_error (inBounds_readU32 _ _) fun _ _ => ?_
  refine bind_ne_error (inBounds_readU64 _ _) fun _ _ => ?_
  refine bind_ne_error (inBounds_readU64 _ _) fun _ _ => ?_
  split
  · exact nofun
  -- the tables
  refine bind_ne_error (inBounds_tableAt _) fun argvTable _ => ?_
  refine bind_ne_error (inBounds_readOffsets _ _) fun _ _ => ?_
  refine bind_ne_error (inBounds_tableAt _) fun envpTable _ => ?_
  refine bind_ne_error (inBounds_readOffsets _ _) fun _ _ => ?_
  refine bind_ne_error (inBounds_tableAt _) fun actions _ => ?_
  refine bind_ne_error inBounds_orEinval fun strings _ => ?_
  -- the strings and the actions
  refine bind_ne_error (inBounds_decodeStringsByOffset _ _) fun _ _ => ?_
  refine bind_ne_error (inBounds_decodeStringsByOffset _ _) fun _ _ => ?_
  refine bind_ne_error ?_ fun _ _ => nofun
  exact mapM_ne_error fun i _ => inBounds_parseAction _ _ _ _

/-! ### Parts of the blob -/

lemma isInfix_of_decodeStringsByOffset {offsets : List (BitVec 32)} {strings s : List UInt8}
    {ss : List (List UInt8)} (h : decodeStringsByOffset offsets strings = .ok ss) (hs : s ∈ ss) :
    s <:+: strings := by
  obtain ⟨off, -, hoff⟩ := exists_of_mem_mapM h hs
  rcases decodeStringAt_spec strings off with he | ⟨s', hs', hin⟩
  · rw [he] at hoff
    cases hoff
  · rw [hs'] at hoff
    cases hoff
    exact hin

lemma isInfix_of_parseBlob {w : PointerWidth} {bytes s : List UInt8} {p : ParsedBlob}
    (h : parseBlob w bytes = .ok p) (hs : s ∈ p.strings) : s <:+: bytes := by
  unfold parseBlob at h
  split at h
  · cases h
  obtain ⟨argc, -, h⟩ := bind_eq_ok.mp h
  obtain ⟨envc, -, h⟩ := bind_eq_ok.mp h
  obtain ⟨nActions, -, h⟩ := bind_eq_ok.mp h
  obtain ⟨flags, -, h⟩ := bind_eq_ok.mp h
  obtain ⟨pgrp, -, h⟩ := bind_eq_ok.mp h
  obtain ⟨sigdef, -, h⟩ := bind_eq_ok.mp h
  obtain ⟨sigmask, -, h⟩ := bind_eq_ok.mp h
  split at h
  · cases h
  obtain ⟨argvTable, -, h⟩ := bind_eq_ok.mp h
  obtain ⟨argvOffsets, -, h⟩ := bind_eq_ok.mp h
  obtain ⟨envpTable, -, h⟩ := bind_eq_ok.mp h
  obtain ⟨envpOffsets, -, h⟩ := bind_eq_ok.mp h
  obtain ⟨actions, -, h⟩ := bind_eq_ok.mp h
  obtain ⟨strings, hstrings, h⟩ := bind_eq_ok.mp h
  obtain ⟨argv, hargv, h⟩ := bind_eq_ok.mp h
  obtain ⟨envp, henvp, h⟩ := bind_eq_ok.mp h
  obtain ⟨fileActions, hactions, h⟩ := bind_eq_ok.mp h
  cases h
  have hregion : strings <:+: bytes := isInfix_of_range? (orEinval_eq_ok.mp hstrings)
  refine List.IsInfix.trans ?_ hregion
  rcases mem_append.mp hs with hs | hs
  · rcases mem_append.mp hs with hs | hs
    · exact isInfix_of_decodeStringsByOffset hargv hs
    · exact isInfix_of_decodeStringsByOffset henvp hs
  · obtain ⟨a, ha, hs⟩ := mem_flatMap.mp hs
    obtain ⟨i, -, hi⟩ := exists_of_mem_mapM hactions ha
    obtain ⟨r, -, hr⟩ := bind_eq_ok.mp hi
    rcases decodeRecord_spec w strings r with h | ⟨a', h, hin⟩ <;> rw [h] at hr <;> cases hr
    exact hin s hs

end Kandelo.Kernel.Spawn
