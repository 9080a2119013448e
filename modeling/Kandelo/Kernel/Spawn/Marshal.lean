import Kandelo.Kernel.Spawn.Blob

/-!
# Marshalling a spawn request

Models how the C library turns a call of `posix_spawn` into the blob the kernel parses:
`libc/musl-overlay/src/process/wasm32posix/posix_spawn.c:53-236` and the list of file actions it
walks. The parser returns what was marshalled: `parseBlob_marshal`.
-/

namespace Kandelo.Kernel.Spawn

open Lib Lib.Wire List

/-! ### The list of file actions -/

/-- Kinds of entries of the list, `FDOP_*`. -/
inductive FdopCmd
  | close
  | dup2
  | open
  | chdir
  | fchdir
  deriving DecidableEq

/-- Entry of the list, `struct fdop`. The functions that add an entry set the fields of its kind
and leave the others as `malloc` returned them. -/
structure Fdop where
  cmd : FdopCmd
  fd : BitVec 32
  srcfd : BitVec 32
  oflag : BitVec 32
  mode : BitVec 32
  path : List UInt8

variable {off : Nat} {v : BitVec 32} {records : List ActionRecord} {attr : SpawnAttrs}
  {s : List UInt8} {ss : List (List UInt8)} {op : Fdop} {xs ys : List UInt8} {i n : Nat}
  {c : BitVec 32}

/-- The action that an entry stands for. -/
def Fdop.action (op : Fdop) : FileAction :=
  match op.cmd with
  | .close => .close op.fd
  | .dup2 => .dup2 op.srcfd op.fd
  | .open => .open op.fd op.path op.oflag op.mode
  | .chdir => .chdir op.path
  | .fchdir => .fchdir op.fd

/-- The entry has a path, which is then marshalled. -/
def Fdop.hasPath (op : Fdop) : Bool := op.cmd == .open || op.cmd == .chdir

/-- Add an entry in front, as every `posix_spawn_file_actions_add*` does. -/
def fileActionsAdd (fa : List Fdop) (op : Fdop) : List Fdop := op :: fa

variable (ops : List Fdop)

/-- The list after some calls that add to it. -/
def fileActions : List Fdop := ops.foldl fileActionsAdd []

lemma fileActions_eq : fileActions ops = ops.reverse :=
  foldl_flip_cons_eq_append'.trans (append_nil _)

/-! ### The regions of the blob -/

variable (v)

/-- Four bytes. -/
def word : List UInt8 := le 4 v.toNat

@[simp] lemma length_word : (word v).length = 4 := length_le _ _

/-- Eight bytes. -/
def doubleWord (v : BitVec 64) : List UInt8 := le 8 v.toNat

@[simp] lemma length_doubleWord (v : BitVec 64) : (doubleWord v).length = 8 := length_le _ _

/-- Translate the kind of an entry into the code on the wire; `posix_spawn.c:100-109`. -/
def wireOpFor : FdopCmd → BitVec 32
  | .open => 0
  | .close => 1
  | .dup2 => 2
  | .chdir => 3
  | .fchdir => 4

/-- Strings of the region with their terminators. -/
def packed (ss : List (List UInt8)) : List UInt8 := ss.flatMap fun s => s ++ [0]

/-- Offsets of strings packed from a cursor, and the cursor behind them;
`posix_spawn.c:172-183`. -/
def packStrings : List (List UInt8) → BitVec 32 → List (BitVec 32) × BitVec 32
  | [], cursor => ([], cursor)
  | s :: ss, cursor =>
    let rest := packStrings ss (cursor + BitVec.ofNat 32 (s.length + 1))
    (cursor :: rest.1, rest.2)

/-- Paths of the entries, in the order they are packed. -/
def opPaths : List (List UInt8) := (ops.filter Fdop.hasPath).map Fdop.path

/-- Record of an entry whose path, if it has one, is written at the cursor;
`posix_spawn.c:211-235`. -/
def emitAction (op : Fdop) (cursor : BitVec 32) : ActionRecord where
  op := wireOpFor op.cmd
  fd := if op.cmd = .dup2 then op.srcfd else op.fd
  newfd := if op.cmd = .dup2 then op.fd else 0
  pathOff := if op.hasPath then cursor else 0
  pathLen := if op.hasPath then BitVec.ofNat 32 op.path.length + 1 else 0
  oflag := op.oflag
  mode := op.mode

/-- Records of the entries in the order they are emitted. -/
def emitActions : List Fdop → BitVec 32 → List ActionRecord
  | [], _ => []
  | op :: ops, cursor =>
    let record := emitAction op cursor
    record :: emitActions ops (cursor + record.pathLen)

variable (r : ActionRecord)

/-- The words of a record. -/
def ActionRecord.words : List (BitVec 32) :=
  [r.op, r.fd, r.newfd, r.pathOff, r.pathLen, r.oflag, r.mode]

/-- The bytes of a record. -/
def ActionRecord.bytes : List UInt8 := r.words.flatMap word

lemma ActionRecord.length_bytes : r.bytes.length = ACTION_RECORD_LEN :=
  Wire.length_flatMap length_word

/-- Bytes of the header; `posix_spawn.c:148-159`. -/
def header (argc envc nActions : BitVec 32) (attr : SpawnAttrs) : List UInt8 :=
  [argc, envc, nActions, attr.flags, attr.pgrp, 0].flatMap word ++
    (doubleWord attr.sigdef ++ doubleWord attr.sigmask)

/-- Arguments of a call of `posix_spawn`; a null pointer is none. -/
structure Call where
  argv : Option (List (List UInt8))
  envp : Option (List (List UInt8))
  fa : Option (List Fdop)
  attr : Option SpawnAttrs
  /-- The process's own environment. -/
  environ : Option (List (List UInt8))

/-- The arguments, none for a null pointer. -/
def Call.args (c : Call) : List (List UInt8) := c.argv.getD []

/-- Environment strings, the process's own ones by default. -/
def Call.env (c : Call) : List (List UInt8) := (c.envp <|> c.environ).getD []

/-- The attributes, zeros for a null pointer. -/
def Call.attrs (c : Call) : SpawnAttrs := c.attr.getD ⟨0, 0, 0, 0⟩

/-- Entries from the tail of the list to its head, the order they are emitted in. -/
def Call.entries (c : Call) : List Fdop := (c.fa.getD []).reverse

/-- The strings in the order in which they are packed. -/
def Call.strings (c : Call) : List (List UInt8) := c.args ++ (c.env ++ opPaths c.entries)

/-- The blob of a call; `posix_spawn.c:120-236`. -/
def Call.blob (c : Call) : List UInt8 :=
  let (argvOffs, cursor) := packStrings c.args 0
  let (envpOffs, cursor) := packStrings c.env cursor
  let records := emitActions c.entries cursor
  header (BitVec.ofNat 32 c.args.length) (BitVec.ofNat 32 c.env.length)
      (BitVec.ofNat 32 c.entries.length) c.attrs ++
    (argvOffs.flatMap word ++ (envpOffs.flatMap word ++ (records.flatMap ActionRecord.bytes ++
      packed c.strings)))

/-! ### Reading the regions back -/

lemma readU32_congr {j : Nat}
    (h : range? xs i (i + 4) = range? ys j (j + 4)) : readU32 xs i = readU32 ys j := by
  rw [readU32_eq, readU32_eq, h]

lemma readU32_word : readU32 (word v) 0 = .ok v := by
  have hr : range? (word v) 0 (0 + 4) = some (word v) := range?_self (word v)
  rw [readU32_eq, hr]
  exact congrArg _ (ofNat_ofLe_le (by decide) v)

lemma readU32_append (h : off + 4 ≤ xs.length) : readU32 (xs ++ ys) off = readU32 xs off :=
  readU32_congr (range?_append_left _ _ h)

variable {v}

lemma readU32_flatMap {ws : List (BitVec 32)} (h : ws[i]? = some v) :
    readU32 (ws.flatMap word) (i * 4) = .ok v := by
  have hr : range? (ws.flatMap word) (i * 4 + 0) (i * 4 + 4) = range? (word v) 0 4 :=
    range?_flatMap length_word h (Nat.le_refl _)
  exact (readU32_congr hr).trans (readU32_word v)

lemma readU64_doubleWord {v : BitVec 64} (h : off = xs.length) :
    readU64 (xs ++ (doubleWord v ++ ys)) off = .ok v := by
  have hr : range? (xs ++ (doubleWord v ++ ys)) off (off + 8) = some (doubleWord v) :=
    range?_middle h (by rw [h, length_doubleWord])
  rw [readU64_eq, hr]
  exact congrArg _ (ofNat_ofLe_le (by decide) v)

lemma readOffsets_flatMap (offs : List (BitVec 32)) :
    readOffsets (offs.flatMap word) offs.length = .ok offs := by
  have hword : ∀ i v, offs[i]? = some v → readU32 (offs.flatMap word) (i * 4) = pure v :=
    fun i v hv => readU32_flatMap hv
  rw [readOffsets, Fallible.mapM_range hword, mapM_pure, map_id']
  rfl

lemma readRecord_flatMap {r : ActionRecord} (h : records[i]? = some r) :
    readRecord (records.flatMap ActionRecord.bytes) (i * ACTION_RECORD_LEN) = .ok r := by
  have hword : ∀ k v, k < 7 → r.words[k]? = some v →
      readU32 (records.flatMap ActionRecord.bytes) (i * ACTION_RECORD_LEN + k * 4) = .ok v := by
    intro k v hk hv
    have hr : range? (records.flatMap ActionRecord.bytes) (i * ACTION_RECORD_LEN + k * 4)
        (i * ACTION_RECORD_LEN + (k * 4 + 4)) = range? r.bytes (k * 4) (k * 4 + 4) :=
      range?_flatMap ActionRecord.length_bytes h (by rw [ACTION_RECORD_LEN]; omega)
    exact (readU32_congr hr).trans (readU32_flatMap hv)
  generalize records.flatMap ActionRecord.bytes = bytes at hword ⊢
  generalize i * ACTION_RECORD_LEN = base at hword ⊢
  have hop : readU32 bytes base = .ok r.op := hword 0 _ (by decide) rfl
  have hfd : readU32 bytes (base + 4) = .ok r.fd := hword 1 _ (by decide) rfl
  have hnewfd : readU32 bytes (base + 8) = .ok r.newfd := hword 2 _ (by decide) rfl
  have hoff : readU32 bytes (base + 12) = .ok r.pathOff := hword 3 _ (by decide) rfl
  have hlen : readU32 bytes (base + 16) = .ok r.pathLen := hword 4 _ (by decide) rfl
  have hoflag : readU32 bytes (base + 20) = .ok r.oflag := hword 5 _ (by decide) rfl
  have hmode : readU32 bytes (base + 24) = .ok r.mode := hword 6 _ (by decide) rfl
  simp only [readRecord, readI32, hop, hfd, hnewfd, hoff, hlen, hoflag, hmode]
  rfl

variable (w : PointerWidth) {strings : List UInt8} {off : BitVec 32}

lemma tableAt_append {table : List UInt8} {size : Nat} (hn : table.length = n * size)
    (hlen : (xs ++ (table ++ ys)).length < 2 ^ 32) :
    tableAt w (xs ++ (table ++ ys)) xs.length n size = .ok (table, (xs ++ table).length) := by
  have hw := w.le_usizeMax
  rw [length_append, length_append] at hlen
  have hmul : checkedMul w n size = some table.length := by
    rw [checkedMul, ← hn]
    exact if_pos (by omega)
  have hadd : w.checkedAdd xs.length table.length = some (xs.length + table.length) :=
    if_pos (by omega)
  rw [length_append]
  unfold tableAt
  rw [hmul]
  change (orEinval (w.checkedAdd xs.length table.length) >>= _) = _
  rw [hadd]
  change (orEinval (range? (xs ++ (table ++ ys)) xs.length (xs.length + table.length)) >>= _) = _
  rw [range?_middle rfl rfl]
  rfl

/-- The rest of the parser, given the tables. -/
def decodeTables (argvOffs envpOffs : List (BitVec 32)) (records : List ActionRecord)
    (attr : SpawnAttrs) (strings : List UInt8) : Parse ParsedBlob := do
  let argv ← decodeStringsByOffset argvOffs strings
  let envp ← decodeStringsByOffset envpOffs strings
  let fileActions ← records.mapM (decodeRecord w strings)
  return ⟨argv, envp, fileActions, attr⟩

lemma parseBlob_regions (w : PointerWidth) {argvOffs envpOffs : List (BitVec 32)}
    (hargc : argvOffs.length ≤ MAX_ARGV) (henvc : envpOffs.length ≤ MAX_ENVP)
    (hactions : records.length ≤ MAX_ACTIONS) {blob : List UInt8}
    (hblob : blob = header (BitVec.ofNat 32 argvOffs.length) (BitVec.ofNat 32 envpOffs.length)
      (BitVec.ofNat 32 records.length) attr ++ (argvOffs.flatMap word ++ (envpOffs.flatMap word ++
        (records.flatMap ActionRecord.bytes ++ strings))))
    (hlen : blob.length < 2 ^ 32) :
    parseBlob w blob = decodeTables w argvOffs envpOffs records attr strings := by
  have toNat_small : ∀ {n : Nat}, n ≤ 4096 → (BitVec.ofNat 32 n).toNat = n := fun h =>
    (BitVec.toNat_ofNat _ _).trans (Nat.mod_eq_of_lt (by omega))
  have hargcN := toNat_small hargc
  have henvcN := toNat_small henvc
  have hactionsN := toNat_small (hactions.trans (by decide))
  generalize hhead : header (BitVec.ofNat 32 argvOffs.length) (BitVec.ofNat 32 envpOffs.length)
    (BitVec.ofNat 32 records.length) attr = head at hblob
  have hheadLen : head.length = HEADER_LEN := by rw [← hhead]; rfl
  have hlong : ¬ blob.length < HEADER_LEN := by
    rw [hblob, length_append]
    omega
  -- the words of the header
  have hword : ∀ i v, [BitVec.ofNat 32 argvOffs.length, BitVec.ofNat 32 envpOffs.length,
      BitVec.ofNat 32 records.length, attr.flags, attr.pgrp, 0][i]? = some v →
      readU32 blob (i * 4) = .ok v := by
    intro i v hv
    have hi : i < 6 := (List.getElem?_eq_some_iff.mp hv).1
    rw [hblob, ← hhead, header, append_assoc, readU32_append, readU32_flatMap hv]
    rw [Wire.length_flatMap length_word]
    simp only [length_cons]
    omega
  have h0 : readU32 blob 0 = .ok _ := hword 0 _ rfl
  have h4 : readU32 blob 4 = .ok _ := hword 1 _ rfl
  have h8 : readU32 blob 8 = .ok _ := hword 2 _ rfl
  have h12 : readU32 blob 12 = .ok _ := hword 3 _ rfl
  have h16 : readU32 blob 16 = .ok _ := hword 4 _ rfl
  have h24 : readU64 blob 24 = .ok attr.sigdef := by
    rw [hblob, ← hhead, header, append_assoc]
    exact readU64_doubleWord rfl
  have h32 : readU64 blob 32 = .ok attr.sigmask := by
    rw [hblob, ← hhead, header, ← append_assoc _ (doubleWord _), append_assoc]
    exact readU64_doubleWord rfl
  -- the three tables and the strings region
  have hargv : tableAt w blob HEADER_LEN argvOffs.length 4 =
      .ok (argvOffs.flatMap word, (head ++ argvOffs.flatMap word).length) := by
    rw [hblob, ← hheadLen]
    exact tableAt_append w (Wire.length_flatMap length_word) (hblob ▸ hlen)
  have henvp : tableAt w blob (head ++ argvOffs.flatMap word).length envpOffs.length 4 =
      .ok (envpOffs.flatMap word,
        ((head ++ argvOffs.flatMap word) ++ envpOffs.flatMap word).length) := by
    rw [← append_assoc] at hblob
    rw [hblob]
    exact tableAt_append w (Wire.length_flatMap length_word) (hblob ▸ hlen)
  have hrecords : tableAt w blob ((head ++ argvOffs.flatMap word) ++ envpOffs.flatMap word).length
      records.length ACTION_RECORD_LEN = .ok (records.flatMap ActionRecord.bytes,
        (((head ++ argvOffs.flatMap word) ++ envpOffs.flatMap word) ++
          records.flatMap ActionRecord.bytes).length) := by
    rw [← append_assoc, ← append_assoc] at hblob
    rw [hblob]
    exact tableAt_append w (Wire.length_flatMap ActionRecord.length_bytes) (hblob ▸ hlen)
  have hstrings : range? blob (((head ++ argvOffs.flatMap word) ++ envpOffs.flatMap word) ++
      records.flatMap ActionRecord.bytes).length blob.length = some strings := by
    rw [← append_assoc, ← append_assoc, ← append_assoc] at hblob
    rw [hblob]
    nth_rewrite 1 [← append_nil strings]
    exact range?_middle rfl (length_append)
  have hdecode : (range records.length).mapM (parseAction w (records.flatMap
      ActionRecord.bytes) strings) = records.mapM (decodeRecord w strings) := by
    apply Fallible.mapM_range
    intro i r hr
    rw [parseAction, readRecord_flatMap hr]
    rfl
  have hcaps : ¬ (MAX_ARGV < argvOffs.length ∨ MAX_ENVP < envpOffs.length ∨
      MAX_ACTIONS < records.length) := by omega
  unfold parseBlob readI32
  rw [if_neg hlong]
  simp only [h0, h4, h8, h12, h16, h24, h32, Fallible.ok_bind, hargcN, henvcN, hactionsN,
    if_neg hcaps, hargv, henvp, hrecords, hstrings, readOffsets_flatMap, orEinval, hdecode]
  rfl

/-! ### Reading the strings back -/

lemma packed_cons : packed (s :: ss) = s ++ (0 :: packed ss) := by
  rw [packed, flatMap_cons, append_assoc]
  rfl

lemma packed_append (ts : List (List UInt8)) : packed (ss ++ ts) = packed ss ++ packed ts :=
  flatMap_append

lemma decodeStringAt_middle (hoff : off.toNat = xs.length)
    (hs : 0 ∉ s) : decodeStringAt (xs ++ (s ++ (0 :: ys))) off = .ok s := by
  have hle : off.toNat ≤ (xs ++ (s ++ (0 :: ys))).length := by
    rw [hoff, length_append]
    exact Nat.le_add_right _ _
  have hnone : ¬ ∃ b ∈ s, (b == 0) = true := by
    rintro ⟨b, hb, h0⟩
    exact hs (eq_of_beq h0 ▸ hb)
  have hidx : (s ++ (0 :: ys)).findIdx (· == 0) = s.length := by
    rw [findIdx_append, if_neg (mt findIdx_lt_length.mp hnone)]
    exact Nat.zero_add _
  rw [decodeStringAt_eq hle, hoff, drop_left, hidx, take_left]

lemma readString_middle {len : BitVec 32} (hoff : off.toNat = xs.length)
    (hlen : len.toNat = s.length + 1) (hfit : (xs ++ (s ++ (0 :: ys))).length < 2 ^ 32) :
    readString w (xs ++ (s ++ (0 :: ys))) off len = .ok s := by
  have hw := w.le_usizeMax
  simp only [length_append, length_cons] at hfit
  have hadd : w.checkedAdd off.toNat len.toNat = some (xs.length + (s ++ [0]).length) := by
    rw [hoff, hlen, length_append]
    exact if_pos (by omega)
  have hr : range? (xs ++ (s ++ (0 :: ys))) off.toNat (xs.length + (s ++ [0]).length) =
      some (s ++ [0]) := by
    rw [append_cons s 0 ys]
    exact range?_middle hoff rfl
  have hcut : sliceTo (s ++ [0]) ((s ++ [0]).length - 1) = .ok s := by
    rw [length_append, length_singleton, Nat.add_sub_cancel, sliceTo,
      if_pos (by rw [length_append]; omega), take_left]
  unfold readString
  simp only [hadd, orEinval, Fallible.ok_bind, hr, getLast?_concat, if_pos, hcut]

lemma length_packStrings (ss : List (List UInt8)) (c : BitVec 32) :
    (packStrings ss c).1.length = ss.length := by
  induction ss generalizing c with
  | nil => rfl
  | cons s ss ih => exact congrArg Nat.succ (ih _)

lemma toNat_cursor {m : Nat} (hc : c.toNat = n) (h : n + m < 2 ^ 32) :
    (c + BitVec.ofNat 32 m).toNat = n + m := by
  rw [BitVec.toNat_add, BitVec.toNat_ofNat, hc, Nat.add_mod_mod, Nat.mod_eq_of_lt h]

lemma toNat_packStrings (hc : c.toNat = n) (h : n + (packed ss).length < 2 ^ 32) :
    (packStrings ss c).2.toNat = n + (packed ss).length := by
  induction ss generalizing c n with
  | nil => exact hc
  | cons s ss ih =>
    rw [packed_cons, length_append, length_cons] at h ⊢
    have hnext : (c + BitVec.ofNat 32 (s.length + 1)).toNat = n + (s.length + 1) :=
      toNat_cursor hc (by omega)
    refine (ih hnext (by omega)).trans ?_
    omega

lemma decodeStrings_packStrings (hss : ∀ s ∈ ss, 0 ∉ s) (hc : c.toNat = xs.length)
    (hfit : (xs ++ (packed ss ++ ys)).length < 2 ^ 32) :
    decodeStringsByOffset (packStrings ss c).1 (xs ++ (packed ss ++ ys)) = .ok ss := by
  induction ss generalizing xs c with
  | nil => rfl
  | cons s ss ih =>
    have hregion : xs ++ (packed (s :: ss) ++ ys) = xs ++ (s ++ (0 :: (packed ss ++ ys))) := by
      rw [packed_cons, append_assoc, cons_append]
    have hregion' : xs ++ (packed (s :: ss) ++ ys) = (xs ++ (s ++ [0])) ++ (packed ss ++ ys) := by
      rw [hregion, append_assoc, append_assoc]
      rfl
    have hfirst : decodeStringAt (xs ++ (packed (s :: ss) ++ ys)) c = .ok s := by
      rw [hregion]
      exact decodeStringAt_middle hc (hss s mem_cons_self)
    have hrest : decodeStringsByOffset (packStrings ss (c + BitVec.ofNat 32 (s.length + 1))).1
        (xs ++ (packed (s :: ss) ++ ys)) = .ok ss := by
      rw [hregion'] at hfit ⊢
      refine ih (fun t ht => hss t (mem_cons_of_mem _ ht)) ?_ hfit
      rw [length_append, length_append]
      apply toNat_cursor hc
      simp only [length_append, length_singleton] at hfit
      omega
    rw [decodeStringsByOffset] at hrest ⊢
    rw [packStrings, mapM_cons, hfirst, hrest]
    rfl

lemma length_emitActions (c : BitVec 32) : (emitActions ops c).length = ops.length := by
  induction ops generalizing c with
  | nil => rfl
  | cons op ops ih => exact congrArg Nat.succ (ih _)

lemma decodeRecord_noPath (strings : List UInt8) (c : BitVec 32) (h : op.hasPath = false) :
    decodeRecord w strings (emitAction op c) = .ok op.action := by
  obtain ⟨cmd, fd, srcfd, oflag, mode, path⟩ := op
  cases cmd with
  | «open» => cases h
  | chdir => cases h
  | close => rfl
  | dup2 => rfl
  | fchdir => rfl

lemma decodeRecord_path {w : PointerWidth} (h : op.hasPath = true)
    (hread : readString w strings c (BitVec.ofNat 32 op.path.length + 1) = .ok op.path) :
    decodeRecord w strings (emitAction op c) = .ok op.action := by
  obtain ⟨cmd, fd, srcfd, oflag, mode, path⟩ := op
  cases cmd with
  | «open» | chdir =>
    change (readString w strings c (BitVec.ofNat 32 path.length + 1) >>= _) = _
    rw [hread]
    rfl
  | close => cases h
  | dup2 => cases h
  | fchdir => cases h

lemma decodeRecords_emitActions {ops : List Fdop} (hc : c.toNat = xs.length)
    (hfit : (xs ++ packed (opPaths ops)).length < 2 ^ 32) :
    (emitActions ops c).mapM (decodeRecord w (xs ++ packed (opPaths ops))) =
      .ok (ops.map Fdop.action) := by
  induction ops generalizing xs c with
  | nil => rfl
  | cons op ops ih =>
    rw [emitActions, mapM_cons]
    cases hp : op.hasPath with
    | false =>
      have hpaths : opPaths (op :: ops) = opPaths ops := by
        rw [opPaths, filter_cons_of_neg (by rw [hp]; exact Bool.false_ne_true)]
        rfl
      have hcursor : c + (emitAction op c).pathLen = c := by
        simp only [emitAction, hp]
        exact BitVec.add_zero c
      rw [hpaths] at hfit ⊢
      rw [hcursor, decodeRecord_noPath w _ c hp, ih hc hfit]
      rfl
    | true =>
      have hpaths : opPaths (op :: ops) = op.path :: opPaths ops := by
        rw [opPaths, filter_cons_of_pos hp]
        rfl
      have hsucc : BitVec.ofNat 32 op.path.length + 1 = BitVec.ofNat 32 (op.path.length + 1) :=
        (BitVec.ofNat_add _ _).symm
      have hlen : (emitAction op c).pathLen = BitVec.ofNat 32 (op.path.length + 1) := by
        simp only [emitAction, hp]
        exact hsucc
      have hregion : xs ++ packed (opPaths (op :: ops)) =
          xs ++ (op.path ++ (0 :: packed (opPaths ops))) := by rw [hpaths, packed_cons]
      have hregion' : xs ++ packed (opPaths (op :: ops)) =
          (xs ++ (op.path ++ [0])) ++ packed (opPaths ops) := by
        rw [hregion, append_assoc, append_assoc]
        rfl
      have hfit' := hfit
      rw [hregion'] at hfit'
      simp only [length_append, length_singleton] at hfit'
      have hread : readString w (xs ++ packed (opPaths (op :: ops))) c
          (BitVec.ofNat 32 op.path.length + 1) = .ok op.path := by
        rw [hregion] at hfit ⊢
        refine readString_middle w hc ?_ hfit
        rw [hsucc, BitVec.toNat_ofNat, Nat.mod_eq_of_lt (by omega)]
      have hrest : (emitActions ops (c + (emitAction op c).pathLen)).mapM
          (decodeRecord w (xs ++ packed (opPaths (op :: ops)))) = .ok (ops.map Fdop.action) := by
        rw [hregion'] at hfit ⊢
        apply ih _ hfit
        rw [hlen, length_append, length_append]
        exact toNat_cursor hc (by omega)
      rw [decodeRecord_path hp hread, hrest]
      rfl

lemma parseBlob_marshal {c : Call} (hstr : ∀ s ∈ c.strings, 0 ∉ s)
    (hargc : c.args.length ≤ MAX_ARGV) (henvc : c.env.length ≤ MAX_ENVP)
    (hactions : c.entries.length ≤ MAX_ACTIONS) (hlen : c.blob.length < 2 ^ 32) :
    parseBlob w c.blob = .ok ⟨c.args, c.env, c.entries.map Fdop.action, c.attrs⟩ := by
  have hblob : c.blob = header (BitVec.ofNat 32 c.args.length) (BitVec.ofNat 32 c.env.length)
      (BitVec.ofNat 32 c.entries.length) c.attrs ++ ((packStrings c.args 0).1.flatMap word ++
        ((packStrings c.env (packStrings c.args 0).2).1.flatMap word ++
          ((emitActions c.entries (packStrings c.env (packStrings c.args 0).2).2).flatMap
            ActionRecord.bytes ++ packed c.strings))) := rfl
  have hfit : (packed c.strings).length < 2 ^ 32 := by
    rw [hblob] at hlen
    simp only [length_append] at hlen ⊢
    omega
  have hsplit : packed c.strings =
      packed c.args ++ (packed c.env ++ packed (opPaths c.entries)) := by
    rw [Call.strings, packed_append, packed_append]
  have hsplit' : packed c.strings = (packed c.args ++ packed c.env) ++
      packed (opPaths c.entries) := by
    rw [hsplit, append_assoc]
  have hsum := hfit
  rw [hsplit', length_append, length_append] at hsum
  have hargs : (packStrings c.args 0).2.toNat = (packed c.args).length :=
    (toNat_packStrings BitVec.toNat_zero (by omega)).trans (Nat.zero_add _)
  have henv : (packStrings c.env (packStrings c.args 0).2).2.toNat =
      (packed c.args ++ packed c.env).length := by
    rw [length_append]
    exact toNat_packStrings hargs (by omega)
  have hparse : parseBlob w c.blob = decodeTables w (packStrings c.args 0).1
      (packStrings c.env (packStrings c.args 0).2).1
      (emitActions c.entries (packStrings c.env (packStrings c.args 0).2).2) c.attrs
      (packed c.strings) := by
    refine parseBlob_regions w ?_ ?_ ?_ ?_ hlen
    · rwa [length_packStrings]
    · rwa [length_packStrings]
    · rwa [length_emitActions]
    · rw [length_packStrings, length_packStrings, length_emitActions]
      exact hblob
  have hdecodeArgs : decodeStringsByOffset (packStrings c.args 0).1 (packed c.strings) =
      .ok c.args := by
    rw [hsplit] at hfit ⊢
    have hnil : (0 : BitVec 32).toNat = ([] : List UInt8).length := rfl
    exact decodeStrings_packStrings (fun s hs => hstr s (mem_append_left _ hs)) hnil hfit
  have hdecodeEnv : decodeStringsByOffset (packStrings c.env (packStrings c.args 0).2).1
      (packed c.strings) = .ok c.env := by
    rw [hsplit] at hfit ⊢
    refine decodeStrings_packStrings (fun s hs => hstr s ?_) hargs hfit
    exact mem_append_right _ (mem_append_left _ hs)
  have hdecodeOps : (emitActions c.entries (packStrings c.env (packStrings c.args 0).2).2).mapM
      (decodeRecord w (packed c.strings)) = .ok (c.entries.map Fdop.action) := by
    rw [hsplit'] at hfit ⊢
    exact decodeRecords_emitActions w henv hfit
  rw [hparse, decodeTables, hdecodeArgs, hdecodeEnv, hdecodeOps]
  rfl

/-- A call of `posix_spawn` whose file actions were added one after the other is parsed to the same
arguments, environment, attributes and actions in the order they were added; no
byte string makes the parser access anything outside its slices, and what it returns are
parts of that byte string. -/
theorem spawn_blob (w : PointerWidth) (c : Call) (ops : List Fdop)
    (hfa : c.fa.getD [] = fileActions ops) (hstr : ∀ s ∈ c.args ++ c.env ++ opPaths ops, 0 ∉ s)
    (hargc : c.args.length ≤ 4096) (henvc : c.env.length ≤ 4096) (hactions : ops.length ≤ 1024)
    (hlen : c.blob.length < 2 ^ 32) (bytes : List UInt8) :
    parseBlob w c.blob = .ok ⟨c.args, c.env, ops.map Fdop.action, c.attrs⟩ ∧
      InBounds (parseBlob w bytes) ∧
      ∀ p, parseBlob w bytes = .ok p → ∀ s ∈ p.strings, s <:+: bytes := by
  have hentries : c.entries = ops := by
    rw [Call.entries, hfa, fileActions_eq, reverse_reverse]
  refine ⟨?_, inBounds_parseBlob w bytes, fun p hp s hs => isInfix_of_parseBlob hp hs⟩
  rw [← hentries]
  rw [← hentries] at hactions hstr
  rw [append_assoc] at hstr
  exact parseBlob_marshal w hstr hargc henvc hactions hlen

/-- A call with one argument that opens `x` and duplicates it. -/
def openAndDup : Call where
  argv := some [[108, 115]]
  envp := some []
  fa := some (fileActions [⟨.open, 5, 0, 0, 420, [120]⟩, ⟨.dup2, 1, 5, 0, 0, []⟩])
  attr := none
  environ := none

/-- A file is opened, and its descriptor is duplicated. -/
theorem spawn_blob_openAndDup :
    parseBlob .wasm32 openAndDup.blob =
      .ok ⟨[[108, 115]], [], [.open 5 [120] 0 420, .dup2 5 1], ⟨0, 0, 0, 0⟩⟩ ∧
      InBounds (parseBlob .wasm32 [1, 2, 3]) :=
  have h := spawn_blob .wasm32 openAndDup
    [⟨.open, 5, 0, 0, 420, [120]⟩, ⟨.dup2, 1, 5, 0, 0, []⟩] rfl (by decide) (by decide)
    (by decide) (by decide) (by decide) [1, 2, 3]
  ⟨h.1, h.2.1⟩

end Kandelo.Kernel.Spawn
