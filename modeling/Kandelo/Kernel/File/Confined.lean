import Kandelo.Kernel.File.Transfer

/-!
# Transfers below the limit on file sizes

Single transfers pass no byte to the host, and store none in a memfd, at or
beyond the soft `RLIMIT_FSIZE`. A write at a given position checks that position; a write at the
position of the descriptor checks the kernel's copy of it, so the copy has to agree with the
cursor of the host.
-/

namespace Kandelo.Kernel.File

open Lib Effect List OpenFileDesc

variable {b : MemFdBacking} {α : Type} {i limit start len n j : Nat} {o oj : OpenFileDesc}
  {data : List UInt8} {offset : Int64} {handle : Int} {f : Int64 → Int64} {B : Prop}
  {w : PointerWidth} {host : Host} {fd : Int} {s s' : World}

/-! ### What the limit allows -/

/-- The limit allows a file to reach `size`. -/
def Within (limit : Nat) (size : Int) : Prop := limit = rlimInfinity ∨ size ≤ limit

/-- A write of the host ends below the limit. -/
def Host.CallWithin (host : Host) (limit : Nat) (tr : Trace) : HostCall → Prop
  | .write handle data _ =>
    data = [] ∨ Within limit ((host.cursor tr handle).toInt + data.length)
  | .seek .. | .read .. | .other => True

/-- A byte of a memfd. -/
def byteAt (b : Option MemFdBacking) (i : Nat) : Option UInt8 := b.bind fun b => b.data[i]?

/-- Nothing happened at or beyond the limit, and each signal for the limit was for a write that
had no room. -/
structure Confined (host : Host) (s s' : World) : Prop where
  limit : s'.proc.fsizeLimit = s.proc.fsizeLimit
  fdTable : s'.proc.fdTable = s.proc.fdTable
  calls : Grows (fun call tr => host.CallWithin s.proc.fsizeLimit tr call) s.trace s'.trace
  memfds : ∀ k i, s.proc.fsizeLimit ≠ rlimInfinity → s.proc.fsizeLimit ≤ i →
    byteAt (s'.memfds k) i = byteAt (s.memfds k) i
  signals : Grows (fun p _ => s.proc.fsizeLimit ≤ p.1 ∧ 0 < p.2) s.proc.xfsz s'.proc.xfsz

lemma Confined.refl (host : Host) (s : World) : Confined host s s :=
  ⟨rfl, rfl, .refl _, fun _ _ _ _ => rfl, .refl _⟩

lemma Confined.trans (s1 s2 s3 : World) (h1 : Confined host s1 s2) (h2 : Confined host s2 s3) :
    Confined host s1 s3 where
  limit := h2.limit.trans h1.limit
  fdTable := h2.fdTable.trans h1.fdTable
  calls := h1.calls.trans (h1.limit ▸ h2.calls)
  memfds k i hne hi := (h2.memfds k i (h1.limit ▸ hne) (h1.limit ▸ hi)).trans (h1.memfds k i hne hi)
  signals := h1.signals.trans (h1.limit ▸ h2.signals)

lemma Confined.of_ofdTable (t : Nat → Option OpenFileDesc) :
    Confined host s { s with proc := { s.proc with ofdTable := t } } :=
  ⟨rfl, rfl, .refl _, fun _ _ _ _ => rfl, .refl _⟩

lemma Confined.of_call {call : HostCall} (h : host.CallWithin s.proc.fsizeLimit s.trace call) :
    Confined host s { s with trace := call :: s.trace } :=
  ⟨rfl, rfl, .one h, fun _ _ _ _ => rfl, .refl _⟩

lemma Confined.of_memfd {k : Nat}
    (h : ∀ i, s.proc.fsizeLimit ≠ rlimInfinity → s.proc.fsizeLimit ≤ i →
      b.data[i]? = byteAt (s.memfds k) i) :
    Confined host s { s with memfds := update s.memfds k b } where
  limit := rfl
  fdTable := rfl
  calls := .refl _
  memfds j i hne hi := by
    by_cases hj : j = k
    · subst hj
      simpa [update, byteAt] using h i hne hi
    · simp [update, hj]
  signals := .refl _

/-! ### Looking up descriptors -/

/-- What `getOfd` finds. -/
def World.lookup (s : World) (fd : Int) : Option (Nat × OpenFileDesc) :=
  (s.proc.fdTable fd).bind fun i => (s.proc.ofdTable i).map fun o => (i, o)

lemma exec_getOfd (fd : Int) (s : World) :
    exec (getOfd fd) s = ((s.lookup fd).elim (.error .EBADF) .ok, s) := by
  simp only [getOfd, exec_query, World.lookup]
  cases s.proc.fdTable fd with
  | none => rfl
  | some i => cases hi : s.proc.ofdTable i <;> simp [hi]

lemma exec_getOfd_bind (h : s.lookup fd = some (i, o))
    (f : Nat × OpenFileDesc → Io α) : exec (getOfd fd >>= f) s = exec (f (i, o)) s :=
  exec_bind_of_ok (by rw [exec_getOfd, h]; rfl)

lemma exec_getOfd_bind_none (h : s.lookup fd = none) (f : Nat × OpenFileDesc → Io α) :
    exec (getOfd fd >>= f) s = (.error .EBADF, s) :=
  exec_bind_of_error (by rw [exec_getOfd, h]; rfl)

lemma ofdTable_of_lookup (h : s.lookup fd = some (i, o)) :
    s.proc.fdTable fd = some i ∧ s.proc.ofdTable i = some o := by
  simp only [World.lookup, Option.bind_eq_some_iff, Option.map_eq_some_iff] at h
  obtain ⟨j, hj, o', ho, rfl, rfl⟩ := h
  exact ⟨hj, ho⟩

/-- `modifyOffset` on a description that is there. -/
def World.setOffset (s : World) (i : Nat) (o : OpenFileDesc) (offset : Int64) : World :=
  { s with
    proc := { s.proc with ofdTable := update s.proc.ofdTable i { o with offset := offset } } }

lemma exec_modifyOffset (h : s.proc.ofdTable i = some o) :
    exec (modifyOffset i f) s = (.ok (), s.setOffset i o (f o.offset)) := by
  simp only [modifyOffset, exec_query, h]
  rfl

/-! ### The budget -/

/-- The file offset at which a write through the description starts. -/
def World.startOf (host : Host) (s : World) (o : OpenFileDesc) (offset : Option Int64) :
    Except Errno Nat :=
  (exec (writeStart host o offset) s).1

lemma exec_writeStart (o : OpenFileDesc) (offset : Option Int64) (s : World) :
    exec (writeStart host o offset) s = (s.startOf host o offset, s) := by
  refine Prod.ext rfl ?_
  cases offset with
  | some => rfl
  | none =>
    simp only [writeStart]
    split
    · rw [exec_bind]
      simp only [getMemfd, exec_query]
      cases s.memfds o.memfdIdx with
      | none => rfl
      | some =>
        dsimp only
        split <;> rfl
    · split <;> rfl

/-- `raise_fsize_signal_for_caller` on the state. -/
def World.raise (s : World) (start len : Nat) : World :=
  { s with proc := { s.proc with xfsz := (start, len) :: s.proc.xfsz } }

/-- Of a write of `len` bytes at `start`, `n` are granted: all without a limit, else those that
end at the limit. -/
def Granted (limit start len n : Nat) : Prop :=
  limit = rlimInfinity ∧ n = len ∨ start < limit ∧ n = min len (limit - start)

lemma Granted.within (h : Granted limit start len n) : Within limit (start + n) := by
  rcases h with ⟨hinf, -⟩ | ⟨hlt, rfl⟩
  · exact .inl hinf
  · right
    omega

lemma Granted.pos (h : Granted limit start len n) (hlen : 0 < len) : 0 < n := by
  rcases h with ⟨-, rfl⟩ | ⟨hlt, rfl⟩
  · exact hlen
  · omega

lemma Granted.le (h : Granted limit start len n) : n ≤ len := by
  rcases h with ⟨-, rfl⟩ | ⟨-, rfl⟩
  · exact Nat.le_refl _
  · exact Nat.min_le_left _ _

variable {buf : Slice w} {s : World} {bytes : List UInt8} {g : Int64 → Int64} {o : OpenFileDesc}
  {offset x : Int64} {start : Nat}

lemma Granted.take_len (h : Granted limit start buf.len n) : (buf.take n).len = n := by
  rw [Slice.len_take]
  exact Nat.min_eq_left h.le

lemma fsizeLimitedWriteLen_cases (hlen : len ≤ w.usizeMax) (hpos : 0 < len) :
    (∃ n, exec (fsizeLimitedWriteLen w start len) s = (.ok n, s) ∧
        Granted s.proc.fsizeLimit start len n) ∨
      exec (fsizeLimitedWriteLen w start len) s = (.error .EFBIG, s.raise start len) ∧
        s.proc.fsizeLimit ≠ rlimInfinity ∧ s.proc.fsizeLimit ≤ start := by
  have hget : exec getFsizeLimit s = (.ok s.proc.fsizeLimit, s) := rfl
  rw [fsizeLimitedWriteLen, if_neg (Nat.ne_of_gt hpos), exec_bind_of_ok hget]
  split
  · next hinf => exact .inl ⟨len, rfl, .inl ⟨hinf, rfl⟩⟩
  next hinf =>
  split
  · next hle => exact .inr ⟨rfl, hinf, hle⟩
  next hlt =>
  have hlt := Nat.lt_of_not_le hlt
  dsimp only
  split
  · exact .inl ⟨_, rfl, .inr ⟨hlt, rfl⟩⟩
  next havail =>
  refine .inl ⟨len, rfl, .inr ⟨hlt, ?_⟩⟩
  omega

/-- The description is of a regular file or a memfd. -/
def OpenFileDesc.IsFile (o : OpenFileDesc) : Prop := o.fileType = .Regular ∨ o.fileType = .MemFd

lemma OpenFileDesc.not_isFile :
    (o.fileType ≠ .Regular ∧ o.fileType ≠ .MemFd) ↔ ¬ o.IsFile := not_or.symm

/-- The budget of a write to a file that is not empty: the start is not known, or there is no room
and the caller is signalled, or bytes are granted. -/
lemma writeOperationBudget_cases (host : Host) (offset : Option Int64)
    (hl : s.lookup fd = some (i, o)) (hfile : o.IsFile)
    (hacc : (o.isPathOnly || o.isReadOnly) = false) (hlen : len ≤ w.usizeMax) (hpos : 0 < len) :
    (∃ e, s.startOf host o offset = .error e ∧
        exec (writeOperationBudget w host fd offset len) s = (.error e, s)) ∨
      ∃ start, s.startOf host o offset = .ok start ∧
        ((∃ n, exec (writeOperationBudget w host fd offset len) s = (.ok n, s) ∧
            Granted s.proc.fsizeLimit start len n) ∨
          exec (writeOperationBudget w host fd offset len) s = (.error .EFBIG, s.raise start len) ∧
            s.proc.fsizeLimit ≠ rlimInfinity ∧ s.proc.fsizeLimit ≤ start) := by
  have hrun : exec (writeOperationBudget w host fd offset len) s =
      exec (writeStart host o offset >>= fun start => fsizeLimitedWriteLen w start len) s := by
    rw [writeOperationBudget, exec_getOfd_bind hl]
    simp [hacc, Nat.ne_of_gt hpos, not_isFile, hfile]
  rw [hrun]
  cases hstart : s.startOf host o offset with
  | error e => exact .inl ⟨e, rfl, exec_bind_of_error (by rw [exec_writeStart, hstart])⟩
  | ok start =>
    rw [exec_bind_of_ok (by rw [exec_writeStart, hstart])]
    exact .inr ⟨start, rfl, fsizeLimitedWriteLen_cases hlen hpos⟩

lemma fsizeLimitedWriteLen_confined {len : Nat} :
    Confined host s (exec (fsizeLimitedWriteLen w start len) s).2 := by
  unfold fsizeLimitedWriteLen
  split
  · exact .refl host s
  next hpos =>
  have hget : exec getFsizeLimit s = (.ok s.proc.fsizeLimit, s) := rfl
  rw [exec_bind_of_ok hget]
  split
  · exact .refl host s
  split
  · next hle => exact ⟨rfl, rfl, .refl _, fun _ _ _ _ => rfl, .one ⟨hle, Nat.pos_of_ne_zero hpos⟩⟩
  · dsimp only
    split <;> exact .refl host s

lemma writeOperationBudget_confined (host : Host) (w : PointerWidth) (fd : Int)
    (offset : Option Int64) (len : Nat) (s : World) :
    Confined host s (exec (writeOperationBudget w host fd offset len) s).2 := by
  unfold writeOperationBudget
  cases hl : s.lookup fd with
  | none =>
    rw [exec_getOfd_bind_none hl]
    exact .refl host s
  | some io =>
    rw [exec_getOfd_bind hl]
    dsimp only
    split
    · exact .refl host s
    split
    · exact .refl host s
    split
    · exact .refl host s
    rw [exec_bind, exec_writeStart]
    cases s.startOf host io.2 offset with
    | error => exact .refl host s
    | ok start => exact fsizeLimitedWriteLen_confined

/-! ### Single writes -/

/-- The description is in step with the host: where a write would start by the kernel's copy of
the position is where the host would put it, and no other description moves that cursor. -/
def InStep (host : Host) (fd : Int) (s : World) : Prop :=
  ∀ i o, s.lookup fd = some (i, o) → o.fileType = .Regular → o.isAppend = false →
    o.offset = host.cursor s.trace o.hostHandle ∧
      ∀ j o', s.proc.ofdTable j = some o' → o'.fileType = .Regular →
        o'.hostHandle = o.hostHandle → j = i

lemma getElem?_store (h : start + bytes.length ≤ i) : (store data start bytes)[i]? = data[i]? := by
  have hlen : (data.take start ++ List.replicate (start - data.length) 0 ++ bytes).length =
      start + bytes.length := by
    simp only [length_append, length_take, length_replicate]
    omega
  rw [store, getElem?_append_right (by omega), getElem?_drop]
  congr 1
  omega

lemma toUsize_eq_ok (h : toUsize w x = .ok n) : x.toInt = n := by
  unfold toUsize at h
  split at h
  · injection h with h
    omega
  · cases h

lemma toU64_eq_ok (h : toU64 x = .ok n) : x.toInt = n := by
  unfold toU64 at h
  split at h
  · injection h with h
    omega
  · cases h

@[simp] lemma update_self (t : Nat → Option α) (i : Nat) (a : α) : update t i a i = some a := by
  simp [update]

lemma update_of_ne (t : Nat → Option α) (h : j ≠ i) (a : α) : update t i a j = t j := by
  simp [update, h]

lemma confined_memfd_offset (hb : s.memfds o.memfdIdx = some b) (offset : Int64) :
    Confined host s { s with memfds := update s.memfds o.memfdIdx { b with offset := offset } } :=
  .of_memfd fun i _ _ => by simp [hb, byteAt]

lemma confined_memfd_store (hb : s.memfds o.memfdIdx = some b) (offset : Int64)
    (hw : Within s.proc.fsizeLimit (start + bytes.length)) :
    Confined host s
      { s with memfds := update s.memfds o.memfdIdx ⟨store b.data start bytes, offset⟩ } := by
  refine .of_memfd fun i hne hi => ?_
  rcases hw with hinf | hle
  · exact absurd hinf hne
  · rw [getElem?_store (by omega), hb]
    rfl

lemma exec_getMemfd (h : s.memfds o.memfdIdx = some b) : exec (getMemfd o) s = (.ok b, s) := by
  simp [getMemfd, h]

lemma exec_getMemfd_none (h : s.memfds o.memfdIdx = none) :
    exec (getMemfd o) s = (.error .EBADF, s) := by
  simp [getMemfd, h]

lemma memfd_offset_eq_start (hmem : o.fileType = .MemFd) (hb : s.memfds o.memfdIdx = some b)
    (hpos : 0 < len) (hstart : s.startOf host o none = .ok start) :
    match (if 0 < len ∧ o.isAppend then lenToI64 b.data.length else .ok b.offset) with
    | .ok offset => offset.toInt = start
    | .error _ => 2 ^ 63 ≤ start := by
  rw [World.startOf, writeStart, if_pos hmem, exec_bind_of_ok (exec_getMemfd hb)] at hstart
  by_cases happ : o.isAppend
  · rw [if_pos happ] at hstart
    rw [if_pos ⟨hpos, happ⟩, ← Except.ok.inj hstart]
    by_cases hlt : b.data.length < 2 ^ 63
    · simp only [lenToI64, if_pos hlt]
      exact Int64.toInt_ofNat_of_lt hlt
    · simp only [lenToI64, if_neg hlt]
      exact Nat.le_of_not_lt hlt
  · rw [if_neg happ] at hstart
    rw [if_neg fun h => happ h.2]
    exact toU64_eq_ok hstart

lemma exec_setMemfd {b : MemFdBacking} :
    exec (setMemfd o b) s = (.ok (), { s with memfds := update s.memfds o.memfdIdx b }) := rfl

lemma memfdWrite_confined (hmem : o.fileType = .MemFd) (hpos : 0 < buf.len)
    (hstart : s.startOf host o none = .ok start) (hw : Within s.proc.fsizeLimit (start + buf.len)) :
    Confined host s (exec (memfdWrite o buf) s).2 := by
  cases hb : s.memfds o.memfdIdx with
  | none =>
    rw [memfdWrite, exec_bind_of_error (exec_getMemfd_none hb)]
    exact .refl host s
  | some b =>
    have hoff := memfd_offset_eq_start hmem hb hpos hstart
    rw [memfdWrite, exec_bind_of_ok (exec_getMemfd hb), exec_bind, exec_ofExcept]
    split at hoff
    · next offset heq =>
      refine .trans _ _ _ (confined_memfd_offset hb offset) ?_
      rw [heq]
      dsimp only
      rw [exec_bind_of_ok exec_setMemfd, exec_bind, exec_ofExcept]
      cases hu : toUsize w offset with
      | error => exact .refl host _
      | ok start' =>
        have hstart' : start' = start := by
          have := toUsize_eq_ok hu
          omega
        subst hstart'
        dsimp only
        split
        · exact .refl host _
        refine .trans _ _ _ (confined_memfd_store (update_self _ _ _) offset hw) ?_
        cases checkedAddLen offset buf.len with
        | none => exact .refl host _
        | some offset' =>
          exact confined_memfd_offset (o := o) (b := ⟨store b.data start' buf.bytes, offset⟩)
            (update_self _ _ _) offset'
    · next e heq =>
      rw [heq]
      exact .refl host s

lemma store_nil (h : start ≤ data.length) : store data start [] = data := by
  simp [store, Nat.sub_eq_zero_of_le h]

lemma memfdPwrite_confined (hw : Within s.proc.fsizeLimit (offset.toInt + buf.len) ∨
      buf.bytes = [] ∧ ∀ b, s.memfds o.memfdIdx = some b → offset.toInt ≤ b.data.length) :
    Confined host s (exec (memfdPwrite o buf offset) s).2 := by
  rw [memfdPwrite, exec_bind, exec_ofExcept]
  cases hu : toUsize w offset with
  | error => exact .refl host s
  | ok =>
    rw [toUsize_eq_ok hu] at hw
    dsimp only
    split
    · exact .refl host s
    cases hb : s.memfds o.memfdIdx with
    | none =>
      rw [exec_bind_of_error (exec_getMemfd_none hb)]
      exact .refl host s
    | some b =>
      rw [exec_bind_of_ok (exec_getMemfd hb)]
      rcases hw with hw | ⟨hnil, hle⟩
      · exact confined_memfd_store hb b.offset hw
      · rw [hnil, store_nil (Int.ofNat_le.mp (hle b hb))]
        exact confined_memfd_offset hb b.offset

/-! ### Calls to the host -/

/-- `Moved host handle f s s'`: of what the tables and cursors say, only the cursor of `handle` has
changed, by `f`. -/
structure Moved (host : Host) (handle : Int) (f : Int64 → Int64) (s s' : World) : Prop where
  proc : s'.proc = s.proc
  cursor : ∀ handle', host.cursor s'.trace handle' =
    if handle' = handle then f (host.cursor s.trace handle') else host.cursor s.trace handle'

lemma Moved.trans {s1 s2 s3 : World}
    (h1 : Moved host handle f s1 s2) (h2 : Moved host handle g s2 s3) :
    Moved host handle (fun pos => g (f pos)) s1 s3 where
  proc := h2.proc.trans h1.proc
  cursor handle' := by
    rw [h2.cursor, h1.cursor]
    split <;> rfl

/-- Where a seek of the host ends. -/
def Host.seekTarget (host : Host) (tr : Trace) (handle : Int) (offset : Int64) : Whence → Int64
  | .set => offset
  | .fromEnd => host.size tr handle + offset

lemma ensures_hostSeek (host : Host) (handle : Int) {whence : Whence} :
    Ensures (· = s) (hostSeek host handle offset whence) (Confined host) fun pos s' =>
      pos = host.seekTarget s.trace handle offset whence ∧
        Moved host handle (fun _ => pos) s s' := by
  rintro s rfl
  refine ⟨.of_call trivial, fun pos hpos => ⟨?_, ?_⟩⟩
  · simp only [hostSeek, exec_query] at hpos
    cases hs : host.seek s.trace handle offset whence with
    | error => simp [hs, Except.map] at hpos
    | ok =>
      rw [hs] at hpos
      exact (Except.ok.inj hpos).symm
  · simp only [hostSeek, exec_query] at hpos ⊢
    rw [hpos]
    exact ⟨rfl, fun _ => rfl⟩

lemma ensures_hostRead (host : Host) (handle : Int) {n : Nat} :
    Ensures (· = s) (hostRead host handle n) (Confined host) fun data s' =>
      Moved host handle (· + Int64.ofNat data.length) s s' := by
  rintro s rfl
  refine ⟨.of_call trivial, fun data hdata => ?_⟩
  simp only [hostRead, exec_query] at hdata ⊢
  rw [hdata]
  exact ⟨rfl, fun _ => rfl⟩

lemma ensures_hostWrite
    (h : data = [] ∨ Within s.proc.fsizeLimit ((host.cursor s.trace handle).toInt + data.length)) :
    Ensures (· = s) (hostWrite host handle data) (Confined host) fun n s' =>
      Moved host handle (· + Int64.ofNat n) s s' := by
  rintro s rfl
  refine ⟨.of_call h, fun n hn => ?_⟩
  simp only [hostWrite, exec_query] at hn ⊢
  rw [hn]
  exact ⟨rfl, fun _ => rfl⟩

lemma lookup_eq_some (hfd : s.proc.fdTable fd = some i)
    (ho : s.proc.ofdTable i = some o) : s.lookup fd = some (i, o) := by
  simp [World.lookup, hfd, ho]

lemma InStep.move (h : InStep host fd s) (hj : s.proc.ofdTable j = some oj)
    (hreg : oj.fileType = .Regular) (hmoved : Moved host oj.hostHandle f s s')
    (hoffset : offset = f oj.offset) :
    InStep host fd (s'.setOffset j oj offset) := by
  have hfd : (s'.setOffset j oj offset).proc.fdTable = s.proc.fdTable := by
    rw [← hmoved.proc]
    rfl
  have hofd : (s'.setOffset j oj offset).proc.ofdTable =
      update s.proc.ofdTable j { oj with offset := f oj.offset } := by
    rw [← hmoved.proc, ← hoffset]
    rfl
  have hcur := hmoved.cursor
  intro i o hl hr happ
  obtain ⟨hi, ho⟩ := ofdTable_of_lookup hl
  rw [hfd] at hi
  -- the descriptions have the types and handles they had
  have hsame : ∀ k o', (s'.setOffset j oj offset).proc.ofdTable k = some o' →
      ∃ o'', s.proc.ofdTable k = some o'' ∧ o''.fileType = o'.fileType ∧
        o''.hostHandle = o'.hostHandle := by
    intro k o' hk
    rw [hofd] at hk
    by_cases hkj : k = j
    · subst hkj
      rw [update_self] at hk
      cases hk
      exact ⟨oj, hj, rfl, rfl⟩
    · rw [update_of_ne _ hkj] at hk
      exact ⟨o', hk, rfl, rfl⟩
  rw [hofd] at ho
  by_cases hij : i = j
  · subst hij
    rw [update_self] at ho
    cases ho
    obtain ⟨hoff, huniq⟩ := h i oj (lookup_eq_some hi hj) hr happ
    refine ⟨?_, fun k o' hk hk' hh => ?_⟩
    · exact (congrArg f hoff).trans ((hcur oj.hostHandle).trans (if_pos rfl)).symm
    · obtain ⟨o'', ho'', hty, hha⟩ := hsame k o' hk
      exact huniq k o'' ho'' (hty.trans hk') (hha.trans hh)
  · rw [update_of_ne _ hij] at ho
    obtain ⟨hoff, huniq⟩ := h i o (lookup_eq_some hi ho) hr happ
    refine ⟨?_, fun k o' hk hk' hh => ?_⟩
    · have hne : o.hostHandle ≠ oj.hostHandle := fun hh => hij (huniq j oj hj hreg hh.symm).symm
      exact hoff.trans ((hcur o.hostHandle).trans (if_neg hne)).symm
    · obtain ⟨o'', ho'', hty, hha⟩ := hsame k o' hk
      exact huniq k o'' ho'' (hty.trans hk') (hha.trans hh)

lemma InStep.restore (h : InStep host fd s)
    (hj : s.proc.ofdTable j = some oj) (hreg : oj.fileType = .Regular)
    (hmoved : Moved host oj.hostHandle (fun _ => oj.offset) s s') : InStep host fd s' := by
  intro i o hl hr happ
  have hl' : s.lookup fd = some (i, o) := by rwa [World.lookup, hmoved.proc] at hl
  obtain ⟨hoff, huniq⟩ := h i o hl' hr happ
  rw [hmoved.proc]
  refine ⟨?_, huniq⟩
  rw [hmoved.cursor]
  split
  · next hh =>
    have hji := huniq j oj hj hreg hh.symm
    subst hji
    have ho := (ofdTable_of_lookup hl').2
    rw [hj] at ho
    rw [Option.some.inj ho]
  · exact hoff

lemma InStep.congr (h : InStep host fd s) (hproc : s'.proc.fdTable = s.proc.fdTable)
    (hofd : s'.proc.ofdTable = s.proc.ofdTable)
    (hcur : ∀ handle, host.cursor s'.trace handle = host.cursor s.trace handle) :
    InStep host fd s' := by
  intro i o hl
  have hl' : s.lookup fd = some (i, o) := by rwa [World.lookup, hproc, hofd] at hl
  rw [hofd, hcur]
  exact h i o hl'

/-! ### Single transfers -/

lemma ensures_advance (hstep : B → InStep host fd s) (hj : s.proc.ofdTable j = some oj)
    (hreg : oj.fileType = .Regular) (hfg : g oj.offset = f oj.offset) {a : α} :
    Ensures (Moved host oj.hostHandle f s) (modifyOffset j g >>= fun _ => pure a) (Confined host)
      fun _ s' => B → InStep host fd s' := by
  intro s' hmoved
  have hj' : s'.proc.ofdTable j = some oj := by rw [hmoved.proc, hj]
  have hconf : Confined host s' (s'.setOffset j oj (g oj.offset)) := .of_ofdTable _
  rw [exec_bind_of_ok (exec_modifyOffset hj')]
  exact ⟨hconf, fun _ _ hB => (hstep hB).move hj hreg hmoved hfg⟩

lemma ensures_writeHere {data : List UInt8}
    (hstep : InStep host fd s) (ho : s.proc.ofdTable i = some o) (hreg : o.fileType = .Regular)
    (hw : Within s.proc.fsizeLimit ((host.cursor s.trace o.hostHandle).toInt + data.length)) :
    Ensures (· = s) (do
      let n ← hostWrite host o.hostHandle data
      modifyOffset i fun offset => offset + Int64.ofNat n
      pure n) (Confined host) fun _ s' => InStep host fd s' := by
  refine ensures_bind Confined.trans (ensures_hostWrite (.inr hw)) fun n => ?_
  exact (ensures_advance (fun _ => hstep) ho hreg rfl).mono (fun _ h => h) fun _ _ h => h trivial

lemma ensures_hostFileWrite (hl : s.lookup fd = some (i, o)) (hreg : o.fileType = .Regular)
    (hpos : 0 < buf.len) (hstep : InStep host fd s) (hstart : s.startOf host o none = .ok start)
    (hw : Within s.proc.fsizeLimit (start + buf.len)) :
    Ensures (· = s) (hostFileWrite host i o buf) (Confined host) fun _ s' => InStep host fd s' := by
  obtain ⟨-, ho⟩ := ofdTable_of_lookup hl
  have hmem : o.fileType ≠ .MemFd := by
    rw [hreg]
    decide
  unfold hostFileWrite seekEndIfAppend
  by_cases happ : o.isAppend
  · rw [if_pos ⟨hpos, happ⟩, bind_assoc]
    refine ensures_bind Confined.trans (ensures_hostSeek host o.hostHandle) fun pos => ?_
    rintro s1 ⟨hpos', hmoved⟩
    have ho1 : s1.proc.ofdTable i = some o := by rw [hmoved.proc, ho]
    have hstep1 : InStep host fd (s1.setOffset i o pos) := hstep.move ho hreg hmoved rfl
    -- the end of the file is where the budget took the write to start
    have hend : pos.toInt ≤ start := by
      rw [World.startOf, writeStart, if_neg hmem, if_pos happ] at hstart
      simp only [hostFstatSize, exec_query] at hstart
      cases hf : host.fstat s.trace o.hostHandle with
      | error => simp [hf, Except.map] at hstart
      | ok =>
        rw [hf] at hstart
        rw [hpos', Host.seekTarget, Int64.add_zero, ← Except.ok.inj hstart]
        exact Int.self_le_toNat _
    have hcur : host.cursor s1.trace o.hostHandle = pos := (hmoved.cursor _).trans (if_pos rfl)
    rw [exec_bind_of_ok (exec_modifyOffset ho1)]
    have hhere := ensures_writeHere (o := { o with offset := pos }) hstep1
      (update_self _ _ _) hreg (by
        change Within s1.proc.fsizeLimit ((host.cursor s1.trace o.hostHandle).toInt + buf.len)
        rw [hcur, hmoved.proc]
        exact hw.imp_right fun h => by omega)
    obtain ⟨hconf, hok⟩ := hhere _ rfl
    exact ⟨.trans _ _ _ (.of_ofdTable _) hconf, hok⟩
  · have hoff : o.offset.toInt = start := by
      rw [World.startOf, writeStart, if_neg hmem, if_neg happ] at hstart
      exact toU64_eq_ok hstart
    obtain ⟨hcur, -⟩ := hstep i o hl hreg (Bool.eq_false_iff.mpr happ)
    rw [if_neg fun h => happ h.2]
    refine ensures_writeHere hstep ho hreg ?_
    rw [← hcur, hoff]
    exact hw

/-- Only memfds have changed. -/
def SameFiles (s s' : World) : Prop := s'.proc = s.proc ∧ s'.trace = s.trace

lemma SameFiles.refl (s : World) : SameFiles s s := ⟨rfl, rfl⟩

lemma SameFiles.trans (s1 s2 s3 : World) (h1 : SameFiles s1 s2) (h2 : SameFiles s2 s3) :
    SameFiles s1 s3 := ⟨h2.1.trans h1.1, h2.2.trans h1.2⟩

lemma InStep.of_sameFiles (h : InStep host fd s) (hs : SameFiles s s') : InStep host fd s' :=
  h.congr (congrArg _ hs.1) (congrArg _ hs.1) fun _ => by rw [hs.2]

lemma getMemfd_sameFiles (o : OpenFileDesc) : Respects SameFiles (getMemfd o) := by
  intro s
  simp only [getMemfd, exec_query]
  split <;> exact .refl s

lemma memfdWrite_sameFiles : Respects SameFiles (memfdWrite o buf) := by
  have hset : ∀ b, Respects SameFiles (setMemfd o b) := fun _ _ => ⟨rfl, rfl⟩
  refine respects_bind SameFiles.trans (getMemfd_sameFiles o) fun b => ?_
  refine respects_bind SameFiles.trans (respects_ofExcept SameFiles.refl _) fun offset => ?_
  refine respects_bind SameFiles.trans (hset _) fun _ => ?_
  refine respects_bind SameFiles.trans (respects_ofExcept SameFiles.refl _) fun start => ?_
  split
  · exact respects_throw SameFiles.refl _
  refine respects_bind SameFiles.trans (hset _) fun _ => ?_
  cases checkedAddLen offset buf.len with
  | none => exact respects_throw SameFiles.refl _
  | some => exact respects_bind SameFiles.trans (hset _) fun _ => respects_pure SameFiles.refl _

lemma ensures_budget {offset : Option Int64}
    {k : Nat → Io α} {Q : α → World → Prop} (hl : s.lookup fd = some (i, o)) (hfile : o.IsFile)
    (hacc : (o.isPathOnly || o.isReadOnly) = false) (hlen : len ≤ w.usizeMax) (hpos : 0 < len)
    (hk : ∀ start n, s.startOf host o offset = .ok start → Granted s.proc.fsizeLimit start len n →
      Ensures (· = s) (k n) (Confined host) Q) :
    Ensures (· = s) (writeOperationBudget w host fd offset len >>= k) (Confined host) Q := by
  rintro s rfl
  have hconf := writeOperationBudget_confined host w fd offset len s
  rcases writeOperationBudget_cases host offset hl hfile hacc hlen hpos with
    ⟨e, -, hrun⟩ | ⟨start, hstart, ⟨n, hrun, hgrant⟩ | ⟨hrun, -⟩⟩
  · rw [exec_bind_of_error hrun]
    exact ⟨.refl host s, nofun⟩
  · rw [exec_bind_of_ok hrun]
    exact hk start n hstart hgrant s rfl
  · rw [hrun] at hconf
    rw [exec_bind_of_error hrun]
    exact ⟨hconf, nofun⟩

lemma ensures_sysWrite :
    Ensures (InStep host fd) (sysWrite host fd buf) (Confined host) fun _ s' =>
      InStep host fd s' := by
  intro s hstep
  unfold sysWrite
  cases hl : s.lookup fd with
  | none =>
    rw [exec_getOfd_bind_none hl]
    exact ⟨.refl host s, nofun⟩
  | some io =>
    obtain ⟨i, o⟩ := io
    rw [exec_getOfd_bind hl]
    dsimp only
    split
    · exact ⟨.refl host s, nofun⟩
    next hacc =>
    split
    · exact ⟨.refl host s, fun _ _ => hstep⟩
    next hpos =>
    have hpos := Nat.pos_of_ne_zero hpos
    split
    · exact ⟨.of_call trivial, fun _ _ => hstep.congr rfl rfl fun _ => rfl⟩
    next hfile =>
    rw [not_isFile, not_not] at hfile
    refine ensures_budget hl hfile (Bool.eq_false_iff.mpr hacc) buf.len_le_usizeMax hpos
      (fun start n hstart hgrant => ?_) s rfl
    have hw : Within s.proc.fsizeLimit (start + (buf.take n).len) := by
      rw [hgrant.take_len]
      exact hgrant.within
    have hpos' : 0 < (buf.take n).len := by
      rw [hgrant.take_len]
      exact hgrant.pos hpos
    split
    · next hmem =>
      rintro s rfl
      exact ⟨memfdWrite_confined hmem hpos' hstart hw,
        fun _ _ => hstep.of_sameFiles (memfdWrite_sameFiles s)⟩
    · next hmem => exact ensures_hostFileWrite hl (hfile.resolve_right hmem) hpos' hstep hstart hw

lemma checkPositioned_ok {wrongMode : Bool} (h : checkPositioned o offset wrongMode = .ok ()) :
    o.isPathOnly = false ∧ wrongMode = false ∧ 0 ≤ offset.toInt := by
  unfold checkPositioned at h
  split at h
  · cases h
  next hpath =>
  split at h
  · cases h
  next hneg =>
  split at h
  · cases h
  · next hmode => exact ⟨Bool.eq_false_iff.mpr hpath, Bool.eq_false_iff.mpr hmode, by omega⟩

lemma ensures_seekBack {x : Io α} {moved : α → Int64 → Int64}
    (hx : ∀ s1, s1.proc = s.proc → host.cursor s1.trace o.hostHandle = offset →
      Ensures (· = s1) x (Confined host) fun a s2 => Moved host o.hostHandle (moved a) s1 s2) :
    Ensures (· = s) (do
      let _ ← hostSeek host o.hostHandle offset .set
      let a ← x
      let _ ← hostSeek host o.hostHandle o.offset .set
      pure a) (Confined host) fun _ s' => Moved host o.hostHandle (fun _ => o.offset) s s' := by
  refine ensures_bind Confined.trans (ensures_hostSeek host o.hostHandle) fun pos => ?_
  rintro s1 ⟨hpos, hmoved⟩
  have hcur := ((hmoved.cursor o.hostHandle).trans (if_pos rfl)).trans hpos
  refine ensures_bind Confined.trans (hx s1 hmoved.proc hcur) (fun a => ?_) s1 rfl
  intro s2 hmoved2
  refine ensures_bind Confined.trans (ensures_hostSeek host o.hostHandle) (fun pos' => ?_) s2 rfl
  rintro s3 ⟨hpos', hmoved3⟩
  have hback := (hmoved.trans hmoved2).trans hmoved3
  rw [show pos' = o.offset from hpos'] at hback
  exact ⟨.refl host s3, fun _ _ => hback⟩

lemma ensures_hostFilePwrite
    (hw : buf.bytes = [] ∨ Within s.proc.fsizeLimit (offset.toInt + buf.len)) :
    Ensures (· = s) (hostFilePwrite host o buf offset) (Confined host)
      fun _ s' => Moved host o.hostHandle (fun _ => o.offset) s s' := by
  refine ensures_seekBack fun s1 hproc hcur => ensures_hostWrite ?_
  rw [hcur, hproc]
  exact hw

lemma sysPwrite_confined (h : 0 < buf.len ∨ Within s.proc.fsizeLimit offset.toInt ∨
      ∀ i o b, s.lookup fd = some (i, o) → o.fileType = .MemFd → s.memfds o.memfdIdx = some b →
        offset.toInt ≤ b.data.length) :
    Confined host s (exec (sysPwrite host fd buf offset) s).2 := by
  unfold sysPwrite
  cases hl : s.lookup fd with
  | none =>
    rw [exec_getOfd_bind_none hl]
    exact .refl host s
  | some io =>
    obtain ⟨i, o⟩ := io
    rw [exec_getOfd_bind hl, exec_bind, exec_ofExcept]
    cases hc : checkPositioned o offset o.isReadOnly with
    | error => exact .refl host s
    | ok =>
      obtain ⟨hpath, hro, hneg⟩ := checkPositioned_ok hc
      dsimp only
      split
      · exact .of_call trivial
      next hfile =>
      rw [not_isFile, not_not] at hfile
      have hacc : (o.isPathOnly || o.isReadOnly) = false := by rw [hpath, hro]; rfl
      rcases Nat.eq_zero_or_pos buf.len with hempty | hpos
      · have hbudget :
            exec (writeOperationBudget w host fd (some offset) buf.len) s = (.ok 0, s) := by
          rw [writeOperationBudget, exec_getOfd_bind hl]
          simp [hacc, hempty]
        rw [exec_bind_of_ok hbudget]
        split
        · next hmem =>
          refine memfdPwrite_confined ((h.resolve_left (by omega)).imp (fun hw => ?_) fun hle =>
            ⟨rfl, fun b => hle i o b hl hmem⟩)
          rw [Slice.len_take, Nat.zero_min]
          simpa using hw
        · exact (ensures_hostFilePwrite (.inl rfl) s rfl).1
      · refine (ensures_budget (Q := fun _ _ => True) hl hfile hacc buf.len_le_usizeMax hpos
          (fun start n hstart hgrant => ?_) s rfl).1
        have hw : Within s.proc.fsizeLimit (offset.toInt + (buf.take n).len) := by
          rw [hgrant.take_len, toU64_eq_ok hstart]
          exact hgrant.within
        rintro s rfl
        split
        · exact ⟨memfdPwrite_confined (.inl hw), fun _ _ => trivial⟩
        · exact ⟨(ensures_hostFilePwrite (.inr hw) s rfl).1, fun _ _ => trivial⟩

lemma ensures_sysRead (fdIn : Int) (n : Nat) :
    Ensures (fun s => B → InStep host fd s) (sysRead w host fdIn n) (Confined host)
      fun _ s' => B → InStep host fd s' := by
  intro s hstep
  unfold sysRead
  cases hl : s.lookup fdIn with
  | none =>
    rw [exec_getOfd_bind_none hl]
    exact ⟨.refl host s, nofun⟩
  | some io =>
    obtain ⟨j, o⟩ := io
    obtain ⟨-, ho⟩ := ofdTable_of_lookup hl
    rw [exec_getOfd_bind hl]
    dsimp only
    split
    · exact ⟨.refl host s, nofun⟩
    split
    · cases hb : s.memfds o.memfdIdx with
      | none =>
        rw [exec_bind_of_error (exec_getMemfd_none hb)]
        exact ⟨.refl host s, nofun⟩
      | some b =>
        rw [exec_bind_of_ok (exec_getMemfd hb)]
        cases toUsize w b.offset with
        | error => exact ⟨.refl host s, nofun⟩
        | ok => exact ⟨confined_memfd_offset hb _, fun _ _ hB => (hstep hB).of_sameFiles ⟨rfl, rfl⟩⟩
    · split
      · exact ⟨.of_call trivial, fun _ _ hB => (hstep hB).congr rfl rfl fun _ => rfl⟩
      next hother =>
      have hreg : o.fileType = .Regular := of_not_not fun h => hother (.inl h)
      exact ensures_bind Confined.trans (ensures_hostRead host o.hostHandle)
        (fun bytes => ensures_advance hstep ho hreg rfl) s rfl

lemma ensures_sysPread {fdIn : Int} {n : Nat} :
    Ensures (fun s => B → InStep host fd s) (sysPread w host fdIn n offset) (Confined host)
      fun _ s' => B → InStep host fd s' := by
  intro s hstep
  unfold sysPread
  cases hl : s.lookup fdIn with
  | none =>
    rw [exec_getOfd_bind_none hl]
    exact ⟨.refl host s, nofun⟩
  | some io =>
    obtain ⟨j, o⟩ := io
    obtain ⟨-, ho⟩ := ofdTable_of_lookup hl
    rw [exec_getOfd_bind hl, exec_bind, exec_ofExcept]
    cases checkPositioned o offset o.isWriteOnly with
    | error => exact ⟨.refl host s, nofun⟩
    | ok =>
      dsimp only
      split
      · rw [exec_bind, exec_ofExcept]
        cases toUsize w offset with
        | error => exact ⟨.refl host s, nofun⟩
        | ok =>
          cases hb : s.memfds o.memfdIdx with
          | none =>
            dsimp only
            rw [exec_bind_of_error (exec_getMemfd_none hb)]
            exact ⟨.refl host s, nofun⟩
          | some =>
            dsimp only
            rw [exec_bind_of_ok (exec_getMemfd hb)]
            exact ⟨.refl host s, fun _ _ => hstep⟩
      · split
        · exact ⟨.of_call trivial, fun _ _ hB => (hstep hB).congr rfl rfl fun _ => rfl⟩
        next hother =>
        have hreg : o.fileType = .Regular := of_not_not fun h => hother (.inl h)
        exact (ensures_seekBack fun s1 _ _ => ensures_hostRead host o.hostHandle).mono
          (fun _ h => h) (fun _ _ hmoved hB => (hstep hB).restore ho hreg hmoved) s rfl

end Kandelo.Kernel.File
