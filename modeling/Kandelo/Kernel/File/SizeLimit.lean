import Kandelo.Kernel.File.Confined

/-!
# The limit on file sizes

Any run of calls that write, each of them ready, keeps below the soft
`RLIMIT_FSIZE`. The calls made of several transfers check the limit for the whole and again for
each part; the parts of one call keep its descriptor in step with the host.
-/

namespace Kandelo.Kernel.File

open Lib Effect List

variable {α : Type} {total i start n : Nat} {o : OpenFileDesc} {offset : Option Int64} {e : Errno}
  {w : PointerWidth} {host : Host} {fd : Int} {s s' : World} {buf : Slice w}

/-! ### Loops -/

lemma ensures_done {P : World → Prop} {a : α} :
    Ensures P (pure a : Io α) (Confined host) fun _ _ => True :=
  ensures_pure (Confined.refl host) fun _ _ => trivial

lemma ensures_orElseTotal {P : World → Prop} {Q : α → World → Prop}
    {x : Io α} {k : α → Io Nat} (hx : Ensures P x (Confined host) Q)
    (hk : ∀ a, Ensures (Q a) (k a) (Confined host) fun _ _ => True) :
    Ensures P (orElseTotal total x k) (Confined host) fun _ _ => True := by
  refine ensures_bind Confined.trans (ensures_attempt hx) fun r => ?_
  cases r with
  | ok a => exact (hk a).mono (fun _ h => h a rfl) fun _ _ h => h
  | error e =>
    dsimp only
    split
    · exact ensures_done
    · exact fun s _ => ⟨.refl host s, nofun⟩

variable (writableLen : Nat) (bufs : List (Slice w))

lemma ensures_writevLoop (total : Nat) :
    Ensures (InStep host fd) (writevLoop host fd writableLen bufs total) (Confined host)
      fun _ _ => True := by
  induction bufs generalizing total with
  | nil => exact ensures_done
  | cons buf bufs ih =>
    unfold writevLoop
    split
    · exact ensures_done
    split
    · exact ih total
    refine ensures_orElseTotal ensures_sysWrite fun n => ?_
    split
    · exact ensures_done
    · exact ih (total + n)

/-! ### Results of a transfer -/

lemma le_of_map_min {r : Except Errno Nat} {n len : Nat} (h : r.map (min · len) = .ok n) :
    n ≤ len := by
  cases r with
  | error => cases h
  | ok m => exact Except.ok.inj h ▸ Nat.min_le_right m len

variable (handle : Int) (data : List UInt8)

lemma returns_hostWrite :
    Returns (· ≤ data.length) (hostWrite host handle data) := fun _ _ hn => le_of_map_min hn

lemma returns_memfdPwrite {offset : Int64} : Returns (· ≤ buf.len) (memfdPwrite o buf offset) := by
  refine returns_bind returns_true fun start _ => ?_
  split
  · exact returns_throw _
  · exact returns_bind returns_true fun _ _ => returns_bind returns_true fun _ _ =>
      returns_pure (Nat.le_refl _)

lemma returns_hostFilePwrite {offset : Int64} :
    Returns (· ≤ buf.len) (hostFilePwrite host o buf offset) := by
  refine returns_bind returns_true fun _ _ => returns_bind (returns_hostWrite _ _) fun n hn => ?_
  exact returns_bind returns_true fun _ _ => returns_pure hn

lemma returns_sysPwrite (offset : Int64) :
    Returns (· ≤ buf.len) (sysPwrite host fd buf offset) := by
  have htake : ∀ n m, m ≤ (buf.take n).len → m ≤ buf.len := fun n m hm => by
    rw [Slice.len_take] at hm
    exact Nat.le_trans hm (Nat.min_le_right _ _)
  refine returns_bind returns_true fun ⟨i, o⟩ _ => returns_bind returns_true fun _ _ => ?_
  split
  · exact fun _ _ hn => le_of_map_min hn
  refine returns_bind returns_true fun writable _ => ?_
  split
  · exact fun s m hm => htake writable m (returns_memfdPwrite s m hm)
  · exact fun s m hm => htake writable m (returns_hostFilePwrite s m hm)

/-! ### Positioned writes and copies -/

lemma ensures_sysPwrite (hpos : 0 < buf.len) {offset : Int64} :
    Ensures (fun _ => True) (sysPwrite host fd buf offset) (Confined host) fun n _ => n ≤ buf.len :=
  fun s _ => ⟨sysPwrite_confined (.inl hpos), returns_sysPwrite offset s⟩

lemma ensures_pwritevLoop (htotal : total ≤ writableLen) (offset : Int64) :
    Ensures (fun _ => True) (pwritevLoop host fd writableLen bufs total offset) (Confined host)
      fun _ _ => True := by
  induction bufs generalizing total offset with
  | nil => exact ensures_done
  | cons buf bufs ih =>
    unfold pwritevLoop
    split
    · exact ensures_done
    split
    · exact ih htotal offset
    have hlen : (buf.take (min buf.len (writableLen - total))).len =
        min buf.len (writableLen - total) := by
      rw [Slice.len_take]
      omega
    refine ensures_orElseTotal (ensures_sysPwrite (by omega)) fun n => ?_
    intro s hn
    cases checkedAddLen offset n with
    | none => exact ⟨.refl host s, fun _ _ => trivial⟩
    | some offset' =>
      dsimp only
      split
      · exact ⟨.refl host s, fun _ _ => trivial⟩
      · exact ih (by omega) offset' s trivial

/-- What a copy needs of its output: it is in step, unless a position is given. -/
def OutReady (host : Host) (fdOut : Int) (offOut : Option Int64) (s : World) : Prop :=
  offOut = none → InStep host fdOut s

variable (fdIn : Int)

lemma ensures_readAt (offIn offOut : Option Int64) :
    Ensures (OutReady host fd offOut) (readAt w host fdIn n offIn) (Confined host)
      fun _ s' => OutReady host fd offOut s' := by
  cases offIn with
  | none => exact ensures_sysRead fdIn n
  | some offset => exact ensures_sysPread

lemma ensures_writeAt (hpos : 0 < buf.len) (offOut : Option Int64) :
    Ensures (OutReady host fd offOut) (writeAt host fd buf offOut) (Confined host)
      fun _ s' => OutReady host fd offOut s' := by
  cases offOut with
  | none => exact ensures_sysWrite.mono (fun _ h => h rfl) fun _ _ h _ => h
  | some offset => exact (ensures_sysPwrite hpos).mono (fun _ _ => trivial) fun _ _ _ h => nomatch h

lemma ensures_copyLoop (writableLen rounds total : Nat) (offIn offOut : Option Int64) :
    Ensures (OutReady host fd offOut)
      (copyLoop w host fdIn fd writableLen rounds total offIn offOut) (Confined host)
      fun _ _ => True := by
  induction rounds generalizing total offIn offOut with
  | zero => exact ensures_done
  | succ rounds ih =>
    unfold copyLoop
    split
    · exact ensures_done
    refine ensures_orElseTotal (ensures_readAt _ offIn offOut) fun bytes => ?_
    split
    · exact ensures_done
    next hne =>
    have hpos : 0 < (chunk w bytes).len := by
      have := length_pos_iff.mpr hne
      simp only [chunk, Slice.len, length_take, copyBufLen]
      omega
    refine ensures_orElseTotal (ensures_writeAt hpos offOut) fun written => ?_
    split
    · exact ensures_done
    · refine (ih _ _ _).mono (fun s h hnone => h ?_) fun _ _ h => h
      simpa using hnone

/-! ### A single write -/

/-- A write after its budget is known. -/
def granted (host : Host) (i : Nat) (o : OpenFileDesc) (buf : Slice w) : Option Int64 → Io Nat
  | none => if o.fileType = .MemFd then memfdWrite o buf else hostFileWrite host i o buf
  | some offset =>
    if o.fileType = .MemFd then memfdPwrite o buf offset else hostFilePwrite host o buf offset

lemma exec_writeAt (hl : s.lookup fd = some (i, o)) (hfile : o.IsFile)
    (hacc : (o.isPathOnly || o.isReadOnly) = false) (hpos : 0 < buf.len)
    (hstart : s.startOf host o offset = .ok start) :
    exec (writeAt host fd buf offset) s =
      exec (writeOperationBudget w host fd offset buf.len >>= fun n =>
        granted host i o (buf.take n) offset) s := by
  have hnot : ¬ (o.fileType ≠ .Regular ∧ o.fileType ≠ .MemFd) := by
    rw [OpenFileDesc.not_isFile, not_not]
    exact hfile
  cases offset with
  | none =>
    rw [writeAt, sysWrite, exec_getOfd_bind hl]
    simp only [hacc, Nat.ne_of_gt hpos, if_neg hnot]
    rfl
  | some offset =>
    have hneg : ¬ offset.toInt < 0 := by
      have := toU64_eq_ok hstart
      omega
    have hstream : o.fileType.isStream = false := by rcases hfile with h | h <;> rw [h] <;> rfl
    obtain ⟨hpath, hro⟩ := Bool.or_eq_false_iff.mp hacc
    have hcheck : checkPositioned o offset o.isReadOnly = .ok () := by
      simp [checkPositioned, hpath, hro, hneg, hstream]
    rw [writeAt, sysPwrite, exec_getOfd_bind hl]
    simp only [hcheck, if_neg hnot]
    rfl

/-- No signal was sent. -/
def SameSignals (s s' : World) : Prop := s'.proc.xfsz = s.proc.xfsz

lemma sameSignals_trans (s1 s2 s3 : World) (h1 : SameSignals s1 s2) (h2 : SameSignals s2 s3) :
    SameSignals s1 s3 := Eq.trans h2 h1

lemma sameSignals_of_sameFiles {x : Io α} (h : Respects SameFiles x) :
    Respects SameSignals x := fun s => congrArg Process.xfsz (h s).1

lemma modifyOffset_sameSignals (f : Int64 → Int64) : Respects SameSignals (modifyOffset i f) := by
  intro s
  simp only [modifyOffset, exec_query]
  split <;> exact Eq.refl _

lemma memfdPwrite_sameFiles (offset : Int64) : Respects SameFiles (memfdPwrite o buf offset) := by
  refine respects_bind SameFiles.trans (respects_ofExcept SameFiles.refl _) fun start => ?_
  split
  · exact respects_throw SameFiles.refl _
  · refine respects_bind SameFiles.trans (getMemfd_sameFiles o) fun b => ?_
    exact respects_bind SameFiles.trans (fun _ => ⟨rfl, rfl⟩) fun _ =>
      respects_pure SameFiles.refl _

lemma granted_sameSignals : Respects SameSignals (granted host i o buf offset) := by
  have hpure : ∀ n : Nat, Respects SameSignals (pure n : Io Nat) := respects_pure fun _ => Eq.refl _
  have hseek : ∀ off wh, Respects SameSignals (hostSeek host o.hostHandle off wh) :=
    fun _ _ _ => Eq.refl _
  have hwrite : Respects SameSignals (hostWrite host o.hostHandle buf.bytes) := fun _ => Eq.refl _
  cases offset with
  | none =>
    simp only [granted]
    split
    · exact sameSignals_of_sameFiles memfdWrite_sameFiles
    refine respects_bind sameSignals_trans ?_ fun _ => ?_
    · unfold seekEndIfAppend
      split
      · exact respects_bind sameSignals_trans (hseek _ _) fun _ => modifyOffset_sameSignals _
      · exact fun _ => Eq.refl _
    · refine respects_bind sameSignals_trans hwrite fun n => ?_
      exact respects_bind sameSignals_trans (modifyOffset_sameSignals _) fun _ => hpure n
  | some offset =>
    simp only [granted]
    split
    · exact sameSignals_of_sameFiles (memfdPwrite_sameFiles offset)
    refine respects_bind sameSignals_trans (hseek _ _) fun _ => ?_
    refine respects_bind sameSignals_trans hwrite fun n => ?_
    exact respects_bind sameSignals_trans (hseek _ _) fun _ => hpure n

/-- The error that the host has answered. -/
def HostCall.error? : HostCall → Option Errno
  | .seek _ _ _ (.error e) | .read _ _ (.error e) | .write _ _ (.error e) => some e
  | .seek _ _ _ (.ok _) | .read _ _ (.ok _) | .write _ _ (.ok _) | .other => none

/-- The last call to the host failed with `e`. -/
def HostFailed (e : Errno) (s : World) : Prop :=
  ∃ call tr, s.trace = call :: tr ∧ call.error? = some e

lemma fails_hostSeek {offset : Int64} {whence : Whence} :
    Fails HostFailed (hostSeek host handle offset whence) := by
  intro s e he
  simp only [hostSeek, exec_query] at he ⊢
  exact ⟨_, _, rfl, by rw [he]; rfl⟩

lemma fails_hostWrite : Fails HostFailed (hostWrite host handle data) := by
  intro s e he
  simp only [hostWrite, exec_query] at he ⊢
  exact ⟨_, _, rfl, by rw [he]; rfl⟩

lemma fails_modifyOffset (f : Int64 → Int64) : Fails HostFailed (modifyOffset i f) := by
  intro s e he
  simp only [modifyOffset, exec_query] at he
  split at he <;> cases he

lemma fails_granted (hmem : o.fileType ≠ .MemFd) :
    Fails HostFailed (granted host i o buf offset) := by
  cases offset with
  | none =>
    simp only [granted, if_neg hmem]
    refine fails_bind ?_ fun _ => fails_bind (fails_hostWrite _ _) fun n => ?_
    · unfold seekEndIfAppend
      split
      · exact fails_bind (fails_hostSeek _) fun _ => fails_modifyOffset _
      · exact fails_pure ()
    · exact fails_bind (fails_modifyOffset _) fun _ => fails_pure n
  | some =>
    simp only [granted, if_neg hmem]
    refine fails_bind (fails_hostSeek _) fun _ => fails_bind (fails_hostWrite _ _) fun n => ?_
    exact fails_bind (fails_hostSeek _) fun _ => fails_pure n

/-- A memfd cannot reach `size`, or is gone. -/
def MemfdOverflows (w : PointerWidth) (s : World) (o : OpenFileDesc) (size : Nat) : Prop :=
  o.fileType = .MemFd ∧ (s.memfds o.memfdIdx = none ∨ w.usizeMax < size ∨ 2 ^ 63 ≤ size)

lemma returns_granted : Returns (· ≤ buf.len) (granted host i o buf offset) := by
  cases offset with
  | none =>
    simp only [granted]
    split
    · refine returns_bind returns_true fun b _ => returns_bind returns_true fun off _ => ?_
      refine returns_bind returns_true fun _ _ => returns_bind returns_true fun start _ => ?_
      split
      · exact returns_throw _
      refine returns_bind returns_true fun _ _ => ?_
      cases checkedAddLen off buf.len with
      | none => exact returns_throw _
      | some => exact returns_bind returns_true fun _ _ => returns_pure (Nat.le_refl _)
    · refine returns_bind returns_true fun _ _ =>
        returns_bind (returns_hostWrite _ _) fun n hn => ?_
      exact returns_bind returns_true fun _ _ => returns_pure hn
  | some offset =>
    simp only [granted]
    split
    · exact returns_memfdPwrite
    · exact returns_hostFilePwrite

lemma toUsize_eq_error {x : Int64} (hx : x.toInt = n)
    (h : toUsize w x = .error e) : w.usizeMax < n := by
  unfold toUsize at h
  split at h
  · cases h
  · omega

lemma memfdOverflows_of_granted_error (hmem : o.fileType = .MemFd) (hpos : 0 < buf.len)
    (hstart : s.startOf host o offset = .ok start)
    (he : (exec (granted host i o buf offset) s).1 = .error e) :
    MemfdOverflows w s o (start + buf.len) := by
  refine ⟨hmem, ?_⟩
  cases hb : s.memfds o.memfdIdx with
  | none => exact .inl rfl
  | some =>
    right
    cases offset with
    | none =>
      have hoff := memfd_offset_eq_start hmem hb hpos hstart
      simp only [granted, if_pos hmem] at he
      rw [memfdWrite, exec_bind_of_ok (exec_getMemfd hb), exec_bind, exec_ofExcept] at he
      split at hoff
      · next offset heq =>
        rw [heq] at he
        dsimp only at he
        rw [exec_bind_of_ok exec_setMemfd, exec_bind, exec_ofExcept] at he
        cases hu : toUsize w offset with
        | error =>
          have := toUsize_eq_error hoff hu
          omega
        | ok =>
          have hstart' := toUsize_eq_ok hu
          rw [hu] at he
          dsimp only at he
          split at he
          · omega
          unfold checkedAddLen at he
          split at he
          · next hadd =>
            split at hadd
            · cases hadd
            · omega
          · cases he
      · omega
    | some offset =>
      have hoff := toU64_eq_ok hstart
      simp only [granted, if_pos hmem] at he
      rw [memfdPwrite, exec_bind, exec_ofExcept] at he
      cases hu : toUsize w offset with
      | error =>
        have := toUsize_eq_error hoff hu
        omega
      | ok =>
        have hstart' := toUsize_eq_ok hu
        rw [hu] at he
        dsimp only at he
        split at he
        · omega
        · rw [exec_bind_of_ok (exec_getMemfd hb)] at he
          cases he

variable (host)

/-- What the limit means for a single write of `buf` through `fd`, at a given position or at that
of the descriptor: if it starts below the limit, at most the part up to the limit is transferred,
without a signal, and only the host or the size of a memfd can make it fail; otherwise it fails
with `EFBIG`, a signal and no other effect. -/
def WriteObeysLimit (fd : Int) (buf : Slice w) (offset : Option Int64) (s : World) : Prop :=
  ∀ i o start, s.lookup fd = some (i, o) → o.IsFile → (o.isPathOnly || o.isReadOnly) = false →
    0 < buf.len → s.startOf host o offset = .ok start →
    let r := exec (writeAt host fd buf offset) s
    (s.proc.fsizeLimit = rlimInfinity ∨ start < s.proc.fsizeLimit →
      r.2.proc.xfsz = s.proc.xfsz ∧
      (∀ n, r.1 = .ok n → n ≤ buf.len ∧ Within s.proc.fsizeLimit (start + n)) ∧
      ∀ e, r.1 = .error e → HostFailed e r.2 ∨ MemfdOverflows w s o (start + buf.len)) ∧
    (s.proc.fsizeLimit ≠ rlimInfinity → s.proc.fsizeLimit ≤ start →
      r = (.error .EFBIG, s.raise start buf.len))

lemma writeObeysLimit (fd : Int) (buf : Slice w) (offset : Option Int64) (s : World) :
    WriteObeysLimit host fd buf offset s := by
  intro i o start hl hfile hacc hpos hstart r
  have hr : r = exec (writeAt host fd buf offset) s := rfl
  rw [exec_writeAt hl hfile hacc hpos hstart] at hr
  rcases writeOperationBudget_cases host offset hl hfile hacc buf.len_le_usizeMax hpos with
    ⟨e, herr, -⟩ | ⟨start', hstart', ⟨n, hrun, hgrant⟩ | ⟨hrun, hne, hle⟩⟩
  · rw [herr] at hstart
    cases hstart
  · have heq : start' = start := Except.ok.inj (hstart'.symm.trans hstart)
    rw [exec_bind_of_ok hrun] at hr
    refine ⟨fun _ => ⟨?_, fun m hm => ?_, fun e he => ?_⟩, fun hne hle => ?_⟩
    · rw [hr]
      exact granted_sameSignals s
    · rw [hr] at hm
      have hmn := returns_granted s m hm
      rw [hgrant.take_len] at hmn
      refine ⟨Nat.le_trans hmn hgrant.le, ?_⟩
      rcases hgrant.within with hinf | hin
      · exact .inl hinf
      · exact .inr (by omega)
    · by_cases hmem : o.fileType = .MemFd
      · rw [hr] at he
        have hov := memfdOverflows_of_granted_error hmem
          (by rw [hgrant.take_len]; exact hgrant.pos hpos) hstart he
        rw [hgrant.take_len] at hov
        refine .inr ⟨hmem, ?_⟩
        have := hgrant.le
        rcases hov.2 with h | h | h
        · exact .inl h
        · exact .inr (.inl (by omega))
        · exact .inr (.inr (by omega))
      · rw [hr] at he ⊢
        exact .inl (fails_granted hmem s e he)
    · rcases hgrant with ⟨hinf, -⟩ | ⟨hlt, -⟩
      · exact absurd hinf hne
      · omega
  · have heq : start' = start := Except.ok.inj (hstart'.symm.trans hstart)
    subst heq
    rw [exec_bind_of_error hrun] at hr
    refine ⟨fun h => ?_, fun _ _ => hr⟩
    rcases h with hinf | hlt
    · exact absurd hinf hne
    · omega

/-! ### Runs -/

/-- The calls that write to files. -/
inductive Call (w : PointerWidth)
  | write (fd : Int) (buf : Slice w)
  | writev (fd : Int) (bufs : List (Slice w))
  | pwrite (fd : Int) (buf : Slice w) (offset : Int64)
  | pwritev (fd : Int) (bufs : List (Slice w)) (offset : Int64)
  | sendfile (outFd inFd : Int) (offset : Int64) (count : Nat)
  | copyFileRange (fdIn : Int) (offIn : Option Int64) (fdOut : Int)
      (offOut : Option Int64) (len : Nat)

/-- The call. -/
def Call.perform (host : Host) : Call w → Io Nat
  | .write fd buf => sysWrite host fd buf
  | .writev fd bufs => sysWritev host fd bufs
  | .pwrite fd buf offset => sysPwrite host fd buf offset
  | .pwritev fd bufs offset => sysPwritev host fd bufs offset
  | .sendfile outFd inFd offset count => sysSendfile w host outFd inFd offset count
  | .copyFileRange fdIn offIn fdOut offOut len =>
    sysCopyFileRange w host fdIn offIn fdOut offOut len

/-- A call at the position of a descriptor finds it in step with the host. A positioned write is
not an empty one that makes a memfd longer than the limit. -/
def Call.Ready (s : World) : Call w → Prop
  | .write fd _ | .writev fd _ | .sendfile fd _ _ _ => InStep host fd s
  | .pwrite fd buf offset => 0 < buf.len ∨ Within s.proc.fsizeLimit offset.toInt ∨
      ∀ i o b, s.lookup fd = some (i, o) → o.fileType = .MemFd → s.memfds o.memfdIdx = some b →
        offset.toInt ≤ b.data.length
  | .pwritev .. => True
  | .copyFileRange _ _ fdOut offOut _ => OutReady host fdOut offOut s

lemma quiet_getOfd : Quiet (getOfd fd) := fun s _ _ => by rw [exec_getOfd]

lemma quiet_fsizeLimitedWriteLen (len : Nat) : Quiet (fsizeLimitedWriteLen w start len) := by
  unfold fsizeLimitedWriteLen
  split
  · exact quiet_pure
  refine quiet_bind (fun _ _ _ => rfl) fun limit => ?_
  split
  · exact quiet_pure
  split
  · exact nofun
  · dsimp only
    split <;> exact quiet_pure

variable {host}

lemma quiet_writeOperationBudget (len : Nat) :
    Quiet (writeOperationBudget w host fd offset len) := by
  refine quiet_bind quiet_getOfd fun ⟨i, o⟩ => ?_
  dsimp only
  split
  · exact quiet_throw _
  split
  · exact quiet_pure
  split
  · exact quiet_pure
  · exact quiet_bind (fun s _ _ => by rw [exec_writeStart])
      fun start => quiet_fsizeLimitedWriteLen len

variable (P : World → Prop)

lemma ensures_writeOperationBudget (len : Nat) :
    Ensures P (writeOperationBudget w host fd offset len) (Confined host) fun _ s' => P s' :=
  (quiet_writeOperationBudget len).ensures (writeOperationBudget_confined host w fd offset len)

lemma ensures_validateTransferInput :
    Ensures P (validateTransferInput fd offset) (Confined host) fun _ s' => P s' := by
  have hsame : ∀ s, (exec (validateTransferInput fd offset) s).2 = s := by
    intro s
    rw [validateTransferInput, exec_bind, exec_getOfd]
    cases s.lookup fd with
    | none => rfl
    | some =>
      dsimp only [Option.elim]
      split
      · rfl
      split
      · rfl
      split <;> rfl
  exact Quiet.ensures (fun s _ _ => hsame s) fun s => (hsame s).symm ▸ .refl host s

lemma sysCopyFileRange_confined (offIn offOut : Option Int64) (len : Nat)
    (h : OutReady host fd offOut s) :
    Confined host s (exec (sysCopyFileRange w host fdIn offIn fd offOut len) s).2 := by
  refine (ensures_bind (T := fun _ _ => True) Confined.trans
    (ensures_validateTransferInput _) (fun _ => ?_) s h).1
  refine ensures_bind Confined.trans (ensures_writeOperationBudget _ len) fun writableLen => ?_
  split
  · exact ensures_done
  · exact ensures_copyLoop fdIn writableLen writableLen 0 offIn offOut

lemma Call.perform_confined {c : Call w} (h : c.Ready host s) :
    Confined host s (exec (c.perform host) s).2 := by
  cases c with
  | write fd buf => exact (ensures_sysWrite s h).1
  | writev fd bufs =>
    refine (ensures_bind (Q := fun _ s' => InStep host fd s') (T := fun _ _ => True) Confined.trans
      (ensures_ofExcept (Confined.refl host) _ fun _ _ h => h) (fun len => ?_) s h).1
    exact ensures_bind Confined.trans (ensures_writeOperationBudget _ len)
      fun writableLen => ensures_writevLoop writableLen bufs 0
  | pwrite => exact sysPwrite_confined h
  | pwritev fd bufs offset =>
    refine (ensures_bind (Q := fun _ _ => True) (T := fun _ _ => True) Confined.trans
      (ensures_ofExcept (Confined.refl host) _ fun _ _ h => h) (fun len => ?_) s trivial).1
    exact ensures_bind Confined.trans (ensures_writeOperationBudget _ len)
      fun writableLen => ensures_pwritevLoop writableLen bufs (Nat.zero_le _) offset
  | sendfile outFd inFd offset count => exact sysCopyFileRange_confined inFd _ none count fun _ => h
  | copyFileRange fdIn offIn fdOut offOut len =>
    exact sysCopyFileRange_confined fdIn offIn offOut len h

/-- The state after a run of calls; a call that fails may have changed it too. -/
def runCalls (host : Host) : List (Call w) → World → World
  | [], s => s
  | c :: cs, s => runCalls host cs (exec (c.perform host) s).2

/-- Every call of a run is ready when its turn comes. -/
def AllReady (host : Host) : List (Call w) → World → Prop
  | [], _ => True
  | c :: cs, s => c.Ready host s ∧ AllReady host cs (exec (c.perform host) s).2

lemma runCalls_confined (host : Host) {calls : List (Call w)} (s : World)
    (h : AllReady host calls s) : Confined host s (runCalls host calls s) := by
  induction calls generalizing s with
  | nil => exact .refl host s
  | cons c cs ih => exact .trans _ _ _ (Call.perform_confined h.1) (ih _ h.2)

/-- In every run whose calls are ready, no byte goes to the host or into a memfd at or beyond the
limit, and `SIGXFSZ` is only sent for a write that is not empty and starts at or beyond it. A
single write that starts below the limit transfers the part up to the limit. -/
theorem fsizeLimit_obeyed (host : Host) (calls : List (Call w)) (s : World)
    (h : AllReady host calls s) :
    Confined host s (runCalls host calls s) ∧
      ∀ (fd : Int) (buf : Slice w) (offset : Option Int64) (s : World),
        WriteObeysLimit host fd buf offset s :=
  ⟨runCalls_confined host s h, writeObeysLimit host⟩

/-- A host that does what it is asked, with empty files; writes fail while `down` holds. -/
def simpleHost (down : Trace → Bool) : Host where
  start _ := 0
  size _ _ := 0
  fstat _ _ := .ok ()
  seek _ _ _ _ := .ok ()
  read _ _ _ := .ok []
  write tr _ data := if down tr then .error .ENOSPC else .ok data.length
  otherRead _ _ _ := .ok []
  otherWrite _ _ data := .ok data.length
  otherSeek _ _ _ := .ok 0

/-- A process with one descriptor, `3`, and a limit of ten bytes. -/
def oneFile (o : OpenFileDesc) (b : Option MemFdBacking) : World where
  proc :=
    ⟨fun fd => if fd = 3 then some 0 else none, fun i => if i = 0 then some o else none, 10, []⟩
  memfds k := if k = 0 then b else none
  trace := []

/-- A slice of zeros. -/
def zeros (n : Nat) (h : n < 100) : Slice .wasm32 where
  bytes := List.replicate n 0
  len_le := by
    rw [length_replicate]
    exact Nat.le_trans (Nat.le_of_lt h) (by decide)
  len_lt := by
    rw [length_replicate]
    exact Nat.lt_trans h (by decide)

/-- A regular file at its start. -/
def regularAtZero : OpenFileDesc := ⟨.Regular, oRdwr, 5, 0⟩

/-- A write that passes the limit in the middle. -/
theorem fsizeLimit_obeyed_oneFile :
    Confined (simpleHost fun _ => false) (oneFile regularAtZero none)
      (runCalls (simpleHost fun _ => false) [.write 3 (zeros 20 (by decide))]
        (oneFile regularAtZero none)) := by
  have hstep : InStep (simpleHost fun _ => false) 3 (oneFile regularAtZero none) := by
    intro i o hl _ _
    have hio : some (0, regularAtZero) = some (i, o) := hl
    cases hio
    refine ⟨rfl, fun j o' hj _ _ => ?_⟩
    by_cases hj0 : j = 0
    · exact hj0
    · simp [oneFile, hj0] at hj
  exact (fsizeLimit_obeyed _ [.write 3 (zeros 20 (by decide))] _ ⟨hstep, trivial⟩).1

/-- An empty `pwrite` at twenty makes an empty memfd twenty bytes long, beyond the limit of
ten. -/
theorem empty_pwrite_exceeds_limit :
    let s := oneFile ⟨.MemFd, oRdwr, -1, 0⟩ (some ⟨[], 0⟩)
    let s' := (exec (sysPwrite (simpleHost fun _ => false) 3 (zeros 0 (by decide)) 20) s).2
    s.proc.fsizeLimit = 10 ∧ byteAt (s.memfds 0) 15 = none ∧ byteAt (s'.memfds 0) 15 = some 0 := by
  decide +kernel

-- A `pwrite` that the host fails leaves the cursor behind; the next `write` is checked at zero and
-- put at nine.
example :
    let host := simpleHost fun tr => tr.length == 1
    let s := oneFile regularAtZero none
    let s1 := (exec (sysPwrite host 3 (zeros 1 (by decide)) 9) s).2
    (exec (sysWrite host 3 (zeros 5 (by decide))) s1).1 = .ok 5 ∧
      (host.cursor s1.trace 5).toInt = 9 := by
  decide +kernel

end Kandelo.Kernel.File
