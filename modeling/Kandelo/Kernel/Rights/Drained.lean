import Kandelo.Kernel.Pipe.Collection
import Kandelo.Kernel.Rights.Machine

/-!
# Collecting what nobody can receive

Messages that no process can receive are dropped, and what their descriptors held
is released until nothing is left to release. The loop ends, every message that is left can be
received, and a pipe that only released descriptors referred to is gone.
-/

namespace Kandelo.Kernel.Rights

open Lib List Option
open File (FileType)
open Pipe

variable {f : PipeBuffer → PipeBuffer} {rounds : Nat} {m : Machine} {t t' : PipeTable} {i j : Nat}
  {p q : PipeBuffer} {m' : Machine} {log rs : List DeferredRelease}

/-! ### Messages are kept or dropped -/

/-- Every queue is as it was or empty. -/
def Keeps (t t' : PipeTable) : Prop :=
  t'.slots.length = t.slots.length ∧ ∀ i, queueOf t' i = queueOf t i ∨ queueOf t' i = []

lemma Keeps.perm (h : Keeps t t') : (queued t).Perm ((dropped t t').flatten ++ queued t') := by
  have hsplit : ∀ i ∈ range t.slots.length, (queueOf t i).flatten =
      (if queueOf t' i = [] then queueOf t i else []).flatten ++ (queueOf t' i).flatten := by
    intro i _
    split
    · next hnil => rw [hnil, flatten_nil, append_nil]
    next hne =>
    rw [(h.2 i).resolve_right hne]
    rfl
  have hflat : (dropped t t').flatten = (range t.slots.length).flatMap fun i =>
      (if queueOf t' i = [] then queueOf t i else []).flatten := by
    rw [dropped, List.flatMap_def, List.flatten_flatten, List.map_map]
    rfl
  rw [hflat, queued, flatMap_congr hsplit, queued, h.1]
  exact (flatMap_append_perm _ _ _).symm

lemma keeps_update (h : ∀ p, (f p).ancillaryFds = p.ancillaryFds ∨ (f p).ancillaryFds = []) :
    Keeps t (t.update i f) := by
  constructor
  · exact length_modify _ _ _
  intro j
  rw [queueOf, queueOf, PipeTable.get_update]
  split
  · cases t.get j with
    | none => exact .inl rfl
    | some p => exact h p
  · exact .inl rfl

lemma keeps_freeFullyClosed : Keeps t (t.freeFullyClosed i) := by
  unfold PipeTable.freeFullyClosed
  split
  · refine ⟨length_set, fun j => ?_⟩
    rw [queueOf, PipeTable.get, Slots.get_clear]
    split
    · exact .inr rfl
    · exact .inl rfl
  · exact ⟨rfl, fun _ => .inl rfl⟩

lemma keeps_collect : Keeps t t.collectUnreachableAncillary := by
  refine ⟨length_mapIdx, fun j => ?_⟩
  rw [queueOf, PipeTable.get_collectUnreachableAncillary, queueOf]
  cases t.get j with
  | none => exact .inl rfl
  | some =>
    split
    · exact .inl rfl
    · exact .inr rfl

/-- The notes for descriptors that are dropped. -/
def notes (fds : List InFlightFd) : List DeferredRelease :=
  (fds.filter (·.ownsReference)).map InFlightFd.releaseMetadata

namespace Machine

/-! ### What is dropped is noted -/

@[simp] lemma pipes_dropEntries (m : Machine) (fds : List InFlightFd) :
    (m.dropEntries fds).pipes = m.pipes := by
  induction fds generalizing m with
  | nil => rfl
  | cons fd fds ih =>
    refine (ih _).trans ?_
    unfold dropEntry
    split <;> rfl

@[simp] lemma pipes_setPipes (m : Machine) (t : PipeTable) : (m.setPipes t).pipes = t :=
  pipes_dropEntries _ _

@[simp] lemma pipes_freeIfClosed (m : Machine) (i : Nat) :
    (m.freeIfClosed i).pipes = m.pipes.freeIfClosed i := by
  rw [freeIfClosed, collect, pipes_setPipes, pipes_setPipes, PipeTable.freeIfClosed]

@[simp] lemma pipes_closeEnd (m : Machine) (i : Nat) (f : PipeBuffer → PipeBuffer) :
    (m.closeEnd i f).pipes = (m.pipes.update i f).freeIfClosed i := by
  rw [closeEnd, pipes_freeIfClosed, pipes_setPipes]

lemma records_dropEntries (m : Machine) (fds : List InFlightFd) :
    (m.dropEntries fds).records = (notes fds).reverse ++ m.records := by
  induction fds generalizing m with
  | nil => rfl
  | cons fd fds ih =>
    refine (ih _).trans ?_
    unfold dropEntry notes
    cases hfd : fd.ownsReference with
    | false => rw [if_neg Bool.false_ne_true, filter_cons_of_neg (by simp [hfd])]
    | true =>
      rw [filter_cons_of_pos hfd, map_cons, reverse_cons, append_assoc]
      rfl

/-- Since `m` all that is no longer queued was noted, and the notes are in the log or still there.
-/
def Accounted (m : Machine) (log : List DeferredRelease) (t : PipeTable)
    (rs : List DeferredRelease) :
    Prop :=
  ∃ gone, (queued m.pipes).Perm (gone ++ queued t) ∧ (log ++ rs).Perm (m.records ++ notes gone)

lemma accounted_start (m : Machine) :
    Accounted m [] m.pipes m.records :=
  ⟨[], .rfl, by simp [notes]⟩

lemma Accounted.length_le (h : Accounted m [] t rs) : rs.length + (queued t).length ≤ m.weight := by
  obtain ⟨gone, hqueued, hrecords⟩ := h
  have hgone := hqueued.length_eq
  have hnotes := hrecords.length_eq
  have hle : (notes gone).length ≤ gone.length := by
    rw [notes, length_map]
    exact length_filter_le _ _
  rw [nil_append, length_append] at hnotes
  rw [length_append] at hgone
  rw [weight]
  omega

lemma Accounted.setPipes (h : Accounted m log m'.pipes m'.records) (hk : Keeps m'.pipes t) :
    Accounted m log (m'.setPipes t).pipes (m'.setPipes t).records := by
  obtain ⟨gone, hqueued, hrecords⟩ := h
  refine ⟨gone ++ (dropped m'.pipes t).flatten, ?_, ?_⟩
  · rw [pipes_setPipes, append_assoc]
    exact hqueued.trans (hk.perm.append_left gone)
  · have hnew :
        (m'.setPipes t).records.Perm (m'.records ++ notes (dropped m'.pipes t).flatten) := by
      rw [Machine.setPipes, records_dropEntries]
      exact perm_append_comm.trans ((reverse_perm _).append_left _)
    have hsplit : notes (gone ++ (dropped m'.pipes t).flatten) =
        notes gone ++ notes (dropped m'.pipes t).flatten := by
      rw [notes, filter_append, map_append]
      rfl
    rw [hsplit, ← append_assoc]
    refine (hnew.append_left log).trans ?_
    rw [← append_assoc]
    exact hrecords.append_right _

lemma Accounted.closeEnd (h : Accounted m log m'.pipes m'.records)
    (hf : ∀ p, (f p).ancillaryFds = p.ancillaryFds ∨ (f p).ancillaryFds = []) :
    Accounted m log (m'.closeEnd i f).pipes (m'.closeEnd i f).records := by
  have hclosed := h.setPipes (keeps_update (i := i) hf)
  have hfreed := hclosed.setPipes (keeps_freeFullyClosed (i := i))
  unfold Machine.closeEnd Machine.freeIfClosed Machine.collect
  exact hfreed.setPipes keeps_collect

end Machine

/-! ### The ends that a release closes -/

/-- An end of a pipe that is closed: a reference of a kind if there is one. -/
structure Closing where
  idx : Nat
  kind : Option RefKind
  close : PipeBuffer → PipeBuffer
  sound : ∀ p, (∃ k, kind = some k ∧ PipeBuffer.Loses k 1 p (close p)) ∨ kind = none ∧ close p = p

namespace Closing

/-- Close a reference of a pipe. -/
def reference (i : Nat) (kind : Option RefKind) : Closing where
  idx := i
  kind := kind
  close := fun p => kind.elim p p.releaseInFlightReference
  sound := by
    intro p
    cases kind with
    | none => exact .inr ⟨rfl, rfl⟩
    | some k => exact .inl ⟨k, rfl, p.loses_reference k⟩

/-- Close the write end of a socket. -/
def writer (i : Nat) : Closing where
  idx := i
  kind := some .Write
  close := (·.releaseInFlightWriter)
  sound := fun p => .inl ⟨_, rfl, p.loses_writer⟩

/-- Close the read end of a socket. -/
def reader (r : DeferredRelease) (i : Nat) : Closing where
  idx := i
  kind := some (.Read false)
  close := fun p =>
    if Machine.orderly r then p.releaseInFlightReaderOrderly else p.releaseInFlightReader
  sound := by
    intro p
    refine .inl ⟨_, rfl, ?_⟩
    split
    · exact .of_adopt (PipeBuffer.loses_closeReadEndOrderly _)
    · exact .of_adopt (PipeBuffer.loses_closeReadEnd _)

end Closing

/-- The ends that a release closes. -/
def closings (r : DeferredRelease) : List Closing :=
  match r.fileType with
  | .Pipe => if 0 ≤ r.hostHandle then [] else [.reference (pipeIdx r.hostHandle) r.pipeRefKind]
  | .Socket =>
    if r.socketGlobalPipes then
      r.socketSendIdx.toList.map .writer ++ r.socketRecvIdx.toList.map (.reader r)
    else []
  | .Regular | .Directory | .CharDevice | .EventFd | .Epoll | .TimerFd | .SignalFd | .MemFd
  | .PtyMaster | .PtySlave => []

variable (c : Closing)

lemma Closing.queue (p : PipeBuffer) :
    (c.close p).ancillaryFds = p.ancillaryFds ∨ (c.close p).ancillaryFds = [] := by
  obtain ⟨k, -, h⟩ | ⟨-, h⟩ := c.sound p
  · exact h.queue
  · exact .inl (congrArg _ h)

namespace Machine

/-- Close some ends. -/
def closeAll (m : Machine) : List Closing → Machine
  | [] => m
  | c :: cs => (m.closeEnd c.idx c.close).closeAll cs

/-- Pipes, notes and the counts of descriptors in flight are the same. -/
structure SameNotes (m m' : Machine) : Prop where
  pipes : m'.pipes = m.pipes
  records : m'.records = m.records
  ofdRefs : m'.ofdRefs = m.ofdRefs
  reserved : m'.reserved = m.reserved

lemma releaseDeferred_cases (m : Machine) (r : DeferredRelease) :
    (m.releaseDeferred r).2 = m.closeAll (closings r) ∨
      closings r = [] ∧ SameNotes m (m.releaseDeferred r).2 := by
  cases htype : r.fileType with
  | Pipe =>
    by_cases hh : 0 ≤ r.hostHandle
    · right
      simp only [closings, releaseDeferred, htype, if_pos hh]
      exact ⟨trivial, ⟨rfl, rfl, rfl, rfl⟩⟩
    · left
      simp [closings, releaseDeferred, backingOf, htype, if_neg hh, closeAll, Closing.reference]
  | Socket =>
    cases hglobal : r.socketGlobalPipes with
    | false =>
      right
      simp only [closings, releaseDeferred, htype, hglobal, Bool.false_eq_true, if_false]
      exact ⟨trivial, ⟨rfl, rfl, rfl, rfl⟩⟩
    | true =>
      left
      simp only [closings, releaseDeferred, backingOf, htype, hglobal, if_true]
      cases r.socketSendIdx <;> cases r.socketRecvIdx <;>
        simp only [Option.elim, Option.toList, map, nil_append,
          cons_append, closeAll, Closing.writer, Closing.reader]
  | PtyMaster | PtySlave =>
    right
    simp only [closings, releaseDeferred, backingOf, htype, releasePty, true_and]
    split
    · exact ⟨rfl, rfl, rfl, rfl⟩
    · split <;> exact ⟨rfl, rfl, rfl, rfl⟩
  | Regular =>
    right
    simp only [closings, releaseDeferred, htype, true_and]
    split
    · next b i _ => cases i <;> exact ⟨rfl, rfl, rfl, rfl⟩
    · split <;> exact ⟨rfl, rfl, rfl, rfl⟩
  | Directory | CharDevice =>
    right
    simp only [closings, releaseDeferred, backingOf, htype, true_and]
    split <;> exact ⟨rfl, rfl, rfl, rfl⟩
  | EventFd | TimerFd | SignalFd | MemFd =>
    right
    simp only [closings, releaseDeferred, backingOf, htype, true_and]
    cases negativeHandleIdx r.hostHandle <;> exact ⟨rfl, rfl, rfl, rfl⟩
  | Epoll =>
    right
    simp only [closings, releaseDeferred, htype, true_and]
    exact ⟨rfl, rfl, rfl, rfl⟩

lemma releaseDeferred_rule {P : PipeTable → List DeferredRelease → Prop}
    (hclose : ∀ (m : Machine) (c : Closing), P m.pipes m.records →
      P (m.closeEnd c.idx c.close).pipes (m.closeEnd c.idx c.close).records)
    (m : Machine) (r : DeferredRelease) (h : P m.pipes m.records) :
    P (m.releaseDeferred r).2.pipes (m.releaseDeferred r).2.records := by
  have hall (cs : List Closing) (m : Machine) (h : P m.pipes m.records) :
      P (m.closeAll cs).pipes (m.closeAll cs).records := by
    induction cs generalizing m with
    | nil => exact h
    | cons c cs ih =>
      rw [closeAll]
      exact ih _ (hclose m c h)
  obtain heq | ⟨-, hsame⟩ := m.releaseDeferred_cases r
  · rw [heq]
    exact hall _ m h
  · rw [hsame.pipes, hsame.records]
    exact h

/-- Working off a note logs it, and notes what is dropped. -/
lemma Accounted.releaseNext {r : DeferredRelease} {rest : List DeferredRelease}
    (h : Accounted m log m'.pipes m'.records) (hrecords : m'.records = r :: rest) :
    Accounted m (log ++ [r]) (m'.releaseNext r rest).pipes (m'.releaseNext r rest).records := by
  refine releaseDeferred_rule (P := Accounted m (log ++ [r])) (fun m c hm => hm.closeEnd c.queue)
    { m' with records := rest } r ?_
  rw [hrecords] at h
  rwa [Accounted, append_assoc, singleton_append]

lemma weight_releaseNext {r : DeferredRelease} {rest : List DeferredRelease}
    (h : m.records = r :: rest) : (m.releaseNext r rest).weight < m.weight := by
  have hnext := releaseDeferred_rule (P := Accounted { m with records := rest } [])
    (fun _ c hm => hm.closeEnd c.queue) _ r (accounted_start { m with records := rest })
  refine Nat.lt_of_le_of_lt hnext.length_le ?_
  change rest.length + (queued m.pipes).length < m.records.length + _
  rw [h, length_cons]
  omega

lemma records_drainLoop (h : m.weight ≤ rounds) : (m.drainLoop rounds).2.records = [] := by
  induction rounds generalizing m with
  | zero =>
    have hlen : m.records.length ≤ m.weight := Nat.le_add_right _ _
    exact length_eq_zero_iff.mp (by change m.records.length = 0; omega)
  | succ rounds ih =>
    cases hrecords : m.records with
    | nil => simp only [drainLoop, hrecords]
    | cons =>
      have hlt := weight_releaseNext hrecords
      simp only [drainLoop, hrecords]
      exact ih (by omega)

lemma Accounted.drainLoop (h : Accounted m log m'.pipes m'.records) :
    Accounted m (log ++ (m'.drainLoop rounds).1) (m'.drainLoop rounds).2.pipes
      (m'.drainLoop rounds).2.records := by
  induction rounds generalizing m' log with
  | zero => simpa only [Machine.drainLoop, append_nil] using h
  | succ rounds ih =>
    cases hrecords : m'.records with
    | nil => simpa only [Machine.drainLoop, hrecords, append_nil] using h
    | cons r rest =>
      simp only [Machine.drainLoop, hrecords]
      rw [append_cons]
      exact ih (h.releaseNext hrecords)

/-! ### What is left -/

lemma drainLoop_rule {P : PipeTable → List Closing → Prop}
    (hclose : ∀ t cs c, P t cs → P ((t.update c.idx c.close).freeIfClosed c.idx) (cs ++ [c]))
    (cs : List Closing) (h : P m.pipes cs) :
    P (m.drainLoop rounds).2.pipes (cs ++ (m.drainLoop rounds).1.flatMap closings) := by
  have hall (new : List Closing) (m : Machine) (cs : List Closing) (h : P m.pipes cs) :
      P (m.closeAll new).pipes (cs ++ new) := by
    induction new generalizing m cs with
    | nil =>
      rw [append_nil]
      exact h
    | cons c new ih =>
      have hnext := hclose m.pipes cs c h
      rw [← pipes_closeEnd] at hnext
      rw [closeAll, append_cons]
      exact ih _ _ hnext
  induction rounds generalizing m cs with
  | zero => simpa only [drainLoop, flatMap_nil, append_nil] using h
  | succ rounds ih =>
    cases hrecords : m.records with
    | nil => simpa only [drainLoop, hrecords, flatMap_nil, append_nil] using h
    | cons r rest =>
      have hstep : P (m.releaseNext r rest).pipes (cs ++ closings r) := by
        change P (releaseDeferred { m with records := rest } r).2.pipes _
        obtain heq | ⟨hnone, hsame⟩ := releaseDeferred_cases { m with records := rest } r
        · rw [heq]
          exact hall _ _ _ h
        · rw [hsame.pipes, hnone, append_nil]
          exact h
      simp only [drainLoop, hrecords, flatMap_cons]
      rw [← append_assoc]
      exact ih _ hstep

end Machine

/-- The references that are closed of a pipe. -/
def endsOf (i : Nat) (cs : List Closing) : List RefKind :=
  cs.filterMap fun c => if c.idx = i then c.kind else none

/-- Everything that keeps the pipe is one of these references; a read end that discards what is sent
to it lasts as long as there is a writer. -/
structure OnlyRefs (p : PipeBuffer) (ks : List RefKind) : Prop where
  referred : ks ≠ []
  reads : p.readCount = (ks.map RefKind.reads).sum
  writes : p.writeCount = (ks.map RefKind.writes).sum
  fifo : p.isFifo = true → p.fifoNames = 0 ∧ p.fifoPathRefs = (ks.map RefKind.paths).sum
  orphan : p.orphanedRead = true → 0 < p.readCount + p.writeCount

lemma OnlyRefs.perm {ks ks' : List RefKind} (h : OnlyRefs p ks) (hp : ks.Perm ks') :
    OnlyRefs p ks' where
  referred hnil := h.referred (hnil ▸ hp).eq_nil
  reads := h.reads.trans (hp.map _).sum_nat
  writes := h.writes.trans (hp.map _).sum_nat
  fifo hf := ⟨(h.fifo hf).1, (h.fifo hf).2.trans (hp.map _).sum_nat⟩
  orphan := h.orphan

/-- What references to a pipe leave of it when they are closed. -/
structure Left (p : PipeBuffer) (ks : List RefKind) (q : PipeBuffer) : Prop where
  reads : q.readCount = p.readCount - (ks.map RefKind.reads).sum
  writes : q.writeCount = p.writeCount - (ks.map RefKind.writes).sum
  paths : q.fifoPathRefs = p.fifoPathRefs - (ks.map RefKind.paths).sum
  fifo : q.isFifo = p.isFifo
  names : q.fifoNames = p.fifoNames
  orphan : (p.orphanedRead = true → 0 < p.readCount + p.writeCount) →
    q.orphanedRead = true → 0 < q.readCount + q.writeCount
  kept : ks ≠ [] → q.isFullyClosed = false

namespace Left

variable {ks : List RefKind}

lemma start (p : PipeBuffer) : Left p [] p := ⟨rfl, rfl, rfl, rfl, rfl, id, fun h => absurd rfl h⟩

lemma loses {k : RefKind} {q' : PipeBuffer} (h : Left p ks q) (hk : PipeBuffer.Loses k 1 q q')
    (hkept : q'.isFullyClosed = false) : Left p (ks ++ [k]) q' where
  reads := by
    rw [hk.reads, h.reads, map_append, sum_append, map_singleton, sum_singleton]
    omega
  writes := by
    rw [hk.writes, h.writes, map_append, sum_append, map_singleton, sum_singleton]
    omega
  paths := by
    rw [hk.paths, h.paths, map_append, sum_append, map_singleton, sum_singleton]
    omega
  fifo := hk.fifo.trans h.fifo
  names := hk.names.trans h.names
  orphan hp := hk.orphan (h.orphan hp)
  kept _ := hkept

lemma queue (h : Left p ks q) (queue : List (List InFlightFd)) :
    Left p ks { q with ancillaryFds := queue } :=
  ⟨h.reads, h.writes, h.paths, h.fifo, h.names, h.orphan, h.kept⟩

lemma isFullyClosed_of_get (hq : (t.freeIfClosed i).get i = some q) : q.isFullyClosed = false := by
  obtain ⟨p, hp, hqueue⟩ := PipeTable.get_freeIfClosed hq
  rw [hqueue]
  by_contra hclosed
  rw [PipeTable.freeIfClosed, PipeTable.get_collectUnreachableAncillary,
    PipeTable.get_freeFullyClosed_of_closed] at hq
  · cases hq
  · rw [hp]
    exact Bool.eq_true_of_not_eq_false hclosed

lemma closeEnd {cs : List Closing} (h : ∀ q, t.get i = some q → Left p (endsOf i cs) q) :
    ∀ q, ((t.update c.idx c.close).freeIfClosed c.idx).get i = some q →
      Left p (endsOf i (cs ++ [c])) q := by
  intro q' hq'
  obtain ⟨q, hq, hqueue⟩ := PipeTable.get_freeIfClosed hq'
  rw [PipeTable.get_update] at hq
  have hends : endsOf i (cs ++ [c]) =
      endsOf i cs ++ (if c.idx = i then c.kind else none).toList := by
    rw [endsOf, filterMap_append]
    rfl
  rw [hends]
  by_cases hi : c.idx = i
  · subst hi
    rw [if_pos rfl, map_eq_some_iff] at hq
    obtain ⟨q0, hq0, rfl⟩ := hq
    have hkept := isFullyClosed_of_get hq'
    rw [hqueue, if_pos rfl]
    rw [hqueue] at hkept
    refine queue ?_ _
    obtain ⟨k, hk, hloses⟩ | ⟨hk, hsame⟩ := c.sound q0
    · rw [hk]
      exact (h q0 hq0).loses hloses hkept
    · rw [hk, hsame]
      simpa using h q0 hq0
  · rw [if_neg (Ne.symm hi)] at hq
    rw [hqueue, if_neg hi]
    simpa using (h q hq).queue _

lemma not_onlyRefs (h : Left p ks q) : ¬ OnlyRefs p ks := by
  intro honly
  have hreads : q.readCount = 0 := by rw [h.reads, honly.reads, Nat.sub_self]
  have hwrites : q.writeCount = 0 := by rw [h.writes, honly.writes, Nat.sub_self]
  have horphan : q.orphanedRead = false := by
    by_contra ho
    have hpos := h.orphan honly.orphan (Bool.eq_true_of_not_eq_false ho)
    omega
  have hkept := h.kept honly.referred
  have hfifo : q.isFifo = true → q.fifoNames = 0 ∧ q.fifoPathRefs = 0 := by
    intro hf
    rw [h.fifo] at hf
    obtain ⟨hnames, hpaths⟩ := honly.fifo hf
    exact ⟨h.names.trans hnames, by rw [h.paths, hpaths, Nat.sub_self]⟩
  have hclosed : q.isFullyClosed = true := by
    simp only [PipeBuffer.isFullyClosed, hreads, hwrites, horphan]
    cases hf : q.isFifo with
    | false => rfl
    | true => simp [hfifo hf]
  rw [hclosed] at hkept
  cases hkept

end Left

namespace Machine

lemma left_drain (h : ∀ q, m.pipes.get i = some q → Left p (endsOf i []) q) :
    ∀ q, m.drain.2.pipes.get i = some q → Left p (endsOf i (m.drain.1.flatMap closings)) q :=
  drainLoop_rule (P := fun t cs => ∀ q, t.get i = some q → Left p (endsOf i cs) q)
    (fun _ _ c h => Left.closeEnd c h) [] h

/-- Messages are dropped if and only if no process can receive them, and those that are left keep
their order. The notes of the drops are all worked off; then every message can be received. What was
worked off are the notes that were there before and those of all descriptors that are no longer
queued, and no pipe is left that only these referred to. -/
theorem collect_drain (m : Machine) :
    (∀ i, (m.pipes.Receivable i → queueOf m.collect.pipes i = queueOf m.pipes i) ∧
      (¬ m.pipes.Receivable i → queueOf m.collect.pipes i = [])) ∧
    m.collect.drain.2.records = [] ∧
    m.collect.drain.2.pipes.Settled ∧
    ∀ gone, (queued m.pipes).Perm (gone ++ queued m.collect.drain.2.pipes) →
      m.collect.drain.1.Perm (m.records ++ notes gone) ∧
      ∀ i p, m.pipes.get i = some p →
        OnlyRefs p (endsOf i ((m.records ++ notes gone).flatMap closings)) →
        m.collect.drain.2.pipes.get i = none := by
  have hrecords : m.collect.drain.2.records = [] := records_drainLoop (Nat.le_refl _)
  obtain ⟨gone', hqueued', hlog'⟩ :
      Accounted m ([] ++ m.collect.drain.1) m.collect.drain.2.pipes m.collect.drain.2.records :=
    ((accounted_start m).setPipes keeps_collect).drainLoop
  rw [hrecords, nil_append, append_nil] at hlog'
  have hlog {gone : List InFlightFd}
      (hgone : (queued m.pipes).Perm (gone ++ queued m.collect.drain.2.pipes)) :
      m.collect.drain.1.Perm (m.records ++ notes gone) := by
    have hsame : gone'.Perm gone := (perm_append_right_iff _).mp (hqueued'.symm.trans hgone)
    exact hlog'.trans (((hsame.filter _).map _).append_left _)
  refine ⟨fun i => ?_, hrecords, ?_, fun gone hgone => ⟨hlog hgone, fun i p hp honly => ?_⟩⟩
  · rw [collect, pipes_setPipes, queueOf, queueOf]
    cases hp : m.pipes.get i with
    | none =>
      rw [PipeTable.get_collectUnreachableAncillary, hp]
      exact ⟨fun _ => rfl, fun _ => rfl⟩
    | some =>
      have hiff := PipeTable.mem_receivable (PipeTable.lt_of_get hp)
      rw [PipeTable.get_collect hp, elim_some, elim_some]
      exact ⟨fun h => by rw [if_pos (hiff.mpr h)], fun h => by rw [if_neg (mt hiff.mp h)]⟩
  · apply drainLoop_rule (P := fun t _ => t.Settled) (fun _ _ _ _ => PipeTable.settled_collect _) []
    rw [collect, pipes_setPipes]
    exact PipeTable.settled_collect _
  · have hstart : ∀ q, m.collect.pipes.get i = some q → Left p (endsOf i []) q := by
      intro q hq
      rw [collect, pipes_setPipes, PipeTable.get_collect hp] at hq
      cases hq
      split
      · exact .start p
      · exact (Left.start p).queue []
    cases hfinal : m.collect.drain.2.pipes.get i with
    | none => rfl
    | some q =>
      have hends := ((hlog hgone).symm.flatMap_right closings).filterMap
        fun c => if c.idx = i then c.kind else none
      exact absurd (honly.perm hends) (left_drain hstart q hfinal).not_onlyRefs

/-- A socket in flight that waits in the pipe which it sends to and receives from. -/
def cycleFd : InFlightFd where
  ofdId := 1
  fileId := none
  fileType := .Socket
  statusFlags := 2
  hostHandle := -1
  path := []
  pipeRefKind := none
  socket :=
    some ⟨0, 0, 0, 3, some 0, some 0, true, false, false, .replicate 4 0, 0, .replicate 4 0, 0⟩
  ownsReference := true

/-- A machine with one pipe, to which only a socket in its own queue refers. -/
def cycle : Machine where
  pipes :=
    { slots := [some { PipeBuffer.new with
        inFlightReadCount := 1, inFlightWriteCount := 1, ancillaryFds := [[cycleFd]] }]
      freeList := []
      free_empty := nofun
      free_nodup := .nil }
  handles := fun _ => none
  ptys := ⟨List.replicate 64 none, rfl⟩
  backings := fun _ => []
  ofdRefs := fun id => if id = 1 then 1 else 0
  reserved := 1
  records := []
  hostCloses := []
  unlocked := []

/-- The socket is dropped, and the pipe goes with the references of its note. -/
theorem collect_drain_cycle :
    endsOf 0 ((notes [cycleFd]).flatMap closings) = [.Write, .Read false] ∧
      cycle.collect.drain.2.pipes.get 0 = none := by
  have hends : endsOf 0 ((notes [cycleFd]).flatMap closings) = [.Write, .Read false] := by decide
  have hgone : (queued cycle.pipes).Perm ([cycleFd] ++ queued cycle.collect.drain.2.pipes) := .rfl
  refine ⟨hends, (cycle.collect_drain.2.2.2 [cycleFd] hgone).2 0 _ rfl ?_⟩
  exact ⟨by decide, rfl, rfl, nofun, nofun⟩

end Machine

end Kandelo.Kernel.Rights
