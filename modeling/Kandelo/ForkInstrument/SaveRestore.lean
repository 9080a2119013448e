import Kandelo.ForkInstrument.Frame

/-!
# Saving and restoring an activation

The postamble leaves a frame with the activation's scalars at the
cursor and its references in the auxiliary tables; the preamble, run with the cursor past such
a frame, restores them and leaves the cursor where the frame begins.
-/

namespace Kandelo.ForkInstrument.Machine

open Lib List Memory

variable {L V : Var → Val} {mem : Memory}

/-- A frame of the function, holding the scalars of `V`. -/
structure FrameAt (l : Layout) (V : Var → Val) (mem : Memory) (pos : Nat) : Prop where
  func : mem.peek (pos + funcIndexOffset) 4 = l.ordinal % 2 ^ 32
  catchState : l.catchState = true → ∀ x ∈ catchStateOffsets,
    mem.peek (pos + x.2.2) (scalarSize x.2.1) = bytesOf (V x.1)
  scalars : ∀ x ∈ l.offsets, mem.peek (pos + x.2.2) (scalarSize x.2.1) = bytesOf (V x.1)

/-- The locals that a frame of the function restores have their types. -/
structure Typed (E : Env) (l : Layout) (L : Var → Val) : Prop where
  scalars : ∀ x ∈ l.scalars, ScalarLocal E L x.1 x.2
  catchState : l.catchState = true → ∀ x ∈ catchStateLocals, ScalarLocal E L x.1 x.2

/-- The slots of the function's references exist. -/
def SlotsExist (E : Env) (l : Layout) (aux : RefClass → List Ref) : Prop :=
  ∀ r ∈ l.refs, isScalar (E.varTy (.user r.local_)) = false ∧ r.slot < (aux r.cls).length ∧
    r.slot < 2 ^ 32

/-- A frame of the size fits between the cursor and the end of the memory. -/
structure Room (E : Env) (w : World) (pos size : Nat) : Prop where
  past : w.buf + E.ptr.size ≤ pos
  fits : pos + size ≤ w.mem.size

variable (l : Layout)

/-- The memory with the header of a frame at `pos`, but for the index of the call. -/
def headerMem (L : Var → Val) (pos : Nat) (mem : Memory) : Memory :=
  let mem := mem.poke (pos + funcIndexOffset) 4 (l.ordinal % 2 ^ 32)
  if l.catchState then saveScalars L pos catchStateOffsets mem
  else mem.poke (pos + catchRegionOffset) 8 0

/-- The memory with a frame of the function at `pos`. -/
def frameMem (L : Var → Val) (pos : Nat) (mem : Memory) : Memory :=
  saveScalars L pos l.offsets (headerMem l L pos mem)

/-- The world after the postamble has saved an activation. -/
def savedWorld (E : Env) (l : Layout) (L : Var → Val) (pos : Nat) (w : World) : World :=
  { w with mem := frameMem l L pos w.mem, aux := saveRefs L l.refs w.aux }.setCursor E
    (pos + l.frameSize)

/-- The locals after the preamble has restored them from a frame and the tables. -/
def restoredLocals (V : Var → Val) (aux : RefClass → List Ref) (L : Var → Val) : Var → Val :=
  let L := if l.catchState then overwrite V L (catchStateLocals.map (·.1)) else L
  restoreRefs aux l.refs (overwrite V L (l.scalars.map (·.1)))

section

variable {E : Env} {N : Nat} {s : State} {l : Layout} {pos : Nat} {x : Var × ValType × Nat}
  {aux : RefClass → List Ref}

lemma catchStateOffsets_eq :
    catchStateOffsets = assignLocalOffsets catchStateLocals catchRegionOffset := rfl

lemma Layout.offsets_bounds (h : x ∈ l.offsets) :
    headerSize ≤ x.2.2 ∧ x.2.2 + scalarSize x.2.1 ≤ l.frameSize :=
  assignLocalOffsets_bounds h

lemma catchStateOffsets_bounds (h : x ∈ catchStateOffsets) :
    8 ≤ x.2.2 ∧ x.2.2 + scalarSize x.2.1 ≤ headerSize :=
  assignLocalOffsets_bounds (catchStateOffsets_eq ▸ h)

lemma headerSize_le_frameSize (l : Layout) : headerSize ≤ l.frameSize := Nat.le_add_right _ _

/-! ### The saved frame -/

lemma size_frameMem (L : Var → Val) (pos : Nat) (mem : Memory) :
    (frameMem l L pos mem).size = mem.size := by
  unfold frameMem headerMem
  rw [size_saveScalars]
  split
  · rw [size_saveScalars, size_poke]
  · rw [size_poke, size_poke]

lemma agree_headerMem {lo hi : Nat}
    (hfunc : hi ≤ pos ∨ pos + 4 ≤ lo) (hregion : hi ≤ pos + 8 ∨ pos + 16 ≤ lo) :
    Memory.Agree lo hi (headerMem l L pos mem) mem := by
  have hordinal :
      Memory.Agree lo hi (mem.poke (pos + funcIndexOffset) 4 (l.ordinal % 2 ^ 32)) mem :=
    agree_poke hfunc
  unfold headerMem
  split
  · rw [catchStateOffsets_eq]
    exact Memory.Agree.trans (agree_saveScalars hregion) hordinal
  · exact Memory.Agree.trans (agree_poke hregion) hordinal

lemma agree_frameMem {lo hi : Nat}
    (h : hi ≤ pos ∨ pos + l.frameSize ≤ lo) : Memory.Agree lo hi (frameMem l L pos mem) mem := by
  have hframe : l.frameSize = 16 + userLocalsSize l.scalars := rfl
  have hheader : headerSize = 16 := rfl
  exact (agree_saveScalars (by omega)).trans (agree_headerMem (by omega) (by omega))

lemma peek_callIndex_frameMem :
    (frameMem l L pos mem).peek (pos + callIndexOffset) 4 = mem.peek (pos + callIndexOffset) 4 := by
  have hcall : callIndexOffset = 4 := rfl
  have hheader : headerSize = 16 := rfl
  exact peek_congr ((agree_saveScalars (by omega)).trans (agree_headerMem (by omega) (by omega)))

lemma peek_frameMem_of_header {a n : Nat} (h : a + n ≤ pos + 16) :
    (frameMem l L pos mem).peek a n = (headerMem l L pos mem).peek a n :=
  peek_congr (agree_saveScalars (.inl h))

lemma frameAt_frameMem (h : Typed E l L) : FrameAt l L (frameMem l L pos mem) pos := by
  have hheader : headerSize = 16 := rfl
  have hfunc : funcIndexOffset = 0 := rfl
  refine ⟨?_, ?_, ?_⟩
  · -- The ordinal is written first, and everything after it is further up.
    have hordinal : l.ordinal % 2 ^ 32 % 256 ^ 4 = l.ordinal % 2 ^ 32 := by omega
    rw [peek_frameMem_of_header (by omega)]
    unfold headerMem
    split
    · have hup : pos + funcIndexOffset + 4 ≤ pos + catchRegionOffset := by
        have hregion : catchRegionOffset = 8 := rfl
        omega
      rw [catchStateOffsets_eq, peek_congr (agree_saveScalars (.inl hup)), peek_poke_same, hordinal]
    · have hregion : catchRegionOffset = 8 := rfl
      rw [peek_poke_of_disjoint (by omega), peek_poke_same, hordinal]
  · intro hcatch x hx
    have hbounds := catchStateOffsets_bounds hx
    rw [peek_frameMem_of_header (by omega)]
    unfold headerMem
    simp only [hcatch]
    exact peek_saveScalars (h.catchState hcatch) hx
  · intro x hx
    exact peek_saveScalars h.scalars hx

/-! ### The postamble -/

lemma run_storeFrame {v : Value} {ty : ValType} {off : Nat} (hc : Cursor E s.world pos)
    (hty : v.ty = ty) (hfit : pos + off + scalarSize ty ≤ s.world.mem.size) (rest : List Code) :
    runSeq E N (currentFramePtr E.ptr ++ [.const v, .store ty off] ++ rest) s =
      runSeq E N rest (s.withMem (s.world.mem.poke (pos + off) (scalarSize ty) v.toNat)) := by
  have hstore : step E (.store ty off) ((s.push (.num (E.ptr.value pos))).push (.num v)) =
      .ok (s.withMem (s.world.mem.poke (pos + off) (scalarSize ty) v.toNat)) :=
    step_store rfl hty hc.lt_space hfit
  rw [append_assoc, run_currentFramePtr hc, cons_append, cons_append,
    nil_append, runSeq_cons_of_step rfl, runSeq_cons_of_step hstore]

lemma run_header (hc : Cursor E s.world pos) (hroom : Room E s.world pos l.frameSize)
    (ht : Typed E l s.locals) (rest : List Code) :
    runSeq E N (currentFramePtr E.ptr ++
        [.const (.i32 (BitVec.ofNat 32 l.ordinal)), .store .i32 funcIndexOffset] ++
        ((if l.catchState then catchStateOffsets.flatMap (saveLocal E.ptr)
          else currentFramePtr E.ptr ++ [.const (.i64 0), .store .i64 catchRegionOffset]) ++ rest))
            s =
      runSeq E N rest (s.withMem (headerMem l s.locals pos s.world.mem)) := by
  have hpast := hroom.past
  have hfits := hroom.fits
  have hframe := headerSize_le_frameSize l
  have hheader : headerSize = 16 := rfl
  have hfunc : funcIndexOffset = 0 := rfl
  have hregion : catchRegionOffset = 8 := rfl
  have hi32 : scalarSize .i32 = 4 := rfl
  have hfit : pos + funcIndexOffset + scalarSize .i32 ≤ s.world.mem.size := by omega
  refine (run_storeFrame (v := .i32 (BitVec.ofNat 32 l.ordinal)) hc rfl hfit _).trans ?_
  have hc' : Cursor E (s.withMem (s.world.mem.poke (pos + funcIndexOffset) 4
      (l.ordinal % 2 ^ 32))).world pos := hc.withMem rfl (agree_poke (by omega))
  unfold headerMem
  split
  · next hcatch =>
    refine (run_saveLocals (s := s.withMem _) hc' ?_ ?_ rest).trans rfl
    · intro x hx
      exact ht.catchState hcatch (x.1, x.2.1)
        (mem_of_mem_assignLocalOffsets (catchStateOffsets_eq ▸ hx))
    · intro x hx
      have hbounds := catchStateOffsets_bounds hx
      exact ⟨by change s.world.buf + _ ≤ _; omega, by change _ ≤ s.world.mem.size; omega⟩
  · refine (run_storeFrame (s := s.withMem _) (v := .i64 0) hc' rfl ?_ rest).trans rfl
    change pos + catchRegionOffset + 8 ≤ s.world.mem.size
    omega

/-- The results that the postamble returns. -/
def defaultVals (tys : List ValType) : List Val :=
  tys.map fun
    | .i32 => .num (.i32 0)
    | .i64 => .num (.i64 0)
    | .f32 => .num (.f32 0)
    | .f64 => .num (.f64 0)
    | .v128 => .num (.v128 0)
    | _ => .ref .null

lemma run_defaultResults {tys : List ValType} (h : ∀ ty ∈ tys, (defaultForType ty).isSome) :
    runSeq E N (defaultResults tys) s =
      .normal (s.withStack ((defaultVals tys).reverse ++ s.stack)) := by
  induction tys generalizing s with
  | nil => rw [defaultResults]; rfl
  | cons ty tys ih =>
    have hty := h ty mem_cons_self
    have hrest := fun ty' hty' => h ty' (mem_cons_of_mem _ hty')
    unfold defaultResults
    cases hd : defaultForType ty with
    | none =>
      rw [hd] at hty
      cases hty
    | some i =>
      have hstep : step E i s = .ok (s.push ((defaultVals [ty]).headD (.ref .null))) := by
        unfold defaultForType at hd
        split at hd <;> cases hd <;> rfl
      rw [runSeq_cons_of_step hstep, ih hrest]
      simp [State.withStack, State.push, defaultVals]

lemma run_postamble (hc : Cursor E s.world pos) (hroom : Room E s.world pos l.frameSize)
    (ht : Typed E l s.locals) (hrefs : ∀ r ∈ l.refs, RefLocal E s.world s.locals r)
    (hresults : ∀ ty ∈ l.results, (defaultForType ty).isSome) :
    runSeq E N (postamble E.ptr l) s =
      .normal ⟨s.locals, savedWorld E l s.locals pos s.world,
        (defaultVals l.results).reverse ++ s.stack⟩ := by
  have hpast := hroom.past
  have hfits := hroom.fits
  -- The header is behind the cursor's own bytes, so the cursor stays as the frame is written.
  have hc' : Cursor E (s.withMem (headerMem l s.locals pos s.world.mem)).world pos := by
    refine hc.withMem ?_ (agree_headerMem (by omega) (by omega))
    unfold headerMem
    split
    · rw [size_saveScalars, size_poke]
    · rw [size_poke, size_poke]
  have hc'' : Cursor E (s.withMem (frameMem l s.locals pos s.world.mem)).world pos :=
    hc.withMem (size_frameMem _ _ _) (agree_frameMem (by omega))
  have hsize : (headerMem l s.locals pos s.world.mem).size = s.world.mem.size :=
    size_saveScalars.symm.trans (size_frameMem s.locals pos s.world.mem)
  have hscalars : ∀ x ∈ l.offsets, ScalarLocal E s.locals x.1 x.2.1 := fun x hx =>
    ht.scalars (x.1, x.2.1) (mem_of_mem_assignLocalOffsets hx)
  have hin : ∀ x ∈ l.offsets,
      InFrame E (s.withMem (headerMem l s.locals pos s.world.mem)).world pos x := by
    intro x hx
    have hbounds := Layout.offsets_bounds hx
    refine ⟨?_, ?_⟩
    · change s.world.buf + _ ≤ _
      omega
    · change _ ≤ (headerMem l s.locals pos s.world.mem).size
      omega
  unfold postamble
  rw [append_assoc, append_assoc, append_assoc]
  refine (run_header hc hroom ht _).trans ?_
  refine (run_saveLocals hc' hscalars hin _).trans ?_
  refine (run_saveRefs (s := s.withMem (frameMem l s.locals pos s.world.mem)) hrefs _).trans ?_
  have hcaux : Cursor E ((s.withMem (frameMem l s.locals pos s.world.mem)).withAux
      (saveRefs s.locals l.refs s.world.aux)).world pos :=
    ⟨hc''.inMemory, hc''.addressable, hc''.value⟩
  refine (run_pushFrame hcaux _).trans ?_
  exact run_defaultResults hresults

/-! ### The preamble -/

lemma FrameAt.congr {mem' : Memory} (h : FrameAt l V mem pos)
    (hagree : Memory.Agree pos (pos + l.frameSize) mem' mem) : FrameAt l V mem' pos := by
  have hframe := headerSize_le_frameSize l
  have hheader : headerSize = 16 := rfl
  have hfunc : funcIndexOffset = 0 := rfl
  refine ⟨?_, fun hcatch x hx => ?_, fun x hx => ?_⟩
  · rw [peek_congr (hagree.mono (by omega) (by omega))]
    exact h.func
  · have hbounds := catchStateOffsets_bounds hx
    rw [peek_congr (hagree.mono (by omega) (by omega))]
    exact h.catchState hcatch x hx
  · have hbounds := Layout.offsets_bounds hx
    rw [peek_congr (hagree.mono (by omega) (by omega))]
    exact h.scalars x hx

lemma agree_setCursor {w : World} {pos' size : Nat} (h : Room E w pos size) :
    Memory.Agree pos (pos + size) (w.setCursor E pos').mem w.mem :=
  agree_poke (.inr h.past)

lemma run_restoreCatchState (hc : Cursor E s.world pos)
    (hroom : Room E s.world pos l.frameSize) (ht : Typed E l V)
    (hframe : FrameAt l V s.world.mem pos) (rest : List Code) :
    runSeq E N
      ((if l.catchState then catchStateOffsets else []).flatMap (restoreLocal E.ptr) ++ rest)
        s =
      runSeq E N rest { s with
        locals := if l.catchState then overwrite V s.locals (catchStateLocals.map (·.1))
          else s.locals } := by
  have hfits := hroom.fits
  have hsize := headerSize_le_frameSize l
  split
  · next hcatch =>
    refine run_restoreLocals hc (fun x hx => ?_) (fun x hx => ?_) (hframe.catchState hcatch) rest
    · exact ht.catchState hcatch (x.1, x.2.1)
        (mem_of_mem_assignLocalOffsets (catchStateOffsets_eq ▸ hx))
    · have hbounds := catchStateOffsets_bounds hx
      omega
  · rfl

lemma run_preambleThen (hc : Cursor E s.world ((pos + l.frameSize) % E.ptr.space))
    (hroom : Room E s.world pos l.frameSize) (hspace : pos < E.ptr.space) (ht : Typed E l V)
    (hframe : FrameAt l V s.world.mem pos) (hslots : SlotsExist E l s.world.aux) :
    runSeq E N (preambleThen E.ptr l) s =
      .normal ⟨restoredLocals l V s.world.aux s.locals, s.world.setCursor E pos, s.stack⟩ := by
  have hc' : Cursor E (s.world.setCursor E pos) pos := by
    have hset := hc.set pos
    rwa [Nat.mod_eq_of_lt hspace] at hset
  have hroom' : Room E (s.world.setCursor E pos) pos l.frameSize := ⟨hroom.past, hroom.fits⟩
  have hframe' : FrameAt l V (s.world.setCursor E pos).mem pos :=
    hframe.congr (agree_setCursor hroom)
  have hfits := hroom.fits
  have hscalars : ∀ x ∈ l.offsets, ScalarLocal E V x.1 x.2.1 := fun x hx =>
    ht.scalars (x.1, x.2.1) (mem_of_mem_assignLocalOffsets hx)
  have hplaces : ∀ x ∈ l.offsets, pos + x.2.2 + scalarSize x.2.1 ≤ s.world.mem.size := by
    intro x hx
    have hbounds := Layout.offsets_bounds hx
    omega
  have hrefs := run_restoreRefs (E := E) (N := N)
    (s := ⟨overwrite V (if l.catchState then overwrite V s.locals (catchStateLocals.map (·.1))
      else s.locals) (l.offsets.map (·.1)), s.world.setCursor E pos, s.stack⟩)
    (fun r hr => (hslots r hr).1) (fun r hr => (hslots r hr).2) []
  unfold preambleThen
  rw [append_assoc]
  refine (run_popFrame hc _).trans ?_
  refine (run_restoreCatchState (s := ⟨s.locals, _, s.stack⟩) hc' hroom' ht hframe' _).trans ?_
  refine (run_restoreLocals (s := ⟨_, s.world.setCursor E pos, s.stack⟩) hc' hscalars hplaces
    hframe'.scalars _).trans ?_
  rw [append_nil] at hrefs
  refine hrefs.trans ?_
  rw [Layout.offsets, map_fst_assignLocalOffsets]
  rfl

lemma restoreRefs_of_ne {refs : List RefLocalSlot}
    {y : Var} (h : ∀ r ∈ refs, y ≠ .user r.local_) : restoreRefs aux refs L y = L y := by
  induction refs generalizing L with
  | nil => rfl
  | cons r refs ih =>
    rw [restoreRefs, ih fun r' hr' => h r' (mem_cons_of_mem _ hr')]
    exact if_neg (h r mem_cons_self)

lemma restoredLocals_scalar {aux' : RefClass → List Ref}
    (ht : Typed E l V) (hslots : SlotsExist E l aux') {x : Var} (hx : x ∈ l.scalars.map (·.1)) :
    restoredLocals l V aux L x = V x := by
  obtain ⟨y, hy, rfl⟩ := mem_map.mp hx
  obtain ⟨hvar, v, -, hty⟩ := ht.scalars y hy
  have hne : ∀ r ∈ l.refs, y.1 ≠ .user r.local_ := by
    intro r hr heq
    have hscalar := (hslots r hr).1
    rw [← heq, hvar, ← hty, v.isScalar_ty] at hscalar
    cases hscalar
  rw [restoredLocals, restoreRefs_of_ne hne, overwrite, if_pos hx]

end

end Kandelo.ForkInstrument.Machine
