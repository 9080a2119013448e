import Kandelo.ForkInstrument.Machine

/-!
# Frames of the save buffer

The preamble and the postamble of an instrumented function. The
postamble writes a frame at the cursor of the save buffer and advances the cursor by the
frame's size, which is a constant of the function; the preamble moves the cursor back by the
same constant and reads the frame there. References do not go to the frame but to slots of
the auxiliary tables, which are constants of the function as well.
-/

namespace Kandelo.ForkInstrument.Machine

open Lib List Memory PtrTy

/-! ### Layout -/

/-- `HEADER_SIZE`; `instrument.rs:198`. -/
def headerSize : Nat := 16

/-- `FUNC_INDEX_OFFSET`. -/
def funcIndexOffset : Nat := 0

/-- `CALL_INDEX_OFFSET`. -/
def callIndexOffset : Nat := 4

/-- `CATCH_REGION_OFFSET`. -/
def catchRegionOffset : Nat := 8

/-- `EXNREF_SLOT_OFFSET`. -/
def exnrefSlotOffset : Nat := 12

/-- Offsets of the scalar locals; `instrument.rs:3134-3145`. -/
def assignLocalOffsets : List (Var × ValType) → Nat → List (Var × ValType × Nat)
  | [], _ => []
  | (x, ty) :: rest, off => (x, ty, off) :: assignLocalOffsets rest (off + scalarSize ty)

/-- Bytes of the scalar locals; `instrument.rs:3147-3152`. -/
def userLocalsSize (scalars : List (Var × ValType)) : Nat :=
  (scalars.map fun x => scalarSize x.2).sum

/-- Slot of a reference local; `instrument.rs:3447-3452`. -/
structure RefLocalSlot where
  local_ : LocalId
  cls : RefClass
  slot : Nat
  deriving DecidableEq

variable {offset a off size : Nat} {v : Value} {st : List Val} {offs : List (Var × ValType × Nat)}
  {L V : Var → Val} {refs : List RefLocalSlot} {w : World} {mem : Memory} {ty : ValType}
  {xs : List (Var × ValType)} {start : Nat} {x : Var × ValType × Nat}

/-- What the preamble and the postamble of a function depend on. -/
structure Layout where
  ordinal : Nat
  scalars : List (Var × ValType)
  catchState : Bool
  refs : List RefLocalSlot
  results : List ValType

namespace Layout

/-- The scalars with their places in the frame. -/
def offsets (l : Layout) : List (Var × ValType × Nat) := assignLocalOffsets l.scalars headerSize

/-- Bytes of the function's frames; `instrument.rs:516`. -/
def frameSize (l : Layout) : Nat := headerSize + userLocalsSize l.scalars

end Layout

/-! ### Emitted code -/

variable (p : PtrTy)

/-- `push_current_frame_ptr`; `instrument.rs:3411-3422`. -/
def currentFramePtr : List Code := [.bufGet, .load p.valType 0]

/-- `push_current_call_index`; `instrument.rs:3424-3432`. -/
def currentCallIndex : List Code := currentFramePtr p ++ [.load .i32 callIndexOffset]

/-- Store a scalar to the frame; `instrument.rs:3018-3023`. -/
def saveLocal (x : Var × ValType × Nat) : List Code :=
  currentFramePtr p ++ [.localGet x.1, .store x.2.1 x.2.2]

/-- Load a scalar from the frame; `instrument.rs:2938-2943`. -/
def restoreLocal (x : Var × ValType × Nat) : List Code :=
  currentFramePtr p ++ [.load x.2.1 x.2.2, .localSet x.1]

variable (r : RefLocalSlot)

/-- Put a reference into its slot. -/
def saveRef : List Code :=
  [.const (.i32 (BitVec.ofNat 32 r.slot)), .localGet (.user r.local_), .auxSet r.cls]

/-- Take a reference from its slot. -/
def restoreRef : List Code :=
  [.const (.i32 (BitVec.ofNat 32 r.slot)), .auxGet r.cls, .localSet (.user r.local_)]

/-- The locals of the catch state; `instrument.rs:229-233`. -/
def catchStateLocals : List (Var × ValType) := [(.catchRegionId, .i32), (.exnrefSlot, .i32)]

/-- The state of the catch handlers with its places in the header. -/
def catchStateOffsets : List (Var × ValType × Nat) :=
  [(.catchRegionId, .i32, catchRegionOffset), (.exnrefSlot, .i32, exnrefSlotOffset)]

/-- The fork states; `runtime.rs:49-51`. -/
def stateNormal : BitVec 32 := 0

/-- `UNWINDING`. -/
def stateUnwinding : BitVec 32 := 1

/-- `REWINDING`. -/
def stateRewinding : BitVec 32 := 2

/-- Run `body` if the fork state is the given one. -/
def ifState (state : BitVec 32) (body : List Code) : List Code :=
  [.stateGet, .const (.i32 state), .binop (.i32Rel .eq), .ifElse .thenArm .elseArm ⟨[], []⟩ body []]

/-- Store the number of the site to the frame. -/
def storeCallIndex (site : Nat) : List Code :=
  currentFramePtr p ++ [.const (.i32 (BitVec.ofNat 32 site)), .store .i32 callIndexOffset]

/-- `emit_call_index_store_and_unwind_branch`; `instrument.rs:2816-2872`. -/
def unwindBranch (site : Nat) : List Code :=
  ifState stateUnwinding (storeCallIndex p site ++ [.br .unwindSave])

/-- Move the cursor back over a frame; `instrument.rs:2894-2917`. -/
def popFrame (size : Nat) : List Code :=
  [.bufGet, .bufGet, .load p.valType 0, .const (p.value size), .binop p.sub, .store p.valType 0]

/-- Move the cursor past a frame; `instrument.rs:3027-3043`. -/
def pushFrame (size : Nat) : List Code :=
  [.bufGet] ++ currentFramePtr p ++ [.const (p.value size), .binop p.add, .store p.valType 0]

/-- `populate_preamble_then`; `instrument.rs:2880-2958`. -/
def preambleThen (l : Layout) : List Code :=
  popFrame p l.frameSize ++
    (if l.catchState then catchStateOffsets else []).flatMap (restoreLocal p) ++
    l.offsets.flatMap (restoreLocal p) ++
    l.refs.flatMap restoreRef

/-- `default_for_type`; `instrument.rs:3259-3280`. -/
def defaultForType : ValType → Option Code
  | .i32 => some (.const (.i32 0))
  | .i64 => some (.const (.i64 0))
  | .f32 => some (.const (.f32 0))
  | .f64 => some (.const (.f64 0))
  | .v128 => some (.const (.v128 0))
  | .funcref | .externref | .exnref | .otherRef true _ => some .refNull
  | .otherRef false _ => none

/-- Defaults of the results, or `unreachable` from the first type without one on;
`instrument.rs:3045-3068`. -/
def defaultResults : List ValType → List Code
  | [] => []
  | ty :: rest =>
    match defaultForType ty with
    | some i => i :: defaultResults rest
    | none => [.unreachable]

/-- `populate_postamble`; `instrument.rs:2960-3069`. -/
def postamble (l : Layout) : List Code :=
  currentFramePtr p ++ [.const (.i32 (BitVec.ofNat 32 l.ordinal)), .store .i32 funcIndexOffset] ++
    (if l.catchState then catchStateOffsets.flatMap (saveLocal p)
      else currentFramePtr p ++ [.const (.i64 0), .store .i64 catchRegionOffset]) ++
    l.offsets.flatMap (saveLocal p) ++
    l.refs.flatMap saveRef ++
    pushFrame p l.frameSize ++
    defaultResults l.results

/-! ### Pointers -/

section

variable {p : PtrTy}

lemma PtrTy.index_value {n : Nat} (h : n < p.space) : (Val.num (p.value n)).index = some n := by
  cases p with
  | i32 | i64 => exact congrArg some (Nat.mod_eq_of_lt h)

variable (n : Nat)

lemma PtrTy.ofNat_valType : Value.ofNat p.valType n = some (p.value n) := by cases p <;> rfl

lemma PtrTy.ty_value : (p.value n).ty = p.valType := by cases p <;> rfl

lemma PtrTy.scalarSize_valType : scalarSize p.valType = p.size := by cases p <;> rfl

lemma PtrTy.toNat_value : (p.value n).toNat = n % p.space := by
  cases p with
  | i32 | i64 => simp only [value]; rfl

lemma PtrTy.eval_add (E : Env) (b : Nat) :
    evalBinop E p.add (p.value a) (p.value b) = .ok (p.value (a + b)) := by
  cases p with
  | i32 | i64 => simp [add, value, evalBinop, IntOp.eval, BitVec.ofNat_add, Result.ofOption]

lemma PtrTy.eval_sub (E : Env) (b : Nat) :
    evalBinop E p.sub (p.value (a + b)) (p.value b) = .ok (p.value a) := by
  cases p with
  | i32 | i64 =>
    simp only [sub, value, evalBinop, IntOp.eval, BitVec.ofNat_add, Result.ofOption,
      BitVec.add_sub_cancel, Option.map_some]

end

/-! ### The cursor -/

/-- The cursor of the save buffer. -/
structure Cursor (E : Env) (w : World) (pos : Nat) : Prop where
  inMemory : w.buf + E.ptr.size ≤ w.mem.size
  addressable : w.buf < E.ptr.space
  value : w.mem.peek w.buf E.ptr.size = pos

section

variable {E : Env} {N : Nat} {s : State} {pos : Nat}

lemma Cursor.lt_space (h : Cursor E w pos) : pos < E.ptr.space := h.value ▸ peek_lt _ _ _

lemma Cursor.withMem (h : Cursor E w pos) (hsize : mem.size = w.mem.size)
    (hagree : Memory.Agree w.buf (w.buf + E.ptr.size) mem w.mem) :
    Cursor E { w with mem := mem } pos :=
  ⟨hsize ▸ h.inMemory, h.addressable, (peek_congr hagree).trans h.value⟩

lemma step_load (hs : s.stack = .num (E.ptr.value a) :: st) (ha : a < E.ptr.space)
    (hfit : a + offset + scalarSize ty ≤ s.world.mem.size)
    (hv : Value.ofNat ty (s.world.mem.peek (a + offset) (scalarSize ty)) = some v) :
    step E (.load ty offset) s = .ok (s.withStack (.num v :: st)) := by
  simp [step, hs, PtrTy.index_value ha, Memory.load_eq_some hfit, hv]

lemma step_store (hs : s.stack = .num v :: .num (E.ptr.value a) :: st) (hty : v.ty = ty)
    (ha : a < E.ptr.space) (hfit : a + offset + scalarSize ty ≤ s.world.mem.size) :
    step E (.store ty offset) s =
      .ok ((s.withStack st).withMem (s.world.mem.poke (a + offset) (scalarSize ty) v.toNat)) := by
  simp [step, hs, hty, PtrTy.index_value ha, Memory.store_eq_some _ hfit]

lemma run_currentFramePtr (h : Cursor E s.world pos) (rest : List Code) :
    runSeq E N (currentFramePtr E.ptr ++ rest) s =
      runSeq E N rest (s.push (.num (E.ptr.value pos))) := by
  have hload : step E (.load E.ptr.valType 0) (s.push (.num (E.ptr.value s.world.buf))) =
      .ok (s.push (.num (E.ptr.value pos))) := by
    apply step_load rfl h.addressable
    · rw [PtrTy.scalarSize_valType]
      exact h.inMemory
    · rw [PtrTy.scalarSize_valType, PtrTy.ofNat_valType]
      exact congrArg (fun n => some (E.ptr.value n)) h.value
  rw [currentFramePtr, cons_append, cons_append, nil_append,
    runSeq_cons_of_step rfl, runSeq_cons_of_step hload]

/-! ### Saving and restoring scalars -/

/-- What a value leaves in the frame. -/
def bytesOf : Val → Nat
  | .num v => v.toNat
  | .ref _ => 0

/-- The local is a scalar of the type. -/
def ScalarLocal (E : Env) (L : Var → Val) (x : Var) (ty : ValType) : Prop :=
  E.varTy x = ty ∧ ∃ v : Value, L x = .num v ∧ v.ty = ty

lemma run_saveLocal {x : Var} (h : Cursor E s.world pos)
    (hx : ScalarLocal E s.locals x ty) (hfit : pos + off + scalarSize ty ≤ s.world.mem.size)
    (rest : List Code) :
    runSeq E N (saveLocal E.ptr (x, ty, off) ++ rest) s =
      runSeq E N rest
        (s.withMem (s.world.mem.poke (pos + off) (scalarSize ty) (bytesOf (s.locals x)))) := by
  obtain ⟨-, v, hv, hty⟩ := hx
  have hget : step E (.localGet x) (s.push (.num (E.ptr.value pos))) =
      .ok ((s.push (.num (E.ptr.value pos))).push (.num v)) := by
    simp [step, State.push, hv]
  have hstore : step E (.store ty off) ((s.push (.num (E.ptr.value pos))).push (.num v)) =
      .ok (s.withMem (s.world.mem.poke (pos + off) (scalarSize ty) v.toNat)) :=
    step_store rfl hty h.lt_space hfit
  rw [saveLocal, append_assoc, run_currentFramePtr h, cons_append, cons_append,
    runSeq_cons_of_step hget, runSeq_cons_of_step hstore, hv]
  rfl

/-- The memory with the scalars stored in the frame at `pos`. -/
def saveScalars (L : Var → Val) (pos : Nat) : List (Var × ValType × Nat) → Memory → Memory
  | [], mem => mem
  | (x, ty, off) :: rest, mem =>
    saveScalars L pos rest (mem.poke (pos + off) (scalarSize ty) (bytesOf (L x)))

@[simp] lemma size_saveScalars : (saveScalars L pos offs mem).size = mem.size := by
  induction offs generalizing mem with
  | nil => rfl
  | cons x offs ih => rw [saveScalars, ih, size_poke]

/-- The place lies past the cursor and in memory. -/
def InFrame (E : Env) (w : World) (pos : Nat) (x : Var × ValType × Nat) : Prop :=
  w.buf + E.ptr.size ≤ pos + x.2.2 ∧ pos + x.2.2 + scalarSize x.2.1 ≤ w.mem.size

lemma run_saveLocals (h : Cursor E s.world pos)
    (hx : ∀ x ∈ offs, ScalarLocal E s.locals x.1 x.2.1) (hin : ∀ x ∈ offs, InFrame E s.world pos x)
    (rest : List Code) :
    runSeq E N (offs.flatMap (saveLocal E.ptr) ++ rest) s =
      runSeq E N rest (s.withMem (saveScalars s.locals pos offs s.world.mem)) := by
  induction offs generalizing s with
  | nil => rfl
  | cons x offs ih =>
    obtain ⟨x, ty, off⟩ := x
    have hfirst := hin _ mem_cons_self
    rw [flatMap_cons, append_assoc, run_saveLocal h (hx _ mem_cons_self) hfirst.2]
    rw [ih]
    · rfl
    · exact h.withMem rfl (agree_poke (.inl hfirst.1))
    · exact fun y hy => hx y (mem_cons_of_mem _ hy)
    · exact fun y hy => hin y (mem_cons_of_mem _ hy)

lemma assignLocalOffsets_bounds (h : x ∈ assignLocalOffsets xs start) :
    start ≤ x.2.2 ∧ x.2.2 + scalarSize x.2.1 ≤ start + userLocalsSize xs := by
  induction xs generalizing start with
  | nil => cases h
  | cons y ys ih =>
    have hsize : userLocalsSize (y :: ys) = scalarSize y.2 + userLocalsSize ys := by
      simp [userLocalsSize]
    rcases mem_cons.mp h with rfl | h
    · dsimp only
      omega
    · have hrest := ih h
      omega

lemma mem_of_mem_assignLocalOffsets (h : x ∈ assignLocalOffsets xs start) : (x.1, x.2.1) ∈ xs := by
  induction xs generalizing start with
  | nil => cases h
  | cons y ys ih =>
    rcases mem_cons.mp h with rfl | h
    · exact mem_cons_self
    · exact mem_cons_of_mem _ (ih h)

lemma map_fst_assignLocalOffsets (xs : List (Var × ValType)) (start : Nat) :
    (assignLocalOffsets xs start).map (·.1) = xs.map (·.1) := by
  induction xs generalizing start with
  | nil => rfl
  | cons y ys ih => rw [assignLocalOffsets, map_cons, map_cons, ih]

lemma agree_saveScalars {lo hi : Nat}
    (h : hi ≤ pos + start ∨ pos + start + userLocalsSize xs ≤ lo) :
    Memory.Agree lo hi (saveScalars L pos (assignLocalOffsets xs start) mem) mem := by
  induction xs generalizing start mem with
  | nil => exact Memory.Agree.refl _ _ _
  | cons y ys ih =>
    have hsize : userLocalsSize (y :: ys) = scalarSize y.2 + userLocalsSize ys := by
      simp [userLocalsSize]
    exact (ih (by omega)).trans (agree_poke (by omega))

lemma peek_saveScalars (hL : ∀ x ∈ xs, ScalarLocal E L x.1 x.2)
    (hx : x ∈ assignLocalOffsets xs start) :
    (saveScalars L pos (assignLocalOffsets xs start) mem).peek (pos + x.2.2) (scalarSize x.2.1) =
      bytesOf (L x.1) := by
  induction xs generalizing start mem with
  | nil => cases hx
  | cons y ys ih =>
    rw [assignLocalOffsets] at hx ⊢
    rw [saveScalars]
    rcases mem_cons.mp hx with rfl | hx
    · obtain ⟨-, v, hv, hty⟩ := hL y mem_cons_self
      rw [peek_congr (agree_saveScalars (.inl (by dsimp only; omega))), peek_poke_same, hv]
      exact Nat.mod_eq_of_lt (hty ▸ v.toNat_lt)
    · exact ih (fun z hz => hL z (mem_cons_of_mem _ hz)) hx

lemma run_restoreLocal {x : Var} (h : Cursor E s.world pos) (hx : ScalarLocal E V x ty)
    (hfit : pos + off + scalarSize ty ≤ s.world.mem.size)
    (hv : s.world.mem.peek (pos + off) (scalarSize ty) = bytesOf (V x)) (rest : List Code) :
    runSeq E N (restoreLocal E.ptr (x, ty, off) ++ rest) s =
      runSeq E N rest (s.setLocal x (V x)) := by
  obtain ⟨hvar, v, hVx, hty⟩ := hx
  have hload : step E (.load ty off) (s.push (.num (E.ptr.value pos))) = .ok (s.push (.num v)) := by
    refine step_load (s := s.push (.num (E.ptr.value pos))) rfl h.lt_space hfit ?_
    rw [show (s.push (.num (E.ptr.value pos))).world = s.world from rfl, hv, hVx]
    exact hty ▸ v.ofNat_toNat
  have hset : step E (.localSet x) (s.push (.num v)) = .ok (s.setLocal x (.num v)) := by
    have htyped : hasTy (E.varTy x) (.num v) = true := by rw [hvar, hasTy, hty, beq_self_eq_true]
    simp only [step, State.push, htyped]
    rfl
  rw [restoreLocal, append_assoc, run_currentFramePtr h, cons_append, cons_append,
    nil_append, runSeq_cons_of_step hload, runSeq_cons_of_step hset, hVx]

/-- Locals with some of them as in `V`. -/
def overwrite (V L : Var → Val) (xs : List Var) : Var → Val := fun y => if y ∈ xs then V y else L y

lemma run_restoreLocals (h : Cursor E s.world pos) (hx : ∀ x ∈ offs, ScalarLocal E V x.1 x.2.1)
    (hfit : ∀ x ∈ offs, pos + x.2.2 + scalarSize x.2.1 ≤ s.world.mem.size)
    (hv : ∀ x ∈ offs, s.world.mem.peek (pos + x.2.2) (scalarSize x.2.1) = bytesOf (V x.1))
    (rest : List Code) :
    runSeq E N (offs.flatMap (restoreLocal E.ptr) ++ rest) s =
      runSeq E N rest { s with locals := overwrite V s.locals (offs.map (·.1)) } := by
  induction offs generalizing s with
  | nil => rfl
  | cons x offs ih =>
    have hfirst : ∀ rest, runSeq E N (restoreLocal E.ptr x ++ rest) s = _ :=
      run_restoreLocal h (hx _ mem_cons_self) (hfit _ mem_cons_self) (hv _ mem_cons_self)
    rw [flatMap_cons, append_assoc, hfirst, ih]
    · congr 2
      funext y
      simp only [overwrite, State.setLocal, map_cons, mem_cons]
      by_cases hy : y ∈ offs.map (·.1)
      · rw [if_pos hy, if_pos (.inr hy)]
      rw [if_neg hy]
      by_cases heq : y = x.1
      · rw [if_pos heq, if_pos (.inl heq), heq]
      · rw [if_neg heq, if_neg (by simp [heq, hy])]
    · exact h
    · exact fun y hy => hx y (mem_cons_of_mem _ hy)
    · exact fun y hy => hfit y (mem_cons_of_mem _ hy)
    · exact fun y hy => hv y (mem_cons_of_mem _ hy)

/-! ### Saving and restoring references -/

/-- The auxiliary tables with the references put into their slots. -/
def saveRefs (L : Var → Val) : List RefLocalSlot → (RefClass → List Ref) → RefClass → List Ref
  | [], aux => aux
  | r :: rest, aux =>
    saveRefs L rest fun c =>
      if c = r.cls then
        match L (.user r.local_) with
        | .ref v => (aux c).set r.slot v
        | .num _ => aux c
      else aux c

/-- The local is a reference that has a slot. -/
def RefLocal (E : Env) (w : World) (L : Var → Val) (r : RefLocalSlot) : Prop :=
  isScalar (E.varTy (.user r.local_)) = false ∧ (∃ v, L (.user r.local_) = .ref v) ∧
    r.slot < (w.aux r.cls).length ∧ r.slot < 2 ^ 32

lemma length_saveRefs {aux : RefClass → List Ref}
    {c : RefClass} : (saveRefs L refs aux c).length = (aux c).length := by
  induction refs generalizing aux with
  | nil => rfl
  | cons r refs ih =>
    rw [saveRefs, ih]
    split
    · split
      · rw [length_set]
      · rfl
    · rfl

/-- The state with other auxiliary tables. -/
def State.withAux (s : State) (aux : RefClass → List Ref) : State :=
  { s with world := { s.world with aux := aux } }

lemma run_saveRefs (h : ∀ r ∈ refs, RefLocal E s.world s.locals r) (rest : List Code) :
    runSeq E N (refs.flatMap saveRef ++ rest) s =
      runSeq E N rest (s.withAux (saveRefs s.locals refs s.world.aux)) := by
  induction refs generalizing s with
  | nil => rfl
  | cons r refs ih =>
    obtain ⟨-, ⟨v, hv⟩, hslot, hlt⟩ := h r mem_cons_self
    have hidx : (BitVec.ofNat 32 r.slot).toNat = r.slot := by
      rw [BitVec.toNat_ofNat, Nat.mod_eq_of_lt hlt]
    have hset : step E (.auxSet r.cls)
        ((s.push (.num (.i32 (BitVec.ofNat 32 r.slot)))).push (.ref v)) =
        .ok (s.withAux (saveRefs s.locals [r] s.world.aux)) := by
      simp only [step, State.push, hidx, hslot, if_true, saveRefs, hv]
      congr 3
      funext c
      by_cases hc : c = r.cls
      · rw [if_pos hc, if_pos hc, hc]
      · rw [if_neg hc, if_neg hc]
    have hget : step E (.localGet (.user r.local_))
        (s.push (.num (.i32 (BitVec.ofNat 32 r.slot)))) =
        .ok ((s.push (.num (.i32 (BitVec.ofNat 32 r.slot)))).push (.ref v)) := by
      simp [step, State.push, hv]
    rw [flatMap_cons, saveRef, append_assoc, cons_append, cons_append, cons_append, nil_append,
      runSeq_cons_of_step rfl, runSeq_cons_of_step hget, runSeq_cons_of_step hset, ih]
    · rfl
    intro r' hr'
    obtain ⟨hty, hval, hslot', hlt'⟩ := h r' (mem_cons_of_mem _ hr')
    refine ⟨hty, hval, ?_, hlt'⟩
    rw [State.withAux, length_saveRefs]
    exact hslot'

/-- The locals with the references taken from their slots. -/
def restoreRefs (aux : RefClass → List Ref) : List RefLocalSlot → (Var → Val) → Var → Val
  | [], L => L
  | r :: rest, L =>
    restoreRefs aux rest fun y =>
      if y = .user r.local_ then .ref ((aux r.cls).getD r.slot .null) else L y

lemma run_restoreRefs (hty : ∀ r ∈ refs, isScalar (E.varTy (.user r.local_)) = false)
    (hslot : ∀ r ∈ refs, r.slot < (s.world.aux r.cls).length ∧ r.slot < 2 ^ 32) (rest : List Code) :
    runSeq E N (refs.flatMap restoreRef ++ rest) s =
      runSeq E N rest { s with locals := restoreRefs s.world.aux refs s.locals } := by
  induction refs generalizing s with
  | nil => rfl
  | cons r refs ih =>
    obtain ⟨hlen, hlt⟩ := hslot r mem_cons_self
    have hidx : (BitVec.ofNat 32 r.slot).toNat = r.slot := by
      rw [BitVec.toNat_ofNat, Nat.mod_eq_of_lt hlt]
    have hget : step E (.auxGet r.cls) (s.push (.num (.i32 (BitVec.ofNat 32 r.slot)))) =
        .ok (s.push (.ref ((s.world.aux r.cls).getD r.slot .null))) := by
      simp only [step, State.push, hidx, getElem?_eq_getElem hlen, getD_eq_getElem?_getD]
      rfl
    have hset : step E (.localSet (.user r.local_))
        (s.push (.ref ((s.world.aux r.cls).getD r.slot .null))) =
        .ok (s.setLocal (.user r.local_) (.ref ((s.world.aux r.cls).getD r.slot .null))) := by
      simp only [step, State.push, hasTy, hty r mem_cons_self]
      rfl
    rw [flatMap_cons, restoreRef, append_assoc, cons_append, cons_append, cons_append, nil_append,
      runSeq_cons_of_step rfl, runSeq_cons_of_step hget, runSeq_cons_of_step hset, ih]
    · rfl
    · exact fun r' hr' => hty r' (mem_cons_of_mem _ hr')
    · exact fun r' hr' => hslot r' (mem_cons_of_mem _ hr')

/-! ### Whole frames -/

lemma PtrTy.value_mod (n : Nat) : p.value (n % p.space) = p.value n := by
  cases p with
  | i32 | i64 => simp [PtrTy.value, PtrTy.space, PtrTy.size, ← BitVec.toNat_inj]

/-- The world with another cursor. -/
def World.setCursor (E : Env) (w : World) (pos : Nat) : World :=
  { w with mem := w.mem.poke w.buf E.ptr.size (pos % E.ptr.space) }

lemma Cursor.set (h : Cursor E w pos) (pos' : Nat) :
    Cursor E (w.setCursor E pos') (pos' % E.ptr.space) where
  inMemory := h.inMemory
  addressable := h.addressable
  value := by
    have hlt : pos' % E.ptr.space < 256 ^ E.ptr.size := Nat.mod_lt _ (Nat.pow_pos (by omega))
    rw [World.setCursor, peek_poke_same, Nat.mod_eq_of_lt hlt]

lemma step_setCursor (h : Cursor E s.world pos) (pos' : Nat) :
    step E (.store E.ptr.valType 0)
      ((s.push (.num (E.ptr.value s.world.buf))).push (.num (E.ptr.value pos'))) =
      .ok { s with world := s.world.setCursor E pos' } := by
  have hfit : s.world.buf + 0 + scalarSize E.ptr.valType ≤ s.world.mem.size := by
    rw [PtrTy.scalarSize_valType]
    exact h.inMemory
  have hstore := step_store (E := E) (v := E.ptr.value pos')
    (s := (s.push (.num (E.ptr.value s.world.buf))).push (.num (E.ptr.value pos')))
    rfl (PtrTy.ty_value _) h.addressable hfit
  rw [hstore, PtrTy.scalarSize_valType, PtrTy.toNat_value]
  rfl

lemma run_pushFrame (h : Cursor E s.world pos) (rest : List Code) :
    runSeq E N (pushFrame E.ptr size ++ rest) s =
      runSeq E N rest { s with world := s.world.setCursor E (pos + size) } := by
  have hadd : step E (.binop E.ptr.add)
      (((s.push (.num (E.ptr.value s.world.buf))).push (.num (E.ptr.value pos))).push
        (.num (E.ptr.value size))) =
      .ok ((s.push (.num (E.ptr.value s.world.buf))).push (.num (E.ptr.value (pos + size)))) := by
    simp only [step, State.push, PtrTy.eval_add]
    rfl
  rw [pushFrame, append_assoc, append_assoc, singleton_append, runSeq_cons_of_step rfl,
    run_currentFramePtr (s := s.push _) h, cons_append, cons_append, cons_append, nil_append,
    runSeq_cons_of_step rfl, runSeq_cons_of_step hadd, runSeq_cons_of_step (step_setCursor h _)]

lemma run_popFrame (h : Cursor E s.world ((pos + size) % E.ptr.space)) (rest : List Code) :
    runSeq E N (popFrame E.ptr size ++ rest) s =
      runSeq E N rest { s with world := s.world.setCursor E pos } := by
  have hsub : step E (.binop E.ptr.sub)
      (((s.push (.num (E.ptr.value s.world.buf))).push
        (.num (E.ptr.value ((pos + size) % E.ptr.space)))).push (.num (E.ptr.value size))) =
      .ok ((s.push (.num (E.ptr.value s.world.buf))).push (.num (E.ptr.value pos))) := by
    simp only [step, State.push, PtrTy.value_mod, PtrTy.eval_sub]
    rfl
  have hload := run_currentFramePtr (N := N) (s := s.push (.num (E.ptr.value s.world.buf))) h
    (.const (E.ptr.value size) :: .binop E.ptr.sub :: .store E.ptr.valType 0 :: rest)
  refine hload.trans ?_
  rw [runSeq_cons_of_step rfl, runSeq_cons_of_step hsub, runSeq_cons_of_step (step_setCursor h _)]

end

end Kandelo.ForkInstrument.Machine
