import Mathlib.Data.List.Infix
import Kandelo.ForkInstrument.RefPlan
import Kandelo.ForkInstrument.Replay

/-!
# Operands of re-issued calls

On re-entry a call needs its operands again. If the instructions that
made them only compute from constants and scalar locals, these are run again; otherwise the
operands have been spilled to locals of the frame. Either way the code reads locals that the
frame saves.
-/

namespace Kandelo.ForkInstrument

open List Machine

/-- The parameters and results of a function. -/
def Module.typeOf (m : Module) (f : FunctionId) : BlockType :=
  (m.funcs[f]?.bind fun fn => m.types[fn.ty]?).getD ⟨[], []⟩

/-! ### Pure tails -/

/-- `pure_const_type`; `instrument.rs:1868-1876`. -/
def pureConstType : Value → Option ValType
  | .v128 _ => none
  | v => some v.ty

/-- Operand and result, `pure_unop_signature`; `instrument.rs:1890-1908`. -/
def pureUnopSignature : UnaryOp → Option (ValType × ValType)
  | .i32Eqz | .i32Pure _ => some (.i32, .i32)
  | .i64Eqz | .i32WrapI64 => some (.i64, .i32)
  | .i64ExtendSI32 | .i64ExtendUI32 => some (.i32, .i64)
  | .i64Pure _ => some (.i64, .i64)
  | .other .. => none

/-- Divisions may trap. -/
def IntOp.isPure : IntOp → Bool
  | .divS | .divU | .remS | .remU => false
  | _ => true

/-- Both operands and result, `pure_binop_signature`; `instrument.rs:1910-1955`. -/
def pureBinopSignature : BinaryOp → Option (ValType × ValType)
  | .i32Rel _ => some (.i32, .i32)
  | .i64Rel _ => some (.i64, .i32)
  | .i32 op => if op.isPure then some (.i32, .i32) else none
  | .i64 op => if op.isPure then some (.i64, .i64) else none
  | .other .. => none

/-- `pop_exact_types`, with the last type first; `instrument.rs:1878-1888`. -/
def popExactTypes (st expected : List ValType) : Option (List ValType) :=
  if st.take expected.length = expected then some (st.drop expected.length) else none

variable (varTy : LocalId → ValType)

/-- One round of `pure_scalar_tail_outputs`; `instrument.rs:1843-1864`. -/
def pureStep (st : List ValType) : Instr → Option (List ValType)
  | .const v => (pureConstType v).map (· :: st)
  | .localGet x => if isScalar (varTy x) then some (varTy x :: st) else none
  | .unop op =>
    (pureUnopSignature op).bind fun sig => (popExactTypes st [sig.1]).map (sig.2 :: ·)
  | .binop op =>
    (pureBinopSignature op).bind fun sig => (popExactTypes st [sig.1, sig.1]).map (sig.2 :: ·)
  | _ => none

/-- `pure_scalar_tail_outputs`, with the last output first; `instrument.rs:1841-1866`. -/
def pureScalarTailOutputs (tail : List Instr) : Option (List ValType) :=
  tail.foldlM (pureStep varTy) []

/-- `split_pure_scalar_tail`; `instrument.rs:1821-1839`. -/
def splitPureScalarTail (chunk : List Instr) (expected : List ValType) : Option (List Instr) :=
  if expected = [] then none
  else chunk.tails.find? fun tail => pureScalarTailOutputs varTy tail = some expected.reverse

/-- An instruction of a pure tail. -/
def IsPure : Instr → Prop
  | .const _ | .unop _ | .binop _ => True
  | .localGet x => isScalar (varTy x) = true
  | _ => False

section

variable {varTy} {i : Instr}

lemma isPure_of_pureStep {st st' : List ValType} (h : pureStep varTy st i = some st') :
    IsPure varTy i := by
  cases i with
  | const | unop | binop => trivial
  | localGet x =>
    change isScalar (varTy x) = true
    by_contra href
    rw [pureStep, if_neg href] at h
    cases h
  | _ => cases h

lemma isPure_of_outputs {tail : List Instr} {st st' : List ValType}
    (h : tail.foldlM (pureStep varTy) st = some st') : ∀ i ∈ tail, IsPure varTy i := by
  induction tail generalizing st with
  | nil => exact fun i hi => by cases hi
  | cons j tail ih =>
    rw [foldlM_cons] at h
    obtain ⟨st1, hstep, hrest⟩ := Option.bind_eq_some_iff.mp h
    rintro i (_ | ⟨_, hi⟩)
    · exact isPure_of_pureStep hstep
    · exact ih hrest i hi

lemma isPure_of_splitPureScalarTail {chunk tail : List Instr} {expected : List ValType}
    (h : splitPureScalarTail varTy chunk expected = some tail) :
    ∀ i ∈ tail, i ∈ chunk ∧ IsPure varTy i := by
  unfold splitPureScalarTail at h
  split at h
  · cases h
  intro i hi
  have houtputs := find?_some h
  rw [decide_eq_true_eq] at houtputs
  have hsuffix := (mem_tails _ _).mp (mem_of_find?_eq_some h)
  exact ⟨hsuffix.subset hi, isPure_of_outputs houtputs i hi⟩

end

/-! ### Sites -/

/-- A call that may fork, with the instructions before it in its sequence and the types of its
operands. The chunk of the source starts behind the last landing, which no pure tail contains;
`instrument.rs:1700-1745`. -/
structure CallSite where
  callee : Callee
  chunk : List Instr
  argTypes : List ValType

/-- The calls that become sites, `partition_body` and `walk_discover`; `instrument.rs:1708-1726,
5829-5869`. Tail calls do not. -/
def siteAt (m : Module) (forkPath : FunctionId → Bool) (o : List Instr × Instr) : Option CallSite :=
  match o.2 with
  | .call f => if forkPath f then some ⟨.direct f, o.1.reverse, (m.typeOf f).params⟩ else none
  | .callIndirect table ty =>
    some ⟨.indirect table, o.1.reverse, ((m.types[ty]?).elim [] (·.params)) ++ [.i32]⟩
  | _ => none

/-- The sites of a body in the order of their numbers. -/
def callSites (m : Module) (forkPath : FunctionId → Bool) (body : List Instr) : List CallSite :=
  (seqOccurrences [] body).filterMap (siteAt m forkPath)

/-- An instruction of a pure tail once more. -/
def Instr.again : Instr → Code
  | .const v => .const v
  | .localGet x => .localGet (.user x)
  | .unop op => .unop op
  | .binop op => .binop op
  | i => .plain i

namespace CallSite

variable (c : CallSite) (site : Nat)

/-- `plan_call_arg_materialization`: the tail that is run again, if the operands are not
spilled; `instrument.rs:1785-1795`. -/
def pureTail : Option (List Instr) := splitPureScalarTail varTy c.chunk c.argTypes

/-- The locals that the operands are spilled to; `instrument.rs:1797-1810`. -/
def spillLocals : List (Var × ValType) :=
  match c.pureTail varTy with
  | some _ => []
  | none => c.argTypes.zipIdx.map fun x => (.argSpill site x.2, x.1)

/-- What puts the operands on the stack when the call is issued again. -/
def operandCode : List Code :=
  match c.pureTail varTy with
  | some tail => tail.map Instr.again
  | none => (c.spillLocals varTy site).map fun x => .localGet x.1

end CallSite

/-! ### What is before a site belongs to the body -/

/-- Whatever comes before an occurrence is before all of them or occurs as well. -/
def PastOccurs (past : List Instr) (os : List (List Instr × Instr)) : Prop :=
  ∀ o ∈ os, ∀ j ∈ o.1, j ∈ past ∨ ∃ p, (p, j) ∈ os

section

variable {past : List Instr} {xs ys : List (List Instr × Instr)} {i : Instr}

lemma PastOccurs.nil (past : List Instr) : PastOccurs past [] := fun o ho => by cases ho

lemma PastOccurs.append (hxs : PastOccurs past xs) (hys : PastOccurs past ys) :
    PastOccurs past (xs ++ ys) := by
  intro o ho j hj
  rcases mem_append.mp ho with ho | ho
  · exact (hxs o ho j hj).imp_right fun ⟨p, hp⟩ => ⟨p, mem_append_left _ hp⟩
  · exact (hys o ho j hj).imp_right fun ⟨p, hp⟩ => ⟨p, mem_append_right _ hp⟩

lemma PastOccurs.cons (i : Instr) (h : PastOccurs [] xs) : PastOccurs past ((past, i) :: xs) := by
  intro o ho j hj
  rcases mem_cons.mp ho with rfl | ho
  · exact .inl hj
  · obtain ⟨p, hp⟩ := (h o ho j hj).resolve_left not_mem_nil
    exact .inr ⟨p, mem_cons_of_mem _ hp⟩

lemma PastOccurs.next (hi : ∃ p, (p, i) ∈ xs) (hxs : PastOccurs past xs)
    (hys : PastOccurs (i :: past) ys) : PastOccurs past (xs ++ ys) := by
  intro o ho j hj
  rcases mem_append.mp ho with ho | ho
  · exact (hxs o ho j hj).imp_right fun ⟨p, hp⟩ => ⟨p, mem_append_left _ hp⟩
  · rcases hys o ho j hj with hpast | ⟨p, hp⟩
    · rcases mem_cons.mp hpast with rfl | hpast
      · exact .inr (hi.imp fun p hp => mem_append_left _ hp)
      · exact .inl hpast
    · exact .inr ⟨p, mem_append_right _ hp⟩

end

mutual

lemma pastOccurs_instr (past : List Instr) (i : Instr) :
    PastOccurs past (instrOccurrences past i) := by
  cases i with
  | block _ _ body | loop _ _ body | tryTable _ _ _ body => exact .cons _ (pastOccurs_seq [] body)
  | ifElse _ _ _ thenBody elseBody =>
    exact .cons _ ((pastOccurs_seq [] thenBody).append (pastOccurs_seq [] elseBody))
  | tryLegacy _ _ body handlers =>
    exact .cons _ ((pastOccurs_seq [] body).append (pastOccurs_seqs handlers))
  | _ => exact .cons _ (.nil [])

lemma pastOccurs_seq (past body : List Instr) : PastOccurs past (seqOccurrences past body) := by
  cases body with
  | nil => exact .nil past
  | cons i rest =>
    exact .next ⟨past, mem_instrOccurrences_self⟩ (pastOccurs_instr past i)
      (pastOccurs_seq (i :: past) rest)

lemma pastOccurs_seqs (seqs : List (List Instr)) : PastOccurs [] (seqsOccurrences seqs) := by
  cases seqs with
  | nil => exact .nil []
  | cons seq rest => exact (pastOccurs_seq [] seq).append (pastOccurs_seqs rest)

end

/-- Every local that is read before a site is one of those that the instrumenter collects. -/
lemma mem_collectUserLocals {args : List LocalId} {body past : List Instr} {i : Instr}
    (ho : (past, i) ∈ seqOccurrences [] body) {x : LocalId} (hx : .localGet x ∈ past) :
    x ∈ collectUserLocals args body := by
  obtain ⟨p, hp⟩ := (pastOccurs_seq [] body _ ho _ hx).resolve_left not_mem_nil
  refine mem_firstSeen not_mem_nil (mem_append_right _ ?_)
  exact mem_filterMap.mpr ⟨_, hp, rfl⟩

end Kandelo.ForkInstrument
