import Kandelo.ForkInstrument.Code

/-!
# Running instrumented code

An interpreter for instrumented functions. What a user instruction
or a call does is a parameter, so results hold whatever they do. A call that may fork can stay
pending: the run then stops there with the whole continuation, the operands and the locals, and
can be taken up again with the results of the call. Code that validation rejects is stuck.
Only loops need fuel.
-/

namespace Kandelo.ForkInstrument.Machine

open Lib

/-! ### State -/

/-- What user instructions act on. -/
structure UserWorld where
  mem : Memory
  globals : GlobalId → Val
  tables : TableId → List Ref

/-- User instructions and calls with their operands, in the order they are executed. -/
inductive Event
  | plain (i : Instr) (operands : List Val)
  | plainCall (f : FunctionId) (args : List Val)
  | call (callee : Callee) (args : List Val)

/-- The user's world with the fork state, the address of the save buffer, the auxiliary tables
and the events so far, last first. -/
structure World extends UserWorld where
  state : BitVec 32
  buf : Nat
  aux : RefClass → List Ref
  trace : List Event

/-- State of an activation. -/
structure State where
  locals : Var → Val
  world : World
  stack : List Val

/-- Result of an instruction. -/
inductive Result (α : Type)
  | ok (a : α)
  | trap
  | stuck

/-- What a call that may fork does. -/
inductive Answer
  | ret (results : List Val) (world : World)
  | trap
  | pending

/-- The parameters of a run. -/
structure Env where
  ptr : PtrTy
  varTy : Var → ValType
  i32Pure : Nat → BitVec 32 → BitVec 32
  i64Pure : Nat → BitVec 64 → BitVec 64
  unop : UnaryOp → Value → Result Value
  binop : BinaryOp → Value → Value → Result Value
  plain : Instr → List Val → UserWorld → Result (List Val × UserWorld)
  plainCall : FunctionId → List Val → World → Result (List Val × World)
  call : Callee → List Val → World → Answer

/-- Values of a type; references are not told apart. -/
def hasTy : ValType → Val → Bool
  | ty, .num v => v.ty == ty
  | ty, .ref _ => !isScalar ty

/-! ### Instructions without control flow -/

/-- None is a trap. -/
def Result.ofOption {α : Type} : Option α → Result α
  | some a => .ok a
  | none => .trap

variable (E : Env)

/-- Unary operators. -/
def evalUnop : UnaryOp → Value → Result Value
  | .i32Eqz, .i32 a => .ok (.i32 (if a = 0 then 1 else 0))
  | .i64Eqz, .i64 a => .ok (.i32 (if a = 0 then 1 else 0))
  | .i32WrapI64, .i64 a => .ok (.i32 (a.setWidth 32))
  | .i64ExtendSI32, .i32 a => .ok (.i64 (a.signExtend 64))
  | .i64ExtendUI32, .i32 a => .ok (.i64 (a.setWidth 64))
  | .i32Pure op, .i32 a => .ok (.i32 (E.i32Pure op a))
  | .i64Pure op, .i64 a => .ok (.i64 (E.i64Pure op a))
  | op, v => E.unop op v

/-- Binary operators; the first operand is the lower one. -/
def evalBinop : BinaryOp → Value → Value → Result Value
  | .i32 op, .i32 a, .i32 b => .ofOption ((op.eval a b).map .i32)
  | .i32Rel rel, .i32 a, .i32 b => .ok (.i32 (if rel.eval a b then 1 else 0))
  | .i64 op, .i64 a, .i64 b => .ofOption ((op.eval a b).map .i64)
  | .i64Rel rel, .i64 a, .i64 b => .ok (.i32 (if rel.eval a b then 1 else 0))
  | op, a, b => E.binop op a b

namespace State

variable (s : State)

/-- Push a value. -/
def push (v : Val) : State := { s with stack := v :: s.stack }

/-- Replace the stack. -/
def withStack (stack : List Val) : State := { s with stack := stack }

/-- Set a local. -/
def setLocal (x : Var) (v : Val) : State :=
  { s with locals := fun y => if y = x then v else s.locals y }

/-- Replace the memory. -/
def withMem (mem : Memory) : State := { s with world := { s.world with mem := mem } }

end State

/-- One instruction without control flow. -/
def step : Code → State → Result State
  | .const v, s => .ok (s.push (.num v))
  | .refNull, s => .ok (s.push (.ref .null))
  | .localGet x, s => .ok (s.push (s.locals x))
  | .localSet x, s =>
    match s.stack with
    | v :: st => if hasTy (E.varTy x) v then .ok ((s.withStack st).setLocal x v) else .stuck
    | [] => .stuck
  | .localTee x, s =>
    match s.stack with
    | v :: _ => if hasTy (E.varTy x) v then .ok (s.setLocal x v) else .stuck
    | [] => .stuck
  | .stateGet, s => .ok (s.push (.num (.i32 s.world.state)))
  | .bufGet, s => .ok (s.push (.num (E.ptr.value s.world.buf)))
  | .unop op, s =>
    match s.stack with
    | .num a :: st =>
      match evalUnop E op a with
      | .ok r => .ok (s.withStack (.num r :: st))
      | .trap => .trap
      | .stuck => .stuck
    | _ => .stuck
  | .binop op, s =>
    match s.stack with
    | .num b :: .num a :: st =>
      match evalBinop E op a b with
      | .ok r => .ok (s.withStack (.num r :: st))
      | .trap => .trap
      | .stuck => .stuck
    | _ => .stuck
  | .load ty offset, s =>
    match s.stack with
    | v :: st =>
      match v.index with
      | none => .stuck
      | some a =>
        match s.world.mem.load (a + offset) (scalarSize ty) with
        | none => .trap
        | some n =>
          match Value.ofNat ty n with
          | some r => .ok (s.withStack (.num r :: st))
          | none => .stuck
    | [] => .stuck
  | .store ty offset, s =>
    match s.stack with
    | .num x :: v :: st =>
      if x.ty = ty then
        match v.index with
        | none => .stuck
        | some a =>
          match s.world.mem.store (a + offset) (scalarSize ty) x.toNat with
          | none => .trap
          | some mem => .ok ((s.withStack st).withMem mem)
      else .stuck
    | _ => .stuck
  | .select, s =>
    match s.stack with
    | .num (.i32 c) :: b :: a :: st => .ok (s.withStack ((if c ≠ 0 then a else b) :: st))
    | _ => .stuck
  | .auxGet c, s =>
    match s.stack with
    | .num (.i32 i) :: st =>
      match (s.world.aux c)[i.toNat]? with
      | some r => .ok (s.withStack (.ref r :: st))
      | none => .trap
    | _ => .stuck
  | .auxSet c, s =>
    match s.stack with
    | .ref r :: .num (.i32 i) :: st =>
      if i.toNat < (s.world.aux c).length then
        .ok { s.withStack st with
          world := { s.world with
            aux := fun d => if d = c then (s.world.aux c).set i.toNat r else s.world.aux d } }
      else .trap
    | _ => .stuck
  | .plain i, s =>
    match E.plain i s.stack s.world.toUserWorld with
    | .ok (st, w) =>
      .ok { s with
        stack := st
        world := { s.world with toUserWorld := w, trace := .plain i s.stack :: s.world.trace } }
    | .trap => .trap
    | .stuck => .stuck
  | .plainCall f ty, s =>
    if ty.params.length ≤ s.stack.length then
      match E.plainCall f (s.stack.take ty.params.length) s.world with
      | .ok (results, w) =>
        if results.length = ty.results.length then
          .ok { s with
            stack := results ++ s.stack.drop ty.params.length
            world := { w with
              trace := .plainCall f (s.stack.take ty.params.length) :: s.world.trace } }
        else .stuck
      | .trap => .trap
      | .stuck => .stuck
    else .stuck
  | _, _ => .stuck

/-! ### Control -/

/-- A block that was entered, with its body if it is a loop, and the operands under it. -/
structure Block where
  label : Label
  ty : BlockType
  again : Option (List Code)
  below : List Val

/-- A call that has not returned. The continuation is, from the inside, the code left at each
level with the block it is in, and the code left at the outermost level. -/
structure Pending where
  callee : Callee
  site : Nat
  args : List Val
  results : Nat
  locals : Var → Val
  world : World
  stack : List Val
  ctx : List (List Code × Block)
  rest : List Code

/-- How running some code ends. -/
inductive Outcome
  | normal (s : State)
  | br (label : Label) (s : State)
  | ret (s : State)
  | trap (w : World)
  | pending (p : Pending)
  | stuck
  | fuel

namespace Outcome

/-- Go on with the rest of a sequence. -/
def andThen (o : Outcome) (code : List Code) (run : State → Outcome) : Outcome :=
  match o with
  | .normal s => run s
  | .pending p => .pending { p with rest := p.rest ++ code }
  | o => o

end Outcome

namespace Pending

/-- A pending call inside a block. -/
def enclose (p : Pending) (b : Block) : Pending :=
  { p with ctx := p.ctx ++ [(p.rest, b)], rest := [] }

end Pending

namespace Block

/-- The end of a block is reached. -/
def fallThrough (b : Block) (s : State) : Outcome :=
  if s.stack.length = b.ty.results.length then .normal (s.withStack (s.stack ++ b.below))
  else .stuck

/-- Leave a block that is not a loop. -/
def exit (b : Block) : Outcome → Outcome
  | .normal s => b.fallThrough s
  | .br l s =>
    if l = b.label then
      if b.ty.results.length ≤ s.stack.length then
        .normal (s.withStack (s.stack.take b.ty.results.length ++ b.below))
      else .stuck
    else .br l s
  | .pending p => .pending (p.enclose b)
  | o => o

/-- Leave a loop, or run its body again. -/
def iterate (b : Block) (run : State → Outcome) : Nat → Outcome → Outcome
  | _, .normal s => b.fallThrough s
  | n, .br l s =>
    if l = b.label then
      if b.ty.params.length ≤ s.stack.length then
        match n with
        | 0 => .fuel
        | n + 1 => iterate b run n (run (s.withStack (s.stack.take b.ty.params.length)))
      else .stuck
    else .br l s
  | _, .pending p => .pending (p.enclose b)
  | _, o => o

end Block

mutual

/-- Run an instruction, with `N` iterations at most of every loop. -/
def runInstr (E : Env) (N : Nat) : Code → State → Outcome
  | .block label ty body, s =>
    if ty.params.length ≤ s.stack.length then
      Block.exit ⟨label, ty, none, s.stack.drop ty.params.length⟩
        (runSeq E N body (s.withStack (s.stack.take ty.params.length)))
    else .stuck
  | .loop label ty body, s =>
    if ty.params.length ≤ s.stack.length then
      Block.iterate ⟨label, ty, some body, s.stack.drop ty.params.length⟩ (runSeq E N body) N
        (runSeq E N body (s.withStack (s.stack.take ty.params.length)))
    else .stuck
  | .ifElse thenLabel elseLabel ty thenBody elseBody, s =>
    match s.stack with
    | .num (.i32 c) :: st =>
      if ty.params.length ≤ st.length then
        if c ≠ 0 then
          Block.exit ⟨thenLabel, ty, none, st.drop ty.params.length⟩
            (runSeq E N thenBody (s.withStack (st.take ty.params.length)))
        else
          Block.exit ⟨elseLabel, ty, none, st.drop ty.params.length⟩
            (runSeq E N elseBody (s.withStack (st.take ty.params.length)))
      else .stuck
    | _ => .stuck
  | .br label, s => .br label s
  | .brIf label, s =>
    match s.stack with
    | .num (.i32 c) :: st => if c ≠ 0 then .br label (s.withStack st) else .normal (s.withStack st)
    | _ => .stuck
  | .brTable labels default, s =>
    match s.stack with
    | .num (.i32 i) :: st => .br (labels.getD i.toNat default) (s.withStack st)
    | _ => .stuck
  | .ret, s => .ret s
  | .unreachable, s => .trap s.world
  | .call callee ty site, s =>
    let n := ty.params.length + match callee with
      | .direct _ => 0
      | .indirect _ => 1
    if n ≤ s.stack.length then
      match E.call callee (s.stack.take n) s.world with
      | .ret results w =>
        if results.length = ty.results.length then
          .normal { s with
            stack := results ++ s.stack.drop n
            world := { w with trace := .call callee (s.stack.take n) :: s.world.trace } }
        else .stuck
      | .trap => .trap s.world
      | .pending =>
        .pending ⟨callee, site, s.stack.take n, ty.results.length, s.locals, s.world,
          s.stack.drop n, [], []⟩
    else .stuck
  | i, s =>
    match step E i s with
    | .ok s => .normal s
    | .trap => .trap s.world
    | .stuck => .stuck

/-- Run a sequence. -/
def runSeq (E : Env) (N : Nat) : List Code → State → Outcome
  | [], s => .normal s
  | i :: rest, s => (runInstr E N i s).andThen rest (runSeq E N rest)

end

/-! ### Running sequences -/

section

variable {E : Env} {N : Nat} {i : Code}

@[simp] lemma runSeq_nil (s : State) : runSeq E N [] s = .normal s := by rw [runSeq]

lemma runSeq_cons (i : Code) (rest : List Code) (s : State) :
    runSeq E N (i :: rest) s = (runInstr E N i s).andThen rest (runSeq E N rest) := by rw [runSeq]

lemma runInstr_of_step {s s' : State} (h : step E i s = .ok s') :
    runInstr E N i s = .normal s' := by
  cases i with
  | call | br | brIf | brTable | ret | unreachable | block | loop | ifElse => cases h
  | _ => simp only [runInstr, h]

lemma runSeq_cons_of_step {s s' : State} (h : step E i s = .ok s') (rest : List Code) :
    runSeq E N (i :: rest) s = runSeq E N rest s' := by
  rw [runSeq_cons, runInstr_of_step h]
  rfl

/-- Whether an instruction has no control flow. -/
def isStep : Code → Bool
  | .call .. | .br _ | .brIf _ | .brTable .. | .ret | .unreachable | .block .. | .loop ..
  | .ifElse .. => false
  | _ => true

/-- The outcome of one step. -/
def Outcome.ofResult (w : World) : Result State → Outcome
  | .ok s => .normal s
  | .trap => .trap w
  | .stuck => .stuck

lemma runInstr_eq_step (h : isStep i = true) (s : State) :
    runInstr E N i s = .ofResult s.world (step E i s) := by
  cases i with
  | call | br | brIf | brTable | ret | unreachable | block | loop | ifElse => cases h
  | _ =>
    simp only [runInstr]
    split <;> next hstep => rw [hstep]; rfl

end

end Kandelo.ForkInstrument.Machine
