import Kandelo.ForkInstrument.CallGraph

/-!
# Execution as far as tables are concerned

The runs of a module that the table analysis speaks about.
Instantiation, the table instructions, `i32` constants, additions and subtractions, and the
choice of an indirect call's target are those of WebAssembly. Everything the analysis does not
track is left open: other instructions leave any operands, branches and exceptions leave to any
enclosing sequence, and the host calls any function of the module while it is in control. Every
execution is therefore a run here.
-/

namespace Kandelo.ForkInstrument

open Lib

/-! ### Instantiation -/

/-- What the module is instantiated with: the values of all globals, and the contents of
imported tables. -/
structure Env where
  globals : GlobalId → Val
  tables : TableId → List Ref

/-- Apply an operator to two 32-bit operands. -/
def evalI32 (op : BitVec 32 → BitVec 32 → BitVec 32) : List Val → Option (List Val)
  | .num (.i32 b) :: .num (.i32 a) :: s => some (.num (.i32 (op a b)) :: s)
  | _ => none

/-- Apply an operator to two 64-bit operands. -/
def evalI64 (op : BitVec 64 → BitVec 64 → BitVec 64) : List Val → Option (List Val)
  | .num (.i64 b) :: .num (.i64 a) :: s => some (.num (.i64 (op a b)) :: s)
  | _ => none

variable (globals : GlobalId → Val)

/-- One operation of a constant expression on its stack. -/
def evalConstOp (s : List Val) : ConstOp → Option (List Val)
  | .const v => some (.num v :: s)
  | .i32Add => evalI32 (· + ·) s
  | .i32Sub => evalI32 (· - ·) s
  | .i32Mul => evalI32 (· * ·) s
  | .i64Add => evalI64 (· + ·) s
  | .i64Sub => evalI64 (· - ·) s
  | .i64Mul => evalI64 (· * ·) s
  | .globalGet g => some (globals g :: s)
  | .refNull => some (.ref .null :: s)
  | .refFunc f => some (.ref (.func f) :: s)

/-- Value of a constant expression. -/
def evalConst : ConstExpr → Option Val
  | .value v => some (.num v)
  | .global g => some (globals g)
  | .refNull => some (.ref .null)
  | .refFunc f => some (.ref (.func f))
  | .extended ops =>
    match ops.foldlM (evalConstOp globals) [] with
    | some [v] => some v
    | _ => none

/-- Reference a constant expression evaluates to. -/
def evalRef (e : ConstExpr) : Option Ref :=
  match evalConst globals e with
  | some (.ref r) => some r
  | _ => none

/-- The references of a segment. -/
def evalItems : ElementItems → Option (List Ref)
  | .functions ids => some (ids.map .func)
  | .expressions exprs => exprs.mapM (evalRef globals)

/-- Contents of the tables and of the segments that are not dropped. -/
structure Store where
  tables : TableId → List Ref
  elems : ElementId → List Ref

namespace Store

/-- Replace a table. -/
def setTable (st : Store) (table : TableId) (refs : List Ref) : Store :=
  { st with tables := fun t => if t = table then refs else st.tables t }

/-- Drop a segment. -/
def dropElem (st : Store) (elem : ElementId) : Store :=
  { st with elems := fun e => if e = elem then [] else st.elems e }

end Store

/-- A table before the segments are copied. -/
def initialTable (env : Env) (id : TableId) (table : Table) : Option (List Ref) :=
  if table.imported then some (env.tables id)
  else
    match table.init with
    | none => some (List.replicate table.initial .null)
    | some e => (evalRef env.globals e).map (List.replicate table.initial)

variable (m : Module)

/-- Store before the active segments are written. -/
def allocate (env : Env) : Option Store := do
  let tables ← (Slice.enumerate m.tables).mapM fun (id, t) => initialTable env id t
  let elems ← m.elements.mapM fun e => evalItems env.globals e.items
  some ⟨fun t => tables.getD t [], fun e => elems.getD e []⟩

/-- Write an active segment to its table; active and declared segments are dropped. -/
def initElement (env : Env) (st : Store) (elem : ElementId × Element) : Option Store :=
  match elem.2.kind with
  | .active table offset => do
    let v ← evalConst env.globals offset
    let i ← v.index
    let refs ← Slice.writeRange (st.tables table) i (st.elems elem.1)
    some ((st.setTable table refs).dropElem elem.1)
  | .passive => some st
  | .declared => some (st.dropElem elem.1)

/-- Instantiation; none is a trap. -/
def instantiate (env : Env) : Option Store := do
  let st ← allocate m env
  (Slice.enumerate m.elements).foldlM (initElement env) st

/-! ### Instructions -/

/-- Effect of an instruction that writes tables or drops a segment. -/
def Store.tableOp (st : Store) : Instr → List Val → Option Store
  | .tableSet table, .ref r :: i :: _ => do
    let refs ← Slice.writeRange (st.tables table) (← i.index) [r]
    some (st.setTable table refs)
  | .tableFill table, n :: .ref r :: i :: _ => do
    let refs ← Slice.writeRange (st.tables table) (← i.index) (List.replicate (← n.index) r)
    some (st.setTable table refs)
  | .tableGrow table, n :: .ref r :: _ => do
    some (st.setTable table (st.tables table ++ List.replicate (← n.index) r))
  | .tableInit elem table, n :: s :: d :: _ => do
    let refs ← Slice.readRange (st.elems elem) (← s.index) (← n.index)
    let refs ← Slice.writeRange (st.tables table) (← d.index) refs
    some (st.setTable table refs)
  | .tableCopy src dst, n :: s :: d :: _ => do
    let refs ← Slice.readRange (st.tables src) (← s.index) (← n.index)
    let refs ← Slice.writeRange (st.tables dst) (← d.index) refs
    some (st.setTable dst refs)
  | .elemDrop elem, _ => some (st.dropElem elem)
  | _, _ => none

/-- Instructions that can complete without writing a table and without a call; a `table.grow`
that fails is one. -/
def Instr.isQuiet : Instr → Bool
  | .const _ | .binop (.i32 .add) | .binop (.i32 .sub)
  | .tableSet _ | .tableFill _ | .tableInit _ _ | .tableCopy _ _ | .elemDrop _
  | .call _ | .callIndirect _ _ | .returnCall _ | .returnCallIndirect _ _
  | .br _ | .brTable _ _ | .ret | .unreachable
  | .block _ _ _ | .loop _ _ _ | .ifElse _ _ _ _ _ | .tryTable _ _ _ _ | .tryLegacy _ _ _ _ => false
  | _ => true

/-- Sequences an instruction can enter, each with the sequences that can start in its place
later: the body of a loop again, the handlers of a `try`. -/
def Instr.bodies : Instr → List (List Instr × List (List Instr))
  | .block _ _ body => [(body, [])]
  | .loop _ _ body => [(body, [body])]
  | .ifElse _ _ _ thenBody elseBody => [(thenBody, []), (elseBody, [])]
  | .tryTable _ _ _ body => [(body, [])]
  | .tryLegacy _ _ body handlers => [(body, handlers)]
  | _ => []

/-- A sequence being executed: the instructions behind, last to first, and those ahead. -/
structure Ctl where
  past : List Instr
  next : List Instr
  resume : List (List Instr)

/-- Activation of a function: the sequences entered, innermost first, and its operands. -/
structure Frame where
  func : FunctionId
  ctrl : List Ctl
  stack : List Val

namespace Frame

variable (fr : Frame)

/-- The next instruction, with the instructions before it in its sequence. -/
def current : Option (List Instr × Instr) :=
  match fr.ctrl with
  | ⟨past, i :: _, _⟩ :: _ => some (past, i)
  | _ => none

/-- Move past the next instruction, leaving the operands `stack`. -/
def advance (stack : List Val) : Frame :=
  match fr.ctrl with
  | ⟨past, i :: next, rs⟩ :: ctls => ⟨fr.func, ⟨i :: past, next, rs⟩ :: ctls, stack⟩
  | _ => fr

/-- Enter a sequence. -/
def enter (seq : List Instr) (rs : List (List Instr)) : Frame :=
  { fr with ctrl := ⟨[], seq, rs⟩ :: fr.ctrl }

end Frame

/-- Steps inside one activation. -/
inductive FrameStep : Store → Frame → Store → Frame → Prop
  | const {st fr past v} (h : Frame.current fr = some (past, .const v)) :
    FrameStep st fr st (fr.advance (.num v :: fr.stack))
  | add {st fr past a b stack} (h : Frame.current fr = some (past, .binop (.i32 .add)))
    (hs : fr.stack = .num (.i32 b) :: .num (.i32 a) :: stack) :
    FrameStep st fr st (fr.advance (.num (.i32 (a + b)) :: stack))
  | sub {st fr past a b stack} (h : Frame.current fr = some (past, .binop (.i32 .sub)))
    (hs : fr.stack = .num (.i32 b) :: .num (.i32 a) :: stack) :
    FrameStep st fr st (fr.advance (.num (.i32 (a - b)) :: stack))
  | quiet {st fr past i} (h : Frame.current fr = some (past, i)) (hi : i.isQuiet = true)
    (stack : List Val) : FrameStep st fr st (fr.advance stack)
  | table {st st' fr past i} (h : Frame.current fr = some (past, i))
    (hi : Store.tableOp st i fr.stack = some st') (stack : List Val) :
    FrameStep st fr st' (fr.advance stack)
  | enter {st fr past i seq rs} (h : Frame.current fr = some (past, i))
    (hi : (seq, rs) ∈ i.bodies) (stack : List Val) :
    FrameStep st fr st ((fr.advance stack).enter seq rs)
  -- The sequence ends, or a branch or an exception leaves it.
  | leave {st fr inner c ctls} (h : fr.ctrl = inner ++ c :: ctls) (stack : List Val) :
    FrameStep st fr st ⟨fr.func, ctls, stack⟩
  -- A branch to a loop starts its body again, an exception starts a handler.
  | resume {st fr inner c ctls seq} (h : fr.ctrl = inner ++ c :: ctls) (hc : seq ∈ Ctl.resume c)
    (stack : List Val) : FrameStep st fr st ⟨fr.func, ⟨[], seq, c.resume⟩ :: ctls, stack⟩

/-! ### Runs -/

/-- Who is in control: a function of the module, or the host. -/
inductive Activation
  | wasm (frame : Frame)
  | host

/-- State of a run, the current activation first. -/
structure State where
  store : Store
  acts : List Activation

/-- Enter a function. -/
def Module.activate (g : FunctionId) : Activation :=
  match m.bodyOf g with
  | some body => .wasm ⟨g, [⟨[], body, []⟩], []⟩
  | none => .host

/-- Function an indirect call goes to: the index is the top operand, and the type of the
function in the slot is checked. -/
def dispatchTarget (st : Store) (call : IndirectCall) (stack : List Val) : Option FunctionId := do
  let v ← stack.head?
  let i ← v.index
  match (st.tables call.table)[i]? with
  | some (.func g) =>
    let ty ← functionTypeId m g
    if typesMatch m call.ty ty then some g else none
  | _ => none

/-- The current activation is one of `f`, its next instruction is the indirect call, and the
call goes to `g`. -/
def Dispatches (s : State) (f : FunctionId) (call : IndirectCall) (g : FunctionId) : Prop :=
  ∃ fr rest past i, s.acts = .wasm fr :: rest ∧ fr.func = f ∧ fr.current = some (past, i) ∧
    indirectCallAt past i = some call ∧ dispatchTarget m s.store call fr.stack = some g

/-- Replace the stack of the activation that goes on. -/
def withResults (stack : List Val) : List Activation → List Activation
  | .wasm fr :: rest => .wasm { fr with stack := stack } :: rest
  | acts => acts

/-- Steps of a run. -/
inductive Step (m : Module) : State → State → Prop
  | frame {st st' fr fr' rest} (h : FrameStep st fr st' fr') :
    Step m ⟨st, .wasm fr :: rest⟩ ⟨st', .wasm fr' :: rest⟩
  | call {st fr rest past g} (h : Frame.current fr = some (past, .call g)) :
    Step m ⟨st, .wasm fr :: rest⟩ ⟨st, m.activate g :: .wasm (fr.advance []) :: rest⟩
  | returnCall {st fr rest past g} (h : Frame.current fr = some (past, .returnCall g)) :
    Step m ⟨st, .wasm fr :: rest⟩ ⟨st, m.activate g :: rest⟩
  | callIndirect {st fr rest past table ty call g}
    (h : Frame.current fr = some (past, .callIndirect table ty))
    (hc : indirectCallAt past (.callIndirect table ty) = some call)
    (hg : dispatchTarget m st call fr.stack = some g) :
    Step m ⟨st, .wasm fr :: rest⟩ ⟨st, m.activate g :: .wasm (fr.advance []) :: rest⟩
  | returnCallIndirect {st fr rest past table ty call g}
    (h : Frame.current fr = some (past, .returnCallIndirect table ty))
    (hc : indirectCallAt past (.returnCallIndirect table ty) = some call)
    (hg : dispatchTarget m st call fr.stack = some g) :
    Step m ⟨st, .wasm fr :: rest⟩ ⟨st, m.activate g :: rest⟩
  -- An indirect call to a function from outside the module.
  | callForeign {st fr rest past table ty}
    (h : Frame.current fr = some (past, .callIndirect table ty)) :
    Step m ⟨st, .wasm fr :: rest⟩ ⟨st, .host :: .wasm (fr.advance []) :: rest⟩
  | returnCallForeign {st fr rest past table ty}
    (h : Frame.current fr = some (past, .returnCallIndirect table ty)) :
    Step m ⟨st, .wasm fr :: rest⟩ ⟨st, .host :: rest⟩
  | hostCall {st rest} (g : FunctionId) :
    Step m ⟨st, .host :: rest⟩ ⟨st, m.activate g :: .host :: rest⟩
  -- The activation returns, or an exception leaves it.
  | ret {st act rest} (stack : List Val) : Step m ⟨st, act :: rest⟩ ⟨st, withResults stack rest⟩

/-- States of the runs of an instance of the module; the host starts in control. -/
def Reachable (env : Env) (s : State) : Prop :=
  ∃ st, instantiate m env = some st ∧ Relation.ReflTransGen (Step m) ⟨st, [.host]⟩ s

end Kandelo.ForkInstrument
