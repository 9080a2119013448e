import Mathlib.Data.List.Basic

/-!
# WebAssembly modules as the instrumenter sees them

The part of the module representation that
`crates/fork-instrument/src` reads and writes: instruction trees whose sequences carry
identifiers, constant expressions, tables, element segments and functions. Instructions that
no pass looks into are a single constructor.
-/

namespace Kandelo.ForkInstrument

/-- Position of a function in the module, imports included. -/
abbrev FunctionId := Nat

/-- Position of a table. -/
abbrev TableId := Nat

/-- Position of an element segment. -/
abbrev ElementId := Nat

/-- Position of a function type. -/
abbrev TypeId := Nat

/-- Position of a global. -/
abbrev GlobalId := Nat

/-- Identifier of an instruction sequence; branches name the sequence they leave. -/
abbrev SeqId := Nat

/-- Identifier of a local. -/
abbrev LocalId := Nat

/-- Heap types; those outside the three hierarchies that the auxiliary tables serve are not told
apart. -/
inductive HeapType
  | function
  | noFunction
  | external
  | noExternal
  | exception
  | noException
  | other (heap : Nat)
  deriving DecidableEq

/-- Value types. The named reference types are nullable. -/
inductive ValType
  | i32
  | i64
  | f32
  | f64
  | v128
  | funcref
  | externref
  | exnref
  | otherRef (nullable : Bool) (heap : HeapType)
  deriving DecidableEq

/-- A reference held in a table, a global or on the stack: null, a function of the module, or
something from outside it. -/
inductive Ref
  | null
  | func (f : FunctionId)
  | foreign (id : Nat)
  deriving DecidableEq

/-- Numeric constants, `ir::Value`; floats are their bits. -/
inductive Value
  | i32 (v : BitVec 32)
  | i64 (v : BitVec 64)
  | f32 (v : BitVec 32)
  | f64 (v : BitVec 64)
  | v128 (v : BitVec 128)
  deriving DecidableEq

/-- Values on the stack, in locals and in globals. -/
inductive Val
  | num (v : Value)
  | ref (r : Ref)
  deriving DecidableEq

/-- An operand that is an index or an address, of 32-bit and of 64-bit tables and memories. -/
def Val.index : Val → Option Nat
  | .num (.i32 v) => some v.toNat
  | .num (.i64 v) => some v.toNat
  | _ => none

/-- Integer arithmetic. -/
inductive IntOp
  | add
  | sub
  | mul
  | and
  | or
  | xor
  | shl
  | shrS
  | shrU
  | rotl
  | rotr
  | divS
  | divU
  | remS
  | remU
  deriving DecidableEq

/-- Integer comparisons. -/
inductive IntRel
  | eq
  | ne
  | ltS
  | ltU
  | gtS
  | gtU
  | leS
  | leU
  | geS
  | geU

/-- Binary operators; floating-point and vector ones are not told apart. -/
inductive BinaryOp
  | i32 (op : IntOp)
  | i32Rel (rel : IntRel)
  | i64 (op : IntOp)
  | i64Rel (rel : IntRel)
  | other (op : Nat) (result : ValType)

/-- Unary operators; those outside the pure integer whitelist are not told apart. -/
inductive UnaryOp
  | i32Eqz
  | i64Eqz
  | i32WrapI64
  | i64ExtendSI32
  | i64ExtendUI32
  | i32Pure (op : Nat)
  | i64Pure (op : Nat)
  | other (op : Nat) (result : ValType)

/-- Parameters and results of a sequence. -/
structure BlockType where
  params : List ValType
  results : List ValType

/-- Catch clause of a `try_table`: the sequence an exception leaves to. -/
structure TryTableCatch where
  label : SeqId

/-- Instructions. `prim` stands for every instruction without control flow that touches no
table; `pops` and `pushes` are its declared stack effect. -/
inductive Instr
  | const (v : Value)
  | localGet (x : LocalId)
  | localSet (x : LocalId)
  | localTee (x : LocalId)
  | globalGet (g : GlobalId)
  | globalSet (g : GlobalId)
  | unop (op : UnaryOp)
  | binop (op : BinaryOp)
  | load (ty : ValType) (offset : Nat)
  | store (ty : ValType) (offset : Nat)
  | select
  | prim (op : Nat) (pops : Nat) (pushes : List ValType)
  | tableGet (table : TableId)
  | tableSet (table : TableId)
  | tableGrow (table : TableId)
  | tableFill (table : TableId)
  | tableInit (elem : ElementId) (table : TableId)
  | tableCopy (src dst : TableId)
  | elemDrop (elem : ElementId)
  | call (f : FunctionId)
  | callIndirect (table : TableId) (ty : TypeId)
  | returnCall (f : FunctionId)
  | returnCallIndirect (table : TableId) (ty : TypeId)
  | br (label : SeqId)
  | brIf (label : SeqId)
  | brTable (labels : List SeqId) (default : SeqId)
  | ret
  | unreachable
  | block (id : SeqId) (ty : BlockType) (body : List Instr)
  | loop (id : SeqId) (ty : BlockType) (body : List Instr)
  | ifElse (thenId elseId : SeqId) (ty : BlockType) (thenBody elseBody : List Instr)
  | tryTable (id : SeqId) (ty : BlockType) (catches : List TryTableCatch) (body : List Instr)
  | tryLegacy (id : SeqId) (ty : BlockType) (body : List Instr) (handlers : List (List Instr))

mutual

/-- The instruction and those inside it in depth-first order, `dfs_in_order`, each with the
instructions before it in its sequence, last to first. -/
def instrOccurrences (past : List Instr) : Instr → List (List Instr × Instr)
  | .block id ty body => (past, .block id ty body) :: seqOccurrences [] body
  | .loop id ty body => (past, .loop id ty body) :: seqOccurrences [] body
  | .ifElse thenId elseId ty thenBody elseBody =>
    (past, .ifElse thenId elseId ty thenBody elseBody) ::
      (seqOccurrences [] thenBody ++ seqOccurrences [] elseBody)
  | .tryTable id ty catches body => (past, .tryTable id ty catches body) :: seqOccurrences [] body
  | .tryLegacy id ty body handlers =>
    (past, .tryLegacy id ty body handlers) :: (seqOccurrences [] body ++ seqsOccurrences handlers)
  | i => [(past, i)]

/-- The instructions of a sequence, which has some before it. -/
def seqOccurrences (past : List Instr) : List Instr → List (List Instr × Instr)
  | [] => []
  | i :: rest => instrOccurrences past i ++ seqOccurrences (i :: past) rest

/-- The instructions of several sequences. -/
def seqsOccurrences : List (List Instr) → List (List Instr × Instr)
  | [] => []
  | seq :: rest => seqOccurrences [] seq ++ seqsOccurrences rest

end

lemma mem_instrOccurrences_self {past : List Instr} {i : Instr} :
    (past, i) ∈ instrOccurrences past i := by
  cases i <;> simp [instrOccurrences]

/-- One operation of an extended constant expression. -/
inductive ConstOp
  | const (v : Value)
  | i32Add
  | i32Sub
  | i32Mul
  | i64Add
  | i64Sub
  | i64Mul
  | globalGet (g : GlobalId)
  | refNull
  | refFunc (f : FunctionId)
  deriving DecidableEq

/-- Constant expressions. -/
inductive ConstExpr
  | value (v : Value)
  | global (g : GlobalId)
  | refNull
  | refFunc (f : FunctionId)
  | extended (ops : List ConstOp)
  deriving DecidableEq

/-- How an element segment is used. -/
inductive ElementKind
  | active (table : TableId) (offset : ConstExpr)
  | passive
  | declared
  deriving DecidableEq

/-- Items of an element segment. -/
inductive ElementItems
  | functions (ids : List FunctionId)
  | expressions (exprs : List ConstExpr)

/-- Element segment. -/
structure Element where
  kind : ElementKind
  items : ElementItems

/-- Table with its declared size and the initial value of its slots. -/
structure Table where
  imported : Bool
  initial : Nat
  init : Option ConstExpr

/-- A function; imports have no body. -/
structure Func where
  ty : TypeId
  body : Option (List Instr)

/-- Import. -/
structure Import where
  module : String
  name : String
  isFunction : Bool

/-- Module. -/
structure Module where
  types : List BlockType
  imports : List Import
  funcs : List Func
  tables : List Table
  elements : List Element

namespace Module

/-- The body of a function that is not imported. -/
def bodyOf (m : Module) (f : FunctionId) : Option (List Instr) := m.funcs[f]?.bind (·.body)

/-- The local functions with their bodies, `module.funcs.iter_local()`. -/
def localFuncs (m : Module) : List (FunctionId × List Instr) :=
  (List.range m.funcs.length).filterMap fun f => (m.bodyOf f).map (f, ·)

lemma mem_localFuncs {m : Module} {f : FunctionId} {body : List Instr} :
    (f, body) ∈ m.localFuncs ↔ m.bodyOf f = some body := by
  unfold localFuncs
  simp only [List.mem_filterMap, List.mem_range, Option.map_eq_some_iff, Prod.mk.injEq]
  constructor
  · rintro ⟨g, -, b, hb, rfl, rfl⟩
    exact hb
  intro hb
  refine ⟨f, ?_, body, hb, rfl, rfl⟩
  by_contra hge
  unfold bodyOf at hb
  rw [List.getElem?_eq_none (by omega)] at hb
  cases hb

end Module

end Kandelo.ForkInstrument
