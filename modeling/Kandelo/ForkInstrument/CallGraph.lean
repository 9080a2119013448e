import Mathlib.Data.Finset.Prod
import Kandelo.Lib.Saturate
import Kandelo.Lib.Slice
import Kandelo.ForkInstrument.Ir

/-!
# Call-graph discovery

The table analysis of `crates/fork-instrument/src/call_graph.rs`:
which functions an indirect call may reach, given the element segments, the table
initialisers and the table instructions of the module, and the index the call is known to
use. Hash maps of hash sets are finite sets of tuples here.
-/

namespace Kandelo.ForkInstrument

open Lib

/-! ### Profiles -/

/-- What is known about the index of an indirect call; `call_graph.rs:148-151`. -/
inductive IndexProof
  | const (v : BitVec 32)
  | unknown

/-- An indirect call; `call_graph.rs:141-145`. -/
structure IndirectCall where
  table : TableId
  ty : TypeId
  index : IndexProof

/-- Infer the value on top of the stack after a run of instructions, given last to first;
`call_graph.rs:217-243`. Returns the instructions before the expression. The fuel is the number
of instructions plus one. -/
def inferI32Expr : Nat → List Instr → Option (IndexProof × List Instr)
  | 0, _ => none
  | _ + 1, [] => none
  | fuel + 1, i :: past =>
    match i with
    | .const (.i32 v) => some (.const v, past)
    | .binop (.i32 op) =>
      if op = .add ∨ op = .sub then do
        let (rhs, past) ← inferI32Expr fuel past
        let (lhs, past) ← inferI32Expr fuel past
        let proof : IndexProof :=
          match lhs, rhs with
          | .const a, .const b => .const (if op = .add then a + b else a - b)
          | _, _ => .unknown
        some (proof, past)
      else some (.unknown, past)
    | _ => some (.unknown, past)

variable (past : List Instr)

/-- Index of the call that follows these instructions; `call_graph.rs:211-215`. -/
def inferCallIndirectIndex : IndexProof :=
  ((inferI32Expr (past.length + 1) past).map (·.1)).getD .unknown

/-- The indirect call an instruction is, given the instructions before it;
`call_graph.rs:165-178`. -/
def indirectCallAt : Instr → Option IndirectCall
  | .callIndirect table ty => some ⟨table, ty, inferCallIndirectIndex past⟩
  | .returnCallIndirect table ty => some ⟨table, ty, inferCallIndirectIndex past⟩
  | _ => none

variable (body : List Instr)

/-- Indirect calls of a function; `call_graph.rs:153-209`. -/
def collectIndirectCalls : List IndirectCall :=
  (seqOccurrences [] body).filterMap fun o => indirectCallAt o.1 o.2

/-- Calls and table operations of a function; `call_graph.rs:79-85`. -/
structure FuncProfile where
  direct : List FunctionId
  indirect : List IndirectCall
  tableInits : List (ElementId × TableId)
  tableCopies : List (TableId × TableId)
  dynamicTableWrites : List TableId

/-- Collect from every instruction of a body, the `Visitor` of `call_graph.rs:47-75`. -/
def collect {α : Type} (body : List Instr) (visit : Instr → Option α) : List α :=
  (seqOccurrences [] body).filterMap fun o => visit o.2

/-- Direct calls; `call_graph.rs:48-54`. -/
def visitCall : Instr → Option FunctionId
  | .call f | .returnCall f => some f
  | _ => none

/-- Initialisations from a segment; `call_graph.rs:56-58`. -/
def visitTableInit : Instr → Option (ElementId × TableId)
  | .tableInit elem table => some (elem, table)
  | _ => none

/-- Copies, source first; `call_graph.rs:60-62`. -/
def visitTableCopy : Instr → Option (TableId × TableId)
  | .tableCopy src dst => some (src, dst)
  | _ => none

/-- Writes of values the analysis does not follow; `call_graph.rs:64-74`. -/
def visitTableWrite : Instr → Option TableId
  | .tableSet table | .tableFill table | .tableGrow table => some table
  | _ => none

/-- Profile of one body; `call_graph.rs:89-102`. -/
def profile : FuncProfile where
  direct := collect body visitCall
  indirect := collectIndirectCalls body
  tableInits := collect body visitTableInit
  tableCopies := collect body visitTableCopy
  dynamicTableWrites := collect body visitTableWrite

variable (m : Module)

/-- Profiles of the local functions; `call_graph.rs:87-105`. -/
def profileFunctions : List (FunctionId × FuncProfile) :=
  m.localFuncs.map fun (f, body) => (f, profile body)

/-! ### Element items -/

/-- What an element item is known to hold; `call_graph.rs:269-273`. -/
inductive ElementItemRef
  | func (f : FunctionId)
  | null
  | unknown
  deriving DecidableEq

/-- Reference a constant expression yields, if it can be read off; `call_graph.rs:284-295`. -/
def constExprRef : ConstExpr → ElementItemRef
  | .refFunc f => .func f
  | .refNull => .null
  | .extended [.refFunc f] => .func f
  | .extended [.refNull] => .null
  | _ => .unknown

/-- Functions a constant expression names; `call_graph.rs:297-315`. -/
def constExprFunctions : ConstExpr → List FunctionId
  | .refFunc f => [f]
  | .extended ops => ops.filterMap fun
    | .refFunc f => some f
    | _ => none
  | _ => []

/-- Items of a segment; `call_graph.rs:275-282`. -/
def elementItemRefs : ElementItems → List ElementItemRef
  | .functions ids => ids.map .func
  | .expressions exprs => exprs.map constExprRef

/-- Functions a segment names; `call_graph.rs:246-266`. -/
def elementFunctions : ElementItems → List FunctionId
  | .functions ids => ids
  | .expressions exprs => exprs.flatMap constExprFunctions

/-- Pop two values and push one; the right operand is popped first. -/
def binaryI32 (op : BitVec 32 → BitVec 32 → BitVec 32) :
    List (BitVec 32) → Option (List (BitVec 32))
  | rhs :: lhs :: stack => some (op lhs rhs :: stack)
  | _ => none

/-- One operation of the integer evaluator; `call_graph.rs:406-424`. -/
def constOpI32 (stack : List (BitVec 32)) : ConstOp → Option (List (BitVec 32))
  | .const (.i32 v) => some (v :: stack)
  | .i32Add => binaryI32 (· + ·) stack
  | .i32Sub => binaryI32 (· - ·) stack
  | .i32Mul => binaryI32 (· * ·) stack
  | _ => none

/-- Value of an integer constant expression without globals; `call_graph.rs:400-433`. -/
def constExprI32 : ConstExpr → Option (BitVec 32)
  | .value (.i32 v) => some v
  | .extended ops =>
    match ops.foldlM constOpI32 [] with
    | some [v] => some v
    | _ => none
  | _ => none

/-! ### Table targets -/

/-- Possible contents of the tables; `call_graph.rs:318-324`. -/
@[ext]
structure TableTargets where
  knownSlots : Finset (TableId × Nat × FunctionId)
  knownSlotFuncs : Finset (TableId × FunctionId)
  unknownSlots : Finset (TableId × Nat)
  knownTableFuncs : Finset (TableId × FunctionId)
  unknownTables : Finset TableId
  deriving DecidableEq

namespace TableTargets

/-- No table holds anything. -/
def empty : TableTargets := ⟨∅, ∅, ∅, ∅, ∅⟩

variable (t : TableTargets)

/-- A call may dispatch to the function; `call_graph.rs:327-362`. -/
def tableCanDispatch (call : IndirectCall) (func : FunctionId) : Bool :=
  if call.table ∈ t.unknownTables then true
  else
    match call.index with
    | .const index =>
      let slot := index.toNat
      decide ((call.table, slot, func) ∈ t.knownSlots) ||
        decide ((call.table, slot) ∈ t.unknownSlots) ||
        decide ((call.table, func) ∈ t.knownTableFuncs)
    | .unknown =>
      decide ((call.table, func) ∈ t.knownSlotFuncs) ||
        decide (∃ s ∈ t.unknownSlots, s.1 = call.table) ||
        decide ((call.table, func) ∈ t.knownTableFuncs)

variable (table : TableId) (slot : Nat) (func : FunctionId)

/-- A slot may hold the function; `call_graph.rs:364-372`. -/
def addSlotFunc : TableTargets :=
  { t with
    knownSlots := insert (table, slot, func) t.knownSlots
    knownSlotFuncs := insert (table, func) t.knownSlotFuncs }

/-- A slot may hold anything; `call_graph.rs:374-376`. -/
def addUnknownSlot : TableTargets :=
  { t with unknownSlots := insert (table, slot) t.unknownSlots }

/-- Any slot may hold the function; `call_graph.rs:378-383`. -/
def addTableFunc : TableTargets :=
  { t with knownTableFuncs := insert (table, func) t.knownTableFuncs }

/-- Any slot may hold one of the functions; `call_graph.rs:385-390`. -/
def addTableFuncs (funcs : List FunctionId) : TableTargets :=
  funcs.foldl (addTableFunc · table ·) t

/-- Every slot of the table may hold any function. -/
def addUnknownTable : TableTargets :=
  { t with unknownTables := insert table t.unknownTables }

/-- Functions a table may hold in some slot, from either source. -/
def funcsOf : Finset FunctionId :=
  ((t.knownTableFuncs ∪ t.knownSlotFuncs).filter (·.1 = table)).image (·.2)

end TableTargets

variable (table : TableId)

/-- One item of an active segment at a known offset; `call_graph.rs:480-490`. -/
def addActiveItem (base : Nat) (t : TableTargets) (item : Nat × ElementItemRef) : TableTargets :=
  if base + item.1 < 2 ^ 32 then
    match item.2 with
    | .func f => t.addSlotFunc table (base + item.1) f
    | .null => t
    | .unknown => t.addUnknownSlot table (base + item.1)
  else t.addUnknownTable table

variable (t : TableTargets)

/-- One item of a passive segment that a table is initialised from; `call_graph.rs:495-503`. -/
def addPassiveItem : ElementItemRef → TableTargets
  | .func f => t.addTableFunc table f
  | .null => t
  | .unknown => t.addUnknownTable table

/-- One element segment; `call_graph.rs:469-509`. The pairs are the `table.init`s of the module. -/
def addElement (inits : List (ElementId × TableId)) (t : TableTargets)
    (elem : ElementId × Element) :
    TableTargets :=
  let items := elementItemRefs elem.2.items
  match elem.2.kind with
  | .active table offset =>
    match constExprI32 offset with
    | none =>
      let t := t.addTableFuncs table (elementFunctions elem.2.items)
      if .unknown ∈ items then t.addUnknownTable table else t
    | some base => (Slice.enumerate items).foldl (addActiveItem table base.toNat) t
  | .passive =>
    (inits.filter (·.1 = elem.1)).foldl (fun t init => items.foldl (addPassiveItem init.2) t) t
  | .declared => t

/-- The copy makes its destination unknown; `call_graph.rs:516-527`. -/
def TableTargets.Spreads (src dst : TableId) : Prop :=
  (src ∈ t.unknownTables ∨ ∃ s ∈ t.unknownSlots, s.1 = src) ∧ dst ∉ t.unknownTables

instance (t : TableTargets) (src dst : TableId) : Decidable (t.Spreads src dst) :=
  inferInstanceAs (Decidable (_ ∧ _))

/-- Targets after one `table.copy`; `call_graph.rs:516-540`. -/
def TableTargets.copy (src dst : TableId) : TableTargets :=
  { t with
    unknownTables := if t.Spreads src dst then insert dst t.unknownTables else t.unknownTables
    knownTableFuncs := t.knownTableFuncs ∪ (t.funcsOf src).image (dst, ·) }

/-- One `table.copy`, with whether it or one before it added anything; `call_graph.rs:515-541`. -/
def copyTargets (r : TableTargets × Bool) (copy : TableId × TableId) : TableTargets × Bool :=
  let t := r.1.copy copy.1 copy.2
  (t, r.2 || decide (r.1.Spreads copy.1 copy.2) ||
    decide (t.knownTableFuncs.card ≠ r.1.knownTableFuncs.card))

variable (copies : List (TableId × TableId))

/-- One pass over the copies of the module; `call_graph.rs:512-542`. -/
def copyScan (t : TableTargets) : TableTargets × Bool :=
  copies.foldl copyTargets (t, false)

/-- Scans that certainly suffice: each adds a table or a pair that copies can add. -/
def copyFuel (t : TableTargets) : Nat :=
  let dsts := (copies.map (·.2)).toFinset
  dsts.card + (dsts ×ˢ (t.knownTableFuncs ∪ t.knownSlotFuncs).image (·.2)).card + 1

/-- Contents before copies are followed; `call_graph.rs:453-509`. -/
def initialTargets : TableTargets :=
  let profiles := profileFunctions m
  let inits := profiles.flatMap (·.2.tableInits)
  let t := (profiles.flatMap (·.2.dynamicTableWrites)).foldl .addUnknownTable .empty
  let t := (Slice.enumerate m.tables).foldl (fun t (id, table) =>
    match table.init with
    | some init => t.addTableFuncs id (constExprFunctions init)
    | none => t) t
  (Slice.enumerate m.elements).foldl (addElement inits) t

/-- The copies between tables that the module's functions make. -/
def tableCopies (m : Module) : List (TableId × TableId) :=
  (profileFunctions m).flatMap (·.2.tableCopies)

/-- Indirect calls of the module with the functions that make them; `call_graph.rs:624-633`. -/
def indirectCallers : List (IndirectCall × FunctionId) :=
  (profileFunctions m).flatMap fun (caller, profile) => profile.indirect.map (·, caller)

/-- Possible contents of every table; `call_graph.rs:448-546`. -/
def tableTargets : Option TableTargets :=
  saturate (copyScan (tableCopies m)) (copyFuel (tableCopies m) (initialTargets m))
    (initialTargets m)

/-! ### Signatures -/

/-- Type of a function; `call_graph.rs:552-554`. -/
def functionTypeId (f : FunctionId) : Option TypeId := m.funcs[f]?.map (·.ty)

/-- Structurally equal function types; `call_graph.rs:561-568`. -/
def typesMatch (a b : TypeId) : Bool :=
  a == b ||
    match m.types[a]?, m.types[b]? with
    | some ta, some tb => ta.params == tb.params && ta.results == tb.results
    | _, _ => false

end Kandelo.ForkInstrument
