import Kandelo.Lib.Memory
import Kandelo.ForkInstrument.Ir

/-!
# Instrumented code

The instructions of an instrumented function. Locals and sequences
that the instrumenter allocates are named by what they are for, which stands for the fresh
identifiers of the source; the two globals of the runtime and the auxiliary tables are
instructions of their own, since no user code can name them. User instructions without control
flow are carried along as they are.
-/

namespace Kandelo.ForkInstrument

/-- Auxiliary tables for references; `instrument.rs:3441-3445`. -/
inductive RefClass
  | funcref
  | externref
  | exnref
  deriving DecidableEq

/-- A fork-bearing sequence: the landings, with the arm of an `if`, that lead to it from the
entry, innermost first. -/
abbrev Region := List (Nat × Nat)

/-- Locals: those of the user and those the instrumenter adds. -/
inductive Var
  | user (x : LocalId)
  | argSpill (site i : Nat)
  | carrySpill (site i : Nat)
  | landingSpill (region : Region) (landing i : Nat)
  | bodyParam (region : Region) (i : Nat)
  | condSwap
  | catchRegionId
  | exnrefSlot
  deriving DecidableEq

/-- Sequences: those of the user and those the instrumenter adds. -/
inductive Label
  | user (s : SeqId)
  | unwindSave
  | post (region : Region) (landing : Nat)
  | dispatch (region : Region)
  | thenArm
  | elseArm
  deriving DecidableEq

/-- Target of a call that may fork. -/
inductive Callee
  | direct (f : FunctionId)
  | indirect (table : TableId)

/-- Instructions. A call that may fork carries its site's number. -/
inductive Code
  | const (v : Value)
  | refNull
  | localGet (x : Var)
  | localSet (x : Var)
  | localTee (x : Var)
  | stateGet
  | bufGet
  | unop (op : UnaryOp)
  | binop (op : BinaryOp)
  | load (ty : ValType) (offset : Nat)
  | store (ty : ValType) (offset : Nat)
  | select
  | auxGet (c : RefClass)
  | auxSet (c : RefClass)
  | plain (i : Instr)
  | plainCall (f : FunctionId) (ty : BlockType)
  | call (callee : Callee) (ty : BlockType) (site : Nat)
  | br (label : Label)
  | brIf (label : Label)
  | brTable (labels : List Label) (default : Label)
  | ret
  | unreachable
  | block (label : Label) (ty : BlockType) (body : List Code)
  | loop (label : Label) (ty : BlockType) (body : List Code)
  | ifElse (thenLabel elseLabel : Label) (ty : BlockType) (thenBody elseBody : List Code)

/-! ### Scalars in memory -/

/-- Bytes of a scalar; `instrument.rs:3241-3248`. -/
def scalarSize : ValType → Nat
  | .i32 | .f32 => 4
  | .i64 | .f64 => 8
  | .v128 => 16
  | _ => 0

/-- Scalars are kept in the frame, references are not; `instrument.rs:3237-3239`. -/
def isScalar : ValType → Bool
  | .i32 | .i64 | .f32 | .f64 | .v128 => true
  | _ => false

namespace Value

/-- Type of a constant. -/
def ty : Value → ValType
  | .i32 _ => .i32
  | .i64 _ => .i64
  | .f32 _ => .f32
  | .f64 _ => .f64
  | .v128 _ => .v128

/-- The bits of a constant. -/
def toNat : Value → Nat
  | .i32 v | .f32 v => v.toNat
  | .i64 v | .f64 v => v.toNat
  | .v128 v => v.toNat

/-- The value of a scalar type that a number stands for. -/
def ofNat : ValType → Nat → Option Value
  | .i32, n => some (.i32 (BitVec.ofNat 32 n))
  | .i64, n => some (.i64 (BitVec.ofNat 64 n))
  | .f32, n => some (.f32 (BitVec.ofNat 32 n))
  | .f64, n => some (.f64 (BitVec.ofNat 64 n))
  | .v128, n => some (.v128 (BitVec.ofNat 128 n))
  | _, _ => none

variable (v : Value)

lemma toNat_lt : v.toNat < 256 ^ scalarSize v.ty := by
  cases v with
  | i32 v | f32 v => exact v.isLt
  | i64 v | f64 v => exact v.isLt
  | v128 v => exact v.isLt

lemma ofNat_toNat : ofNat v.ty v.toNat = some v := by cases v <;> simp [ty, toNat, ofNat]

lemma exists_ofNat {ty : ValType} (h : isScalar ty = true) (n : Nat) :
    ∃ v, ofNat ty n = some v := by
  cases ty with
  | i32 | i64 | f32 | f64 | v128 => exact ⟨_, rfl⟩
  | _ => cases h

lemma isScalar_ty : isScalar v.ty = true := by cases v <;> rfl

end Value

/-- Pointers are 32 or 64 bits wide; `runtime.rs` `buf_type`. -/
inductive PtrTy
  | i32
  | i64

namespace PtrTy

/-- The type of pointers. -/
def valType : PtrTy → ValType
  | .i32 => .i32
  | .i64 => .i64

/-- Bytes of a pointer. -/
def size : PtrTy → Nat
  | .i32 => 4
  | .i64 => 8

/-- The pointer with this address, modulo the width. -/
def value : PtrTy → Nat → Value
  | .i32, n => .i32 (BitVec.ofNat 32 n)
  | .i64, n => .i64 (BitVec.ofNat 64 n)

/-- `ptr_add`; `instrument.rs:3375-3381`. -/
def add : PtrTy → BinaryOp
  | .i32 => .i32 .add
  | .i64 => .i64 .add

/-- `ptr_sub`; `instrument.rs:3383-3389`. -/
def sub : PtrTy → BinaryOp
  | .i32 => .i32 .sub
  | .i64 => .i64 .sub

/-- How many addresses there are. -/
def space (p : PtrTy) : Nat := 256 ^ p.size

end PtrTy

/-! ### Integer arithmetic -/

section

variable {w : Nat}

/-- Arithmetic on both widths; none is a trap. -/
def IntOp.eval : IntOp → BitVec w → BitVec w → Option (BitVec w)
  | .add, a, b => some (a + b)
  | .sub, a, b => some (a - b)
  | .mul, a, b => some (a * b)
  | .and, a, b => some (a &&& b)
  | .or, a, b => some (a ||| b)
  | .xor, a, b => some (a ^^^ b)
  | .shl, a, b => some (a <<< (b.toNat % w))
  | .shrS, a, b => some (a.sshiftRight (b.toNat % w))
  | .shrU, a, b => some (a >>> (b.toNat % w))
  | .rotl, a, b => some (a.rotateLeft (b.toNat % w))
  | .rotr, a, b => some (a.rotateRight (b.toNat % w))
  | .divS, a, b =>
    if b = 0 ∨ (a = BitVec.intMin w ∧ b = BitVec.allOnes w) then none else some (a.sdiv b)
  | .divU, a, b => if b = 0 then none else some (a.udiv b)
  | .remS, a, b => if b = 0 then none else some (a.srem b)
  | .remU, a, b => if b = 0 then none else some (a.umod b)

/-- Comparison on both widths. -/
def IntRel.eval : IntRel → BitVec w → BitVec w → Bool
  | .eq, a, b => a == b
  | .ne, a, b => a != b
  | .ltS, a, b => a.slt b
  | .ltU, a, b => a.ult b
  | .gtS, a, b => b.slt a
  | .gtU, a, b => b.ult a
  | .leS, a, b => a.sle b
  | .leU, a, b => a.ule b
  | .geS, a, b => b.sle a
  | .geU, a, b => b.ule a

end

end Kandelo.ForkInstrument
