import Kandelo.ForkInstrument.SaveRestore

/-!
# The injected runtime

The layout of the save buffer and the two control functions of
`crates/fork-instrument/src/runtime.rs` that write it. The buffer starts with the cursor and
the end of the buffer; the mutable scalar globals, the scratch area of the plain catches and
the frames follow.
-/

namespace Kandelo.ForkInstrument.Machine

open Lib List Memory

/-- What the runtime reads of a global. -/
structure GlobalDecl where
  isMutable : Bool
  imported : Bool
  ty : ValType

/-- A global that the runtime saves; `runtime.rs:66-73`. -/
structure SavedGlobal where
  id : GlobalId
  ty : ValType
  offset : Nat

/-- The saved globals and the offset past them; `runtime.rs:183-209`. -/
def scanGlobals : List GlobalDecl → GlobalId → Nat → List SavedGlobal × Nat
  | [], _, off => ([], off)
  | g :: rest, id, off =>
    if g.isMutable && isScalar g.ty && !g.imported then
      let r := scanGlobals rest (id + 1) (off + scalarSize g.ty)
      (⟨id, g.ty, off⟩ :: r.1, r.2)
    else scanGlobals rest (id + 1) off

lemma scanGlobals_bounds (gs : List GlobalDecl) (id : GlobalId) (off : Nat) :
    off ≤ (scanGlobals gs id off).2 ∧ ∀ g ∈ (scanGlobals gs id off).1,
      off ≤ g.offset ∧ g.offset + scalarSize g.ty ≤ (scanGlobals gs id off).2 := by
  induction gs generalizing id off with
  | nil => exact ⟨le_refl _, fun g hg => by cases hg⟩
  | cons d rest ih =>
    unfold scanGlobals
    split
    · have hrest := ih (id + 1) (off + scalarSize d.ty)
      refine ⟨by dsimp only; omega, fun g hg => ?_⟩
      rcases mem_cons.mp hg with rfl | hg
      · dsimp only
        omega
      · have hg' := hrest.2 g hg
        dsimp only
        omega
    · exact ih _ _

lemma isScalar_of_mem_scanGlobals {gs : List GlobalDecl} {id : GlobalId} {off : Nat}
    {g : SavedGlobal} (h : g ∈ (scanGlobals gs id off).1) : isScalar g.ty = true := by
  induction gs generalizing id off with
  | nil => cases h
  | cons d rest ih =>
    unfold scanGlobals at h
    split at h
    · next hd =>
      rcases mem_cons.mp h with rfl | h
      · simp only [Bool.and_eq_true] at hd
        exact hd.1.2
      · exact ih h
    · exact ih h

/-- `align_up_8`; `runtime.rs:473-475`. -/
def alignUp8 (x : Nat) : Nat := (x + 7) / 8 * 8

/-- Layout of the save buffer, `Runtime`. -/
structure Runtime where
  ptr : PtrTy
  savedGlobals : List SavedGlobal
  b1ScratchBase : Nat
  b1ScratchSize : Nat
  framesStartOffset : Nat
  scalar : ∀ g ∈ savedGlobals, isScalar g.ty = true
  /-- The globals are saved past the two header words. -/
  past_header : ∀ g ∈ savedGlobals, 2 * ptr.size ≤ g.offset
  /-- They end where the scratch area starts. -/
  before_scratch : ∀ g ∈ savedGlobals, g.offset + scalarSize g.ty ≤ b1ScratchBase
  header_le : 2 * ptr.size ≤ b1ScratchBase
  frames_eq : framesStartOffset = b1ScratchBase + b1ScratchSize

/-- `inject_runtime`, the layout; `runtime.rs:168-228`. -/
def injectRuntime (ptr : PtrTy) (globals : List GlobalDecl) (b1Size : Nat) : Runtime where
  ptr := ptr
  savedGlobals := (scanGlobals globals 0 (2 * ptr.size)).1
  b1ScratchBase := (scanGlobals globals 0 (2 * ptr.size)).2
  b1ScratchSize := alignUp8 b1Size
  framesStartOffset := (scanGlobals globals 0 (2 * ptr.size)).2 + alignUp8 b1Size
  scalar _ hg := isScalar_of_mem_scanGlobals hg
  past_header g hg := ((scanGlobals_bounds _ _ _).2 g hg).1
  before_scratch g hg := ((scanGlobals_bounds _ _ _).2 g hg).2
  header_le := (scanGlobals_bounds _ _ _).1
  frames_eq := rfl

namespace Runtime

/-- Store the globals, `emit_save_globals`; none is a trap. -/
def saveGlobals (globals : GlobalId → Val) (buf : Nat) :
    List SavedGlobal → Memory → Option Memory
  | [], mem => some mem
  | g :: rest, mem => do
    let mem ← mem.store (buf + g.offset) (scalarSize g.ty) (bytesOf (globals g.id))
    saveGlobals globals buf rest mem

/-- Load the globals, `emit_restore_globals`. -/
def restoreGlobals (mem : Memory) (buf : Nat) :
    List SavedGlobal → (GlobalId → Val) → Option (GlobalId → Val)
  | [], globals => some globals
  | g :: rest, globals => do
    let n ← mem.load (buf + g.offset) (scalarSize g.ty)
    let v ← Value.ofNat g.ty n
    restoreGlobals mem buf rest fun id => if id = g.id then .num v else globals id

/-- `wpk_fork_unwind_begin`; `runtime.rs:308-361`. -/
def unwindBegin (rt : Runtime) (buf : Nat) (w : World) : Option World := do
  let mem ← w.mem.store buf rt.ptr.size ((buf + rt.framesStartOffset) % rt.ptr.space)
  let mem ← saveGlobals w.globals buf rt.savedGlobals mem
  some { w with mem := mem, state := stateUnwinding, buf := buf }

/-- `wpk_fork_rewind_begin`; `runtime.rs:375-400`. -/
def rewindBegin (rt : Runtime) (buf : Nat) (w : World) : Option World := do
  let globals ← restoreGlobals w.mem buf rt.savedGlobals w.globals
  some { w with globals := globals, state := stateRewinding, buf := buf }

variable {rt : Runtime} {buf : Nat} {w : World} {gs : List SavedGlobal} (globals : GlobalId → Val)

lemma saveGlobals_spec (buf : Nat) (mem : Memory) {lo hi : Nat}
    (hgs : ∀ g ∈ gs, lo ≤ g.offset ∧ g.offset + scalarSize g.ty ≤ hi) (hfit : buf + hi ≤ mem.size) :
    ∃ mem', saveGlobals globals buf gs mem = some mem' ∧ mem'.size = mem.size ∧
      ∀ a b, b ≤ buf + lo ∨ buf + hi ≤ a → Memory.Agree a b mem' mem := by
  induction gs generalizing mem with
  | nil => exact ⟨mem, rfl, rfl, fun a b _ => Memory.Agree.refl a b mem⟩
  | cons g gs ih =>
    have hg := hgs g mem_cons_self
    obtain ⟨mem', hrun, hsize, hagree⟩ := ih
      (mem.poke (buf + g.offset) (scalarSize g.ty) (bytesOf (globals g.id)))
      (fun g' hg' => hgs g' (mem_cons_of_mem _ hg')) hfit
    refine ⟨mem', ?_, hsize, fun a b hab => (hagree a b hab).trans (agree_poke (by omega))⟩
    unfold saveGlobals
    rw [store_eq_some _ (by omega)]
    exact hrun

lemma unwindBegin_spec {E : Env} (hptr : E.ptr = rt.ptr)
    (hfit : buf + rt.framesStartOffset ≤ w.mem.size)
    (hspace : buf + rt.framesStartOffset < rt.ptr.space) :
    ∃ mem, rt.unwindBegin buf w = some { w with mem := mem, state := stateUnwinding, buf := buf } ∧
      mem.size = w.mem.size ∧
      Cursor E { w with mem := mem, state := stateUnwinding, buf := buf }
        (buf + rt.framesStartOffset) := by
  have hheader := rt.header_le
  have hframes := rt.frames_eq
  have hpos : (buf + rt.framesStartOffset) % rt.ptr.space = buf + rt.framesStartOffset :=
    Nat.mod_eq_of_lt hspace
  obtain ⟨mem, hrun, hmem, hagree⟩ := saveGlobals_spec w.globals buf
    (w.mem.poke buf rt.ptr.size (buf + rt.framesStartOffset))
    (fun g hg => ⟨rt.past_header g hg, rt.before_scratch g hg⟩)
    (show buf + rt.b1ScratchBase ≤ w.mem.size by omega)
  refine ⟨mem, ?_, hmem, ?_⟩
  · unfold unwindBegin
    rw [hpos, store_eq_some _ (by omega)]
    simp [hrun]
  refine ⟨?_, ?_, ?_⟩
  · rw [hptr]
    rw [hmem]
    change buf + rt.ptr.size ≤ w.mem.size
    omega
  · rw [hptr]
    change buf < rt.ptr.space
    omega
  · rw [hptr]
    change mem.peek buf rt.ptr.size = _
    rw [peek_congr (hagree _ _ (.inl (by omega))), peek_poke_same]
    exact hpos

lemma restoreGlobals_spec (buf : Nat) {mem : Memory} {hi : Nat}
    (hgs : ∀ g ∈ gs, isScalar g.ty = true ∧ g.offset + scalarSize g.ty ≤ hi)
    (hfit : buf + hi ≤ mem.size) :
    ∃ globals', restoreGlobals mem buf gs globals = some globals' := by
  induction gs generalizing globals with
  | nil => exact ⟨globals, rfl⟩
  | cons g gs ih =>
    obtain ⟨hscalar, hg⟩ := hgs g mem_cons_self
    obtain ⟨v, hv⟩ := Value.exists_ofNat hscalar (mem.peek (buf + g.offset) (scalarSize g.ty))
    obtain ⟨globals', hrest⟩ := ih (fun id => if id = g.id then .num v else globals id)
      (fun g' hg' => hgs g' (mem_cons_of_mem _ hg'))
    refine ⟨globals', ?_⟩
    unfold restoreGlobals
    rw [load_eq_some (by omega)]
    simp [hv, hrest]

lemma rewindBegin_spec (hfit : buf + rt.framesStartOffset ≤ w.mem.size) :
    ∃ globals, rt.rewindBegin buf w =
      some { w with globals := globals, state := stateRewinding, buf := buf } := by
  have hframes := rt.frames_eq
  obtain ⟨globals, hrun⟩ := restoreGlobals_spec w.globals buf
    (fun g hg => ⟨rt.scalar g hg, rt.before_scratch g hg⟩)
    (show buf + rt.b1ScratchBase ≤ w.mem.size by omega)
  refine ⟨globals, ?_⟩
  unfold rewindBegin
  rw [hrun]
  rfl

end Runtime

end Kandelo.ForkInstrument.Machine
