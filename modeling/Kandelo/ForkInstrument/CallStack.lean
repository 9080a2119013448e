import Kandelo.ForkInstrument.ArgPlan
import Kandelo.ForkInstrument.Runtime

/-!
# Call stacks across a fork

The activations of instrumented functions from the outermost one to
the one that calls `kernel_fork`. Unwinding runs the code behind the pending call and the
postamble in each of them, innermost first; rewinding enters the outermost function, whose
preamble pops a frame and whose dispatch re-issues the call that the frame names, and so on
inwards. The two agree as long as each re-issued call enters the function that was live above
it.
-/

namespace Kandelo.ForkInstrument.Machine

open Lib List Option Memory

/-! ### Instrumented modules -/

/-- Tail calls, which `CollectCalls` counts as edges; `call_graph.rs:47-105`. -/
def tailCallOf : Instr → Option Callee
  | .returnCall f => some (.direct f)
  | .returnCallIndirect table _ => some (.indirect table)
  | _ => none

/-- The tail calls of a body. -/
def tailCalls (body : List Instr) : List Callee :=
  (seqOccurrences [] body).filterMap fun o => tailCallOf o.2

/-- A module and what the transforms have made of its fork-path functions. -/
structure Instrumented where
  module : Module
  forkPath : FunctionId → Bool
  fork : FunctionId
  runtime : Runtime
  env : Env
  varTy : FunctionId → Var → ValType
  params : FunctionId → List LocalId
  ordinal : FunctionId → Nat
  /-- The spills of operands that stay on the stack below those of a call, or of a block. -/
  carryovers : FunctionId → List (Var × ValType)
  catchState : FunctionId → Bool
  refs : FunctionId → List RefLocalSlot
  ptr_eq : env.ptr = runtime.ptr
  fork_import : module.bodyOf fork = none
  /-- Site numbers are 32 bits wide. -/
  sites_lt : ∀ f body, module.bodyOf f = some body →
    (callSites module forkPath body).length < 2 ^ 32

/-- An activation that waits for the call of one of its sites. -/
structure Activation where
  func : FunctionId
  site : Nat
  locals : Var → Val

variable {L' : Var → Val} {aux' : RefClass → List Ref} {done rest : List Activation}
  {site start : Nat} {L : Var → Val} {w w' : World} {aux : RefClass → List Ref}
  {acts : List Activation} {f : FunctionId} {a : Activation}

/-- What some code leaves on the stack. -/
def operands (E : Env) (code : List Code) (L : Var → Val) (w : World) : Option (List Val) :=
  match runSeq E 0 code ⟨L, w, []⟩ with
  | .normal s => some s.stack
  | _ => none

/-- The function that an index selects in a table. -/
def slotFunc (slots : List Ref) (v : Val) : Option FunctionId :=
  match v.index.bind (slots[·]?) with
  | some (.func g) => some g
  | _ => none

namespace Instrumented

variable (I : Instrumented)

/-- The parameters of a run of the function's code. -/
def envOf (f : FunctionId) : Env := { I.env with varTy := I.varTy f }

/-- The sites of a function in the order of their numbers. -/
def callSites (f : FunctionId) : List CallSite :=
  match I.module.bodyOf f with
  | some body => ForkInstrument.callSites I.module I.forkPath body
  | none => []

/-- What the calls of the sites enter. -/
def sites (f : FunctionId) : List Callee := (I.callSites f).map (·.callee)

/-- The types of the user's locals. -/
def userTy (f : FunctionId) (x : LocalId) : ValType := I.varTy f (.user x)

/-- The locals of a function that the instrumenter collects, with their types. -/
def userLocals (f : FunctionId) : List (LocalId × ValType) :=
  (collectUserLocals (I.params f) ((I.module.bodyOf f).getD [])).map fun x => (x, I.userTy f x)

/-- The scalars of the user, then the spilled operands in the order of the sites, then the
carryovers; `instrument.rs:488-509`. -/
def frameScalars (f : FunctionId) : List (Var × ValType) :=
  ((I.userLocals f).filter fun x => isScalar x.2).map (fun x => (.user x.1, x.2)) ++
    (I.callSites f).zipIdx.flatMap (fun x => x.1.spillLocals (I.userTy f) x.2) ++ I.carryovers f

/-- What the preamble and the postamble of a function save and restore. -/
def layout (f : FunctionId) : Layout :=
  ⟨I.ordinal f, I.frameScalars f, I.catchState f, I.refs f, (I.module.typeOf f).results⟩

/-- What puts the operands of a site's call on the stack again. -/
def args (f : FunctionId) (site : Nat) : List Code :=
  match (I.callSites f)[site]? with
  | some c => c.operandCode (I.userTy f) site
  | none => []

/-- The functions that are instrumented; `instrument.rs:159-167`. -/
def IsTarget (f : FunctionId) : Prop :=
  I.forkPath f = true ∧ (I.module.bodyOf f).isSome = true

/-- The function that the call of a site enters. -/
def target (w : World) (f : FunctionId) (site : Nat) (L : Var → Val) : Option FunctionId :=
  match (I.sites f)[site]? with
  | some (.direct g) => some g
  | some (.indirect table) =>
    (operands (I.envOf f) (I.args f site) L w).bind fun st =>
      st.head?.bind (slotFunc (w.tables table))
  | none => none

/-- Bytes of the frames of the activations. -/
def total (acts : List Activation) : Nat :=
  (acts.map fun a => (I.layout a.func).frameSize).sum

/-- The word at the start of the save buffer, `current_pos`. -/
def cursor (w : World) : Nat := w.mem.peek w.buf I.env.ptr.size

end Instrumented

/-! ### Unwinding and rewinding -/

/-- A frame of the save buffer. -/
structure FrameRecord where
  func : FunctionId
  site : Nat
  base : Nat
  size : Nat
  deriving DecidableEq

/-- What is run of a function after a call has returned in the unwinding state: the check
behind the site, and the postamble. -/
def unwindCode (p : PtrTy) (l : Layout) (site : Nat) : List Code :=
  .block .unwindSave ⟨[], []⟩ (unwindBranch p site ++ [.ret]) :: postamble p l

/-- What is run of a function that is entered in the rewinding state up to the dispatch. -/
def rewindCode (p : PtrTy) (l : Layout) : List Code := ifState stateRewinding (preambleThen p l)

/-- An activation that has been re-entered. -/
structure Entered where
  frame : FrameRecord
  locals : Var → Val

namespace Instrumented

variable (I : Instrumented)

/-- Unwind one activation. -/
def unwindOne (a : Activation) (w : World) : Option World :=
  match runSeq (I.envOf a.func) 0 (unwindCode I.env.ptr (I.layout a.func) a.site)
    ⟨a.locals, w, []⟩ with
  | .normal s => some s.world
  | _ => none

/-- Unwind the activations, innermost first, with the frames that appear. -/
def unwind (I : Instrumented) : List Activation → World → Option (List FrameRecord × World)
  | [], w => some ([], w)
  | a :: rest, w => do
    let w' ← I.unwindOne a w
    let r ← unwind I rest w'
    some (⟨a.func, a.site, I.cursor w, I.cursor w' - I.cursor w⟩ :: r.1, r.2)

/-- Enter a function in the rewinding state, with the frame that it pops. -/
def rewindOne (init : FunctionId → Var → Val) (f : FunctionId) (w : World) :
    Option (Entered × World) :=
  match runSeq (I.envOf f) 0 (rewindCode I.env.ptr (I.layout f)) ⟨init f, w, []⟩ with
  | .normal s =>
    match operands (I.envOf f) (currentCallIndex I.env.ptr) s.locals s.world with
    | some [.num (.i32 k)] =>
      some (⟨⟨f, k.toNat, I.cursor s.world, I.cursor w - I.cursor s.world⟩, s.locals⟩, s.world)
    | _ => none
  | _ => none

/-- Rewind from the outermost function inwards until the call of a site is `kernel_fork`. The
locals that a function has when it is entered are `init`. -/
def rewind (I : Instrumented) (init : FunctionId → Var → Val) :
    Nat → FunctionId → World → Option (List Entered × World)
  | 0, _, _ => none
  | depth + 1, f, w => do
    let (e, w') ← I.rewindOne init f w
    let g ← I.target w' f e.frame.site e.locals
    if g = I.fork then some ([e], w')
    else
      let r ← rewind I init depth g w'
      some (e :: r.1, r.2)

end Instrumented

/-! ### Operands are read from locals that the frame saves -/

namespace Instrumented

variable {I : Instrumented} {c : CallSite}

lemma exists_occurrence (h : c ∈ I.callSites f) : ∃ body past i, I.module.bodyOf f = some body ∧
    (past, i) ∈ seqOccurrences [] body ∧ c.chunk = past.reverse := by
  unfold callSites at h
  split at h
  · next body hbody =>
    obtain ⟨⟨past, i⟩, ho, hsite⟩ := mem_filterMap.mp h
    refine ⟨body, past, i, hbody, ho, ?_⟩
    unfold siteAt at hsite
    split at hsite
    · split at hsite <;> cases hsite
      rfl
    · cases hsite
      rfl
    · cases hsite
  · cases h

lemma user_mem_frameScalars {x : LocalId} (hc : c ∈ I.callSites f) (hx : .localGet x ∈ c.chunk)
    (hscalar : isScalar (I.userTy f x) = true) :
    .user x ∈ (I.frameScalars f).map (·.1) := by
  obtain ⟨body, past, i, hbody, ho, hchunk⟩ := exists_occurrence hc
  rw [hchunk, mem_reverse] at hx
  have hcollected : (x, I.userTy f x) ∈ I.userLocals f := by
    rw [userLocals, hbody]
    exact mem_map.mpr ⟨x, mem_collectUserLocals ho hx, rfl⟩
  refine mem_map.mpr ⟨(.user x, I.userTy f x), ?_, rfl⟩
  exact mem_append_left _ (mem_append_left _
    (mem_map.mpr ⟨_, mem_filter.mpr ⟨hcollected, hscalar⟩, rfl⟩))

/-- A re-issued call reads only locals that the frame has restored. -/
lemma replays (I : Instrumented) (f : FunctionId) (site : Nat) :
    ∀ i ∈ I.args f site, Replays ((I.layout f).scalars.map (·.1)) i := by
  intro i hi
  unfold args at hi
  split at hi
  · next c hc =>
    have hmem := mem_of_getElem? hc
    unfold CallSite.operandCode at hi
    split at hi
    · next tail htail =>
      obtain ⟨j, hj, rfl⟩ := mem_map.mp hi
      obtain ⟨hchunk, hpure⟩ := isPure_of_splitPureScalarTail htail j hj
      cases j with
      | const | unop | binop => trivial
      | localGet x => exact user_mem_frameScalars hmem hchunk hpure
      | _ => exact hpure.elim
    · obtain ⟨x, hx, rfl⟩ := mem_map.mp hi
      refine mem_map.mpr ⟨x, mem_append_left _ (mem_append_right _ ?_), rfl⟩
      exact mem_flatMap.mpr ⟨(c, site), mem_zipIdx_iff_getElem?.mpr hc, hx⟩
  · cases hi

end Instrumented

/-! ### Running the code of one activation -/

section

variable {E : Env} {N : Nat} {s : State} {l : Layout} {pos : Nat}

lemma run_ifState_of_eq {state : BitVec 32} {body : List Code} (h : s.world.state = state)
    (rest : List Code) :
    runSeq E N (ifState state body ++ rest) s =
      (Block.exit ⟨.thenArm, ⟨[], []⟩, none, s.stack⟩
        (runSeq E N body (s.withStack []))).andThen rest
        (runSeq E N rest) := by
  have heq : step E (.binop (.i32Rel .eq))
      ((s.push (.num (.i32 s.world.state))).push (.num (.i32 state))) =
      .ok (s.push (.num (.i32 1))) := by
    simp [step, State.push, evalBinop, IntRel.eval, h, State.withStack]
  rw [ifState, cons_append, cons_append, cons_append, cons_append, runSeq_cons_of_step rfl,
    runSeq_cons_of_step rfl, runSeq_cons_of_step heq,
    runSeq_cons]
  simp [runInstr, State.push, State.withStack]

/-- The memory with the number of the site in the frame at `pos`. -/
def callIndexMem (pos site : Nat) (mem : Memory) : Memory :=
  mem.poke (pos + callIndexOffset) 4 (site % 2 ^ 32)

lemma run_storeCallIndex (hc : Cursor E s.world pos)
    (hfit : pos + headerSize ≤ s.world.mem.size) (rest : List Code) :
    runSeq E N (storeCallIndex E.ptr site ++ rest) s =
      runSeq E N rest (s.withMem (callIndexMem pos site s.world.mem)) := by
  have hcall : callIndexOffset = 4 := rfl
  have hheader : headerSize = 16 := rfl
  have hstore : runSeq E N (currentFramePtr E.ptr ++
      [.const (.i32 (BitVec.ofNat 32 site)), .store .i32 callIndexOffset] ++ rest) s = _ :=
    run_storeFrame hc rfl (show pos + callIndexOffset + 4 ≤ _ by omega) rest
  exact hstore

/-- The world after an activation that waits at the site has saved itself. -/
def unwoundWorld (E : Env) (l : Layout) (L : Var → Val) (pos site : Nat) (w : World) : World :=
  savedWorld E l L pos { w with mem := callIndexMem pos site w.mem }

lemma run_unwindBranch (hstate : s.world.state = stateUnwinding)
    (hc : Cursor E s.world pos) (hfit : pos + headerSize ≤ s.world.mem.size) (rest : List Code) :
    runSeq E N (unwindBranch E.ptr site ++ rest) s =
      .br .unwindSave
        ⟨s.locals, { s.world with mem := callIndexMem pos site s.world.mem }, []⟩ := by
  rw [unwindBranch, run_ifState_of_eq hstate]
  change Outcome.andThen (Block.exit _ (runSeq E N _ ⟨s.locals, s.world, []⟩)) _ _ = _
  rw [run_storeCallIndex (s := ⟨s.locals, s.world, []⟩) hc hfit, runSeq_cons]
  simp [runInstr, Outcome.andThen, Block.exit, State.withMem]

lemma run_unwindCode (hstate : w.state = stateUnwinding)
    (hc : Cursor E w pos) (hroom : Room E w pos l.frameSize) (ht : Typed E l L)
    (hrefs : ∀ r ∈ l.refs, RefLocal E w L r)
    (hresults : ∀ ty ∈ l.results, (defaultForType ty).isSome) :
    runSeq E N (unwindCode E.ptr l site) ⟨L, w, []⟩ =
      .normal ⟨L, unwoundWorld E l L pos site w, (defaultVals l.results).reverse⟩ := by
  have hpast := hroom.past
  have hfits := hroom.fits
  have hframe := headerSize_le_frameSize l
  have hc' : Cursor E { w with mem := callIndexMem pos site w.mem } pos :=
    hc.withMem rfl (agree_poke (by omega))
  have hblock : runSeq E N (unwindBranch E.ptr site ++ [.ret]) ⟨L, w, []⟩ =
      .br .unwindSave ⟨L, { w with mem := callIndexMem pos site w.mem }, []⟩ :=
    run_unwindBranch hstate hc (by change _ ≤ w.mem.size; omega) [.ret]
  rw [unwindCode, runSeq_cons]
  have hinstr : runInstr E N (.block .unwindSave ⟨[], []⟩ (unwindBranch E.ptr site ++ [.ret]))
      ⟨L, w, []⟩ = .normal ⟨L, { w with mem := callIndexMem pos site w.mem }, []⟩ := by
    simp [runInstr, State.withStack, hblock, Block.exit]
  rw [hinstr]
  refine (run_postamble (s := ⟨L, _, []⟩) hc' ⟨hroom.past, hroom.fits⟩ ht hrefs hresults).trans ?_
  rw [append_nil]
  rfl

lemma run_rewindCode {V : Var → Val} (hstate : w.state = stateRewinding)
    (hc : Cursor E w (pos + l.frameSize)) (hspace : pos + l.frameSize < E.ptr.space)
    (hroom : Room E w pos l.frameSize) (ht : Typed E l V) (hframe : FrameAt l V w.mem pos)
    (hslots : SlotsExist E l w.aux) :
    runSeq E N (rewindCode E.ptr l) ⟨L, w, []⟩ =
      .normal ⟨restoredLocals l V w.aux L, w.setCursor E pos, []⟩ := by
  have hcursor : Cursor E w ((pos + l.frameSize) % E.ptr.space) := by rwa [Nat.mod_eq_of_lt hspace]
  have hrun : runSeq E N (ifState stateRewinding (preambleThen E.ptr l) ++ []) ⟨L, w, []⟩ = _ :=
    run_ifState_of_eq hstate []
  refine hrun.trans ?_
  change Outcome.andThen (Block.exit _ (runSeq E N _ ⟨L, w, []⟩)) _ _ = _
  rw [run_preambleThen (s := ⟨L, w, []⟩) hcursor hroom (by omega) ht hframe hslots]
  simp [Block.exit, Block.fallThrough, Outcome.andThen, State.withStack]

lemma cursor_unwoundWorld (hc : Cursor E w pos)
    (hroom : Room E w pos l.frameSize) (hspace : pos + l.frameSize < E.ptr.space) :
    Cursor E (unwoundWorld E l L pos site w) (pos + l.frameSize) := by
  have hpast := hroom.past
  have hindex : Memory.Agree w.buf (w.buf + E.ptr.size) (callIndexMem pos site w.mem) w.mem :=
    agree_poke (by omega)
  have hwritten : Memory.Agree w.buf (w.buf + E.ptr.size)
      (frameMem l L pos (callIndexMem pos site w.mem)) (callIndexMem pos site w.mem) :=
    agree_frameMem (by omega)
  have hframe := hc.withMem (size_frameMem L pos (callIndexMem pos site w.mem))
    (hwritten.trans hindex)
  have hset := hframe.set (pos + l.frameSize)
  rw [Nat.mod_eq_of_lt hspace] at hset
  exact ⟨hset.inMemory, hset.addressable, hset.value⟩

lemma agree_unwoundWorld {lo : Nat} (hlo : w.buf + E.ptr.size ≤ lo) :
    Memory.Agree lo pos (unwoundWorld E l L pos site w).mem w.mem := by
  refine Memory.Agree.trans (agree_poke (.inr hlo)) ?_
  exact (agree_frameMem (by omega)).trans (agree_poke (by omega))

lemma callIndex_unwoundWorld (hroom : Room E w pos l.frameSize) :
    (unwoundWorld E l L pos site w).mem.peek (pos + callIndexOffset) 4 = site % 2 ^ 32 := by
  have hpast := hroom.past
  have hcursor : (unwoundWorld E l L pos site w).mem.peek (pos + callIndexOffset) 4 =
      (frameMem l L pos (callIndexMem pos site w.mem)).peek (pos + callIndexOffset) 4 :=
    peek_poke_of_disjoint (.inr (by change w.buf + E.ptr.size ≤ _; omega))
  rw [hcursor, peek_callIndex_frameMem, callIndexMem, peek_poke_same]
  omega

lemma operands_currentCallIndex (hc : Cursor E w pos)
    (hfit : pos + callIndexOffset + 4 ≤ w.mem.size)
    (hsite : w.mem.peek (pos + callIndexOffset) 4 = site) :
    operands E (currentCallIndex E.ptr) L w = some [.num (.i32 (BitVec.ofNat 32 site))] := by
  have hload : step E (.load .i32 callIndexOffset)
      (State.push ⟨L, w, []⟩ (.num (E.ptr.value pos))) =
      .ok ⟨L, w, [.num (.i32 (BitVec.ofNat 32 site))]⟩ :=
    step_load rfl hc.lt_space hfit (congrArg (Value.ofNat .i32) hsite)
  have hrun : runSeq E 0 (currentCallIndex E.ptr) ⟨L, w, []⟩ =
      .normal ⟨L, w, [.num (.i32 (BitVec.ofNat 32 site))]⟩ := by
    rw [currentCallIndex, run_currentFramePtr (s := ⟨L, w, []⟩) hc, runSeq_cons_of_step hload,
      runSeq_nil]
  rw [operands, hrun]

lemma operands_replays {xs : List Var} {code : List Code} (hcode : ∀ i ∈ code, Replays xs i)
    (hL : ∀ x ∈ xs, L' x = L x) : operands E code L' w' = operands E code L w := by
  unfold operands
  rw [runSeq_replays hcode, runSeq_replays hcode, replay_congr hcode hL]
  cases replay E L code [] <;> rfl

end

/-! ### Stacked frames -/

lemma SlotsExist.congr {E : Env} {l : Layout}
    (h : SlotsExist E l aux) (hlen : ∀ c, (aux' c).length = (aux c).length) :
    SlotsExist E l aux' := by
  intro r hr
  rw [hlen]
  exact h r hr

namespace Instrumented

variable {I : Instrumented}

/-- The locals of an activation have their types, and its references have slots. -/
structure WellTyped (I : Instrumented) (f : FunctionId) (L : Var → Val)
    (aux : RefClass → List Ref) : Prop where
  typed : Typed (I.envOf f) (I.layout f) L
  slots : SlotsExist (I.envOf f) (I.layout f) aux
  refs : ∀ r ∈ (I.layout f).refs, ∃ v, L (.user r.local_) = .ref v

variable (I)

/-- The postamble can return something for every result. -/
def HasDefaults (f : FunctionId) : Prop :=
  ∀ ty ∈ (I.layout f).results, (defaultForType ty).isSome = true

/-- The frames of the activations, outermost first and so downwards, end at `start`. -/
def Stacked (I : Instrumented) (mem : Memory) (start : Nat) : List Activation → Prop
  | [] => True
  | a :: rest =>
    FrameAt (I.layout a.func) a.locals mem (start + I.total rest) ∧
      mem.peek (start + I.total rest + callIndexOffset) 4 = a.site % 2 ^ 32 ∧
      Stacked I mem start rest

/-- The references of the activations, innermost first, in their slots. -/
def savedRefs (acts : List Activation) (aux : RefClass → List Ref) : RefClass → List Ref :=
  acts.foldl (fun aux a => saveRefs a.locals (I.layout a.func).refs aux) aux

/-- Frames of the activations, innermost first, from `pos` up. -/
def framesUp (I : Instrumented) : Nat → List Activation → List FrameRecord
  | _, [] => []
  | pos, a :: rest =>
    ⟨a.func, a.site, pos, (I.layout a.func).frameSize⟩ ::
      framesUp I (pos + (I.layout a.func).frameSize) rest

/-- Frames of the activations, outermost first, down to `start`. -/
def framesDown (I : Instrumented) (start : Nat) : List Activation → List FrameRecord
  | [] => []
  | a :: rest =>
    ⟨a.func, a.site, start + I.total rest, (I.layout a.func).frameSize⟩ :: framesDown I start rest

variable {I}

@[simp] lemma total_nil : I.total [] = 0 := rfl

@[simp] lemma total_cons (a : Activation) (rest : List Activation) :
    I.total (a :: rest) = (I.layout a.func).frameSize + I.total rest := rfl

@[simp] lemma total_append (xs ys : List Activation) :
    I.total (xs ++ ys) = I.total xs + I.total ys := by
  simp [total]

@[simp] lemma total_reverse (xs : List Activation) : I.total xs.reverse = I.total xs := by
  induction xs with
  | nil => rfl
  | cons a xs ih => rw [reverse_cons, total_append, total_cons, total_cons, total_nil]; omega

@[simp] lemma length_framesUp (pos : Nat) (acts : List Activation) :
    (I.framesUp pos acts).length = acts.length := by
  induction acts generalizing pos with
  | nil => rfl
  | cons a acts ih => rw [framesUp, length_cons, length_cons, ih]

lemma framesDown_append (xs ys : List Activation) :
    I.framesDown start (xs ++ ys) =
      I.framesDown (start + I.total ys) xs ++ I.framesDown start ys := by
  induction xs with
  | nil => rfl
  | cons a xs ih =>
    rw [cons_append, framesDown, total_append]
    congr 2
    omega

lemma framesDown_reverse (start : Nat) (acts : List Activation) :
    I.framesDown start acts.reverse = (I.framesUp start acts).reverse := by
  induction acts generalizing start with
  | nil => rfl
  | cons a acts ih =>
    rw [reverse_cons, framesDown_append, framesUp, reverse_cons, ← ih]
    rfl

lemma Stacked.congr {mem mem' : Memory} (h : I.Stacked mem start acts)
    (hagree : Memory.Agree start (start + I.total acts) mem' mem) : I.Stacked mem' start acts := by
  induction acts with
  | nil => trivial
  | cons a acts ih =>
    obtain ⟨hframe, hcall, hrest⟩ := h
    have hsize := headerSize_le_frameSize (I.layout a.func)
    have hheader : headerSize = 16 := rfl
    have hoffset : callIndexOffset = 4 := rfl
    rw [total_cons] at hagree
    refine ⟨hframe.congr (hagree.mono (by omega) (by omega)), ?_,
      ih hrest (hagree.mono (le_refl _) (by omega))⟩
    rw [peek_congr (hagree.mono (by omega) (by omega))]
    exact hcall

lemma length_savedRefs (acts : List Activation) (aux : RefClass → List Ref) (c : RefClass) :
    (I.savedRefs acts aux c).length = (aux c).length := by
  induction acts generalizing aux with
  | nil => rfl
  | cons a acts ih => exact (ih _).trans length_saveRefs

lemma WellTyped.congr (h : I.WellTyped f L aux) (hlen : ∀ c, (aux' c).length = (aux c).length) :
    I.WellTyped f L aux' :=
  ⟨h.typed, SlotsExist.congr h.slots hlen, h.refs⟩

end Instrumented

namespace Instrumented

variable {I : Instrumented}

/-! ### Unwinding -/

/-- What the frames already written leave as it is. -/
structure SameBut (w w' : World) : Prop where
  size : w'.mem.size = w.mem.size
  globals : w'.globals = w.globals
  tables : w'.tables = w.tables
  state : w'.state = w.state
  buf : w'.buf = w.buf

lemma cursor_eq {pos : Nat} (h : Cursor (I.envOf f) w pos) : I.cursor w = pos := h.value

lemma unwindOne_spec (hstate : w.state = stateUnwinding)
    (hc : Cursor (I.envOf a.func) w (start + I.total done)) (hpast : w.buf + I.env.ptr.size ≤ start)
    (hfits : start + I.total done + (I.layout a.func).frameSize ≤ w.mem.size)
    (hspace : start + I.total done + (I.layout a.func).frameSize < I.env.ptr.space)
    (ht : I.WellTyped a.func a.locals w.aux) (hdefaults : I.HasDefaults a.func)
    (hstacked : I.Stacked w.mem start done) :
    ∃ w', I.unwindOne a w = some w' ∧ SameBut w w' ∧
      w'.aux = saveRefs a.locals (I.layout a.func).refs w.aux ∧
      Cursor (I.envOf a.func) w' (start + I.total (a :: done)) ∧
      I.Stacked w'.mem start (a :: done) := by
  have hroom : Room (I.envOf a.func) w (start + I.total done) (I.layout a.func).frameSize :=
    ⟨by change w.buf + I.env.ptr.size ≤ _; omega, hfits⟩
  have hrefs : ∀ r ∈ (I.layout a.func).refs, RefLocal (I.envOf a.func) w a.locals r := by
    intro r hr
    exact ⟨(ht.slots r hr).1, ht.refs r hr, (ht.slots r hr).2⟩
  have hrun : runSeq (I.envOf a.func) 0 (unwindCode I.env.ptr (I.layout a.func) a.site)
      ⟨a.locals, w, []⟩ = _ :=
    run_unwindCode hstate hc hroom ht.typed hrefs hdefaults
  refine ⟨unwoundWorld (I.envOf a.func) (I.layout a.func) a.locals (start + I.total done) a.site w,
    ?_, ⟨?_, rfl, rfl, rfl, rfl⟩, rfl, ?_, ?_⟩
  · rw [unwindOne, hrun]
  · exact size_frameMem _ _ _
  · have htop : start + I.total (a :: done) =
        start + I.total done + (I.layout a.func).frameSize := by
      rw [total_cons]
      omega
    rw [htop]
    exact cursor_unwoundWorld hc hroom hspace
  · refine ⟨?_, callIndex_unwoundWorld hroom, ?_⟩
    · exact (frameAt_frameMem ht.typed).congr (agree_poke (.inr hroom.past))
    exact hstacked.congr (agree_unwoundWorld hpast)

end Instrumented

namespace Instrumented

variable {I : Instrumented}

lemma SameBut.trans {w'' : World} (h : SameBut w w') (h' : SameBut w' w'') : SameBut w w'' :=
  ⟨h'.size.trans h.size, h'.globals.trans h.globals, h'.tables.trans h.tables,
    h'.state.trans h.state, h'.buf.trans h.buf⟩

lemma unwind_spec (hstate : w.state = stateUnwinding)
    (hc : ∀ f, Cursor (I.envOf f) w (start + I.total done)) (hpast : w.buf + I.env.ptr.size ≤ start)
    (hfits : start + I.total done + I.total acts ≤ w.mem.size)
    (hspace : start + I.total done + I.total acts < I.env.ptr.space)
    (ht : ∀ a ∈ acts, I.WellTyped a.func a.locals w.aux)
    (hdefaults : ∀ a ∈ acts, I.HasDefaults a.func) (hstacked : I.Stacked w.mem start done) :
    ∃ w', I.unwind acts w = some (I.framesUp (start + I.total done) acts, w') ∧ SameBut w w' ∧
      w'.aux = I.savedRefs acts w.aux ∧
      (∀ f, Cursor (I.envOf f) w' (start + I.total (acts.reverse ++ done))) ∧
      I.Stacked w'.mem start (acts.reverse ++ done) := by
  induction acts generalizing done w with
  | nil => exact ⟨w, rfl, ⟨rfl, rfl, rfl, rfl, rfl⟩, rfl, hc, hstacked⟩
  | cons a acts ih =>
    rw [total_cons] at hfits hspace
    obtain ⟨w1, hone, hsame, haux, hcursor, hstack⟩ := unwindOne_spec hstate (hc a.func) hpast
      (by omega) (by omega) (ht a mem_cons_self) (hdefaults a mem_cons_self) hstacked
    have hlen : ∀ c, (w1.aux c).length = (w.aux c).length := by
      intro c
      rw [haux, length_saveRefs]
    have hcursor' : ∀ f, Cursor (I.envOf f) w1 (start + I.total (a :: done)) := fun f =>
      ⟨hcursor.inMemory, hcursor.addressable, hcursor.value⟩
    have htop : start + I.total (a :: done) =
        start + I.total done + (I.layout a.func).frameSize := by
      rw [total_cons]
      omega
    obtain ⟨w2, hrest, hsame', haux', hc2, hstacked2⟩ := ih
      (hsame.state.trans hstate) hcursor' (hsame.buf ▸ hpast) (by rw [hsame.size]; omega)
      (by rw [htop]; omega)
      (fun b hb => (ht b (mem_cons_of_mem _ hb)).congr hlen)
      (fun b hb => hdefaults b (mem_cons_of_mem _ hb)) hstack
    refine ⟨w2, ?_, hsame.trans hsame', ?_, ?_, ?_⟩
    · have hbefore : I.cursor w = start + I.total done := cursor_eq (hc a.func)
      have hafter : I.cursor w1 = start + I.total (a :: done) := cursor_eq hcursor
      rw [unwind, hone]
      simp only [bind_eq_bind, bind_some, hrest, hbefore, hafter, htop, framesUp,
        Nat.add_sub_cancel_left]
    · rw [haux', haux]
      rfl
    · rw [reverse_cons, append_assoc]
      exact hc2
    · rw [reverse_cons, append_assoc]
      exact hstacked2

/-! ### Rewinding -/

/-- The locals of an activation that is entered again. -/
def restored (I : Instrumented) (init : FunctionId → Var → Val) (aux : RefClass → List Ref)
    (a : Activation) : Var → Val :=
  restoredLocals (I.layout a.func) a.locals aux (init a.func)

lemma rewindOne_spec {init : FunctionId → Var → Val} (hstate : w.state = stateRewinding)
    (hc : ∀ f, Cursor (I.envOf f) w (start + I.total (a :: rest)))
    (hpast : w.buf + I.env.ptr.size ≤ start) (hfits : start + I.total (a :: rest) ≤ w.mem.size)
    (hspace : start + I.total (a :: rest) < I.env.ptr.space)
    (ht : I.WellTyped a.func a.locals w.aux) (hsite : a.site < 2 ^ 32)
    (hstacked : I.Stacked w.mem start (a :: rest)) :
    ∃ w', I.rewindOne init a.func w =
        some (⟨⟨a.func, a.site, start + I.total rest, (I.layout a.func).frameSize⟩,
          I.restored init w.aux a⟩, w') ∧
      SameBut w w' ∧ w'.aux = w.aux ∧ (∀ f, Cursor (I.envOf f) w' (start + I.total rest)) ∧
      I.Stacked w'.mem start rest := by
  obtain ⟨hframe, hindex, hrest⟩ := hstacked
  have hsize := headerSize_le_frameSize (I.layout a.func)
  have hheader : headerSize = 16 := rfl
  have hcall : callIndexOffset = 4 := rfl
  have htop : start + I.total (a :: rest) = start + I.total rest + (I.layout a.func).frameSize := by
    rw [total_cons]
    omega
  rw [htop] at hc hfits hspace
  have hroom : Room (I.envOf a.func) w (start + I.total rest) (I.layout a.func).frameSize :=
    ⟨by change w.buf + I.env.ptr.size ≤ _; omega, hfits⟩
  have hrun : runSeq (I.envOf a.func) 0 (rewindCode I.env.ptr (I.layout a.func))
      ⟨init a.func, w, []⟩ = _ :=
    run_rewindCode (hstate) (hc a.func) hspace hroom ht.typed hframe ht.slots
  have hcursor : ∀ f, Cursor (I.envOf f) (w.setCursor (I.envOf a.func) (start + I.total rest))
      (start + I.total rest) := by
    intro f
    have hset := (hc f).set (start + I.total rest)
    have hlt : start + I.total rest < (I.envOf f).ptr.space := by
      change _ < I.env.ptr.space
      omega
    rw [Nat.mod_eq_of_lt hlt] at hset
    exact hset
  -- The cursor lies below the frames, so moving it leaves the number of the site.
  have hnumber : (w.setCursor (I.envOf a.func) (start + I.total rest)).mem.peek
      (start + I.total rest + callIndexOffset) 4 = a.site := by
    rw [peek_congr ((agree_setCursor hroom).mono (by omega) (by omega)), hindex,
      Nat.mod_eq_of_lt hsite]
  have hk : operands (I.envOf a.func) (currentCallIndex I.env.ptr) (I.restored init w.aux a)
      (w.setCursor (I.envOf a.func) (start + I.total rest)) =
      some [.num (.i32 (BitVec.ofNat 32 a.site))] :=
    operands_currentCallIndex (hcursor a.func) (by
      change _ ≤ w.mem.size
      omega) hnumber
  refine ⟨w.setCursor (I.envOf a.func) (start + I.total rest), ?_, ⟨rfl, rfl, rfl, rfl, rfl⟩, rfl,
    hcursor, ?_⟩
  · have hbefore : I.cursor w = _ := cursor_eq (hc a.func)
    have hafter : I.cursor (w.setCursor (I.envOf a.func) (start + I.total rest)) = _ :=
      cursor_eq (hcursor a.func)
    have hnat : (BitVec.ofNat 32 a.site).toNat = a.site := by
      rw [BitVec.toNat_ofNat, Nat.mod_eq_of_lt hsite]
    rw [rewindOne, hrun]
    dsimp only
    rw [restored] at hk
    rw [hk]
    simp only [hbefore, hafter, hnat, Nat.add_sub_cancel_left]
    rfl
  · exact hrest.congr (agree_poke (.inr hpast))

end Instrumented

namespace Instrumented

variable {I : Instrumented}

lemma target_congr (htables : w'.tables = w.tables)
    (hL : ∀ x ∈ (I.layout f).scalars.map (·.1), L' x = L x) :
    I.target w' f site L' = I.target w f site L := by
  unfold target
  rw [operands_replays (I.replays f site) hL, htables]

/-- Each call enters the function of the next activation, outermost first, and the last one is
`kernel_fork`. -/
def Linked (I : Instrumented) (w : World) : List Activation → Prop
  | [] => False
  | [a] => I.target w a.func a.site a.locals = some I.fork
  | a :: b :: rest =>
    I.target w a.func a.site a.locals = some b.func ∧ b.func ≠ I.fork ∧ Linked I w (b :: rest)

lemma Linked.congr (htables : w'.tables = w.tables) (h : I.Linked w acts) : I.Linked w' acts := by
  induction acts with
  | nil => exact h
  | cons a rest ih =>
    have ha : I.target w' a.func a.site a.locals = I.target w a.func a.site a.locals :=
      target_congr htables fun _ _ => rfl
    cases rest with
    | nil => exact ha.trans h
    | cons => exact ⟨ha.trans h.1, h.2.1, ih h.2.2⟩

/-- The activations that rewinding enters, outermost first, with their frames. -/
def entered (I : Instrumented) (init : FunctionId → Var → Val) (aux : RefClass → List Ref)
    (start : Nat) : List Activation → List Entered
  | [] => []
  | a :: rest =>
    ⟨⟨a.func, a.site, start + I.total rest, (I.layout a.func).frameSize⟩, I.restored init aux a⟩ ::
      entered I init aux start rest

variable (init : FunctionId → Var → Val)

lemma map_frame_entered (aux : RefClass → List Ref) (start : Nat) (acts : List Activation) :
    (I.entered init aux start acts).map (·.frame) = I.framesDown start acts := by
  induction acts with
  | nil => rfl
  | cons a acts ih => rw [entered, map_cons, ih, framesDown]

lemma target_restored (ht : I.WellTyped a.func a.locals aux) (htables : w'.tables = w.tables) :
    I.target w' a.func a.site (I.restored init aux a) = I.target w a.func a.site a.locals :=
  target_congr htables fun _ hx => restoredLocals_scalar ht.typed ht.slots hx

lemma rewind_spec (hstate : w.state = stateRewinding)
    (hc : ∀ f, Cursor (I.envOf f) w (start + I.total (a :: rest)))
    (hpast : w.buf + I.env.ptr.size ≤ start) (hfits : start + I.total (a :: rest) ≤ w.mem.size)
    (hspace : start + I.total (a :: rest) < I.env.ptr.space)
    (ht : ∀ b ∈ a :: rest, I.WellTyped b.func b.locals w.aux)
    (hsite : ∀ b ∈ a :: rest, b.site < 2 ^ 32) (hstacked : I.Stacked w.mem start (a :: rest))
    (hlinked : I.Linked w (a :: rest)) :
    ∃ w', I.rewind init (a :: rest).length a.func w =
        some (I.entered init w.aux start (a :: rest), w') ∧ I.cursor w' = start := by
  induction rest generalizing a w with
  | nil =>
    obtain ⟨w1, hone, hsame, -, hcursor, -⟩ := rewindOne_spec hstate hc hpast hfits hspace
      (ht a mem_cons_self) (hsite a mem_cons_self) hstacked
    have htarget := (target_restored init (ht a mem_cons_self) hsame.tables).trans hlinked
    refine ⟨w1, ?_, cursor_eq (hcursor a.func)⟩
    rw [length_singleton, rewind, hone]
    simp only [bind_eq_bind, bind_some, htarget]
    rfl
  | cons b rest ih =>
    obtain ⟨w1, hone, hsame, haux, hcursor, hstacked1⟩ := rewindOne_spec hstate hc hpast hfits
      hspace (ht a mem_cons_self) (hsite a mem_cons_self) hstacked
    obtain ⟨hnext, hne, hlinked1⟩ := hlinked
    have htarget := (target_restored init (ht a mem_cons_self) hsame.tables).trans hnext
    rw [total_cons] at hfits hspace
    obtain ⟨w2, hrest, hfinal⟩ := ih (hsame.state.trans hstate) hcursor (hsame.buf ▸ hpast)
      (by rw [hsame.size]; omega) (by omega)
      (fun c hc => haux ▸ ht c (mem_cons_of_mem _ hc))
      (fun c hc => hsite c (mem_cons_of_mem _ hc)) hstacked1 (hlinked1.congr hsame.tables)
    refine ⟨w2, ?_, hfinal⟩
    rw [length_cons, rewind, hone]
    simp only [bind_eq_bind, bind_some, htarget, hne]
    rw [hrest, haux]
    rfl

end Instrumented

end Kandelo.ForkInstrument.Machine
