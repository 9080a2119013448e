import Mathlib.Data.List.Pairwise
import Kandelo.ForkInstrument.Frame

/-!
# Slots for reference locals

Reference locals cannot be kept in linear memory, so each of them gets
a slot in an auxiliary table. The slots are planned once for the module, one for each local of
each instrumented function, with a cursor for each table; no two locals share a slot. The plan
says nothing about activations.
-/

namespace Kandelo.ForkInstrument.Machine

open List Option

/-! ### The locals of a function -/

/-- The local that an instruction names. -/
def localOf : Instr → Option LocalId
  | .localGet x | .localSet x | .localTee x => some x
  | _ => none

/-- The entries that were not seen before, each once. -/
def firstSeen {α : Type} [DecidableEq α] : List α → List α → List α
  | _, [] => []
  | seen, x :: rest =>
    if x ∈ seen then firstSeen seen rest else x :: firstSeen (x :: seen) rest

variable (args : List LocalId) (body : List Instr)

/-- `collect_user_locals`: the parameters, then the locals the body names;
`instrument.rs:3168-3202`. -/
def collectUserLocals : List LocalId :=
  firstSeen [] (args ++ (seqOccurrences [] body).filterMap fun o => localOf o.2)

lemma firstSeen_spec {α : Type} [DecidableEq α] (seen xs : List α) :
    (firstSeen seen xs).Nodup ∧ ∀ x ∈ firstSeen seen xs, x ∉ seen := by
  induction xs generalizing seen with
  | nil => exact ⟨nodup_nil, fun x hx => by cases hx⟩
  | cons x xs ih =>
    unfold firstSeen
    split
    · exact ih seen
    next hx =>
    obtain ⟨hnodup, hfresh⟩ := ih (x :: seen)
    refine ⟨nodup_cons.mpr ⟨fun h => hfresh x h mem_cons_self, hnodup⟩, fun y hy => ?_⟩
    rcases mem_cons.mp hy with rfl | hy
    · exact hx
    · exact fun h => hfresh y hy (mem_cons_of_mem _ h)

lemma mem_firstSeen {α : Type} [DecidableEq α] {seen xs : List α} {x : α} (hseen : x ∉ seen)
    (hx : x ∈ xs) : x ∈ firstSeen seen xs := by
  induction xs generalizing seen with
  | nil => cases hx
  | cons y xs ih =>
    unfold firstSeen
    by_cases hxy : x = y
    · rw [if_neg (hxy ▸ hseen)]
      exact mem_cons.mpr (.inl hxy)
    have hrest := (mem_cons.mp hx).resolve_left hxy
    split
    · exact ih hseen hrest
    · refine mem_cons_of_mem _ (ih (fun h => ?_) hrest)
      exact (mem_cons.mp h).elim hxy hseen

/-! ### The plan -/

/-- `classify_ref`; `instrument.rs:3471-3484`. -/
def classifyRef : ValType → Option RefClass
  | .funcref | .otherRef true .function | .otherRef true .noFunction => some .funcref
  | .externref | .otherRef true .external | .otherRef true .noExternal => some .externref
  | .exnref | .otherRef true .exception | .otherRef true .noException => some .exnref
  | _ => none

/-- The next free slot of each auxiliary table. -/
abbrev Cursors := RefClass → Nat

variable {before after : Cursors} {plan : List (FunctionId × List RefLocalSlot)}
  {targets : List (FunctionId × List (LocalId × ValType))}

variable (cursors : Cursors)

/-- Take a slot. -/
def bump (c : RefClass) : Cursors :=
  fun d => if d = c then cursors d + 1 else cursors d

/-- Slots of a function's locals; none is the panic at an unsupported reference type;
`instrument.rs:3500-3534`. -/
def planLocals : List (LocalId × ValType) → Cursors → Option (List RefLocalSlot × Cursors)
  | [], cursors => some ([], cursors)
  | (x, ty) :: rest, cursors =>
    if isScalar ty then planLocals rest cursors
    else
      match classifyRef ty with
      | none => none
      | some c =>
        (planLocals rest (bump cursors c)).map fun r => (⟨x, c, cursors c⟩ :: r.1, r.2)

/-- Slots of the locals of all functions, and the sizes of the tables but for the catch
regions; `instrument.rs:3486-3538`. -/
def planFunctions : List (FunctionId × List (LocalId × ValType)) → Cursors →
    Option (List (FunctionId × List RefLocalSlot) × Cursors)
  | [], cursors => some ([], cursors)
  | (f, locals) :: rest, cursors =>
    (planLocals locals cursors).bind fun r =>
      (planFunctions rest r.2).map fun q => ((f, r.1) :: q.1, q.2)

/-- The plan, and the sizes of the tables: the `exnref` table has a slot for each `try_table` as
well; `instrument.rs:3540-3590`. -/
def planAuxTables (targets : List (FunctionId × List (LocalId × ValType))) (tryTables : Nat) :
    Option (List (FunctionId × List RefLocalSlot) × Cursors) :=
  (planFunctions targets fun _ => 0).map fun r =>
    (r.1, fun c => if c = .exnref then r.2 c + tryTables else r.2 c)

/-! ### No two locals share a slot -/

/-- The slots lie between the cursors and are in order. -/
structure Planned (before after : Cursors) (slots : List RefLocalSlot) : Prop where
  mono : ∀ c, before c ≤ after c
  bounds : ∀ r ∈ slots, before r.cls ≤ r.slot ∧ r.slot < after r.cls
  ordered : slots.Pairwise fun r r' => r.cls = r'.cls → r.slot < r'.slot

lemma Planned.append {middle : Cursors} {xs ys : List RefLocalSlot}
    (hxs : Planned before middle xs) (hys : Planned middle after ys) :
    Planned before after (xs ++ ys) := by
  refine ⟨fun c => (hxs.mono c).trans (hys.mono c), fun r hr => ?_, ?_⟩
  · rcases mem_append.mp hr with hr | hr
    · exact ⟨(hxs.bounds r hr).1, (hxs.bounds r hr).2.trans_le (hys.mono _)⟩
    · exact ⟨(hxs.mono _).trans (hys.bounds r hr).1, (hys.bounds r hr).2⟩
  · refine pairwise_append.mpr ⟨hxs.ordered, hys.ordered, fun r hr r' hr' hcls => ?_⟩
    have hlt := (hxs.bounds r hr).2
    have hle := (hys.bounds r' hr').1
    rw [← hcls] at hle
    exact hlt.trans_le hle

lemma planned_singleton (x : LocalId) (c : RefClass) :
    Planned cursors (bump cursors c) [⟨x, c, cursors c⟩] := by
  refine ⟨fun d => ?_, fun r hr => ?_, pairwise_singleton _ _⟩
  · unfold bump
    split <;> omega
  rw [mem_singleton.mp hr]
  dsimp only [bump]
  rw [if_pos rfl]
  omega

lemma planLocals_spec {locals : List (LocalId × ValType)}
    {slots : List RefLocalSlot} (h : planLocals locals before = some (slots, after)) :
    Planned before after slots ∧
      slots.map (·.local_) = (locals.filter fun x => !isScalar x.2).map (·.1) := by
  induction locals generalizing before slots with
  | nil =>
    cases h
    exact ⟨⟨fun _ => le_refl _, fun r hr => (by cases hr), List.Pairwise.nil⟩, rfl⟩
  | cons x locals ih =>
    unfold planLocals at h
    split at h
    · next hscalar =>
      rw [filter_cons_of_neg (by simpa using hscalar)]
      exact ih h
    next hscalar =>
    split at h
    · cases h
    next c hc =>
    obtain ⟨r, hr, heq⟩ := map_eq_some_iff.mp h
    cases heq
    obtain ⟨hplanned, hlocals⟩ := ih hr
    rw [filter_cons_of_pos (by simpa using hscalar)]
    exact ⟨(planned_singleton before x.1 c).append hplanned, congrArg (x.1 :: ·) hlocals⟩

lemma planFunctions_spec (h : planFunctions targets before = some (plan, after)) :
    Planned before after (plan.flatMap (·.2)) ∧ plan.map (·.1) = targets.map (·.1) ∧
      ∀ p ∈ plan, ∃ locals, (p.1, locals) ∈ targets ∧
        p.2.map (·.local_) = (locals.filter fun x => !isScalar x.2).map (·.1) := by
  induction targets generalizing before plan with
  | nil =>
    cases h
    exact ⟨⟨fun _ => le_refl _, fun r hr => (by cases hr), List.Pairwise.nil⟩, rfl,
      fun p hp => (by cases hp)⟩
  | cons t targets ih =>
    obtain ⟨r, hr, h⟩ := bind_eq_some_iff.mp h
    obtain ⟨q, hq, heq⟩ := map_eq_some_iff.mp h
    cases heq
    obtain ⟨hplanned, hlocals⟩ := planLocals_spec hr
    obtain ⟨hrest, hkeys, hall⟩ := ih hq
    refine ⟨hplanned.append hrest, congrArg (t.1 :: ·) hkeys, fun p hp => ?_⟩
    rcases mem_cons.mp hp with rfl | hp
    · exact ⟨t.2, mem_cons_self, hlocals⟩
    · obtain ⟨locals, hmem, hp⟩ := hall p hp
      exact ⟨locals, mem_cons_of_mem _ hmem, hp⟩

/-- The slots with the functions they belong to. -/
def planEntries (plan : List (FunctionId × List RefLocalSlot)) : List (FunctionId × RefLocalSlot) :=
  plan.flatMap fun p => p.2.map (p.1, ·)

lemma mem_planEntries {f : FunctionId}
    {rs : List RefLocalSlot} {r : RefLocalSlot} (hf : (f, rs) ∈ plan) (hr : r ∈ rs) :
    (f, r) ∈ planEntries plan :=
  mem_flatMap.mpr ⟨_, hf, mem_map.mpr ⟨r, hr, rfl⟩⟩

lemma map_snd_planEntries : (planEntries plan).map (·.2) = plan.flatMap (·.2) := by
  rw [planEntries, map_flatMap]
  simp

lemma eq_of_same_slot (h : Planned before after (plan.flatMap (·.2)))
    {e e' : FunctionId × RefLocalSlot} (he : e ∈ planEntries plan) (he' : e' ∈ planEntries plan)
    (hcls : e.2.cls = e'.2.cls) (hslot : e.2.slot = e'.2.slot) : e = e' := by
  have hordered := h.ordered
  rw [← map_snd_planEntries, pairwise_map] at hordered
  have hdistinct : (planEntries plan).Pairwise fun a b =>
      ¬(a.2.cls = b.2.cls ∧ a.2.slot = b.2.slot) :=
    hordered.imp fun hlt ⟨hc, hs⟩ => absurd hs (hlt hc).ne
  have hsymm : Std.Symm fun a b : FunctionId × RefLocalSlot =>
      ¬(a.2.cls = b.2.cls ∧ a.2.slot = b.2.slot) :=
    ⟨fun _ _ hab ⟨hc, hs⟩ => hab ⟨hc.symm, hs.symm⟩⟩
  by_contra hne
  exact hdistinct.forall he he' hne ⟨hcls, hslot⟩

/-- What holds of a plan for the locals of some functions. -/
structure PlannedFor (targets : List (FunctionId × List (LocalId × ValType)))
    (plan : List (FunctionId × List RefLocalSlot)) (sizes : Cursors) : Prop where
  inTable : ∀ e ∈ planEntries plan, e.2.slot < sizes e.2.cls
  distinct : ∀ e ∈ planEntries plan, ∀ e' ∈ planEntries plan, e.2.cls = e'.2.cls →
    e.2.slot = e'.2.slot → e = e'
  locals : ∀ p ∈ plan, ∃ locals, (p.1, locals) ∈ targets ∧
    p.2.map (·.local_) = (locals.filter fun x => !isScalar x.2).map (·.1)

lemma planAuxTables_spec {tryTables : Nat} {sizes : Cursors}
    (h : planAuxTables targets tryTables = some (plan, sizes)) : PlannedFor targets plan sizes := by
  obtain ⟨r, hr, heq⟩ := map_eq_some_iff.mp h
  cases heq
  obtain ⟨hplanned, -, hall⟩ := planFunctions_spec hr
  refine ⟨fun e he => ?_, fun e he e' he' => eq_of_same_slot hplanned he he', hall⟩
  · have hmem : e.2 ∈ r.1.flatMap (·.2) := by
      rw [← map_snd_planEntries]
      exact mem_map.mpr ⟨e, he, rfl⟩
    have hlt := (hplanned.bounds e.2 hmem).2
    split <;> omega

end Kandelo.ForkInstrument.Machine
