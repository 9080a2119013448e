import Kandelo.ForkInstrument.Machine

/-!
# Replayed code

On re-entry the operands of a call are either reloaded from spill
locals or computed again by the pure instructions that produced them. Both kinds of code read
locals and operands only, so what they leave is a function of these.
-/

namespace Kandelo.ForkInstrument.Machine

open List

variable {i : Code} {code : List Code} {L L' : Var → Val}

/-- Instructions of reloads and of replayed tails, over the given locals. -/
def Replays (xs : List Var) : Code → Prop
  | .const _ | .unop _ | .binop _ => True
  | .localGet x => x ∈ xs
  | _ => False

namespace Result

variable {α β : Type}

/-- Change the value. -/
def map (f : α → β) : Result α → Result β
  | .ok a => .ok (f a)
  | .trap => .trap
  | .stuck => .stuck

/-- Go on with the value. -/
def bind (r : Result α) (f : α → Result β) : Result β :=
  match r with
  | .ok a => f a
  | .trap => .trap
  | .stuck => .stuck

end Result

/-- What one replayed instruction does to the operands. -/
def replayStep (E : Env) (L : Var → Val) : Code → List Val → Result (List Val)
  | .const v, st => .ok (.num v :: st)
  | .localGet x, st => .ok (L x :: st)
  | .unop op, st =>
    match st with
    | .num a :: st => (evalUnop E op a).map fun r => .num r :: st
    | _ => .stuck
  | .binop op, st =>
    match st with
    | .num b :: .num a :: st => (evalBinop E op a b).map fun r => .num r :: st
    | _ => .stuck
  | _, _ => .stuck

/-- What replayed code does to the operands. -/
def replay (E : Env) (L : Var → Val) : List Code → List Val → Result (List Val)
  | [], st => .ok st
  | i :: rest, st => (replayStep E L i st).bind (replay E L rest)

section

variable {E : Env} {N : Nat} {xs : List Var}

lemma isStep_of_replays (h : Replays xs i) : isStep i = true := by
  cases i with
  | const | unop | binop | localGet => rfl
  | _ => exact h.elim

lemma step_eq_replayStep (h : Replays xs i) (L : Var → Val) (w : World) (st : List Val) :
    step E i ⟨L, w, st⟩ = (replayStep E L i st).map fun st' => ⟨L, w, st'⟩ := by
  cases i with
  | const | localGet => rfl
  | unop op =>
    match st with
    | [] | .ref _ :: _ => rfl
    | .num a :: st =>
      simp only [step, replayStep]
      cases evalUnop E op a <;> rfl
  | binop op =>
    match st with
    | [] | [.num _] | .ref _ :: _ | .num _ :: .ref _ :: _ => rfl
    | .num b :: .num a :: st =>
      simp only [step, replayStep]
      cases evalBinop E op a b <;> rfl
  | _ => exact h.elim

lemma runSeq_replays (h : ∀ i ∈ code, Replays xs i) (L : Var → Val) (w : World) (st : List Val) :
    runSeq E N code ⟨L, w, st⟩ = .ofResult w ((replay E L code st).map fun st' => ⟨L, w, st'⟩) := by
  induction code generalizing st with
  | nil => exact runSeq_nil _
  | cons i code ih =>
    have hi := h i mem_cons_self
    have hrest := ih fun j hj => h j (mem_cons_of_mem _ hj)
    rw [runSeq_cons, runInstr_eq_step (isStep_of_replays hi), step_eq_replayStep hi, replay]
    cases replayStep E L i st with
    | ok st' => exact hrest st'
    | trap => rfl
    | stuck => rfl

lemma replayStep_congr (h : Replays xs i)
    (hL : ∀ x ∈ xs, L' x = L x) (st : List Val) : replayStep E L' i st = replayStep E L i st := by
  cases i with
  | const | unop | binop => rfl
  | localGet x => rw [replayStep, replayStep, hL x h]
  | _ => exact h.elim

lemma replay_congr (h : ∀ i ∈ code, Replays xs i)
    (hL : ∀ x ∈ xs, L' x = L x) (st : List Val) : replay E L' code st = replay E L code st := by
  induction code generalizing st with
  | nil => rfl
  | cons i code ih =>
    rw [replay, replayStep_congr (h i mem_cons_self) hL]
    congr 1
    funext st'
    exact ih (fun j hj => h j (mem_cons_of_mem _ hj)) st'

end

end Kandelo.ForkInstrument.Machine
