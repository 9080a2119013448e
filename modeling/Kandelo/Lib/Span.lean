import Mathlib.Order.Bounds.Basic
import Kandelo.Lib.Slice

/-!
# Address spans and packed tables

A span is a half-open interval given by its first address and its length.
A table of spanned entries is packed when each entry ends before the next one starts:
sorted and disjoint in one relation. A packed table stays packed when an entry apart
from all others is inserted at its partition point. First fit over spans in address order
finds the least place for a given number of addresses.
-/

namespace Kandelo.Lib

open List

universe u

/-- The addresses `[addr, addr + len)`. -/
structure Span where
  addr : Nat
  len : Nat
  deriving DecidableEq

namespace Span

/-- The first address behind the span. -/
def stop (s : Span) : Nat := s.addr + s.len

/-- The spans do not meet. -/
def Apart (s t : Span) : Prop := s.stop ≤ t.addr ∨ t.stop ≤ s.addr

lemma Apart.symm {s t : Span} (h : s.Apart t) : t.Apart s := Or.symm h

instance (s t : Span) : Decidable (s.Apart t) := inferInstanceAs (Decidable (_ ∨ _))

variable {α : Type u} (span : α → Span)

/-- The spans are in order and do not meet. -/
def Packed (xs : List α) : Prop := xs.Pairwise fun a b => (span a).stop ≤ (span b).addr

variable {span} {xs : List α}

section

variable (h : Packed span xs)

include h

lemma Packed.sublist {ys : List α} (hs : ys.Sublist xs) :
    Packed span ys := List.Pairwise.sublist hs h

lemma Packed.addr_lt (hlen : ∀ x ∈ xs, 0 < (span x).len) :
    xs.Pairwise fun a b => (span a).addr < (span b).addr := by
  apply List.Pairwise.imp_of_mem _ h
  intro a b ha _ hab
  have := hlen a ha
  simp only [stop] at hab
  omega

lemma Packed.apart : xs.Pairwise fun a b => (span a).Apart (span b) :=
  List.Pairwise.imp (fun hab => .inl hab) h

lemma Packed.insert (hlen : ∀ x ∈ xs, 0 < (span x).len) {x : α} (hx : 0 < (span x).len)
    (hap : ∀ y ∈ xs, (span x).Apart (span y)) {pos : Nat}
    (hpos : pos = Slice.partitionPoint (fun y => decide ((span y).addr < (span x).addr)) xs) :
    Packed span (xs.take pos ++ x :: xs.drop pos) := by
  have hpart : xs.Pairwise fun a b =>
      decide ((span b).addr < (span x).addr) = true →
        decide ((span a).addr < (span x).addr) = true := by
    apply List.Pairwise.imp _ (h.addr_lt hlen)
    intro a b hab hb
    rw [decide_eq_true_eq] at hb ⊢
    omega
  obtain ⟨-, hbefore, hafter⟩ := Slice.partitionPoint_spec hpart
  rw [← hpos] at hbefore hafter
  have hleft : ∀ a ∈ xs.take pos, (span a).stop ≤ (span x).addr := by
    intro a ha
    have hmem := mem_of_mem_take ha
    have hlt := of_decide_eq_true (hbefore a ha)
    have := hap a hmem
    simp only [Apart, stop] at *
    omega
  have hright : ∀ b ∈ xs.drop pos, (span x).stop ≤ (span b).addr := by
    intro b hb
    have hmem := mem_of_mem_drop hb
    have hge := of_decide_eq_false (hafter b hb)
    have hbl := hlen b hmem
    have := hap b hmem
    simp only [Apart, stop] at *
    omega
  apply pairwise_append.mpr
  refine ⟨h.sublist (take_sublist _ _),
    pairwise_cons.mpr ⟨hright, h.sublist (drop_sublist _ _)⟩, ?_⟩
  intro a ha b hb
  rcases mem_cons.mp hb with rfl | hb
  · exact hleft a ha
  have h1 := hleft a ha
  have h2 := hright b hb
  simp only [stop] at *
  omega

lemma Packed.flatMap {f : α → List α} (hf : ∀ x ∈ xs, Packed span (f x))
    (hsub : ∀ x ∈ xs, ∀ y ∈ f x, (span x).addr ≤ (span y).addr ∧ (span y).stop ≤ (span x).stop) :
    Packed span (xs.flatMap f) := by
  unfold Packed
  rw [pairwise_flatMap]
  refine ⟨hf, ?_⟩
  apply List.Pairwise.imp_of_mem _ h
  intro a b ha hb hab y hy z hz
  have h1 := (hsub a ha y hy).2
  have h2 := (hsub b hb z hz).1
  omega

end

/-! ### First fit -/

/-- `a` is a place for `needed` addresses: an edge at or above `cursor`, apart from every
span, and below the ceiling when no span follows. -/
structure Fits (ceiling needed cursor : Nat) (ss : List Span) (a : Nat) : Prop where
  lower : cursor ≤ a
  edge : a = cursor ∨ ∃ s ∈ ss, a = s.stop
  apart : ∀ s ∈ ss, (⟨a, needed⟩ : Span).Apart s
  upper : (∀ s ∈ ss, s.stop ≤ a) → a + needed ≤ ceiling

/-- First fit in one pass over spans in address order. -/
def firstFit (ceiling needed : Nat) : Nat → List Span → Option Nat
  | cursor, [] => if cursor + needed ≤ ceiling then some cursor else none
  | cursor, s :: ss =>
    if cursor + needed ≤ s.addr then some cursor else firstFit ceiling needed (max cursor s.stop) ss

variable {ceiling needed cursor a : Nat} {s : Span} {ss ts : List Span}

/-- A span that leaves no room in front of it only moves the cursor to its end. -/
lemma fits_cons (hgap : s.addr < cursor + needed) :
    Fits ceiling needed cursor (s :: ss) a ↔ Fits ceiling needed (max cursor s.stop) ss a := by
  constructor
  · rintro ⟨hlow, hedge, hap, hup⟩
    obtain ⟨hs, hap⟩ := forall_mem_cons.mp hap
    have hstop : s.stop ≤ a := by
      simp only [Apart, stop] at hs ⊢
      omega
    refine ⟨by omega, ?_, hap, fun h => hup (forall_mem_cons.mpr ⟨hstop, h⟩)⟩
    rcases hedge with rfl | ⟨t, ht, rfl⟩
    · exact .inl (by omega)
    rcases mem_cons.mp ht with rfl | ht
    · exact .inl (by omega)
    · exact .inr ⟨t, ht, rfl⟩
  · rintro ⟨hlow, hedge, hap, hup⟩
    refine ⟨by omega, ?_, forall_mem_cons.mpr ⟨.inr (by dsimp only; omega), hap⟩,
      fun h => hup (forall_mem_cons.mp h).2⟩
    rcases hedge with rfl | ⟨t, ht, rfl⟩
    · rcases Nat.le_total cursor s.stop with hle | hle
      · exact .inr ⟨s, mem_cons_self, by omega⟩
      · exact .inl (by omega)
    · exact .inr ⟨t, mem_cons_of_mem s ht, rfl⟩

lemma firstFit_spec (hn : 0 < needed) (hs : ss.Pairwise fun s t => s.addr ≤ t.addr) :
    (firstFit ceiling needed cursor ss).elim (∀ a, ¬ Fits ceiling needed cursor ss a)
      (IsLeast {a | Fits ceiling needed cursor ss a}) := by
  induction ss generalizing cursor with
  | nil =>
    unfold firstFit
    split
    · next hle =>
        exact ⟨⟨Nat.le_refl _, .inl rfl, by simp, fun _ => hle⟩, fun _ ha => Fits.lower ha⟩
    next hgt =>
    rintro a ⟨hlow, hedge, -, hup⟩
    have := hup (by simp)
    omega
  | cons s ss ih =>
    obtain ⟨hle, hs⟩ := pairwise_cons.mp hs
    unfold firstFit
    split
    · next hgap =>
      have hfirst : ∀ t ∈ s :: ss, cursor + needed ≤ t.addr :=
        forall_mem_cons.mpr ⟨hgap, fun t ht => Nat.le_trans hgap (hle t ht)⟩
      refine ⟨⟨Nat.le_refl _, .inl rfl, fun t ht => .inl (hfirst t ht), ?_⟩,
        fun _ ha => Fits.lower ha⟩
      intro hlast
      have := hlast s mem_cons_self
      simp only [stop] at this
      omega
    · next hgap =>
      simp only [fits_cons (Nat.lt_of_not_le hgap)]
      exact ih hs

lemma fits_congr (hmem : ∀ s, s ∈ ts ↔ s ∈ ss) :
    Fits ceiling needed cursor ts a ↔ Fits ceiling needed cursor ss a := by
  constructor <;> rintro ⟨hlow, hedge, hap, hup⟩
  · simp only [hmem] at hedge hap hup
    exact ⟨hlow, hedge, hap, hup⟩
  · simp only [← hmem] at hedge hap hup
    exact ⟨hlow, hedge, hap, hup⟩

/-- First fit over a sorted list finds the least place and fails only if there is none; the
places depend on the set of spans alone. -/
lemma firstFit_eq_iff (hn : 0 < needed) (hts : ts.Pairwise fun s t => s.addr ≤ t.addr)
    (hmem : ∀ s, s ∈ ts ↔ s ∈ ss) :
    (∀ a, firstFit ceiling needed cursor ts = some a ↔
      IsLeast {a | Fits ceiling needed cursor ss a} a) ∧
      (firstFit ceiling needed cursor ts = none ↔ ∀ a, ¬ Fits ceiling needed cursor ss a) := by
  have h := @firstFit_spec ceiling needed cursor ts hn hts
  simp only [fits_congr hmem] at h
  cases hf : firstFit ceiling needed cursor ts with
  | none =>
    rw [hf] at h
    exact ⟨fun a => ⟨by simp, fun ha => absurd ha.1 (h a)⟩, by simpa using h⟩
  | some c =>
    rw [hf] at h
    refine ⟨fun a => ⟨?_, fun ha => congrArg some (h.unique ha)⟩, by simpa using ⟨c, h.1⟩⟩
    rintro ⟨⟩
    exact h

end Span

end Kandelo.Lib
