import Mathlib.Data.List.Dedup
import Mathlib.Data.List.Perm.Subperm

/-!
# Searching with a work list

A search visits what is on its work list and puts the successors that it has not seen
at the end of it. With as many rounds as there are nodes it sees exactly the nodes that can be
reached from where it started.
-/

namespace Kandelo.Lib.Worklist

open List

open Relation (ReflTransGen)

universe u

variable {ι : Type u} {next : ι → List ι} {roots work seen nodes : List ι} {i x : ι} {fuel : Nat}

variable (next)

/-- The successors that have not been seen, each once. -/
def fresh [DecidableEq ι] (seen : List ι) (i : ι) : List ι :=
  ((next i).filter fun j => j ∉ seen).dedup

/-- Visit what is on the work list, for a number of rounds. -/
def search [DecidableEq ι] (next : ι → List ι) : Nat → List ι → List ι → List ι
  | 0, _, seen => seen
  | _ + 1, [], seen => seen
  | fuel + 1, i :: work, seen =>
    search next fuel (work ++ fresh next seen i) (fresh next seen i ++ seen)

/-- The node can be reached from the roots. -/
def Reaches (roots : List ι) (x : ι) : Prop :=
  ∃ r ∈ roots, ReflTransGen (fun i j => j ∈ next i) r x

variable {next}

@[simp] lemma mem_fresh [DecidableEq ι] {j : ι} :
    j ∈ fresh next seen i ↔ j ∈ next i ∧ j ∉ seen := by
  simp [fresh]

/-- A search that has come this far: what it has seen can be reached, and what it has visited has
no successors that it has not seen. -/
structure Searching (next : ι → List ι) (nodes roots work seen : List ι) : Prop where
  started : ∀ r ∈ roots, r ∈ seen
  reached : ∀ x ∈ seen, Reaches next roots x
  listed : ∀ x ∈ work, x ∈ seen
  visited : ∀ x ∈ seen, x ∉ work → ∀ y ∈ next x, y ∈ seen
  nodup : seen.Nodup
  inside : ∀ x ∈ seen, x ∈ nodes

namespace Searching

lemma start (hnodup : roots.Nodup) (hroots : ∀ r ∈ roots, r ∈ nodes) :
    Searching next nodes roots roots roots where
  started _ hr := hr
  reached x hx := ⟨x, hx, .refl⟩
  listed _ hx := hx
  visited _ hx hnot := absurd hx hnot
  nodup := hnodup
  inside := hroots

lemma visit [DecidableEq ι] (h : Searching next nodes roots (i :: work) seen)
    (hnodes : ∀ x ∈ nodes, ∀ y ∈ next x, y ∈ nodes) :
    Searching next nodes roots (work ++ fresh next seen i) (fresh next seen i ++ seen) where
  started r hr := mem_append_right _ (h.started r hr)
  reached x hx := by
    rcases mem_append.mp hx with hx | hx
    · obtain ⟨r, hr, hpath⟩ := h.reached i (h.listed i mem_cons_self)
      exact ⟨r, hr, hpath.tail (mem_fresh.mp hx).1⟩
    · exact h.reached x hx
  listed x hx := by
    rcases mem_append.mp hx with hx | hx
    · exact mem_append_right _ (h.listed x (mem_cons_of_mem _ hx))
    · exact mem_append_left _ hx
  visited x hx hnot y hy := by
    rw [mem_append, not_or] at hnot
    have hseen : x ∈ seen := (mem_append.mp hx).resolve_left hnot.2
    by_cases hxi : x = i
    · subst hxi
      by_cases hy' : y ∈ seen
      · exact mem_append_right _ hy'
      · exact mem_append_left _ (mem_fresh.mpr ⟨hy, hy'⟩)
    · have hwork : x ∉ i :: work := by
        rw [mem_cons, not_or]
        exact ⟨hxi, hnot.1⟩
      exact mem_append_right _ (h.visited x hseen hwork y hy)
  nodup := by
    refine List.Nodup.append (nodup_dedup _) h.nodup fun x hx hx' => ?_
    exact (mem_fresh.mp hx).2 hx'
  inside x hx := by
    rcases mem_append.mp hx with hx | hx
    · exact hnodes i (h.inside i (h.listed i mem_cons_self)) x (mem_fresh.mp hx).1
    · exact h.inside x hx

lemma length_le (h : Searching next nodes roots work seen) : seen.length ≤ nodes.length :=
  (subperm_of_subset h.nodup h.inside).length_le

lemma mem_of_reaches (h : Searching next nodes roots [] seen) (hx : Reaches next roots x) :
    x ∈ seen := by
  obtain ⟨r, hr, hpath⟩ := hx
  induction hpath with
  | refl => exact h.started r hr
  | tail _ hedge ih => exact h.visited _ ih not_mem_nil _ hedge

lemma mem_search [DecidableEq ι] (h : Searching next nodes roots work seen)
    (hnodes : ∀ x ∈ nodes, ∀ y ∈ next x, y ∈ nodes)
    (hfuel : work.length + (nodes.length - seen.length) ≤ fuel) :
    x ∈ search next fuel work seen ↔ Reaches next roots x := by
  induction fuel generalizing work seen with
  | zero =>
    obtain rfl : work = [] := length_eq_zero_iff.mp (by omega)
    exact ⟨h.reached x, h.mem_of_reaches⟩
  | succ fuel ih =>
    cases work with
    | nil => exact ⟨h.reached x, h.mem_of_reaches⟩
    | cons =>
      have hvisit := h.visit hnodes
      have hlength := hvisit.length_le
      refine ih hvisit ?_
      rw [length_append] at hlength ⊢
      rw [length_cons] at hfuel
      rw [length_append]
      omega

end Searching

lemma mem_search [DecidableEq ι] (hnodup : roots.Nodup) (hroots : ∀ r ∈ roots, r ∈ nodes)
    (hnodes : ∀ x ∈ nodes, ∀ y ∈ next x, y ∈ nodes) (hfuel : nodes.length ≤ fuel) :
    x ∈ search next fuel roots roots ↔ Reaches next roots x := by
  have hstart : Searching next nodes roots roots roots := .start hnodup hroots
  have hlength := hstart.length_le
  apply hstart.mem_search hnodes
  omega

end Kandelo.Lib.Worklist
