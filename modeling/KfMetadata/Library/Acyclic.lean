/-
# Acyclic relations

A recursion along the edges of a finite graph without cycles ends, and it is no
deeper than the graph has nodes. The rule below is the induction for such a
recursion when it is written with a bound on its depth: what the successors have
under one bound, a node has under the next.
-/

import Mathlib.Data.Finset.Card
import Mathlib.Logic.Relation

namespace Acyclicity

universe u

open Relation

variable {α : Type u} {R : α → α → Prop}

/-- No path leads back to where it started. -/
def Acyclic (R : α → α → Prop) : Prop := ∀ a, ¬ TransGen R a a

/-- A relation is acyclic if a rank decreases along it. -/
theorem Acyclic.of_rank (rank : α → Nat) (hrank : ∀ a b, R a b → rank b < rank a) :
    Acyclic R := by
  have hpath : ∀ a b, TransGen R a b → rank b < rank a := by
    intro a b hab
    induction hab with
    | single hedge => exact hrank _ _ hedge
    | tail _ hedge ih => exact (hrank _ _ hedge).trans ih
  intro a hcycle
  exact Nat.lt_irrefl _ (hpath a a hcycle)

/-- Induction over an acyclic graph with a bound: every bound larger than the number of
nodes that can be reached is large enough. -/
theorem Acyclic.bounded [DecidableEq α] (hacyclic : Acyclic R) {P : Nat → α → Prop}
    (hstep : ∀ n a, (∀ b, R a b → P n b) → P (n + 1) a) {V : Finset α} {a : α}
    (hreach : ∀ b, TransGen R a b → b ∈ V) {n : Nat} (hlarge : V.card < n) : P n a := by
  induction n generalizing a V with
  | zero => exact absurd hlarge (Nat.not_lt_zero _)
  | succ n ih =>
      apply hstep
      intro b hab
      have hmem : b ∈ V := hreach b (TransGen.single hab)
      -- no path from `b` comes back to `b`, so one node fewer can be reached from there
      apply ih (V := V.erase b)
      · intro c hbc
        have hne : c ≠ b := by
          intro heq
          exact hacyclic b (heq ▸ hbc)
        exact Finset.mem_erase.mpr ⟨hne, hreach c (hbc.head hab)⟩
      · have hcard : (V.erase b).card + 1 = V.card := Finset.card_erase_add_one hmem
        omega

/-- New edges from one node close a cycle exactly if one of them leads back to the node. -/
theorem acyclic_insert_iff {x : α} {S : α → Prop} :
    Acyclic (fun a b => R a b ∨ a = x ∧ S b) ↔
      Acyclic R ∧ ∀ b, S b → ¬ ReflTransGen R b x := by
  apply Iff.intro
  · intro hacyclic
    apply And.intro
    · intro a hcycle
      exact hacyclic a (TransGen.mono (fun _ _ => Or.inl) _ _ hcycle)
    · intro b hb hback
      apply hacyclic x
      exact TransGen.head' (Or.inr ⟨rfl, hb⟩) (ReflTransGen.mono (fun _ _ => Or.inl) _ _ hback)
  · intro ⟨hacyclic, hnew⟩
    -- A path takes at most one new edge: after it, it does not come back to `x`.
    have hpath : ∀ a c, TransGen (fun a b => R a b ∨ a = x ∧ S b) a c →
        TransGen R a c ∨ ReflTransGen R a x ∧ ∃ b, S b ∧ ReflTransGen R b c := by
      intro a c hac
      induction hac with
      | single hedge =>
          rcases hedge with hold | ⟨rfl, hb⟩
          · exact Or.inl (TransGen.single hold)
          · exact Or.inr ⟨ReflTransGen.refl, _, hb, ReflTransGen.refl⟩
      | tail _ hedge ih =>
          rcases ih with hold | ⟨hax, b, hb, hbc⟩
          · rcases hedge with hedge | ⟨rfl, hb⟩
            · exact Or.inl (hold.tail hedge)
            · exact Or.inr ⟨hold.to_reflTransGen, _, hb, ReflTransGen.refl⟩
          · rcases hedge with hedge | ⟨rfl, -⟩
            · exact Or.inr ⟨hax, b, hb, hbc.tail hedge⟩
            · exact absurd hbc (hnew b hb)
    intro a hcycle
    rcases hpath a a hcycle with hold | ⟨hax, b, hb, hba⟩
    · exact hacyclic a hold
    · exact hnew b hb (hba.trans hax)

/-- From a node on a cycle there is an edge to a node on a cycle. -/
theorem exists_successor_of_cycle {a : α} (hcycle : TransGen R a a) :
    ∃ b, R a b ∧ TransGen R b b := by
  obtain ⟨b, hab, hba⟩ := TransGen.head'_iff.mp hcycle
  exact ⟨b, hab, TransGen.tail' hba hab⟩

end Acyclicity
