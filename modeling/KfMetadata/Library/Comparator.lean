/-
# Comparators made of one test

A sort is given a comparator: a number that is negative, zero or positive as one
element comes before, beside or after another. A comparator that asks a single
question, whether one element is less than another, and answers with one of two
numbers, can never say that two elements come beside each other. It meets the laws
of comparators on a list exactly if the question orders the list strictly: of any
two elements exactly one is less, and no three elements go round in a circle.
-/

import Mathlib.Data.List.Nodup
import Mathlib.Data.List.Perm.Basic

namespace Comparator

variable {α : Type*}

/-- What a stable sort makes of a list: every element stays, in an order that the
comparator agrees to, and elements that come beside each other keep theirs. -/
structure Sorts (cmp : α → α → Int) (elements out : List α) : Prop where
  perm : out.Perm elements
  ordered : out.Pairwise fun a b => cmp a b ≤ 0
  stable : ∀ a b, [a, b].Sublist elements → cmp a b = 0 → [a, b].Sublist out

/-- The laws of a comparator on the elements of a list, taken at different positions, where
some elements are to count as the same, and what they are there for. -/
structure Lawful (cmp : α → α → Int) (same : α → α → Prop) (elements : List α) : Prop where
  antisymm : ∀ a b, [a, b].Subperm elements → (cmp a b < 0 ↔ 0 < cmp b a)
  beside : ∀ a b, [a, b].Subperm elements → same a b → cmp a b = 0
  trans : ∀ a b c, [a, b, c].Subperm elements → cmp a b < 0 → cmp b c < 0 → cmp a c < 0
  /-- The sorted list is determined. -/
  determined : ∀ out out', Sorts cmp elements out → Sorts cmp elements out' → out = out'
  /-- Elements that count as the same keep their order. -/
  keeps : ∀ out, Sorts cmp elements out → ∀ a b, [a, b].Sublist elements → same a b →
    [a, b].Sublist out

/-- Before or after, by one test; `up` is the answer to the test that means before. -/
def twoWay (less : α → α → Bool) (up : Bool) (a b : α) : Int := if less a b = up then -1 else 1

/-- Of any two elements exactly one is less than the other, and there are no circles. -/
structure Ordered (less : α → α → Bool) (elements : List α) : Prop where
  apart : ∀ a b, [a, b].Subperm elements → less a b ≠ less b a
  acyclic : ∀ a b c, [a, b, c].Subperm elements → ¬ (less a b ∧ less b c ∧ less c a)

variable {less : α → α → Bool} {up : Bool} {a b c : α} {elements : List α}

theorem twoWay_neg_iff : twoWay less up a b < 0 ↔ less a b = up := by
  rw [twoWay]
  split
  next hup => simp [hup]
  next hup => simp [hup]

theorem twoWay_pos_iff : 0 < twoWay less up a b ↔ less a b ≠ up := by
  rw [twoWay]
  split
  next hup => simp [hup]
  next hup => simp [hup]

theorem twoWay_ne_zero : twoWay less up a b ≠ 0 := by
  rw [twoWay]
  split
  · decide
  · decide

/-! ## Parts of three elements -/

theorem subperm_reverse (hpart : [a, b, c].Subperm elements) : [c, b, a].Subperm elements :=
  (List.reverse_perm [a, b, c]).subperm.trans hpart

theorem subperm_front (hpart : [a, b, c].Subperm elements) : [a, b].Subperm elements :=
  (List.sublist_append_left [a, b] [c]).subperm.trans hpart

theorem subperm_back (hpart : [a, b, c].Subperm elements) : [b, c].Subperm elements :=
  (List.sublist_cons_self a [b, c]).subperm.trans hpart

theorem subperm_ends (hpart : [a, b, c].Subperm elements) : [a, c].Subperm elements :=
  ((List.sublist_cons_self b [c]).cons_cons a).subperm.trans hpart

theorem subperm_rotate (hpart : [a, b, c].Subperm elements) : [b, c, a].Subperm elements :=
  (List.perm_append_singleton a [b, c]).subperm.trans hpart

/-! ## The laws -/

/-- One test is symmetric exactly if the two answers differ. -/
theorem antisymm_iff :
    (twoWay less up a b < 0 ↔ 0 < twoWay less up b a) ↔ less a b ≠ less b a := by
  rw [twoWay_neg_iff, twoWay_pos_iff]
  cases less a b <;> cases less b a <;> cases up <;> decide

/-- Without circles the order goes on. -/
theorem Ordered.trans (hordered : Ordered less elements) (hpart : [a, b, c].Subperm elements)
    (hab : twoWay less up a b < 0) (hbc : twoWay less up b c < 0) : twoWay less up a c < 0 := by
  rw [twoWay_neg_iff] at hab hbc ⊢
  have hba := hordered.apart a b (subperm_front hpart)
  have hcb := hordered.apart b c (subperm_back hpart)
  have hca := hordered.apart a c (subperm_ends hpart)
  have hcircle := hordered.acyclic a b c hpart
  have hback := hordered.acyclic c b a (subperm_reverse hpart)
  cases up <;> simp_all

theorem Ordered.determined (hordered : Ordered less elements) {out out' : List α}
    (hsorts : Sorts (twoWay less up) elements out)
    (hsorts' : Sorts (twoWay less up) elements out') : out = out' := by
  apply List.Perm.eq_of_pairwise ?_ hsorts.ordered hsorts'.ordered
    (hsorts.perm.trans hsorts'.perm.symm)
  intro a b ha hb hab hba
  by_contra hne
  have hpart : [a, b].Subperm elements := by
    apply List.subperm_of_subset (by simp [hne])
    intro d hd
    rcases List.mem_pair.mp hd with rfl | rfl
    · exact hsorts.perm.mem_iff.mp ha
    · exact hsorts'.perm.mem_iff.mp hb
  have hzero : twoWay less up a b ≠ 0 := twoWay_ne_zero
  have hneg : twoWay less up a b < 0 := by omega
  have hpos := (antisymm_iff.mpr (hordered.apart a b hpart)).mp hneg
  omega

/-- A lawful comparator comes from a test without circles. -/
theorem Lawful.ordered {same : α → α → Prop} (hlawful : Lawful (twoWay less up) same elements) :
    Ordered less elements := by
  have hapart : ∀ a b, [a, b].Subperm elements → less a b ≠ less b a :=
    fun a b hpart => antisymm_iff.mp (hlawful.antisymm a b hpart)
  refine ⟨hapart, ?_⟩
  intro a b c hpart hcircle
  obtain ⟨hab, hbc, hca⟩ := hcircle
  have hba := hapart a b (subperm_front hpart)
  have hcb := hapart b c (subperm_back hpart)
  have hac := hapart a c (subperm_ends hpart)
  rw [hab] at hba
  rw [hbc] at hcb
  rw [hca] at hac
  cases up with
  | true =>
      have hlaw := hlawful.trans a b c hpart (twoWay_neg_iff.mpr hab) (twoWay_neg_iff.mpr hbc)
      exact hac (twoWay_neg_iff.mp hlaw)
  | false =>
      -- in the other direction the circle is gone round backwards
      have hlaw := hlawful.trans c b a (subperm_reverse hpart)
        (twoWay_neg_iff.mpr (Bool.eq_false_iff.mpr hcb.symm))
        (twoWay_neg_iff.mpr (Bool.eq_false_iff.mpr hba.symm))
      rw [twoWay_neg_iff, hca] at hlaw
      cases hlaw

/-- A strict order is lawful where no two elements count as the same. -/
theorem Ordered.lawful {same : α → α → Prop} (hordered : Ordered less elements)
    (hsame : ∀ a b, same a b → less a b = less b a) :
    Lawful (twoWay less up) same elements := by
  have hapart : ∀ a b, [a, b].Subperm elements → ¬ same a b :=
    fun a b hpart hab => hordered.apart a b hpart (hsame a b hab)
  constructor
  · exact fun a b hpart => antisymm_iff.mpr (hordered.apart a b hpart)
  · exact fun a b hpart hab => absurd hab (hapart a b hpart)
  · exact fun a b c hpart => hordered.trans hpart
  · exact fun out out' => hordered.determined
  · exact fun out _ a b hpart hab => absurd hab (hapart a b hpart.subperm)

/-- **Comparators made of one test.** They are lawful on a list exactly if the test orders
it strictly. -/
theorem lawful_twoWay_iff {same : α → α → Prop} (hsame : ∀ a b, same a b → less a b = less b a) :
    Lawful (twoWay less up) same elements ↔ Ordered less elements := by
  apply Iff.intro
  · exact fun hlawful => hlawful.ordered
  · exact fun hordered => hordered.lawful hsame

end Comparator
