/-
# Comparing rows

The comparator of the list pages asks whether the sort cell of one row is less than that of
another. It says that one of the two rows comes first even where the cells are equal, or
cannot be compared, and it says so for both directions of the order. So it is a comparator
only for rows whose cells the language puts in a strict order. Texts that differ are in
one, and so are numbers. Among texts and numbers together there can be circles, and they
are all of one kind: two texts whose order as texts is not that as numbers, and a number
that stands between them.
-/

import KfMetadata.Frontend.LastRequest
import KfMetadata.Library.Comparator
import Mathlib.Algebra.Order.Ring.Unbundled.Rat

namespace KfMetadata.Frontend

open Comparator

/-! ## Texts are ordered -/

/-- The units of one character are told apart from those of another, whatever follows. -/
theorem codeUnits_append_inj {c d : Char} {rest rest' : List Nat}
    (heq : codeUnits c ++ rest = codeUnits d ++ rest') : c = d ∧ rest = rest' := by
  have hvalid : ∀ e : Char, e.toNat < 0xD800 ∨ 0xDFFF < e.toNat ∧ e.toNat < 0x110000 :=
    fun e => e.valid
  have hc := hvalid c
  have hd := hvalid d
  unfold codeUnits at heq
  split at heq
  next hsmall =>
    split at heq
    next hsmall' =>
      obtain ⟨hunit, hrest⟩ := List.cons.inj heq
      exact ⟨Char.toNat_inj.mp hunit, hrest⟩
    next hlarge' =>
      have hunit := (List.cons.inj heq).1
      omega
  next hlarge =>
    split at heq
    next hsmall' =>
      have hunit := (List.cons.inj heq).1
      omega
    next hlarge' =>
      obtain ⟨hhigh, htail⟩ := List.cons.inj heq
      obtain ⟨hlow, hrest⟩ := List.cons.inj htail
      exact ⟨Char.toNat_inj.mp (by omega), hrest⟩

theorem codeUnits_ne_nil (c : Char) : codeUnits c ≠ [] := by
  unfold codeUnits
  split
  · exact List.cons_ne_nil _ _
  · exact List.cons_ne_nil _ _

theorem flatMap_codeUnits_inj {cs ds : List Char}
    (heq : cs.flatMap codeUnits = ds.flatMap codeUnits) : cs = ds := by
  induction cs generalizing ds with
  | nil =>
      cases ds with
      | nil => rfl
      | cons d ds =>
          rw [List.flatMap_nil, List.flatMap_cons] at heq
          exact absurd (List.append_eq_nil_iff.mp heq.symm).1 (codeUnits_ne_nil d)
  | cons c cs ih =>
      cases ds with
      | nil =>
          rw [List.flatMap_nil, List.flatMap_cons] at heq
          exact absurd (List.append_eq_nil_iff.mp heq).1 (codeUnits_ne_nil c)
      | cons d ds =>
          rw [List.flatMap_cons, List.flatMap_cons] at heq
          obtain ⟨rfl, hrest⟩ := codeUnits_append_inj heq
          rw [ih hrest]

/-- Of two texts exactly one is less than the other if they differ. -/
theorem textLess_ne_iff {a b : String} : textLess a b ≠ textLess b a ↔ a ≠ b := by
  apply Iff.intro
  · intro hdiffer heq
    rw [heq] at hdiffer
    exact hdiffer rfl
  · intro hne
    have hunits : a.toList.flatMap codeUnits ≠ b.toList.flatMap codeUnits :=
      fun heq => hne (String.toList_injective (flatMap_codeUnits_inj heq))
    by_cases hless : a.toList.flatMap codeUnits < b.toList.flatMap codeUnits
    · have hnot := List.lt_asymm hless
      simp [textLess, hless, hnot]
    · have hmore : b.toList.flatMap codeUnits < a.toList.flatMap codeUnits := by
        by_contra hnot
        exact hunits (List.le_antisymm (List.not_lt.mp hnot) (List.not_lt.mp hless))
      simp [textLess, hless, hmore]

/-- Of two values exactly one is less than the other if they are different numbers. -/
theorem Number.less_ne_iff {m n : Number} :
    m.less n ≠ n.less m ↔ m ≠ .nan ∧ n ≠ .nan ∧ m ≠ n := by
  cases m with
  | nan => cases n <;> simp [less]
  | infinity negative =>
      cases n with
      | nan => cases negative <;> simp [less]
      | infinity negative' => cases negative <;> cases negative' <;> simp [less]
      | finite b => cases negative <;> simp [less]
  | finite a =>
      cases n with
      | nan => simp [less]
      | infinity negative' => cases negative' <;> simp [less]
      | finite b =>
          simp only [less, ne_eq, reduceCtorEq, not_false_eq_true, true_and, finite.injEq,
            decide_eq_decide]
          apply not_congr
          apply Iff.intro
          · intro hsame
            by_contra hne
            rcases lt_or_gt_of_ne hne with hless | hmore
            · exact absurd (hsame.mp hless) (lt_asymm hless)
            · exact absurd (hsame.mpr hmore) (lt_asymm hmore)
          · intro heq
            rw [heq]

/-! ## Cells that can be sorted -/

/-- Two texts that differ, or values that stand for different numbers. -/
def Cell.Apart (host : Host) : Cell → Cell → Prop
  | .text a, .text b => a ≠ b
  | x, y => host.toNumber x ≠ .nan ∧ host.toNumber y ≠ .nan ∧ host.toNumber x ≠ host.toNumber y

theorem less_ne_iff_apart (host : Host) (x y : Cell) :
    host.less x y ≠ host.less y x ↔ x.Apart host y := by
  have hnumbers := Number.less_ne_iff (m := host.toNumber x) (n := host.toNumber y)
  cases x with
  | text a =>
      cases y with
      | text b => exact textLess_ne_iff
      | undefined => exact hnumbers
      | null => exact hnumbers
      | number n => exact hnumbers
  | undefined => cases y <;> exact hnumbers
  | null => cases y <;> exact hnumbers
  | number m => cases y <;> exact hnumbers

instance (host : Host) (x y : Cell) : Decidable (x.Apart host y) := by
  unfold Cell.Apart
  split <;> infer_instance

/-! ## Circles -/

theorem textLess_trans {a b c : String} (hab : textLess a b) (hbc : textLess b c) :
    textLess a c := by
  simp only [textLess, decide_eq_true_eq] at hab hbc ⊢
  exact List.lt_trans hab hbc

theorem textLess_irrefl (a : String) : ¬ textLess a a := by
  simp only [textLess, decide_eq_true_eq]
  exact List.lt_irrefl _

theorem Number.less_trans {l m n : Number} (hlm : l.less m) (hmn : m.less n) : l.less n := by
  rcases m with _ | (_ | _) | b
  · rcases l with _ | (_ | _) | a <;> cases hlm
  · rcases n with _ | (_ | _) | c <;> cases hmn
  · rcases l with _ | (_ | _) | a <;> cases hlm
  · rcases n with _ | (_ | _) | c
    · cases hmn
    · rcases l with _ | (_ | _) | a
      · cases hlm
      · cases hlm
      · rfl
      · rfl
    · cases hmn
    · rcases l with _ | (_ | _) | a
      · cases hlm
      · cases hlm
      · rfl
      · simp only [less, decide_eq_true_eq] at hlm hmn ⊢
        exact lt_trans hlm hmn

theorem Number.less_irrefl (n : Number) : ¬ n.less n := by
  cases n with
  | nan => exact Bool.false_ne_true
  | infinity negative => cases negative <;> exact Bool.false_ne_true
  | finite a => simp [less]

/-- A text that is less than another one as a text and greater as a number, and a value that is
no text and whose number is between theirs. -/
def Cell.Between (host : Host) : Cell → Cell → Cell → Prop
  | .text _, .text _, .text _ => False
  | .text s, .text t, z => textLess s t ∧ (host.stringToNumber t).less (host.toNumber z) ∧
      (host.toNumber z).less (host.stringToNumber s)
  | _, _, _ => False

instance (host : Host) (x y z : Cell) : Decidable (x.Between host y z) := by
  unfold Cell.Between
  split <;> infer_instance

/-- Each of three cells is less than the next. -/
def Cell.Circle (host : Host) (x y z : Cell) : Prop :=
  host.less x y ∧ host.less y z ∧ host.less z x

/-- Two cells that are not both texts compare as numbers. -/
theorem less_of_not_texts {host : Host} {x y : Cell}
    (hnot : ∀ s t, ¬ (x = .text s ∧ y = .text t)) :
    host.less x y = (host.toNumber x).less (host.toNumber y) := by
  cases x with
  | text s =>
      cases y with
      | text t => exact (hnot s t ⟨rfl, rfl⟩).elim
      | undefined => rfl
      | null => rfl
      | number n => rfl
  | undefined => cases y <;> rfl
  | null => cases y <;> rfl
  | number m => cases y <;> rfl

theorem circle_rotate {host : Host} {x y z : Cell} : x.Circle host y z ↔ y.Circle host z x := by
  simp only [Cell.Circle]
  tauto

theorem circle_of_between {host : Host} {x y z : Cell} (hbetween : x.Between host y z) :
    x.Circle host y z := by
  cases x with
  | text s =>
      cases y with
      | text t =>
          cases z with
          | text u => exact hbetween.elim
          | undefined => exact hbetween
          | null => exact hbetween
          | number n => exact hbetween
      | undefined => exact hbetween.elim
      | null => exact hbetween.elim
      | number m => exact hbetween.elim
  | undefined => exact hbetween.elim
  | null => exact hbetween.elim
  | number l => exact hbetween.elim

/-- Two texts in a circle have the third cell between them, as all three are no texts. -/
theorem between_of_circle {host : Host} {s t : String} {z : Cell}
    (hcircle : (Cell.text s).Circle host (.text t) z) :
    (Cell.text s).Between host (.text t) z := by
  cases z with
  | text u =>
      obtain ⟨hst, htu, hus⟩ := hcircle
      exact textLess_irrefl s (textLess_trans (textLess_trans hst htu) hus)
  | undefined => exact hcircle
  | null => exact hcircle
  | number n => exact hcircle

/-- **Circles.** In a circle two texts are in one order as texts and in the other as numbers,
and the third cell has a number between theirs. -/
theorem circle_iff {host : Host} {x y z : Cell} : x.Circle host y z ↔
    x.Between host y z ∨ y.Between host z x ∨ z.Between host x y := by
  apply Iff.intro
  · intro hcircle
    by_cases hxy : ∃ s t, x = .text s ∧ y = .text t
    · obtain ⟨s, t, rfl, rfl⟩ := hxy
      exact Or.inl (between_of_circle hcircle)
    by_cases hyz : ∃ s t, y = .text s ∧ z = .text t
    · obtain ⟨s, t, rfl, rfl⟩ := hyz
      exact Or.inr (Or.inl (between_of_circle (circle_rotate.mp hcircle)))
    by_cases hzx : ∃ s t, z = .text s ∧ x = .text t
    · obtain ⟨s, t, rfl, rfl⟩ := hzx
      exact Or.inr (Or.inr (between_of_circle (circle_rotate.mpr hcircle)))
    -- Now all three comparisons are of numbers, which are in an order.
    simp only [not_exists] at hxy hyz hzx
    rw [Cell.Circle, less_of_not_texts hxy, less_of_not_texts hyz, less_of_not_texts hzx]
      at hcircle
    obtain ⟨hless, hless', hless''⟩ := hcircle
    exact (Number.less_irrefl _ (Number.less_trans (Number.less_trans hless hless') hless'')).elim
  · rintro (hbetween | hbetween | hbetween)
    · exact circle_of_between hbetween
    · exact circle_rotate.mpr (circle_of_between hbetween)
    · exact circle_rotate.mp (circle_of_between hbetween)

/-! ## The comparator -/

variable (host : Host) (request : ListRequest) (columns : List Column)

/-- The request asks for the order of one of the columns. -/
def NamesColumn : Prop :=
  request.sortBy ≠ "" ∧ ∃ c ∈ columns, c.sortKey = some (cleanedSortBy request.sortBy)

/-- Two rows have the same sort cell, where one that is missing is an empty text. -/
def SameCell (r₁ r₂ : Row) : Prop :=
  sortCell columns request.sortBy r₁ = sortCell columns request.sortBy r₂

/-- The sort cells of the rows are pairwise apart, and no two of them that are texts in one
order and numbers in the other have a third one between. -/
structure CellsOrdered (rows : List Row) : Prop where
  apart : ∀ a b, [a, b].Subperm rows →
    (sortCell columns request.sortBy a).Apart host (sortCell columns request.sortBy b)
  noneBetween : ∀ a b c, [a, b, c].Subperm rows →
    ¬ (sortCell columns request.sortBy a).Between host (sortCell columns request.sortBy b)
      (sortCell columns request.sortBy c)

variable {request columns}

/-- The comparator of a request with a sort key asks one question. -/
theorem rowCompareFn_eq (hsortBy : request.sortBy ≠ "") :
    rowCompareFn host request columns = twoWay
      (fun r₁ r₂ => host.less (sortCell columns request.sortBy r₁)
        (sortCell columns request.sortBy r₂)) request.orderAscending := by
  funext r₁ r₂
  rw [rowCompareFn, if_neg hsortBy, twoWay]
  cases request.orderAscending with
  | true => rfl
  | false =>
      cases host.less (sortCell columns request.sortBy r₁)
        (sortCell columns request.sortBy r₂) <;> rfl

/-- **Comparing rows.** The comparator is lawful on some rows exactly if their sort cells are
in a strict order, so never with two equal cells among them. -/
theorem rowCompareFn_lawful_iff (hcolumn : NamesColumn request columns) (rows : List Row) :
    Lawful (rowCompareFn host request columns) (SameCell request columns) rows ↔
      CellsOrdered host request columns rows := by
  have hsame : ∀ a b, SameCell request columns a b →
      host.less (sortCell columns request.sortBy a) (sortCell columns request.sortBy b) =
        host.less (sortCell columns request.sortBy b) (sortCell columns request.sortBy a) := by
    intro a b hcells
    rw [hcells]
  rw [rowCompareFn_eq host hcolumn.1, lawful_twoWay_iff hsame]
  apply Iff.intro
  · intro hordered
    refine ⟨fun a b hpart => (less_ne_iff_apart host _ _).mp (hordered.apart a b hpart), ?_⟩
    intro a b c hpart hbetween
    exact hordered.acyclic a b c hpart (circle_of_between hbetween)
  · intro hordered
    refine ⟨fun a b hpart => (less_ne_iff_apart host _ _).mpr (hordered.apart a b hpart), ?_⟩
    intro a b c hpart hcircle
    rcases circle_iff.mp hcircle with hbetween | hbetween | hbetween
    · exact hordered.noneBetween a b c hpart hbetween
    · exact hordered.noneBetween b c a (subperm_rotate hpart) hbetween
    · exact hordered.noneBetween c a b (subperm_rotate (subperm_rotate hpart)) hbetween

/-! ## Rows by name -/

/-- A table with a column for names. -/
def nameColumns : List Column :=
  [⟨"Pipeline/Workspace", some "pipelineName"⟩, ⟨"Name", some "name"⟩]

/-- A request for rows ordered by name. -/
def byName (orderAscending : Bool) : ListRequest :=
  ⟨"", orderAscending, 10, some "", if orderAscending then "name" else "name desc"⟩

theorem namesColumn_byName (orderAscending : Bool) :
    NamesColumn (byName orderAscending) nameColumns := by
  cases orderAscending with
  | true => exact ⟨by decide, ⟨"Name", some "name"⟩, by decide, by decide +kernel⟩
  | false => exact ⟨by decide, ⟨"Name", some "name"⟩, by decide, by decide +kernel⟩

/-- A row with a name. -/
def namedRow (id : String) (name : Cell) : Row := ⟨none, id, [.text "pipelineName-1", name]⟩

/-- A host for which numerals are numbers. -/
def numeralHost : Host :=
  { plainHost with
    stringToNumber := fun text =>
      if text.toList.all Char.isDigit then .finite (Nat.ofDigitChars 10 text.toList 0) else .nan }

/-- A text that comes before another one, though its number is larger, and a number that is
larger than both. -/
def numberedRows : List Row :=
  [namedRow "1" (.text "10"), namedRow "2" (.text "9"), namedRow "3" (.number (.finite 20))]

/-- Rows with texts and a number that is not between them can be compared. -/
theorem rowCompareFn_lawful_names :
    Lawful (rowCompareFn numeralHost (byName false) nameColumns)
      (SameCell (byName false) nameColumns) numberedRows := by
  apply (rowCompareFn_lawful_iff numeralHost (namesColumn_byName false) _).mpr
  have hnodup : numberedRows.Nodup := by decide
  constructor
  · intro a b hpart
    have hne : a ≠ b := by
      obtain ⟨l, hperm, hsublist⟩ := hpart
      simpa using hperm.nodup_iff.mp (hnodup.sublist hsublist)
    have happart : ∀ a ∈ numberedRows, ∀ b ∈ numberedRows, a ≠ b →
        (sortCell nameColumns (byName false).sortBy a).Apart numeralHost
          (sortCell nameColumns (byName false).sortBy b) := by decide +kernel
    exact happart a (hpart.subset (by simp)) b (hpart.subset (by simp)) hne
  · intro a b c hpart
    have hnone : ∀ a ∈ numberedRows, ∀ b ∈ numberedRows, ∀ c ∈ numberedRows,
        ¬ (sortCell nameColumns (byName false).sortBy a).Between numeralHost
          (sortCell nameColumns (byName false).sortBy b)
          (sortCell nameColumns (byName false).sortBy c) := by decide +kernel
    exact hnone a (hpart.subset (by simp)) b (hpart.subset (by simp)) c (hpart.subset (by simp))

-- A number between the two texts would close a circle.
example : (Cell.text "10").Circle numeralHost (.text "9") (.number (.finite (19 / 2))) :=
  circle_of_between (by decide +kernel)

/-- Of two rows with the same name, each one is said to come before the other. -/
theorem same_names_not_lawful :
    ¬ ∀ (host : Host) (request : ListRequest) (columns : List Column) (rows : List Row),
      NamesColumn request columns →
      Lawful (rowCompareFn host request columns) (SameCell request columns) rows := by
  intro hclaim
  have hlawful := hclaim plainHost (byName false) nameColumns
    [namedRow "1" (.text "model"), namedRow "2" (.text "model")] (namesColumn_byName false)
  have hsame := hlawful.beside (namedRow "1" (.text "model")) (namedRow "2" (.text "model"))
    (List.Subperm.refl _) rfl
  exact absurd hsame (by decide +kernel)

end KfMetadata.Frontend
