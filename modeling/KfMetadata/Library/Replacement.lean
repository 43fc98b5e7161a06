/-
# Replacing the first occurrence of a text

Replacing a text looks for its first occurrence and puts another one there. The text that is
put in is not taken as it is: a dollar gives some of the characters that follow it a
meaning, and the two stand for the text that was found, for what comes before it, for what
comes after it, or for a dollar. Whatever it stands for, such a pair costs a dollar.
-/

import Mathlib.Data.List.Infix

namespace Replacement

/-! ## The first occurrence -/

/-- Cut a text at the first occurrence of another, into what comes before and after. -/
def cut (pattern : List Char) : List Char → Option (List Char × List Char)
  | [] => if pattern = [] then some ([], []) else none
  | c :: cs =>
      match pattern.isPrefixOf? (c :: cs) with
      | some after => some ([], after)
      | none => (cut pattern cs).map fun parts => (c :: parts.1, parts.2)

/-- The parts make up the text, with the pattern in between. -/
theorem eq_of_cut {pattern cs before after : List Char}
    (hcut : cut pattern cs = some (before, after)) : cs = before ++ pattern ++ after := by
  induction cs generalizing before with
  | nil =>
      rw [cut] at hcut
      split at hcut
      next hempty =>
        obtain ⟨rfl, rfl⟩ := Prod.mk.inj (Option.some.inj hcut)
        rw [hempty, List.append_nil, List.append_nil]
      next hne => cases hcut
  | cons c cs ih =>
      rw [cut] at hcut
      split at hcut
      next rest hprefix =>
        obtain ⟨rfl, rfl⟩ := Prod.mk.inj (Option.some.inj hcut)
        exact (List.isPrefixOf?_eq_some_iff_append_eq.mp hprefix).symm
      next hprefix =>
        obtain ⟨⟨before', after'⟩, hrest, hparts⟩ := Option.map_eq_some_iff.mp hcut
        obtain ⟨rfl, rfl⟩ := Prod.mk.inj hparts
        rw [ih hrest]
        rfl

/-- A text cannot start before its first character. -/
theorem isPrefixOf?_cons_of_ne {p c : Char} (hne : p ≠ c) (pattern cs : List Char) :
    (p :: pattern).isPrefixOf? (c :: cs) = none := by
  rw [List.isPrefixOf?, if_neg]
  exact fun heq => hne (beq_iff_eq.mp heq)

/-- The first occurrence is here if the first character of the pattern is not met before. -/
theorem cut_append {p : Char} {before : List Char} (hbefore : p ∉ before)
    (pattern after : List Char) :
    cut (p :: pattern) (before ++ (p :: pattern) ++ after) = some (before, after) := by
  induction before with
  | nil =>
      have hprefix : (p :: pattern).isPrefixOf? ((p :: pattern) ++ after) = some after :=
        List.isPrefixOf?_eq_some_iff_append_eq.mpr rfl
      rw [List.nil_append, List.cons_append, cut, ← List.cons_append, hprefix]
  | cons c before ih =>
      obtain ⟨hne, hrest⟩ := not_or.mp (List.mem_cons.not.mp hbefore)
      rw [List.cons_append, List.cons_append, cut, isPrefixOf?_cons_of_ne hne]
      simp only [ih hrest, Option.map_some]

/-- There is no occurrence if the first character of the pattern is missing. -/
theorem cut_of_notMem {p : Char} {cs : List Char} (hcs : p ∉ cs) (pattern : List Char) :
    cut (p :: pattern) cs = none := by
  induction cs with
  | nil => exact if_neg (List.cons_ne_nil _ _)
  | cons c cs ih =>
      obtain ⟨hne, hrest⟩ := not_or.mp (List.mem_cons.not.mp hcs)
      rw [cut, isPrefixOf?_cons_of_ne hne]
      simp only [ih hrest, Option.map_none]

/-! ## What is put in -/

/-- The characters that a dollar gives a meaning. -/
def specials : List Char := ['$', '&', '\x60', '\x27']

/-- What a dollar and the character after it stand for. -/
def special (found before after : List Char) (c : Char) : Option (List Char) :=
  if c = '$' then some ['$']
  else if c = '&' then some found
  else if c = '\x60' then some before
  else if c = '\x27' then some after
  else none

/-- The text that a replacement stands for. -/
def expand (found before after : List Char) : List Char → List Char
  | [] => []
  | [c] => [c]
  | c :: d :: cs =>
      if c = '$' then
        match special found before after d with
        | some text => text ++ expand found before after cs
        | none => c :: expand found before after (d :: cs)
      else c :: expand found before after (d :: cs)

/-- Some dollar comes before a character that it gives a meaning. -/
def HasSpecial (cs : List Char) : Prop := ∃ c ∈ specials, ['$', c] <:+: cs

instance (cs : List Char) : Decidable (HasSpecial cs) :=
  List.decidableBEx (fun c => ['$', c] <:+: cs) specials

section Expand

variable {found before after : List Char}

theorem special_eq_none_iff {c : Char} : special found before after c = none ↔ c ∉ specials := by
  unfold special
  split_ifs <;> simp_all [specials]

theorem HasSpecial.cons {c : Char} {cs : List Char} (h : HasSpecial cs) : HasSpecial (c :: cs) := by
  obtain ⟨d, hd, hinfix⟩ := h
  exact ⟨d, hd, List.infix_cons hinfix⟩

theorem HasSpecial.append {cs : List Char} (h : HasSpecial cs) (ds : List Char) :
    HasSpecial (cs ++ ds) := by
  obtain ⟨c, hc, hinfix⟩ := h
  exact ⟨c, hc, hinfix.trans (List.prefix_append cs ds).isInfix⟩

theorem hasSpecial_of_notMem {cs : List Char} (hcs : '$' ∉ cs) : ¬ HasSpecial cs := by
  intro h
  obtain ⟨c, -, hinfix⟩ := h
  have hsubset := hinfix.subset
  exact hcs (hsubset List.mem_cons_self)

/-- A pair of characters is inside a text if it is at its front or further on. -/
theorem hasSpecial_cons_cons_iff {c d : Char} {cs : List Char} :
    HasSpecial (c :: d :: cs) ↔ c = '$' ∧ d ∈ specials ∨ HasSpecial (d :: cs) := by
  apply Iff.intro
  · intro h
    obtain ⟨e, he, hinfix⟩ := h
    cases List.infix_cons_iff.mp hinfix with
    | inl hfront =>
        obtain ⟨hc, hrest⟩ := List.cons_prefix_cons.mp hfront
        obtain ⟨hd, -⟩ := List.cons_prefix_cons.mp hrest
        exact Or.inl ⟨hc.symm, hd ▸ he⟩
    | inr hlater => exact Or.inr ⟨e, he, hlater⟩
  · intro h
    cases h with
    | inl hfront =>
        obtain ⟨rfl, hd⟩ := hfront
        exact ⟨d, hd, List.IsPrefix.isInfix ⟨cs, rfl⟩⟩
    | inr hlater => exact hlater.cons

/-- Without special pairs a replacement stands for itself. -/
theorem expand_eq_self {cs : List Char} (hcs : ¬ HasSpecial cs) :
    expand found before after cs = cs := by
  induction cs using expand.induct found before after with
  | case1 => rfl
  | case2 c => rfl
  | case3 d cs text hspecial ih =>
      have hd : d ∈ specials := by
        by_contra hd
        rw [special_eq_none_iff.mpr hd] at hspecial
        cases hspecial
      exact absurd (hasSpecial_cons_cons_iff.mpr (Or.inl ⟨rfl, hd⟩)) hcs
  | case4 d cs hspecial ih =>
      rw [expand, if_pos rfl, hspecial]
      simp only [ih fun h => hcs h.cons]
  | case5 c d cs hc ih => rw [expand, if_neg hc, ih fun h => hcs h.cons]

/-- The dollars of what a special pair stands for. -/
theorem count_special_le {c : Char} {text : List Char} (hfound : '$' ∉ found)
    (hbefore : '$' ∉ before) (hafter : '$' ∉ after)
    (hspecial : special found before after c = some text) :
    text.count '$' ≤ [c].count '$' := by
  unfold special at hspecial
  split_ifs at hspecial with h₁ h₂ h₃ h₄ <;> obtain rfl := Option.some.inj hspecial
  · rw [h₁]
  · rw [List.count_eq_zero.mpr hfound]
    exact Nat.zero_le _
  · rw [List.count_eq_zero.mpr hbefore]
    exact Nat.zero_le _
  · rw [List.count_eq_zero.mpr hafter]
    exact Nat.zero_le _

/-- No dollars come in from elsewhere. -/
theorem count_expand_le (hfound : '$' ∉ found) (hbefore : '$' ∉ before) (hafter : '$' ∉ after)
    (cs : List Char) : (expand found before after cs).count '$' ≤ cs.count '$' := by
  induction cs using expand.induct found before after with
  | case1 => exact Nat.le_refl _
  | case2 c => exact Nat.le_refl _
  | case3 d cs text hspecial ih =>
      have htext := count_special_le hfound hbefore hafter hspecial
      rw [expand, if_pos rfl, hspecial]
      simp only [List.count_append, List.count_cons, List.count_nil] at htext ih ⊢
      omega
  | case4 d cs hspecial ih =>
      rw [expand, if_pos rfl, hspecial]
      simp only [List.count_cons] at ih ⊢
      omega
  | case5 c d cs hc ih =>
      rw [expand, if_neg hc, List.count_cons, List.count_cons (l := d :: cs)]
      exact Nat.add_le_add_right ih _

/-- A special pair costs a dollar. -/
theorem count_expand_lt (hfound : '$' ∉ found) (hbefore : '$' ∉ before) (hafter : '$' ∉ after)
    {cs : List Char} (hcs : HasSpecial cs) :
    (expand found before after cs).count '$' < cs.count '$' := by
  induction cs using expand.induct found before after with
  | case1 => exact absurd hcs (hasSpecial_of_notMem List.not_mem_nil)
  | case2 c =>
      obtain ⟨d, -, hinfix⟩ := hcs
      exact absurd hinfix.length_le (by simp)
  | case3 d cs text hspecial ih =>
      have htext := count_special_le hfound hbefore hafter hspecial
      have hrest := count_expand_le hfound hbefore hafter cs
      rw [expand, if_pos rfl, hspecial]
      simp only [List.count_append, List.count_cons, List.count_nil, beq_self_eq_true,
        if_true] at htext hrest ⊢
      omega
  | case4 d cs hspecial ih =>
      have hlater : HasSpecial (d :: cs) := by
        cases hasSpecial_cons_cons_iff.mp hcs with
        | inl hfront => exact absurd hfront.2 (special_eq_none_iff.mp hspecial)
        | inr hlater => exact hlater
      have hfewer := ih hlater
      rw [expand, if_pos rfl, hspecial]
      simp only [List.count_cons] at hfewer ⊢
      omega
  | case5 c d cs hc ih =>
      have hlater : HasSpecial (d :: cs) := by
        cases hasSpecial_cons_cons_iff.mp hcs with
        | inl hfront => exact absurd hfront.1 hc
        | inr hlater => exact hlater
      rw [expand, if_neg hc, List.count_cons, List.count_cons (l := d :: cs)]
      exact Nat.add_lt_add_right (ih hlater) _

end Expand

/-! ## Replacing -/

/-- Replace the first occurrence of a text, if there is one. -/
def replace (s pattern replacement : String) : String :=
  match cut pattern.toList s.toList with
  | none => s
  | some (before, after) =>
      String.ofList
        (before ++ expand pattern.toList before after replacement.toList ++ after)

/-- Replace a text where it first occurs. -/
theorem replace_append {before pattern after replacement : String} {p : Char}
    (hpattern : pattern.toList.head? = some p) (hbefore : p ∉ before.toList) :
    replace (before ++ pattern ++ after) pattern replacement =
      before ++ String.ofList
        (expand pattern.toList before.toList after.toList replacement.toList) ++ after := by
  obtain ⟨ps, hchars⟩ := List.head?_eq_some_iff.mp hpattern
  have hcut : cut pattern.toList (before ++ pattern ++ after).toList =
      some (before.toList, after.toList) := by
    rw [String.toList_append, String.toList_append, hchars]
    exact cut_append hbefore ps after.toList
  apply String.toList_injective
  rw [replace, hcut]
  simp only [String.toList_ofList, String.toList_append]

/-- A text without special pairs comes in as it is. -/
theorem replace_append_of_not_hasSpecial {before pattern after replacement : String} {p : Char}
    (hpattern : pattern.toList.head? = some p) (hbefore : p ∉ before.toList)
    (hreplacement : ¬ HasSpecial replacement.toList) :
    replace (before ++ pattern ++ after) pattern replacement = before ++ replacement ++ after := by
  rw [replace_append hpattern hbefore, expand_eq_self hreplacement, String.ofList_toList]

theorem replace_of_notMem {s pattern : String} {p : Char}
    (hpattern : pattern.toList.head? = some p) (hs : p ∉ s.toList) (replacement : String) :
    replace s pattern replacement = s := by
  obtain ⟨ps, hchars⟩ := List.head?_eq_some_iff.mp hpattern
  rw [replace, hchars, cut_of_notMem hs]

/-- Replacing a text without dollars by another leaves as many dollars as there were. -/
theorem count_replace {s pattern replacement : String} (hpattern : '$' ∉ pattern.toList)
    (hreplacement : '$' ∉ replacement.toList) :
    (replace s pattern replacement).toList.count '$' = s.toList.count '$' := by
  unfold replace
  split
  next hcut => rfl
  next before after hcut =>
    rw [expand_eq_self (hasSpecial_of_notMem hreplacement), String.toList_ofList, eq_of_cut hcut]
    simp only [List.count_append, List.count_eq_zero.mpr hpattern,
      List.count_eq_zero.mpr hreplacement]

/-- A special pair is missing from what comes out, where all the dollars are put in. -/
theorem count_replace_lt {before pattern after replacement : String} {p : Char}
    (hpattern : pattern.toList.head? = some p) (hp : p ∉ before.toList)
    (hbefore : '$' ∉ before.toList) (hfound : '$' ∉ pattern.toList) (hafter : '$' ∉ after.toList)
    (hreplacement : HasSpecial replacement.toList) :
    (replace (before ++ pattern ++ after) pattern replacement).toList.count '$' <
      replacement.toList.count '$' := by
  have hfewer := count_expand_lt hfound hbefore hafter hreplacement
  rw [replace_append hpattern hp]
  simpa only [String.toList_append, String.toList_ofList, List.count_append,
    List.count_eq_zero.mpr hbefore, List.count_eq_zero.mpr hafter, Nat.zero_add,
    Nat.add_zero] using hfewer

end Replacement
