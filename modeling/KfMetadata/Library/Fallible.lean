/-
# Computations that may fail

What a computation of results or errors has done once it has succeeded: each of
its parts has succeeded before.
-/

import Mathlib.Data.List.Basic

namespace Fallible

universe u v w

variable {ε : Type u} {ε' : Type v} {α β σ : Type w}

theorem bind_eq_ok {x : Except ε α} {f : α → Except ε β} {b : β} :
    x >>= f = .ok b ↔ ∃ a, x = .ok a ∧ f a = .ok b := by
  cases x with
  | error e =>
      apply Iff.intro
      · intro hbind
        cases hbind
      · rintro ⟨a, ha, -⟩
        cases ha
  | ok a =>
      apply Iff.intro
      · intro hbind
        exact ⟨a, rfl, hbind⟩
      · rintro ⟨a', ha, hf⟩
        cases ha
        exact hf

theorem mapError_eq_ok {x : Except ε α} {f : ε → ε'} {a : α} :
    x.mapError f = .ok a ↔ x = .ok a := by
  cases x with
  | error e =>
      apply Iff.intro
      · intro hmap
        cases hmap
      · intro hok
        cases hok
  | ok a' =>
      apply Iff.intro
      · intro hmap
        cases hmap
        rfl
      · intro hok
        cases hok
        rfl

theorem foldlM_cons_eq_ok {f : σ → α → Except ε σ} {a : α} {as : List α} {s t : σ} :
    (a :: as).foldlM f s = .ok t ↔ ∃ u, f s a = .ok u ∧ as.foldlM f u = .ok t := by
  rw [List.foldlM_cons, bind_eq_ok]

/-! ## Results of all elements -/

theorem mapM_cons_eq_ok {f : α → Except ε β} {a : α} {as : List α} {bs : List β} :
    (a :: as).mapM f = .ok bs ↔ ∃ b bs', f a = .ok b ∧ as.mapM f = .ok bs' ∧ bs = b :: bs' := by
  rw [List.mapM_cons, bind_eq_ok]
  apply Iff.intro
  · rintro ⟨b, hb, hrest⟩
    obtain ⟨bs', hbs', hpure⟩ := bind_eq_ok.mp hrest
    cases hpure
    exact ⟨b, bs', hb, hbs', rfl⟩
  · rintro ⟨b, bs', hb, hbs', rfl⟩
    exact ⟨b, hb, bind_eq_ok.mpr ⟨bs', hbs', rfl⟩⟩

/-- All elements have results exactly if each has one. -/
theorem exists_mapM_eq_ok {f : α → Except ε β} {as : List α} :
    (∃ bs, as.mapM f = .ok bs) ↔ ∀ a ∈ as, ∃ b, f a = .ok b := by
  induction as with
  | nil => exact ⟨fun _ a ha => absurd ha List.not_mem_nil, fun _ => ⟨[], rfl⟩⟩
  | cons a as ih =>
      rw [List.forall_mem_cons, ← ih]
      apply Iff.intro
      · rintro ⟨bs, hbs⟩
        obtain ⟨b, bs', hb, hbs', -⟩ := mapM_cons_eq_ok.mp hbs
        exact ⟨⟨b, hb⟩, bs', hbs'⟩
      · rintro ⟨⟨b, hb⟩, bs', hbs'⟩
        exact ⟨b :: bs', mapM_cons_eq_ok.mpr ⟨b, bs', hb, hbs', rfl⟩⟩

theorem length_of_mapM {f : α → Except ε β} {as : List α} {bs : List β}
    (hmap : as.mapM f = .ok bs) : bs.length = as.length := by
  induction as generalizing bs with
  | nil =>
      cases hmap
      rfl
  | cons a as ih =>
      obtain ⟨b, bs', -, hbs', rfl⟩ := mapM_cons_eq_ok.mp hmap
      rw [List.length_cons, List.length_cons, ih hbs']

/-- The result of an element is among the results. -/
theorem mem_of_mapM {f : α → Except ε β} {as : List α} {bs : List β}
    (hmap : as.mapM f = .ok bs) {a : α} (ha : a ∈ as) {b : β} (hb : f a = .ok b) : b ∈ bs := by
  induction as generalizing bs with
  | nil => cases ha
  | cons a' as ih =>
      obtain ⟨b', bs', hb', hbs', rfl⟩ := mapM_cons_eq_ok.mp hmap
      rcases List.mem_cons.mp ha with rfl | hrest
      · obtain rfl := Except.ok.inj (hb.symm.trans hb')
        exact List.mem_cons_self
      · exact List.mem_cons_of_mem _ (ih hbs' hrest)

/-- A result is that of an element. -/
theorem exists_of_mem_mapM {f : α → Except ε β} {as : List α} {bs : List β}
    (hmap : as.mapM f = .ok bs) {b : β} (hb : b ∈ bs) : ∃ a ∈ as, f a = .ok b := by
  induction as generalizing bs with
  | nil =>
      cases hmap
      cases hb
  | cons a as ih =>
      obtain ⟨b', bs', hb', hbs', rfl⟩ := mapM_cons_eq_ok.mp hmap
      rcases List.mem_cons.mp hb with rfl | hrest
      · exact ⟨a, List.mem_cons_self, hb'⟩
      · obtain ⟨a', ha', hresult⟩ := ih hbs' hrest
        exact ⟨a', List.mem_cons_of_mem a ha', hresult⟩

/-! ## Selected results -/

/-- Compute the results of all elements, and keep those that pass a check. -/
def collect (f : α → Except ε β) (keep : β → Bool) (as : List α) : Except ε (List β) :=
  as.foldlM (fun results a => do
    let result ← f a
    pure (if keep result then results ++ [result] else results)) []

variable {f : α → Except ε β} {keep : β → Bool} {as : List α} {out : List β}

theorem foldlM_keep_eq_ok {results : List β} :
    as.foldlM (fun results a => do
      let result ← f a
      pure (if keep result then results ++ [result] else results)) results = .ok out ↔
        ∃ bs, as.mapM f = .ok bs ∧ out = results ++ bs.filter keep := by
  induction as generalizing results with
  | nil =>
      apply Iff.intro
      · intro hnil
        cases hnil
        exact ⟨[], rfl, (List.append_nil _).symm⟩
      · rintro ⟨bs, hbs, rfl⟩
        cases hbs
        exact congrArg Except.ok (List.append_nil results).symm
  | cons a as ih =>
      have hstep : ∀ b bs, (if keep b then results ++ [b] else results) ++ List.filter keep bs =
          results ++ List.filter keep (b :: bs) := by
        intro b bs
        by_cases hkeep : keep b <;> simp [hkeep]
      rw [foldlM_cons_eq_ok]
      apply Iff.intro
      · rintro ⟨results', hfirst, hrest⟩
        obtain ⟨b, hb, hpure⟩ := bind_eq_ok.mp hfirst
        cases hpure
        obtain ⟨bs, hbs, rfl⟩ := ih.mp hrest
        exact ⟨b :: bs, mapM_cons_eq_ok.mpr ⟨b, bs, hb, hbs, rfl⟩, hstep b bs⟩
      · rintro ⟨bs, hmap, rfl⟩
        obtain ⟨b, bs', hb, hbs', rfl⟩ := mapM_cons_eq_ok.mp hmap
        exact ⟨_, bind_eq_ok.mpr ⟨b, hb, rfl⟩, ih.mpr ⟨bs', hbs', (hstep b bs').symm⟩⟩

theorem collect_eq_ok :
    collect f keep as = .ok out ↔ ∃ bs, as.mapM f = .ok bs ∧ out = bs.filter keep := by
  rw [collect, foldlM_keep_eq_ok]
  rfl

/-- What is kept are the results that pass the check. -/
theorem mem_collect (hcollect : collect f keep as = .ok out) {b : β} :
    b ∈ out ↔ keep b = true ∧ ∃ a ∈ as, f a = .ok b := by
  obtain ⟨bs, hmap, rfl⟩ := collect_eq_ok.mp hcollect
  rw [List.mem_filter, and_comm]
  apply and_congr_right
  intro _
  apply Iff.intro
  · exact exists_of_mem_mapM hmap
  · rintro ⟨a, ha, hb⟩
    exact mem_of_mapM hmap ha hb

/-- An error is that of an element. -/
theorem exists_error_of_collect {e : ε} (hcollect : collect f keep as = .error e) :
    ∃ a ∈ as, f a = .error e := by
  suffices hloop : ∀ results, as.foldlM (fun results a => do
      let result ← f a
      pure (if keep result then results ++ [result] else results)) results = .error e →
        ∃ a ∈ as, f a = .error e from hloop [] hcollect
  clear hcollect
  induction as with
  | nil =>
      intro results hnil
      cases hnil
  | cons a as ih =>
      intro results hfold
      rw [List.foldlM_cons] at hfold
      cases hresult : f a with
      | error e' =>
          rw [hresult] at hfold
          cases hfold
          exact ⟨a, List.mem_cons_self, hresult⟩
      | ok b =>
          rw [hresult] at hfold
          obtain ⟨a', ha', herror⟩ := ih _ hfold
          exact ⟨a', List.mem_cons_of_mem a ha', herror⟩

variable {own : α → Bool} {bs : List β}

/-- The results that are kept are those of the selected elements, if they are told apart
in the same way. -/
theorem mapM_filter (hmap : as.mapM f = .ok bs)
    (hsame : ∀ a ∈ as, ∀ b, f a = .ok b → keep b = own a) :
    (as.filter own).mapM f = .ok (bs.filter keep) := by
  induction as generalizing bs with
  | nil =>
      cases hmap
      rfl
  | cons a as ih =>
      obtain ⟨ha, has⟩ := List.forall_mem_cons.mp hsame
      obtain ⟨b, bs', hb, hbs', rfl⟩ := mapM_cons_eq_ok.mp hmap
      have hrest := ih hbs' has
      cases hown : own a with
      | true =>
          rw [List.filter_cons_of_pos hown, List.filter_cons_of_pos ((ha b hb).trans hown)]
          exact mapM_cons_eq_ok.mpr ⟨b, _, hb, hrest, rfl⟩
      | false =>
          have hkeep : keep b = false := (ha b hb).trans hown
          rw [List.filter_cons_of_neg (by simp [hown]), List.filter_cons_of_neg (by simp [hkeep])]
          exact hrest

/-- Where they are the same results, elements and results are told apart in the same way. -/
theorem keep_eq_own (hmap : as.mapM f = .ok bs)
    (hfilter : (as.filter own).mapM f = .ok (bs.filter keep)) :
    ∀ a ∈ as, ∀ b, f a = .ok b → keep b = own a := by
  -- The elements whose results are kept include the selected ones, and are as many.
  let kept : α → Bool := fun a => (f a).toOption.any keep
  have hkept : ∀ a b, f a = .ok b → keep b = kept a := fun a b hb => by
    simp [kept, hb, Except.toOption]
  have hown : ∀ a ∈ as, ∀ b, f a = .ok b → own a = true → keep b = true := by
    intro a ha b hb hselected
    have hmem := mem_of_mapM hfilter (List.mem_filter.mpr ⟨ha, hselected⟩) hb
    exact (List.mem_filter.mp hmem).2
  have hinner : (as.filter kept).filter own = as.filter own := by
    rw [List.filter_filter]
    apply List.filter_congr
    intro a ha
    obtain ⟨b, hb⟩ := exists_mapM_eq_ok.mp ⟨bs, hmap⟩ a ha
    cases hselected : own a with
    | false => rfl
    | true => rw [← hkept a b hb, hown a ha b hb hselected, Bool.and_self]
  have hlength : ((as.filter kept).filter own).length = (as.filter kept).length := by
    rw [hinner, ← length_of_mapM hfilter,
      length_of_mapM (mapM_filter hmap fun a _ b hb => hkept a b hb)]
  intro a ha b hb
  apply Bool.eq_iff_iff.mpr
  apply Iff.intro
  · intro hkeep
    have hmem := List.mem_filter.mpr ⟨ha, (hkept a b hb).symm.trans hkeep⟩
    exact List.length_filter_eq_length_iff.mp hlength a hmem
  · exact hown a ha b hb

/-- **Selection after and before.** To compute all results and keep some is to compute
the results of the selected elements only, exactly if one of these has none, or every
element has a result, which passes the check exactly if the element is selected. -/
theorem collect_iff :
    (∀ out, collect f keep as = .ok out ↔ (as.filter own).mapM f = .ok out) ↔
      (∃ a ∈ as, own a = true ∧ ∀ b, f a ≠ .ok b) ∨
        ∀ a ∈ as, ∃ b, f a = .ok b ∧ keep b = own a := by
  apply Iff.intro
  · intro hsame
    by_cases hnone : ∃ a ∈ as, own a = true ∧ ∀ b, f a ≠ .ok b
    · exact Or.inl hnone
    · have heach : ∀ a ∈ as.filter own, ∃ b, f a = .ok b := by
        intro a ha
        obtain ⟨ha, hselected⟩ := List.mem_filter.mp ha
        by_contra hb
        exact hnone ⟨a, ha, hselected, fun b hok => hb ⟨b, hok⟩⟩
      obtain ⟨out, hout⟩ := exists_mapM_eq_ok.mpr heach
      obtain ⟨bs, hmap, rfl⟩ := collect_eq_ok.mp ((hsame out).mpr hout)
      refine Or.inr fun a ha => ?_
      obtain ⟨b, hb⟩ := exists_mapM_eq_ok.mp ⟨bs, hmap⟩ a ha
      exact ⟨b, hb, keep_eq_own hmap hout a ha b hb⟩
  · rintro (⟨a, ha, hselected, hnone⟩ | hall) out
    · apply Iff.intro
      · intro hcollect
        obtain ⟨bs, hmap, -⟩ := collect_eq_ok.mp hcollect
        obtain ⟨b, hb⟩ := exists_mapM_eq_ok.mp ⟨bs, hmap⟩ a ha
        exact absurd hb (hnone b)
      · intro hfilter
        obtain ⟨b, hb⟩ := exists_mapM_eq_ok.mp ⟨out, hfilter⟩ a
          (List.mem_filter.mpr ⟨ha, hselected⟩)
        exact absurd hb (hnone b)
    · obtain ⟨bs, hmap⟩ := exists_mapM_eq_ok.mpr fun a ha =>
        (hall a ha).imp fun b hb => hb.1
      have hfilter := mapM_filter hmap fun a ha b hb => by
        obtain ⟨b', hb', hkeep⟩ := hall a ha
        obtain rfl := Except.ok.inj (hb.symm.trans hb')
        exact hkeep
      rw [collect_eq_ok, hmap, hfilter]
      apply Iff.intro
      · rintro ⟨bs', hbs', rfl⟩
        obtain rfl := Except.ok.inj hbs'
        rfl
      · intro hout
        exact ⟨bs, rfl, (Except.ok.inj hout).symm⟩

end Fallible
