/-
# Names with a namespace

A name is cut at its last slash. What comes before is the namespace, what comes
after the name of a type, and each is checked by an expression of its own; the
expression for namespaces does not look for a space in the last place. A name
that is accepted is kept as it is, or gets the default namespace if it has no
slash, and what comes out is accepted again.
-/

import KfMetadata.Service.Routes

namespace KfMetadata.Service

open PathTemplate

/-! ## The two expressions -/

/-- The text starts with a letter of the alphabet. -/
def StartsWithLetter (s : String) : Prop := ∃ c cs, s.toList = c :: cs ∧ isLetter c = true

/-- The name of a type: a letter first, neither spaces nor slashes. -/
def IsTypeName (s : String) : Prop := StartsWithLetter s ∧ ' ' ∉ s.toList ∧ '/' ∉ s.toList

/-- A namespace: two characters at least, a letter first, no spaces, no slash at the end. -/
def IsNamespace (s : String) : Prop :=
  2 ≤ s.toList.length ∧ StartsWithLetter s ∧ ' ' ∉ s.toList ∧ s.toList.getLast? ≠ some '/'

/-- What the expression for namespaces accepts: the last character may be a space. -/
def PassesNamespaceRE (s : String) : Prop :=
  ∃ c cs d, s.toList = c :: (cs ++ [d]) ∧ isLetter c = true ∧ ' ' ∉ cs ∧ d ≠ '/'

theorem isLetter_ne {c d : Char} (hc : isLetter c = true) (hd : isLetter d = false) : c ≠ d := by
  intro heq
  rw [heq, hd] at hc
  cases hc

theorem validTypeName_ok_iff {s : String} : validTypeName s = .ok () ↔ IsTypeName s := by
  have hpasses : (validTypeNameRE.submatchHere s.toList).isSome = true ↔ IsTypeName s := by
    rw [Regexp.isSome_submatchHere, validTypeNameRE, Regexp.ways_one_seq_ne_nil]
    simp only [Regexp.ways_many_atEnd_ne_nil]
    apply Iff.intro
    · intro haccepts
      obtain ⟨c, cs, hs, hc, hall⟩ := haccepts
      refine ⟨⟨c, cs, hs, hc⟩, ?_, ?_⟩
      · rw [hs, List.mem_cons, not_or]
        exact ⟨(isLetter_ne hc rfl).symm, fun hspace => by simpa using hall ' ' hspace⟩
      · rw [hs, List.mem_cons, not_or]
        exact ⟨(isLetter_ne hc rfl).symm, fun hslash => by simpa using hall '/' hslash⟩
    · intro hname
      obtain ⟨⟨c, cs, hs, hc⟩, hspace, hslash⟩ := hname
      rw [hs] at hspace hslash
      refine ⟨c, cs, hs, hc, ?_⟩
      intro d hd
      have hne : d ≠ ' ' ∧ d ≠ '/' :=
        ⟨fun heq => hspace (heq ▸ List.mem_cons_of_mem c hd),
          fun heq => hslash (heq ▸ List.mem_cons_of_mem c hd)⟩
      simpa using hne
  rw [← hpasses, validTypeName]
  split
  next haccepts => simp [haccepts]
  next hrejects => simp [hrejects]

theorem validNamespace_ok_iff {s : String} : validNamespace s = .ok () ↔ PassesNamespaceRE s := by
  have hpasses : (validNamespaceRE.submatchHere s.toList).isSome = true ↔ PassesNamespaceRE s := by
    rw [Regexp.isSome_submatchHere, validNamespaceRE, Regexp.ways_one_seq_ne_nil]
    simp only [Regexp.ways_many_seq_ne_nil, Regexp.ways_one_seq_ne_nil,
      Regexp.ways_atEnd_ne_nil]
    apply Iff.intro
    · intro haccepts
      obtain ⟨c, cs, hs, hc, run, rest, rfl, hall, d, tail, rfl, hd, rfl⟩ := haccepts
      refine ⟨c, run, d, hs, hc, ?_, by simpa using hd⟩
      exact fun hspace => by simpa using hall ' ' hspace
    · intro hname
      obtain ⟨c, cs, d, hs, hc, hspace, hd⟩ := hname
      refine ⟨c, cs ++ [d], hs, hc, cs, [d], rfl, ?_, d, [], rfl, by simpa using hd, rfl⟩
      intro e he
      have hne : e ≠ ' ' := fun heq => hspace (heq ▸ he)
      simpa using hne
  rw [← hpasses, validNamespace]
  split
  next haccepts => simp [haccepts]
  next hrejects => simp [hrejects]

/-! ## Cutting a name -/

/-- Both parts have to pass, and they are put together again. -/
theorem getNamespacedName_ok_iff {n name space r : String}
    (hname : (segments n).getLast? = some name)
    (hspace : (if 1 < (segments n).length then join (segments n).dropLast
      else kfDefaultNamespace) = space) :
    getNamespacedName n = .ok r ↔
      PassesNamespaceRE space ∧ IsTypeName name ∧ r = space ++ "/" ++ name := by
  rw [← validNamespace_ok_iff, getNamespacedName, hname]
  simp only [hspace]
  by_cases hempty : name = ""
  · rw [if_pos hempty]
    apply Iff.intro
    · exact nofun
    · intro hparts
      obtain ⟨-, ⟨⟨c, cs, hcs, -⟩, -, -⟩, -⟩ := hparts
      rw [hempty] at hcs
      cases hcs
  · rw [if_neg hempty, ← validTypeName_ok_iff]
    cases validNamespace space with
    | error e => exact ⟨nofun, fun hparts => nomatch hparts.1⟩
    | ok value =>
        cases validTypeName name with
        | error e => exact ⟨nofun, fun hparts => nomatch hparts.2.1⟩
        | ok value' =>
            apply Iff.intro
            · intro hok
              exact ⟨rfl, rfl, (Except.ok.inj hok).symm⟩
            · intro hparts
              rw [hparts.2.2]
              rfl

theorem passesNamespaceRE_default : PassesNamespaceRE kfDefaultNamespace :=
  validNamespace_ok_iff.mp rfl

/-- A name without a slash gets the default namespace. -/
theorem getNamespacedName_bare {n r : String} (hslash : '/' ∉ n.toList) :
    getNamespacedName n = .ok r ↔ IsTypeName n ∧ r = kfDefaultNamespace ++ "/" ++ n := by
  have hsegs := segments_of_notMem hslash
  have hname : (segments n).getLast? = some n := by rw [hsegs, List.getLast?_singleton]
  rw [getNamespacedName_ok_iff hname
    (by rw [hsegs, List.length_singleton, if_neg (Nat.lt_irrefl 1)]),
    and_iff_right passesNamespaceRE_default]

/-- A name with a slash is checked and kept. -/
theorem getNamespacedName_cut {space name r : String} (hslash : '/' ∉ name.toList) :
    getNamespacedName (space ++ "/" ++ name) = .ok r ↔
      PassesNamespaceRE space ∧ IsTypeName name ∧ r = space ++ "/" ++ name := by
  have hsegs : segments (space ++ "/" ++ name) = segments space ++ [name] := by
    rw [segments_append, segments_of_notMem hslash]
  have hmany : 1 < (segments space ++ [name]).length := by
    have hfront := List.length_pos_iff.mpr (segments_ne_nil space)
    rw [List.length_append, List.length_singleton]
    omega
  apply getNamespacedName_ok_iff
  · rw [hsegs, List.getLast?_concat]
  · rw [hsegs, if_pos hmany, List.dropLast_concat, join_segments]

/-! ## Names that are accepted -/

/-- The name of a type, after a namespace and a slash or alone. -/
def WellFormedName (n : String) : Prop :=
  IsTypeName n ∨ ∃ space name, n = space ++ "/" ++ name ∧ IsNamespace space ∧ IsTypeName name

/-- The only space of the namespace is its last character. -/
def SpaceEndsNamespace (n : String) : Prop :=
  ∃ front name, n = front ++ " " ++ "/" ++ name ∧ StartsWithLetter front ∧
    ' ' ∉ front.toList ∧ IsTypeName name

/-- A text that the expression accepts is a namespace, unless it ends in a space. -/
theorem PassesNamespaceRE.cases {s : String} (hpasses : PassesNamespaceRE s) :
    IsNamespace s ∨ ∃ front, s = front ++ " " ∧ StartsWithLetter front ∧ ' ' ∉ front.toList := by
  obtain ⟨c, cs, d, hs, hc, hspace, hd⟩ := hpasses
  have hfirst : ' ' ∉ c :: cs := by
    rw [List.mem_cons, not_or]
    exact ⟨(isLetter_ne hc rfl).symm, hspace⟩
  by_cases hlast : d = ' '
  · apply Or.inr
    refine ⟨String.ofList (c :: cs), ?_, ⟨c, cs, String.toList_ofList, hc⟩, by simpa using hfirst⟩
    apply String.toList_injective
    rw [hs, hlast, String.toList_append, String.toList_ofList, List.cons_append]
    rfl
  · apply Or.inl
    refine ⟨?_, ⟨c, _, hs, hc⟩, ?_, ?_⟩
    · rw [hs, List.length_cons, List.length_append, List.length_singleton]
      omega
    · rw [hs, ← List.cons_append, List.mem_append, List.mem_singleton, not_or]
      exact ⟨hfirst, Ne.symm hlast⟩
    · rw [hs, ← List.cons_append, List.getLast?_concat]
      exact fun heq => hd (Option.some.inj heq)

theorem IsNamespace.passes {s : String} (hnamespace : IsNamespace s) : PassesNamespaceRE s := by
  obtain ⟨hlength, ⟨c, tail, hs, hc⟩, hspace, hlast⟩ := hnamespace
  rw [hs] at hlength hspace hlast
  have htail : tail ≠ [] := by
    intro hnil
    rw [hnil] at hlength
    simp at hlength
  obtain ⟨cs, d, rfl⟩ := (List.eq_nil_or_concat tail).resolve_left htail
  rw [List.concat_eq_append] at hs hspace hlast
  refine ⟨c, cs, d, hs, hc, ?_, ?_⟩
  · exact fun hmem => hspace (List.mem_cons_of_mem c (List.mem_append_left [d] hmem))
  · intro heq
    rw [← List.cons_append, List.getLast?_concat, heq] at hlast
    exact hlast rfl

theorem passesNamespaceRE_space {front : String} (hletter : StartsWithLetter front)
    (hspace : ' ' ∉ front.toList) : PassesNamespaceRE (front ++ " ") := by
  obtain ⟨c, cs, hfront, hc⟩ := hletter
  rw [hfront] at hspace
  refine ⟨c, cs, ' ', ?_, hc, fun hmem => hspace (List.mem_cons_of_mem c hmem), by decide⟩
  rw [String.toList_append, hfront, List.cons_append]
  rfl

/-- What the expression accepts besides namespaces ends in its only space. -/
theorem passesNamespaceRE_iff {s : String} : PassesNamespaceRE s ↔
    IsNamespace s ∨ ∃ front, s = front ++ " " ∧ StartsWithLetter front ∧ ' ' ∉ front.toList := by
  apply Iff.intro
  · exact PassesNamespaceRE.cases
  · intro hforms
    cases hforms with
    | inl hnamespace => exact hnamespace.passes
    | inr hends =>
        obtain ⟨front, rfl, hletter, hspace⟩ := hends
        exact passesNamespaceRE_space hletter hspace

theorem IsTypeName.slash_notMem {s : String} (hname : IsTypeName s) : '/' ∉ s.toList := hname.2.2

/-- The names that are accepted: the last character of a namespace is not looked at. -/
theorem exists_getNamespacedName_iff {n : String} :
    (∃ r, getNamespacedName n = .ok r) ↔ WellFormedName n ∨ SpaceEndsNamespace n := by
  apply Iff.intro
  · intro haccepted
    obtain ⟨r, hok⟩ := haccepted
    by_cases hslash : '/' ∈ n.toList
    · obtain ⟨space, name, rfl, hlast⟩ := exists_last_slash hslash
      obtain ⟨hspace, hname, -⟩ := (getNamespacedName_cut hlast).mp hok
      cases passesNamespaceRE_iff.mp hspace with
      | inl hnamespace => exact Or.inl (Or.inr ⟨space, name, rfl, hnamespace, hname⟩)
      | inr hends =>
          obtain ⟨front, rfl, hletter, hfront⟩ := hends
          exact Or.inr ⟨front, name, rfl, hletter, hfront, hname⟩
    · exact Or.inl (Or.inl ((getNamespacedName_bare hslash).mp hok).1)
  · intro hforms
    rcases hforms with (hbare | ⟨space, name, rfl, hspace, hname⟩) |
      ⟨front, name, rfl, hletter, hfront, hname⟩
    · exact ⟨_, (getNamespacedName_bare hbare.slash_notMem).mpr ⟨hbare, rfl⟩⟩
    · have hpasses := passesNamespaceRE_iff.mpr (Or.inl hspace)
      exact ⟨_, (getNamespacedName_cut hname.slash_notMem).mpr ⟨hpasses, hname, rfl⟩⟩
    · have hpasses := passesNamespaceRE_iff.mpr (Or.inr ⟨front, rfl, hletter, hfront⟩)
      exact ⟨_, (getNamespacedName_cut hname.slash_notMem).mpr ⟨hpasses, hname, rfl⟩⟩

theorem WellFormedName.space_notMem {n : String} (hform : WellFormedName n) : ' ' ∉ n.toList := by
  cases hform with
  | inl hname => exact hname.2.1
  | inr hcut =>
      obtain ⟨space, name, rfl, ⟨-, -, hspace, -⟩, hname⟩ := hcut
      rw [String.toList_append, String.toList_append, List.mem_append, List.mem_append]
      rintro ((hmem | hmem) | hmem)
      · exact hspace hmem
      · cases List.mem_singleton.mp hmem
      · exact hname.2.1 hmem

theorem SpaceEndsNamespace.space_mem {n : String} (hends : SpaceEndsNamespace n) :
    ' ' ∈ n.toList := by
  obtain ⟨front, name, rfl, -⟩ := hends
  simp

/-- **Accepted names.** Exactly the well-formed names are accepted, and no name with a
space, if and only if the name does not put its only space at the end of its namespace. -/
theorem accepts_wellFormed_iff (n : String) :
    (((∃ r, getNamespacedName n = .ok r) ↔ WellFormedName n) ∧
      ((∃ r, getNamespacedName n = .ok r) → ' ' ∉ n.toList)) ↔ ¬ SpaceEndsNamespace n := by
  rw [exists_getNamespacedName_iff]
  apply Iff.intro
  · intro hclaim hends
    exact hclaim.2 (Or.inr hends) hends.space_mem
  · intro hnot
    rw [or_iff_left hnot]
    exact ⟨Iff.rfl, WellFormedName.space_notMem⟩

/-- `ab /Model` is accepted, with its space. -/
theorem space_accepted : ¬ ∀ n : String,
    ((∃ r, getNamespacedName n = .ok r) ↔ WellFormedName n) ∧
      ((∃ r, getNamespacedName n = .ok r) → ' ' ∉ n.toList) := by
  intro hclaim
  have haccepted : ∃ r, getNamespacedName "ab /Model" = .ok r := ⟨"ab /Model", rfl⟩
  exact (hclaim "ab /Model").2 haccepted (by decide)

/-! ## The normal form -/

/-- What comes out is the name itself, or the name in the default namespace. -/
theorem getNamespacedName_eq {n r : String} (hok : getNamespacedName n = .ok r) :
    r = if '/' ∈ n.toList then n else kfDefaultNamespace ++ "/" ++ n := by
  by_cases hslash : '/' ∈ n.toList
  · obtain ⟨space, name, rfl, hlast⟩ := exists_last_slash hslash
    rw [if_pos hslash]
    exact ((getNamespacedName_cut hlast).mp hok).2.2
  · rw [if_neg hslash]
    exact ((getNamespacedName_bare hslash).mp hok).2

/-- What comes out is accepted as it is. -/
theorem getNamespacedName_idem {n r : String} (hok : getNamespacedName n = .ok r) :
    getNamespacedName r = .ok r := by
  by_cases hslash : '/' ∈ n.toList
  · have hsame := getNamespacedName_eq hok
    rw [if_pos hslash] at hsame
    rw [hsame] at hok ⊢
    exact hok
  · obtain ⟨hname, rfl⟩ := (getNamespacedName_bare hslash).mp hok
    exact (getNamespacedName_cut hslash).mpr ⟨passesNamespaceRE_default, hname, rfl⟩

/-- Two names come out the same only if they are, or if one is the other in the default
namespace. -/
theorem getNamespacedName_collision {n n' r : String} (hok : getNamespacedName n = .ok r)
    (hok' : getNamespacedName n' = .ok r) :
    n = n' ∨ n = kfDefaultNamespace ++ "/" ++ n' ∨ n' = kfDefaultNamespace ++ "/" ++ n := by
  have heq := getNamespacedName_eq hok
  have heq' := getNamespacedName_eq hok'
  by_cases hslash : '/' ∈ n.toList
  · by_cases hslash' : '/' ∈ n'.toList
    · rw [if_pos hslash] at heq
      rw [if_pos hslash'] at heq'
      exact Or.inl (heq.symm.trans heq')
    · rw [if_pos hslash] at heq
      rw [if_neg hslash'] at heq'
      exact Or.inr (Or.inl (heq.symm.trans heq'))
  · by_cases hslash' : '/' ∈ n'.toList
    · rw [if_neg hslash] at heq
      rw [if_pos hslash'] at heq'
      exact Or.inr (Or.inr (heq'.symm.trans heq))
    · rw [if_neg hslash] at heq
      rw [if_neg hslash'] at heq'
      exact Or.inl (last_slash_inj hslash hslash' (heq.symm.trans heq')).2

/-- **Normal form.** A name with a slash is kept and another one gets the default namespace;
the result is its own normal form, and no other names have the same one. -/
theorem namespacedName_normal {n r : String} (hok : getNamespacedName n = .ok r) :
    r = (if '/' ∈ n.toList then n else "types.kubeflow.org/default/" ++ n) ∧
      getNamespacedName r = .ok r ∧
      ∀ n', getNamespacedName n' = .ok r → n = n' ∨
        n = "types.kubeflow.org/default/" ++ n' ∨ n' = "types.kubeflow.org/default/" ++ n := by
  have hdefault : kfDefaultNamespace ++ "/" = "types.kubeflow.org/default/" := rfl
  rw [← hdefault]
  exact ⟨getNamespacedName_eq hok, getNamespacedName_idem hok,
    fun n' hok' => getNamespacedName_collision hok hok'⟩

/-- The normal form of a bare name. -/
theorem namespacedName_normal_model :
    getNamespacedName "types.kubeflow.org/default/Model" =
      .ok "types.kubeflow.org/default/Model" ∧
    ∀ n', getNamespacedName n' = .ok "types.kubeflow.org/default/Model" → "Model" = n' ∨
      "Model" = "types.kubeflow.org/default/" ++ n' ∨
      n' = "types.kubeflow.org/default/" ++ "Model" := by
  have hok : getNamespacedName "Model" = .ok "types.kubeflow.org/default/Model" := rfl
  exact (namespacedName_normal hok).2

end KfMetadata.Service
