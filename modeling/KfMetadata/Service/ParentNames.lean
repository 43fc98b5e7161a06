/-
# Parents and atomicity

Creating a record is atomic if the name that is built from its parent can be read back. The
parser takes the first line of this name on which a name starts. If that is a line before the
last line of the parent, then the number there is read, and not the new id. Otherwise the new
id is read if the last line of the parent has the types collection in it somewhere, and no
id if it has not.
-/

import KfMetadata.Service.Atomicity
import KfMetadata.Service.NameGrammar

namespace KfMetadata.Service

open Mlmd Remote Remote.Program

/-- No name starts before the last line of a parent, and that one has the types collection
in it. -/
structure NamesNew (r : Resource) (parent : List Char) : Prop where
  front : ∀ l ∈ (lines parent).dropLast, ¬ HasName r l
  last : ∃ l, (lines parent).getLast? = some l ∧ r.typesCollection.toList <:+: l

variable {r : Resource} {p : List Char → Prop} {line digits parent : List Char}

/-! ## One line -/

theorem slash_separator (r : Resource) : r.separator.toList.head? = some '/' := by
  cases r <;> decide

/-- A separator and a digit stand no later than a last separator before digits. -/
theorem length_le_of_startsNumber {before rest : List Char}
    (hdigits : ∀ c ∈ digits, c.isDigit = true)
    (hsplit : line ++ (r.separator.toList ++ digits) = before ++ rest)
    (hnumber : StartsNumber r rest) : before.length ≤ line.length := by
  obtain ⟨c, cs, rfl, -⟩ := hnumber
  by_contra hlonger
  have hprefix : line <+: before := List.prefix_of_prefix_length_le
    ⟨r.separator.toList ++ digits, hsplit⟩ (List.prefix_append before _) (by omega)
  obtain ⟨more, rfl⟩ := hprefix
  rw [List.append_assoc, List.append_cancel_left_eq] at hsplit
  have hmore : more ≠ [] := by
    rintro rfl
    simp at hlonger
  exact separator_not_later (slash_separator r) hdigits hmore hsplit

/-- On a line that ends with a separator and digits, a name starts where the types collection
does. -/
theorem startsName_append_iff (hne : digits ≠ []) (hdigits : ∀ c ∈ digits, c.isDigit = true)
    (hline : '\n' ∉ line) :
    StartsName r (line ++ (r.separator.toList ++ digits)) ↔ r.typesCollection.toList <+: line := by
  apply Iff.intro
  · rintro ⟨run, rest, hsplit, -, hnumber⟩
    rw [← List.append_assoc r.typesCollection.toList] at hsplit
    have hlength := length_le_of_startsNumber hdigits hsplit hnumber
    rw [List.length_append] at hlength
    exact List.prefix_of_prefix_length_le ⟨run ++ rest, by rw [hsplit, List.append_assoc]⟩
      (List.prefix_append line _) (by omega)
  · rintro ⟨run, rfl⟩
    obtain ⟨c, cs, rfl⟩ := List.exists_cons_of_ne_nil hne
    exact ⟨run, r.separator.toList ++ c :: cs, by rw [List.append_assoc],
      fun hmem => hline (List.mem_append_right _ hmem), c, cs, rfl, hdigits c List.mem_cons_self⟩

/-- Its digits are those at the end of the line. -/
theorem startsWith_append_iff (hne : digits ≠ []) (hdigits : ∀ c ∈ digits, c.isDigit = true)
    (hline : '\n' ∉ line) :
    StartsWith r p (line ++ (r.separator.toList ++ digits)) ↔
      r.typesCollection.toList <+: line ∧ p digits := by
  have hall : digitsOf digits = digits := List.takeWhile_eq_self_iff.mpr hdigits
  obtain ⟨c, cs, hcons⟩ := List.exists_cons_of_ne_nil hne
  have hnumber : StartsNumber r (r.separator.toList ++ digits) :=
    ⟨c, cs, by rw [hcons], hdigits c (by simp [hcons])⟩
  apply Iff.intro
  · intro hstarts
    have hlead := (startsName_append_iff hne hdigits hline).mp hstarts.startsName
    refine ⟨hlead, ?_⟩
    obtain ⟨run, tail, hsplit, htail, -, hlast, hp⟩ := hstarts
    rw [← List.append_assoc r.typesCollection.toList] at hsplit
    have hlength := length_le_of_startsNumber hdigits hsplit htail
    -- Nothing stands between the separator that was found and the last one.
    obtain ⟨between, rfl⟩ : r.typesCollection.toList ++ run <+: line :=
      List.prefix_of_prefix_length_le ⟨_, hsplit.symm⟩ (List.prefix_append line _) hlength
    rw [List.append_assoc (r.typesCollection.toList ++ run), List.append_cancel_left_eq] at hsplit
    have hnone : between = [] := by
      by_contra hbetween
      exact hlast between _ hbetween hsplit.symm
        (fun hmem => hline (List.mem_append_right _ hmem)) hnumber
    rw [hnone, List.nil_append, List.append_cancel_left_eq] at hsplit
    rwa [← hsplit, hall] at hp
  · rintro ⟨⟨run, rfl⟩, hp⟩
    refine ⟨run, digits, by rw [List.append_assoc], hnumber,
      fun hmem => hline (List.mem_append_right _ hmem), ?_, by rwa [hall]⟩
    intro pre suf hpre hsplit _ hlater
    obtain ⟨d, ds, rfl, -⟩ := hlater
    exact separator_not_later (slash_separator r) hdigits hpre hsplit

theorem typesCollection_ne_nil (r : Resource) : r.typesCollection.toList ≠ [] := by
  cases r <;> decide

/-- The name on such a line has the digits at its end, if the types collection is on it. -/
theorem foundWith_append_iff (hne : digits ≠ []) (hdigits : ∀ c ∈ digits, c.isDigit = true)
    (hline : '\n' ∉ line) :
    FoundWith r p (line ++ (r.separator.toList ++ digits)) ↔
      r.typesCollection.toList <:+: line ∧ p digits := by
  induction line with
  | nil =>
      have hnone : ¬ r.typesCollection.toList <:+: [] := fun hinfix =>
        typesCollection_ne_nil r (List.infix_nil.mp hinfix)
      apply iff_of_false _ fun hboth => hnone hboth.1
      intro hfound
      obtain ⟨before, _, hsplit, run, rest, rfl, -, hnumber⟩ := hfound.hasName
      have hfront : [] ++ (r.separator.toList ++ digits) =
          before ++ r.typesCollection.toList ++ run ++ rest := by
        simp only [hsplit, List.append_assoc]
      have hlength := length_le_of_startsNumber hdigits hfront hnumber
      rw [List.length_nil, Nat.le_zero, List.length_eq_zero_iff, List.append_eq_nil_iff,
        List.append_eq_nil_iff] at hlength
      exact typesCollection_ne_nil r hlength.1.2
  | cons c line ih =>
      have hrest : '\n' ∉ line := fun hmem => hline (List.mem_cons_of_mem c hmem)
      rw [List.cons_append, foundWith_cons, ← List.cons_append,
        startsWith_append_iff hne hdigits hline, startsName_append_iff hne hdigits hline,
        ih hrest, List.infix_cons_iff]
      by_cases hhere : r.typesCollection.toList <+: c :: line
      · simp [hhere]
      · simp [hhere]

/-! ## Several lines -/

theorem namesNew_single (hline : '\n' ∉ parent) :
    NamesNew r parent ↔ r.typesCollection.toList <:+: parent := by
  apply Iff.intro
  · rintro ⟨-, l, hl, hinfix⟩
    rw [lines_single hline] at hl
    obtain rfl : parent = l := Option.some.inj hl
    exact hinfix
  · intro hinfix
    apply NamesNew.mk
    · rw [lines_single hline]
      exact fun _ hmem => absurd hmem List.not_mem_nil
    · exact ⟨parent, by rw [lines_single hline]; rfl, hinfix⟩

theorem lines_ne_nil (text : List Char) : lines text ≠ [] := List.splitOn_ne_nil '\n' text

theorem namesNew_cons {rest : List Char} (hline : '\n' ∉ line) :
    NamesNew r (line ++ '\n' :: rest) ↔ ¬ HasName r line ∧ NamesNew r rest := by
  have hdrop : (lines (line ++ '\n' :: rest)).dropLast = line :: (lines rest).dropLast := by
    rw [lines_cons hline, List.dropLast_cons_of_ne_nil (lines_ne_nil rest)]
  have hlast : (lines (line ++ '\n' :: rest)).getLast? = (lines rest).getLast? := by
    rw [lines_cons hline, List.getLast?_cons_of_ne_nil (lines_ne_nil rest)]
  apply Iff.intro
  · rintro ⟨hfront, hinfix⟩
    rw [hdrop] at hfront
    rw [hlast] at hinfix
    exact ⟨hfront line List.mem_cons_self, fun l hl => hfront l (List.mem_cons_of_mem line hl),
      hinfix⟩
  · rintro ⟨hnot, hfront, hinfix⟩
    apply NamesNew.mk
    · rw [hdrop]
      exact List.forall_mem_cons.mpr ⟨hnot, hfront⟩
    · rwa [hlast]

/-- **Names under a parent.** What is found in a name that is built from a parent is found
before the last line of the parent, or it has the digits at the end of the name. -/
theorem foundWith_parent_iff (hne : digits ≠ []) (hdigits : ∀ c ∈ digits, c.isDigit = true) :
    FoundWith r p (parent ++ (r.separator.toList ++ digits)) ↔
      (∃ l, FirstNamed r (lines parent).dropLast l ∧ FoundWith r p l) ∨
        NamesNew r parent ∧ p digits := by
  induction hlength : parent.length using Nat.strong_induction_on generalizing parent with
  | _ length ih =>
    by_cases hnewline : '\n' ∈ parent
    · obtain ⟨line, rest, rfl, hline⟩ := List.eq_append_cons_of_mem hnewline
      have hrest := ih rest.length (by simp [← hlength]; omega) rfl
      rw [List.append_assoc, List.cons_append, foundWith_line, hrest, namesNew_cons hline,
        lines_cons hline, List.dropLast_cons_of_ne_nil (lines_ne_nil rest)]
      simp only [firstNamed_cons]
      apply Iff.intro
      · rintro (hfound | ⟨hnone, ⟨l, hl, hfound⟩ | ⟨hnew, hp⟩⟩)
        · exact Or.inl ⟨line, Or.inl ⟨rfl, hfound.hasName⟩, hfound⟩
        · exact Or.inl ⟨l, Or.inr ⟨hnone, hl⟩, hfound⟩
        · exact Or.inr ⟨⟨hnone, hnew⟩, hp⟩
      · rintro (⟨l, ⟨rfl, -⟩ | ⟨hnone, hl⟩, hfound⟩ | ⟨⟨hnone, hnew⟩, hp⟩)
        · exact Or.inl hfound
        · exact Or.inr ⟨hnone, Or.inl ⟨l, hl, hfound⟩⟩
        · exact Or.inr ⟨hnone, Or.inr ⟨hnew, hp⟩⟩
    · rw [foundWith_append_iff hne hdigits hnewline, namesNew_single hnewline,
        lines_single hnewline]
      exact (or_iff_right fun hsome => not_firstNamed_nil hsome.choose_spec.1).symm

/-! ## Parents -/

/-- **Reading back under a parent.** The id that is read is that of a name before the last line
of the parent, or the new one. -/
theorem parseInstanceName_parent_iff {parent : String} {id found : Int} (hid : IsId id) :
    parseInstanceName r (instanceName r parent id) = .ok found ↔
      (∃ l, FirstNamed r (lines parent.toList).dropLast l ∧ FoundWith r (ReadAs found) l) ∨
        NamesNew r parent.toList ∧ found = id := by
  have htext : (instanceName r parent id).toList =
      parent.toList ++ (r.separator.toList ++ (toString id).toList) := by
    simp only [instanceName, String.toList_append, List.append_assoc]
  have hchars : (toString id).toList = Nat.toDigits 10 id.toNat := by
    obtain ⟨n, rfl⟩ := Int.eq_ofNat_of_zero_le hid.1.le
    exact Text.toList_toString_natCast n
  have hread : ReadAs found (toString id).toList ↔ found = id := by
    rw [ReadAs, String.ofList_toList, Text.parseInt64_toString hid.1.le hid.2, Except.ok.injEq,
      eq_comm]
  rw [parseInstanceName_eq_ok_iff, htext, foundWith_parent_iff, hread]
  · rw [hchars]
    exact Nat.toDigits_ne_nil
  · rw [hchars]
    exact fun c hc => Nat.isDigit_of_mem_toDigits (by decide) (by decide) hc

section Atomic

variable {E : Effect api Store} {s : Store} {name : String} {item : Item r.kind}

/-- **Which parents are atomic.** Creating a record that can be stored under a parent is atomic
if and only if the name built from the parent names the new record, or the number that is read
from it is that of a stored record anyway. -/
theorem itemAtomicWhen_iff (hE : Lawful E) :
    ItemAtomicWhen E s r name (some item) ↔ item.id.isSome ∨ NamesNew r name.toList ∨
      ∀ type, s.findType r.kind (Text.trimPrefix name r.typesCollection) = some type →
        ∀ id t, E (.putItems r.kind [typedItem type item]) s (.ok [id]) t →
          ∃ l found, FirstNamed r (lines name.toList).dropLast l ∧
            FoundWith r (ReadAs found) l ∧ (found = id ∨ (s.findItem r.kind found).isSome) := by
  rw [ItemAtomicWhen]
  apply or_congr_right'
  intro hnot
  have hnew : item.id = none := by simpa using hnot
  have hids : ∀ {type id t}, E (.putItems r.kind [typedItem type item]) s (.ok [id]) t →
      IsId id := by
    intro type id t hput
    obtain ⟨id', hsame, hid, -⟩ := (putItems_singleton (x := typedItem type item) hnew).mp
      (hE.accepted (.putItems r.kind _) s t [id] hput)
    rwa [List.singleton_inj.mp hsame]
  by_cases hnames : NamesNew r name.toList
  · apply iff_of_true _ (Or.inl hnames)
    intro type _ id t hput
    exact ⟨id, (parseInstanceName_parent_iff (hids hput)).mpr (Or.inr ⟨hnames, rfl⟩), Or.inl rfl⟩
  · rw [or_iff_right hnames]
    refine forall_congr' fun type => forall_congr' fun _ => forall_congr' fun id =>
      forall_congr' fun t => forall_congr' fun hput => ?_
    simp only [parseInstanceName_parent_iff (hids hput), hnames, false_and, or_false]
    apply Iff.intro
    · rintro ⟨found, ⟨l, hl, hfound⟩, hstored⟩
      exact ⟨l, found, hl, hfound, hstored⟩
    · rintro ⟨l, found, hl, hfound, hstored⟩
      exact ⟨found, ⟨l, hl, hfound⟩, hstored⟩

/-- A parent on one line needs the types collection in it, unless the record cannot be
stored under it. -/
theorem itemAtomicWhen_line (hE : Lawful E) (hline : '\n' ∉ name.toList) :
    ItemAtomicWhen E s r name (some item) ↔
      item.id.isSome ∨ r.typesCollection.toList <:+: name.toList ∨
        ∀ type, s.findType r.kind (Text.trimPrefix name r.typesCollection) = some type →
          ∀ id t, ¬ E (.putItems r.kind [typedItem type item]) s (.ok [id]) t := by
  rw [itemAtomicWhen_iff hE, namesNew_single hline, lines_single hline]
  simp only [List.dropLast_singleton, not_firstNamed_nil, false_and, exists_false]

-- The bare name of a type is read back under no id, also where the type is found under it.
example : NamesNew .artifact "artifact_types/A".toList ∧ ¬ NamesNew .artifact "A".toList := by
  rw [namesNew_single (by decide), namesNew_single (by decide)]
  decide

end Atomic

end KfMetadata.Service
