/-
# Leftmost-first regular expressions

A backtracking matcher tries the alternatives of an expression in a fixed order
of preference and reports the first that succeeds; a search tries the start
positions from left to right. `ways` lists the successes at one position in
order of preference, so the reported match is its head, and `search` moves the
start. Repetition is restricted to a greedy run of single characters, which is
what lets the matcher recurse on the text alone.

The main rule is about a greedy run that must be followed by something: the
preferred match is the one of the longest admissible run, whatever shorter runs
would also have worked.
-/

import Mathlib.Data.List.Basic

/-- Expressions over single characters, without alternation. -/
inductive Regexp
  /-- Exactly this text. -/
  | lit (text : List Char)
  /-- One character of a class. -/
  | one (accepts : Char → Bool)
  /-- A greedy run, possibly empty, of characters of a class. -/
  | many (accepts : Char → Bool)
  /-- One expression after another. -/
  | seq (first second : Regexp)
  /-- A capturing group. -/
  | group (body : Regexp)
  /-- The end of the text. -/
  | atEnd

namespace Regexp

/-- A success: the text captured by each group, and the text left over. -/
structure Way where
  groups : List (List Char)
  rest : List Char
  deriving DecidableEq, Repr

/-- What is left after each admissible run, the longest run first. -/
def runs (accepts : Char → Bool) : List Char → List (List Char)
  | [] => [[]]
  | c :: cs => if accepts c then runs accepts cs ++ [c :: cs] else [c :: cs]

/-- All successes at the start of the text, the preferred one first. -/
def ways : Regexp → List Char → List Way
  | .lit text, s => ((text.isPrefixOf? s).map fun rest => ⟨[], rest⟩).toList
  | .one _, [] => []
  | .one accepts, c :: cs => if accepts c then [⟨[], cs⟩] else []
  | .many accepts, s => (runs accepts s).map fun rest => ⟨[], rest⟩
  | .seq first second, s =>
      (first.ways s).flatMap fun w =>
        (second.ways w.rest).map fun v => ⟨w.groups ++ v.groups, v.rest⟩
  | .group body, s =>
      (body.ways s).map fun w => ⟨s.take (s.length - w.rest.length) :: w.groups, w.rest⟩
  | .atEnd, [] => [⟨[], []⟩]
  | .atEnd, _ :: _ => []

/-- The preferred match at the start of the text: the whole matched text followed
by the text of each group, or nothing. -/
def submatchHere (r : Regexp) (s : List Char) : Option (List (List Char)) :=
  (r.ways s).head?.map fun w => s.take (s.length - w.rest.length) :: w.groups

/-- The preferred match at the leftmost position that has one. -/
def submatch (r : Regexp) : List Char → Option (List (List Char))
  | [] => r.submatchHere []
  | c :: cs =>
      match r.submatchHere (c :: cs) with
      | some tokens => some tokens
      | none => r.submatch cs

/-- A match that starts where the text does is the one a search reports. -/
theorem submatch_of_here {r : Regexp} {s : List Char} {tokens : List (List Char)}
    (hhere : r.submatchHere s = some tokens) : r.submatch s = some tokens := by
  cases s with
  | nil => exact hhere
  | cons c cs => simp only [submatch, hhere]

/-! ## Literals and classes -/

theorem ways_lit_append (text rest : List Char) :
    (lit text).ways (text ++ rest) = [⟨[], rest⟩] := by
  have hprefix : text.isPrefixOf? (text ++ rest) = some rest :=
    List.isPrefixOf?_eq_some_iff_append_eq.mpr rfl
  simp only [ways, hprefix, Option.map_some, Option.toList_some]

theorem ways_lit_eq_nil {text s : List Char} (hne : ∀ rest, text ++ rest ≠ s) :
    (lit text).ways s = [] := by
  have hprefix : text.isPrefixOf? s = none := by
    cases hp : text.isPrefixOf? s with
    | none => rfl
    | some rest => exact absurd (List.isPrefixOf?_eq_some_iff_append_eq.mp hp) (hne rest)
  simp only [ways, hprefix, Option.map_none, Option.toList_none]

/-- The longest run comes first. -/
theorem runs_of_all {accepts : Char → Bool} {run : List Char}
    (hall : ∀ c ∈ run, accepts c = true) : (runs accepts run).head? = some [] := by
  induction run with
  | nil => rfl
  | cons c cs ih =>
      have hc : accepts c = true := hall c List.mem_cons_self
      have hcs := ih fun d hd => hall d (List.mem_cons_of_mem c hd)
      simp only [runs, hc, if_true, List.head?_append, hcs, Option.some_or]

/-! ## Sequences -/

theorem ways_seq_eq_nil {first second : Regexp} {s : List Char}
    (hnil : first.ways s = []) : (seq first second).ways s = [] := by
  simp only [ways, hnil, List.flatMap_nil]

/-- A first part with a single success hands its rest to the second part. -/
theorem ways_seq_of_single {first second : Regexp} {s rest : List Char}
    (hfirst : first.ways s = [⟨[], rest⟩]) :
    (seq first second).ways s = second.ways rest := by
  simp only [ways, hfirst, List.flatMap_cons, List.flatMap_nil, List.nil_append,
    List.append_nil]
  exact List.map_id' _

theorem ways_many_seq (accepts : Char → Bool) (next : Regexp) (s : List Char) :
    (seq (many accepts) next).ways s = (runs accepts s).flatMap next.ways := by
  simp only [ways, List.flatMap_map, List.nil_append]
  congr 1
  funext rest
  exact List.map_id' _

/-- What is left after a run is what a run of the class can be cut off from. -/
theorem mem_runs {accepts : Char → Bool} {s rest : List Char} :
    rest ∈ runs accepts s ↔ ∃ run, s = run ++ rest ∧ ∀ c ∈ run, accepts c = true := by
  induction s with
  | nil =>
      apply Iff.intro
      · intro hrest
        exact ⟨[], (List.mem_singleton.mp hrest).symm, by simp⟩
      · intro hrun
        obtain ⟨run, heq, -⟩ := hrun
        exact List.mem_singleton.mpr (List.append_eq_nil_iff.mp heq.symm).2
  | cons c cs ih =>
      have hcut : (∃ run, c :: cs = run ++ rest ∧ ∀ d ∈ run, accepts d = true) ↔
          c :: cs = rest ∨ accepts c = true ∧ rest ∈ runs accepts cs := by
        rw [ih]
        apply Iff.intro
        · intro hrun
          obtain ⟨run, heq, hall⟩ := hrun
          cases run with
          | nil => exact Or.inl heq
          | cons d run =>
              obtain ⟨rfl, hcs⟩ := List.cons.inj heq
              exact Or.inr ⟨hall c List.mem_cons_self, run, hcs,
                fun d hd => hall d (List.mem_cons_of_mem c hd)⟩
        · intro hrun
          cases hrun with
          | inl heq => exact ⟨[], heq, by simp⟩
          | inr hmore =>
              obtain ⟨hc, run, hcs, hall⟩ := hmore
              exact ⟨c :: run, by rw [hcs, List.cons_append],
                List.forall_mem_cons.mpr ⟨hc, hall⟩⟩
      rw [hcut, runs]
      split
      next hc =>
        rw [List.mem_append, List.mem_singleton, or_comm, eq_comm, and_iff_right hc]
      next hc =>
        rw [List.mem_singleton, eq_comm]
        exact (or_iff_left fun h => hc h.1).symm

/-- A run followed by `next` fails if `next` fails after every run of the class. -/
theorem ways_many_seq_eq_nil {accepts : Char → Bool} {next : Regexp} {s : List Char} :
    (seq (many accepts) next).ways s = [] ↔
      ∀ run rest, s = run ++ rest → (∀ c ∈ run, accepts c = true) → next.ways rest = [] := by
  rw [ways_many_seq, List.flatMap_eq_nil_iff]
  apply Iff.intro
  · intro hnil run rest heq hall
    exact hnil rest (mem_runs.mpr ⟨run, heq, hall⟩)
  · intro hnil rest hrest
    obtain ⟨run, heq, hall⟩ := mem_runs.mp hrest
    exact hnil run rest heq hall

/-- The first character is in the run, or the run is empty. -/
theorem longestRun_cons_iff {accepts : Char → Bool} {next : Regexp} {c : Char} {cs : List Char}
    {w : Way} :
    (∃ run rest, c :: cs = run ++ rest ∧ (∀ d ∈ run, accepts d = true) ∧
      (next.ways rest).head? = some w ∧
        ∀ pre suf, pre ≠ [] → rest = pre ++ suf → (∀ d ∈ pre, accepts d = true) →
          next.ways suf = []) ↔
      (accepts c = true ∧ ∃ run rest, cs = run ++ rest ∧ (∀ d ∈ run, accepts d = true) ∧
        (next.ways rest).head? = some w ∧
          ∀ pre suf, pre ≠ [] → rest = pre ++ suf → (∀ d ∈ pre, accepts d = true) →
            next.ways suf = []) ∨
      ((next.ways (c :: cs)).head? = some w ∧
        (accepts c = true → (seq (many accepts) next).ways cs = [])) := by
  apply Iff.intro
  · intro hrun
    obtain ⟨run, rest, heq, hall, hhead, hlast⟩ := hrun
    cases run with
    | nil =>
        obtain rfl : c :: cs = rest := heq
        apply Or.inr
        apply And.intro hhead
        intro hc
        apply ways_many_seq_eq_nil.mpr
        intro pre suf hcs hpre
        exact hlast (c :: pre) suf (List.cons_ne_nil c pre) (by rw [hcs, List.cons_append])
          (List.forall_mem_cons.mpr ⟨hc, hpre⟩)
    | cons d run =>
        obtain ⟨rfl, hcs⟩ := List.cons.inj heq
        obtain ⟨hc, hrun⟩ := List.forall_mem_cons.mp hall
        exact Or.inl ⟨hc, run, rest, hcs, hrun, hhead, hlast⟩
  · intro hcut
    cases hcut with
    | inl hmore =>
        obtain ⟨hc, run, rest, hcs, hall, hrest⟩ := hmore
        exact ⟨c :: run, rest, by rw [hcs, List.cons_append],
          List.forall_mem_cons.mpr ⟨hc, hall⟩, hrest⟩
    | inr hempty =>
        obtain ⟨hhead, hnil⟩ := hempty
        refine ⟨[], c :: cs, rfl, by simp, hhead, ?_⟩
        intro pre suf hpre heq hall
        cases pre with
        | nil => exact absurd rfl hpre
        | cons d pre =>
            obtain ⟨rfl, hcs⟩ := List.cons.inj heq
            obtain ⟨hc, hrun⟩ := List.forall_mem_cons.mp hall
            exact ways_many_seq_eq_nil.mp (hnil hc) pre suf hcs hrun

/-- **Greed.** A run followed by `next` prefers the longest run after which `next`
succeeds, even when `next` also succeeds after shorter runs. -/
theorem head?_ways_many_seq_iff {accepts : Char → Bool} {next : Regexp} {s : List Char}
    {w : Way} :
    ((seq (many accepts) next).ways s).head? = some w ↔
      ∃ run rest, s = run ++ rest ∧ (∀ c ∈ run, accepts c = true) ∧
        (next.ways rest).head? = some w ∧
          ∀ pre suf, pre ≠ [] → rest = pre ++ suf → (∀ c ∈ pre, accepts c = true) →
            next.ways suf = [] := by
  induction s with
  | nil =>
      rw [ways_many_seq]
      apply Iff.intro
      · intro hhead
        refine ⟨[], [], rfl, by simp, by simpa [runs] using hhead, ?_⟩
        exact fun pre suf hpre heq => absurd (List.append_eq_nil_iff.mp heq.symm).1 hpre
      · intro hrun
        obtain ⟨run, rest, heq, -, hhead, -⟩ := hrun
        obtain ⟨rfl, rfl⟩ := List.append_eq_nil_iff.mp heq.symm
        simpa [runs] using hhead
  | cons c cs ih =>
      rw [longestRun_cons_iff, ← ih, ways_many_seq, runs]
      by_cases hc : accepts c = true
      · rw [if_pos hc, List.flatMap_append, ← ways_many_seq, List.head?_append,
          List.flatMap_singleton, Option.or_eq_some_iff, List.head?_eq_none_iff,
          and_iff_right hc, and_comm (a := _ = []), forall_prop_of_true hc]
      · rw [if_neg hc, List.flatMap_singleton]
        apply Iff.intro
        · exact fun hhead => Or.inr ⟨hhead, fun haccepted => absurd haccepted hc⟩
        · exact fun hcut => hcut.elim (fun hmore => absurd hmore.1 hc) And.left
/-- If `next` succeeds after a run, and fails after everything longer, the preferred
success is that one. -/
theorem head?_ways_many_seq {accepts : Char → Bool} {next : Regexp} {run rest : List Char}
    {w : Way} (hall : ∀ c ∈ run, accepts c = true)
    (hnext : (next.ways rest).head? = some w)
    (hlonger : ∀ pre suf, pre ≠ [] → rest = pre ++ suf → next.ways suf = []) :
    ((seq (many accepts) next).ways (run ++ rest)).head? = some w :=
  head?_ways_many_seq_iff.mpr ⟨run, rest, rfl, hall, hnext,
    fun pre suf hpre heq _ => hlonger pre suf hpre heq⟩

/-! ## Groups -/

/-- A group that can consume the whole text, and prefers to, captures it. -/
theorem head?_ways_group {body : Regexp} {s : List Char}
    (hbody : (body.ways s).head? = some ⟨[], []⟩) :
    ((group body).ways s).head? = some ⟨[s], []⟩ := by
  simp only [ways, List.head?_map, hbody, Option.map_some, List.length_nil, Nat.sub_zero,
    List.take_length]

/-- A nonempty text of one class is consumed whole by `one` followed by `many`. -/
theorem head?_ways_plus {accepts : Char → Bool} {s : List Char} (hne : s ≠ [])
    (hall : ∀ c ∈ s, accepts c = true) :
    ((seq (one accepts) (many accepts)).ways s).head? = some ⟨[], []⟩ := by
  cases s with
  | nil => exact absurd rfl hne
  | cons c cs =>
      have hc : accepts c = true := hall c List.mem_cons_self
      have hcs := runs_of_all fun d hd => hall d (List.mem_cons_of_mem c hd)
      have hone : (one accepts).ways (c :: cs) = [⟨[], cs⟩] := by simp only [ways, hc, if_true]
      rw [ways_seq_of_single hone]
      simp only [ways, List.head?_map, hcs, Option.map_some]

theorem head?_runs (accepts : Char → Bool) (s : List Char) :
    (runs accepts s).head? = some (s.dropWhile accepts) := by
  induction s with
  | nil => rfl
  | cons c cs ih =>
      rw [runs, List.dropWhile_cons]
      split
      next => rw [List.head?_append, ih, Option.some_or]
      next => rfl

/-- A captured run of at least one character takes all characters of its class. -/
theorem head?_ways_group_plus {accepts : Char → Bool} {c : Char} {cs : List Char}
    (hc : accepts c = true) :
    ((group (seq (one accepts) (many accepts))).ways (c :: cs)).head? =
      some ⟨[(c :: cs).takeWhile accepts], (c :: cs).dropWhile accepts⟩ := by
  have hone : (one accepts).ways (c :: cs) = [⟨[], cs⟩] := by simp only [ways, hc, if_true]
  have hplus : ((seq (one accepts) (many accepts)).ways (c :: cs)).head? =
      some ⟨[], (c :: cs).dropWhile accepts⟩ := by
    rw [ways_seq_of_single hone, List.dropWhile_cons_of_pos hc]
    simp only [ways, List.head?_map, head?_runs, Option.map_some]
  have htake : (c :: cs).take ((c :: cs).length - ((c :: cs).dropWhile accepts).length) =
      (c :: cs).takeWhile accepts := by
    have hsplit := List.takeWhile_append_dropWhile (p := accepts) (l := c :: cs)
    have hlength := congrArg List.length hsplit
    rw [List.length_append] at hlength
    have hcount : (c :: cs).length - ((c :: cs).dropWhile accepts).length =
        ((c :: cs).takeWhile accepts).length := by omega
    rw [hcount]
    exact (List.prefix_iff_eq_take.mp ⟨_, hsplit⟩).symm
  rw [ways, List.head?_map, hplus, Option.map_some, htake]

/-- Such a run needs a character of the class in front. -/
theorem ways_group_plus_eq_nil {accepts : Char → Bool} {s : List Char} :
    (group (seq (one accepts) (many accepts))).ways s = [] ↔
      ∀ c cs, s = c :: cs → accepts c = false := by
  cases s with
  | nil => simp [ways]
  | cons c cs =>
      cases hc : accepts c with
      | false => simp [ways, hc]
      | true =>
          apply Iff.intro
          · intro hnil
            have hhead := congrArg List.head? hnil
            rw [head?_ways_group_plus hc] at hhead
            cases hhead
          · intro hall
            exact absurd (hall c cs rfl) (by simp [hc])

/-! ## What a search reports

A search is determined by what it prefers: the leftmost start, and from there the
longest run. -/

theorem submatchHere_eq_none {r : Regexp} {s : List Char} :
    r.submatchHere s = none ↔ r.ways s = [] := by
  rw [submatchHere, Option.map_eq_none_iff, List.head?_eq_none_iff]

/-- A search reports the preferred match at the first position that has one. -/
theorem submatch_eq_some_iff {r : Regexp} {s : List Char} {tokens : List (List Char)} :
    r.submatch s = some tokens ↔ ∃ before rest, s = before ++ rest ∧
      r.submatchHere rest = some tokens ∧
      ∀ early late, before = early ++ late → late ≠ [] → r.ways (late ++ rest) = [] := by
  apply Iff.intro
  · intro hmatch
    induction s with
    | nil => exact ⟨[], [], rfl, hmatch, fun early late heq hlate =>
        absurd (List.append_eq_nil_iff.mp heq.symm).2 hlate⟩
    | cons c cs ih =>
        cases hhere : r.submatchHere (c :: cs) with
        | some found =>
            simp only [submatch, hhere] at hmatch
            exact ⟨[], c :: cs, rfl, hhere.trans hmatch, fun early late heq hlate =>
              absurd (List.append_eq_nil_iff.mp heq.symm).2 hlate⟩
        | none =>
            simp only [submatch, hhere] at hmatch
            obtain ⟨before, rest, rfl, hrest, hfirst⟩ := ih hmatch
            refine ⟨c :: before, rest, rfl, hrest, ?_⟩
            intro early late heq hlate
            cases early with
            | nil =>
                obtain rfl : c :: before = late := heq
                exact submatchHere_eq_none.mp hhere
            | cons e early => exact hfirst early late (List.cons.inj heq).2 hlate
  · intro hfound
    obtain ⟨before, rest, rfl, hrest, hfirst⟩ := hfound
    induction before with
    | nil => exact submatch_of_here hrest
    | cons c before ih =>
        have hhere : r.submatchHere (c :: (before ++ rest)) = none :=
          submatchHere_eq_none.mpr (hfirst [] (c :: before) rfl (by simp))
        rw [List.cons_append, submatch, hhere]
        apply ih
        intro early late heq hlate
        exact hfirst (c :: early) late (by rw [heq, List.cons_append]) hlate

/-! ## What an expression accepts

Whether there is a match at all does not depend on the order of preference. -/

theorem isSome_submatchHere {r : Regexp} {s : List Char} :
    (r.submatchHere s).isSome = true ↔ r.ways s ≠ [] := by
  rw [← Option.ne_none_iff_isSome]
  exact not_congr submatchHere_eq_none

theorem ways_one_seq_ne_nil {accepts : Char → Bool} {next : Regexp} {s : List Char} :
    (seq (one accepts) next).ways s ≠ [] ↔
      ∃ c cs, s = c :: cs ∧ accepts c = true ∧ next.ways cs ≠ [] := by
  cases s with
  | nil => simp [ways]
  | cons c cs =>
      cases hc : accepts c with
      | false => simp [ways, hc]
      | true =>
          have hone : (one accepts).ways (c :: cs) = [⟨[], cs⟩] := by simp only [ways, hc, if_true]
          simp [ways_seq_of_single hone, hc]

theorem ways_many_seq_ne_nil {accepts : Char → Bool} {next : Regexp} {s : List Char} :
    (seq (many accepts) next).ways s ≠ [] ↔
      ∃ run rest, s = run ++ rest ∧ (∀ c ∈ run, accepts c = true) ∧ next.ways rest ≠ [] := by
  rw [Ne, ways_many_seq_eq_nil]
  simp only [not_forall, exists_prop, ne_eq]

theorem ways_atEnd_ne_nil {s : List Char} : atEnd.ways s ≠ [] ↔ s = [] := by
  cases s with
  | nil => simp [ways]
  | cons c cs => simp [ways]

/-- A run up to the end is a text of one class. -/
theorem ways_many_atEnd_ne_nil {accepts : Char → Bool} {s : List Char} :
    (seq (many accepts) atEnd).ways s ≠ [] ↔ ∀ c ∈ s, accepts c = true := by
  rw [ways_many_seq_ne_nil]
  apply Iff.intro
  · intro hrun
    obtain ⟨run, rest, rfl, hall, hrest⟩ := hrun
    rwa [ways_atEnd_ne_nil.mp hrest, List.append_nil]
  · intro hall
    exact ⟨s, [], (List.append_nil s).symm, hall, ways_atEnd_ne_nil.mpr rfl⟩

end Regexp
