/-
# What the name parsers accept

A parser of resource names searches for its pattern anywhere in a text, strips a
collection that need not be there, and leaves the sign of a number to the number
parser. So it accepts more than the names it is for, and less: the type in a name
may be empty and text may stand before and after it, an event list may be named by
a bare or a signed number, and the type of an instance may not span lines.

The pattern finds a name where its types collection first stands in front of a
separator with a digit on the same line, and reads the number after the last such
separator of the line. In a text of several lines the first one with such a name decides.
-/

import KfMetadata.Service.Handlers
import Mathlib.Data.List.TakeWhile

namespace KfMetadata.Service

open Mlmd Remote

/-! ## The grammar -/

/-- `{types collection}{type}{separator}{id}`, with a type that is not empty. -/
def InstanceName (r : Resource) (s : String) : Prop :=
  ∃ typeName id, s = r.typesCollection ++ typeName ++ r.separator ++ id ∧ typeName ≠ "" ∧
    Text.Numeral id

/-- `{collection}{id}` -/
def ListName (collection s : String) : Prop := ∃ id, s = collection ++ id ∧ Text.Numeral id

/-! ## What the pattern finds -/

/-- The text starts with a separator and a digit. -/
def StartsNumber (r : Resource) (text : List Char) : Prop :=
  ∃ c cs, text = r.separator.toList ++ c :: cs ∧ c.isDigit = true

/-- The text starts with a types collection, and the line goes on to a separator and a
digit. -/
def StartsName (r : Resource) (text : List Char) : Prop :=
  ∃ run rest, text = r.typesCollection.toList ++ (run ++ rest) ∧ '\n' ∉ run ∧
    StartsNumber r rest

/-- In the text, the pattern finds a name after `before`: a types collection, `run`, a
separator and the digits in front of `tail`. -/
structure Finds (r : Resource) (text before run tail : List Char) : Prop where
  split : text =
    before ++ (r.typesCollection.toList ++ (run ++ (r.separator.toList ++ tail)))
  number : StartsNumber r (r.separator.toList ++ tail)
  line : '\n' ∉ run
  /-- No name starts earlier. -/
  first : ∀ early late, before = early ++ late → late ≠ [] →
    ¬ StartsName r (late ++ (r.typesCollection.toList ++ (run ++ (r.separator.toList ++ tail))))
  /-- No separator with a digit follows on the line. -/
  last : ∀ pre suf, pre ≠ [] → r.separator.toList ++ tail = pre ++ suf → '\n' ∉ pre →
    ¬ StartsNumber r suf

/-- The digits that are read from the number in front of a text. -/
def digitsOf (tail : List Char) : List Char := tail.takeWhile Char.isDigit

/-- The number in front of a text is below `2 ^ 63`. -/
def InRange (tail : List Char) : Prop := Text.decimal (String.ofList (digitsOf tail)) < 2 ^ 63

variable {r : Resource}

theorem isAny_iff {c : Char} : isAny c = true ↔ c ≠ '\n' := by simp [isAny]

theorem all_isAny_iff {run : List Char} : (∀ c ∈ run, isAny c = true) ↔ '\n' ∉ run := by
  simp only [isAny_iff]
  exact ⟨fun hall hmem => hall '\n' hmem rfl, fun hline c hc heq => hline (heq ▸ hc)⟩

/-- The end of a pattern: a separator and a captured number. -/
def numberRE (r : Resource) : Regexp := .seq (.lit r.separator.toList) digitsGroup

theorem Resource.nameRE_seq (r : Resource) : r.nameRE =
    .seq (.lit r.typesCollection.toList) (.seq (.many isAny) (numberRE r)) := by
  rw [r.nameRE_eq]
  rfl

theorem ways_numberRE_append (tail : List Char) :
    (numberRE r).ways (r.separator.toList ++ tail) = digitsGroup.ways tail :=
  Regexp.ways_seq_of_single (Regexp.ways_lit_append _ _)

theorem ways_numberRE_eq_nil {text : List Char} :
    (numberRE r).ways text = [] ↔ ¬ StartsNumber r text := by
  by_cases hsep : ∃ tail, r.separator.toList ++ tail = text
  · obtain ⟨tail, rfl⟩ := hsep
    rw [ways_numberRE_append, digitsGroup, Regexp.ways_group_plus_eq_nil]
    apply Iff.intro
    · intro hnone hstart
      obtain ⟨c, cs, heq, hc⟩ := hstart
      have hnot := hnone c cs (List.append_cancel_left heq)
      exact absurd hc (by simp [hnot])
    · intro hnot c cs htail
      subst htail
      exact Bool.eq_false_iff.mpr fun hc => hnot ⟨c, cs, rfl, hc⟩
  · apply Iff.intro
    · intro _ hstart
      obtain ⟨c, cs, heq, -⟩ := hstart
      exact hsep ⟨c :: cs, heq.symm⟩
    · intro _
      exact Regexp.ways_seq_eq_nil (Regexp.ways_lit_eq_nil fun rest heq => hsep ⟨rest, heq⟩)

theorem ways_nameRE_append (rest : List Char) :
    r.nameRE.ways (r.typesCollection.toList ++ rest) =
      (Regexp.seq (.many isAny) (numberRE r)).ways rest := by
  rw [r.nameRE_seq]
  exact Regexp.ways_seq_of_single (Regexp.ways_lit_append _ _)

theorem ways_nameRE_eq_nil {text : List Char} :
    r.nameRE.ways text = [] ↔ ¬ StartsName r text := by
  by_cases htypes : ∃ rest, r.typesCollection.toList ++ rest = text
  · obtain ⟨rest, rfl⟩ := htypes
    rw [ways_nameRE_append, Regexp.ways_many_seq_eq_nil]
    apply Iff.intro
    · intro hnone hstart
      obtain ⟨run, more, heq, hline, hnumber⟩ := hstart
      exact ways_numberRE_eq_nil.mp
        (hnone run more (List.append_cancel_left heq) (all_isAny_iff.mpr hline)) hnumber
    · intro hnot run more heq hall
      subst heq
      exact ways_numberRE_eq_nil.mpr fun hnumber =>
        hnot ⟨run, more, rfl, all_isAny_iff.mp hall, hnumber⟩
  · apply Iff.intro
    · intro _ hstart
      obtain ⟨run, more, heq, -⟩ := hstart
      exact htypes ⟨run ++ more, heq.symm⟩
    · intro _
      rw [r.nameRE_seq]
      exact Regexp.ways_seq_eq_nil (Regexp.ways_lit_eq_nil fun rest heq => htypes ⟨rest, heq⟩)

/-- The preferred success of the pattern at a place where a name starts. -/
theorem head?_ways_nameRE {text : List Char} {w : Regexp.Way} :
    (r.nameRE.ways text).head? = some w ↔
      ∃ run tail, text = r.typesCollection.toList ++ (run ++ (r.separator.toList ++ tail)) ∧
        '\n' ∉ run ∧ StartsNumber r (r.separator.toList ++ tail) ∧
        (∀ pre suf, pre ≠ [] → r.separator.toList ++ tail = pre ++ suf → '\n' ∉ pre →
          ¬ StartsNumber r suf) ∧
        w = ⟨[digitsOf tail], tail.dropWhile Char.isDigit⟩ := by
  have hnumber : ∀ {rest : List Char} {c : Char} {cs : List Char}, c.isDigit = true →
      rest = r.separator.toList ++ c :: cs → ((numberRE r).ways rest).head? =
        some ⟨[digitsOf (c :: cs)], (c :: cs).dropWhile Char.isDigit⟩ := by
    intro rest c cs hc heq
    rw [heq, ways_numberRE_append, digitsGroup]
    exact Regexp.head?_ways_group_plus hc
  apply Iff.intro
  · intro hhead
    have hstart : StartsName r text := by
      by_contra hnot
      rw [ways_nameRE_eq_nil.mpr hnot] at hhead
      cases hhead
    obtain ⟨_, _, rfl, -, -⟩ := hstart
    rw [ways_nameRE_append, Regexp.head?_ways_many_seq_iff] at hhead
    obtain ⟨run, rest, heq, hall, hrest, hlast⟩ := hhead
    have hdigit : StartsNumber r rest := by
      by_contra hnot
      rw [ways_numberRE_eq_nil.mpr hnot] at hrest
      cases hrest
    obtain ⟨c, cs, rfl, hc⟩ := hdigit
    refine ⟨run, c :: cs, by rw [heq], all_isAny_iff.mp hall, ⟨c, cs, rfl, hc⟩, ?_, ?_⟩
    · intro pre suf hpre hsplit hline
      exact ways_numberRE_eq_nil.mp (hlast pre suf hpre hsplit (all_isAny_iff.mpr hline))
    · exact (Option.some.inj ((hnumber hc rfl).symm.trans hrest)).symm
  · intro hfound
    obtain ⟨run, tail, rfl, hline, ⟨c, cs, htail, hc⟩, hlast, rfl⟩ := hfound
    obtain rfl : tail = c :: cs := List.append_cancel_left htail
    rw [ways_nameRE_append]
    apply Regexp.head?_ways_many_seq_iff.mpr
    refine ⟨run, _, rfl, all_isAny_iff.mpr hline, hnumber hc rfl, ?_⟩
    intro pre suf hpre hsplit hall
    exact ways_numberRE_eq_nil.mpr (hlast pre suf hpre hsplit (all_isAny_iff.mp hall))

/-- The name that is found, up to the end of its number. -/
def foundName (r : Resource) (run tail : List Char) : List Char :=
  r.typesCollection.toList ++ (run ++ (r.separator.toList ++ digitsOf tail))

/-- **The pattern finds exactly these names.** -/
theorem submatch_iff {text : List Char} {tokens : List (List Char)} :
    r.nameRE.submatch text = some tokens ↔ ∃ before run tail,
      Finds r text before run tail ∧ tokens = [foundName r run tail, digitsOf tail] := by
  have htoken : ∀ run tail : List Char,
      (r.typesCollection.toList ++ (run ++ (r.separator.toList ++ tail))).take
        ((r.typesCollection.toList ++ (run ++ (r.separator.toList ++ tail))).length -
          (tail.dropWhile Char.isDigit).length) = foundName r run tail := by
    intro run tail
    have hsplit : foundName r run tail ++ tail.dropWhile Char.isDigit =
        r.typesCollection.toList ++ (run ++ (r.separator.toList ++ tail)) := by
      simp only [foundName, digitsOf, List.append_assoc, List.takeWhile_append_dropWhile]
    rw [← hsplit, List.length_append, Nat.add_sub_cancel, List.take_left]
  rw [Regexp.submatch_eq_some_iff]
  apply Iff.intro
  · intro hmatch
    obtain ⟨before, rest, rfl, hhere, hfirst⟩ := hmatch
    obtain ⟨w, hw, rfl⟩ := Option.map_eq_some_iff.mp hhere
    obtain ⟨run, tail, rfl, hline, hnumber, hlast, rfl⟩ := head?_ways_nameRE.mp hw
    refine ⟨before, run, tail, ⟨rfl, hnumber, hline, ?_, hlast⟩, by rw [htoken]⟩
    exact fun early late heq hlate => ways_nameRE_eq_nil.mp (hfirst early late heq hlate)
  · intro hfound
    obtain ⟨before, run, tail, hfinds, rfl⟩ := hfound
    refine ⟨before, _, hfinds.split, ?_, ?_⟩
    · rw [Regexp.submatchHere, head?_ways_nameRE.mpr
        ⟨run, tail, rfl, hfinds.line, hfinds.number, hfinds.last, rfl⟩, Option.map_some, htoken]
    · exact fun early late heq hlate =>
        ways_nameRE_eq_nil.mpr (hfinds.first early late heq hlate)

theorem Finds.digits {text before run tail : List Char} (hfinds : Finds r text before run tail) :
    Text.Digits (String.ofList (digitsOf tail)) := by
  obtain ⟨c, cs, heq, hc⟩ := hfinds.number
  obtain rfl : tail = c :: cs := List.append_cancel_left heq
  rw [Text.Digits, String.toList_ofList]
  apply And.intro
  · simp [digitsOf, hc]
  · exact fun d hd => List.mem_takeWhile_imp hd

/-- In the text, the pattern finds a name with such digits. -/
def FoundWith (r : Resource) (p : List Char → Prop) (text : List Char) : Prop :=
  ∃ before run tail, Finds r text before run tail ∧ p (digitsOf tail)

/-- In the text, the pattern finds a name whose number is in range. -/
def Found (r : Resource) (text : List Char) : Prop :=
  ∃ before run tail, Finds r text before run tail ∧ InRange tail

/-- The digits are read as an id. -/
def ReadAs (id : Int) (digits : List Char) : Prop :=
  Text.parseInt64 (String.ofList digits) = .ok id

/-- The id that is parsed is the number in the name that the pattern finds. -/
theorem parseInstanceName_eq_ok_iff {s : String} {id : Int} :
    parseInstanceName r s = .ok id ↔ FoundWith r (ReadAs id) s.toList := by
  apply Iff.intro
  · intro hid
    unfold parseInstanceName at hid
    split at hid
    next found digits hmatch =>
      obtain ⟨before, run, tail, hfinds, htokens⟩ := submatch_iff.mp hmatch
      obtain rfl : digits = digitsOf tail := (List.cons.inj (List.cons.inj htokens).2).1
      refine ⟨before, run, tail, hfinds, ?_⟩
      split at hid
      next n hparse =>
        obtain rfl := Except.ok.inj hid
        exact hparse
      next => cases hid
    next => cases hid
  · rintro ⟨before, run, tail, hfinds, hparse⟩
    rw [parseInstanceName, submatch_iff.mpr ⟨before, run, tail, hfinds, rfl⟩]
    simp only [show Text.parseInt64 (String.ofList (digitsOf tail)) = .ok id from hparse]

/-- A name gets past the parser if the pattern finds a name in it with a number in
range, wherever it stands. -/
theorem parseInstanceName_ok_iff {s : String} :
    (∃ id, parseInstanceName r s = .ok id) ↔ Found r s.toList := by
  simp only [parseInstanceName_eq_ok_iff]
  apply Iff.intro
  · rintro ⟨id, before, run, tail, hfinds, hparse⟩
    refine ⟨before, run, tail, hfinds, ?_⟩
    rcases Text.parseInt64_ok_iff.mp ⟨id, hparse⟩ with hplain | hsigned
    · exact hplain.2
    · exact absurd hsigned hfinds.digits.not_signed
  · rintro ⟨before, run, tail, hfinds, hrange⟩
    obtain ⟨id, hparse⟩ := Text.parseInt64_ok_iff.mpr (Or.inl ⟨hfinds.digits, hrange⟩)
    exact ⟨id, before, run, tail, hfinds, hparse⟩

/-! ## Which names reach the store -/

/-- A text is parsed as an instance name as the grammar says: it gets to the lookup of a
record if and only if it is one, and is rejected with an error otherwise. -/
structure StoredParsedExactly (r : Resource) (s : String) : Prop where
  reaches : (∃ id, (getStored r s).run.firstCall = some (.getItemsByID r.kind [id])) ↔
    InstanceName r s
  rejected : ¬ InstanceName r s → ∃ e, (getStored r s).run = pure (.error e)

/-- A text is parsed as the name of an event list as the grammar says: it gets to the
lookup of the events of an artifact or an execution if and only if it names that list,
and is rejected with an error otherwise. -/
structure EventsParsedExactly (s : String) : Prop where
  artifacts : (∃ id, (listEvents s).run.firstCall = some (.getEventsByArtifactIDs [id])) ↔
    ListName artifactCollection s
  executions : (∃ id, (listEvents s).run.firstCall = some (.getEventsByExecutionIDs [id])) ↔
    ListName executionCollection s
  rejected : ¬ ListName artifactCollection s → ¬ ListName executionCollection s →
    ∃ e, (listEvents s).run = pure (.error e)

/-- A text gets to the lookup of a record if its number parses, and is rejected with an
error otherwise. -/
theorem getStored_firstCall (r : Resource) (s : String) :
    ((∃ id, (getStored r s).run.firstCall = some (.getItemsByID r.kind [id])) ↔
      ∃ id, parseInstanceName r s = .ok id) ∧
    ((¬ ∃ id, parseInstanceName r s = .ok id) → ∃ e, (getStored r s).run = pure (.error e)) := by
  rw [getStored]
  cases hparse : parseInstanceName r s with
  | ok id =>
      apply And.intro
      · exact ⟨fun _ => ⟨id, rfl⟩, fun _ => ⟨id, rfl⟩⟩
      · exact fun hnot => absurd ⟨id, rfl⟩ hnot
  | error e =>
      apply And.intro
      · apply Iff.intro
        · intro hcall
          obtain ⟨id, hid⟩ := hcall
          cases hid
        · intro hok
          obtain ⟨id, hid⟩ := hok
          cases hid
      · exact fun _ => ⟨e, rfl⟩

/-! ## Event lists -/

/-- The collection that a name of an event list is taken to start with. -/
def eventsCollection (s : String) : String :=
  if Text.hasPrefix s artifactCollection then artifactCollection else executionCollection

/-- The lookup that a name of an event list leads to. -/
def eventsLookup (s : String) (id : Int) : Call :=
  if Text.hasPrefix s artifactCollection then .getEventsByArtifactIDs [id]
  else .getEventsByExecutionIDs [id]

/-- What is parsed as the number in a name of an event list. -/
def eventsNumber (s : String) : String := Text.trimPrefix s (eventsCollection s)

/-- Code that parses a number and looks events up under it starts with that lookup, or
ends in an error. -/
theorem firstCall_numbered (s lead : String) (lookup : Int → Call)
    (events : ∀ id, (lookup id).Result → List Event) (rest : List Event → Handler EventList) :
    (∀ op, (ofResult (parseEventsName s lead) >>= (fun id =>
        eventsOrNone (lookup id) (events id)) >>= rest).run.firstCall = some op ↔
      ∃ id, Text.parseInt64 (Text.trimPrefix s lead) = .ok id ∧ op = lookup id) ∧
    ((¬ ∃ id, Text.parseInt64 (Text.trimPrefix s lead) = .ok id) →
      ∃ e, (ofResult (parseEventsName s lead) >>= (fun id =>
        eventsOrNone (lookup id) (events id)) >>= rest).run = pure (.error e)) := by
  rw [parseEventsName]
  cases hparse : Text.parseInt64 (Text.trimPrefix s lead) with
  | ok id =>
      apply And.intro
      · intro op
        apply Iff.intro
        · exact fun hcall => ⟨id, rfl, (Option.some.inj hcall).symm⟩
        · intro hop
          obtain ⟨found, hid, rfl⟩ := hop
          cases hid
          rfl
      · exact fun hnot => absurd ⟨id, rfl⟩ hnot
  | error reason =>
      apply And.intro
      · intro op
        apply Iff.intro
        · intro hcall
          cases hcall
        · intro hop
          obtain ⟨id, hid, -⟩ := hop
          cases hid
      · exact fun _ => ⟨_, rfl⟩

/-- A name of an event list gets to its lookup if its number parses, and is rejected with
an error otherwise. -/
theorem listEvents_firstCall (s : String) :
    (∀ op, (listEvents s).run.firstCall = some op ↔
      ∃ id, Text.parseInt64 (eventsNumber s) = .ok id ∧ op = eventsLookup s id) ∧
    ((¬ ∃ id, Text.parseInt64 (eventsNumber s) = .ok id) →
      ∃ e, (listEvents s).run = pure (.error e)) := by
  rw [listEvents, namedEvents, eventsNumber, eventsCollection]
  simp only [eventsLookup]
  split
  next => exact firstCall_numbered s artifactCollection _ _ _
  next => exact firstCall_numbered s executionCollection _ _ _

/-! ## Line by line -/

/-- The text starts with a name, and it has such digits. -/
def StartsWith (r : Resource) (p : List Char → Prop) (text : List Char) : Prop :=
  ∃ run tail, text = r.typesCollection.toList ++ (run ++ (r.separator.toList ++ tail)) ∧
    StartsNumber r (r.separator.toList ++ tail) ∧ '\n' ∉ run ∧
    (∀ pre suf, pre ≠ [] → r.separator.toList ++ tail = pre ++ suf → '\n' ∉ pre →
      ¬ StartsNumber r suf) ∧
    p (digitsOf tail)

/-- A name starts somewhere in the text. -/
def HasName (r : Resource) (text : List Char) : Prop :=
  ∃ before rest, text = before ++ rest ∧ StartsName r rest

def lines (text : List Char) : List (List Char) := text.splitOn '\n'

/-- The first of some lines on which a name starts. -/
def FirstNamed (r : Resource) (ls : List (List Char)) (line : List Char) : Prop :=
  ∃ earlier later, ls = earlier ++ line :: later ∧ (∀ l ∈ earlier, ¬ HasName r l) ∧
    HasName r line

/-- The first line of a text on which a name starts. -/
def NameLine (r : Resource) (text line : List Char) : Prop := FirstNamed r (lines text) line

section Lines

variable {p : List Char → Prop} {text line rest : List Char}

theorem newline_not_mem_typesCollection (r : Resource) : '\n' ∉ r.typesCollection.toList := by
  cases r <;> decide

theorem newline_not_mem_separator (r : Resource) : '\n' ∉ r.separator.toList := by
  cases r <;> decide

/-- What starts a text and has no newline stands on its first line. -/
theorem prefix_line {start : List Char} (hstart : '\n' ∉ start) :
    start <+: line ++ '\n' :: rest ↔ start <+: line := by
  apply Iff.intro
  · intro hprefix
    rcases List.prefix_or_prefix_of_prefix hprefix (List.prefix_append line ('\n' :: rest)) with
      hshort | ⟨more, rfl⟩
    · exact hshort
    · cases more with
      | nil => exact (List.append_nil line).symm ▸ List.prefix_refl line
      | cons c more =>
          have hmore := (List.prefix_append_right_inj line).mp hprefix
          obtain ⟨rfl, -⟩ := List.cons_prefix_cons.mp hmore
          exact absurd (List.mem_append_right line List.mem_cons_self) hstart
  · exact fun hprefix => hprefix.trans (List.prefix_append line _)

theorem startsNumber_iff : StartsNumber r text ↔
    ∃ c, c.isDigit = true ∧ r.separator.toList ++ [c] <+: text := by
  apply Iff.intro
  · rintro ⟨c, cs, rfl, hc⟩
    exact ⟨c, hc, cs, by simp⟩
  · rintro ⟨c, hc, cs, rfl⟩
    exact ⟨c, cs, by simp, hc⟩

theorem newline_not_mem_number {c : Char} (hc : c.isDigit = true) :
    '\n' ∉ r.separator.toList ++ [c] := by
  intro hmem
  rcases List.mem_append.mp hmem with hsep | hdigit
  · exact newline_not_mem_separator r hsep
  · rw [← List.mem_singleton.mp hdigit] at hc
    cases hc

theorem startsNumber_line : StartsNumber r (line ++ '\n' :: rest) ↔ StartsNumber r line := by
  rw [startsNumber_iff, startsNumber_iff]
  apply exists_congr
  intro c
  apply and_congr_right
  exact fun hc => prefix_line (newline_not_mem_number hc)

theorem startsName_iff : StartsName r text ↔ ∃ run c, '\n' ∉ run ∧ c.isDigit = true ∧
    r.typesCollection.toList ++ (run ++ (r.separator.toList ++ [c])) <+: text := by
  apply Iff.intro
  · rintro ⟨run, _, rfl, hrun, hnumber⟩
    obtain ⟨c, hc, hprefix⟩ := startsNumber_iff.mp hnumber
    refine ⟨run, c, hrun, hc, ?_⟩
    rwa [List.prefix_append_right_inj, List.prefix_append_right_inj]
  · rintro ⟨run, c, hrun, hc, more, rfl⟩
    exact ⟨run, r.separator.toList ++ c :: more, by simp, hrun, c, more, rfl, hc⟩

theorem newline_not_mem_name {run : List Char} (hrun : '\n' ∉ run) {c : Char}
    (hc : c.isDigit = true) :
    '\n' ∉ r.typesCollection.toList ++ (run ++ (r.separator.toList ++ [c])) := by
  intro hmem
  rcases List.mem_append.mp hmem with htypes | hmore
  · exact newline_not_mem_typesCollection r htypes
  · exact (List.mem_append.mp hmore).elim hrun (newline_not_mem_number hc)

theorem startsName_line : StartsName r (line ++ '\n' :: rest) ↔ StartsName r line := by
  rw [startsName_iff, startsName_iff]
  apply exists_congr
  intro run
  apply exists_congr
  intro c
  apply and_congr_right
  intro hrun
  apply and_congr_right
  exact fun hc => prefix_line (newline_not_mem_name hrun hc)

theorem StartsWith.startsName (hstarts : StartsWith r p text) : StartsName r text := by
  obtain ⟨run, tail, rfl, hnumber, hrun, -⟩ := hstarts
  exact ⟨run, _, rfl, hrun, hnumber⟩

theorem digitsOf_line {tail : List Char} : digitsOf (tail ++ '\n' :: rest) = digitsOf tail := by
  induction tail with
  | nil => rfl
  | cons c tail ih =>
      rw [digitsOf, digitsOf, List.cons_append, List.takeWhile_cons, List.takeWhile_cons]
      split
      · exact congrArg (c :: ·) ih
      · rfl

/-- The last separator of a line is in the line. -/
theorem startsWith_line : StartsWith r p (line ++ '\n' :: rest) ↔ StartsWith r p line := by
  have hlast : ∀ tail : List Char,
      (∀ pre suf, pre ≠ [] → r.separator.toList ++ (tail ++ '\n' :: rest) = pre ++ suf →
        '\n' ∉ pre → ¬ StartsNumber r suf) ↔
      ∀ pre suf, pre ≠ [] → r.separator.toList ++ tail = pre ++ suf → '\n' ∉ pre →
        ¬ StartsNumber r suf := by
    intro tail
    apply Iff.intro
    · intro hall pre suf hpre hsplit hline hnumber
      refine hall pre (suf ++ '\n' :: rest) hpre ?_ hline (startsNumber_line.mpr hnumber)
      rw [← List.append_assoc, hsplit, List.append_assoc]
    · intro hall pre suf hpre hsplit hline hnumber
      rw [← List.append_assoc] at hsplit
      have hprefix : pre <+: r.separator.toList ++ tail :=
        (prefix_line hline).mp ⟨suf, hsplit.symm⟩
      obtain ⟨more, hmore⟩ := hprefix
      rw [← hmore, List.append_assoc, List.append_cancel_left_eq] at hsplit
      rw [← hsplit] at hnumber
      exact hall pre more hpre hmore.symm hline (startsNumber_line.mp hnumber)
  apply Iff.intro
  · rintro ⟨run, tail, heq, hnumber, hrun, hall, hdigits⟩
    obtain ⟨c, hc, hprefix⟩ := startsNumber_iff.mp hnumber
    have hname : r.typesCollection.toList ++ (run ++ (r.separator.toList ++ [c])) <+:
        line ++ '\n' :: rest := by
      rwa [heq, List.prefix_append_right_inj, List.prefix_append_right_inj]
    obtain ⟨more, hmore⟩ := (prefix_line (newline_not_mem_name hrun hc)).mp hname
    obtain rfl : tail = c :: more ++ '\n' :: rest := by
      have hparts := hmore ▸ heq
      simp only [List.append_assoc, List.append_cancel_left_eq] at hparts
      simpa using hparts.symm
    rw [digitsOf_line] at hdigits
    refine ⟨run, c :: more, ?_, ?_, hrun, (hlast _).mp hall, hdigits⟩
    · rw [← hmore]
      simp
    · rw [← List.append_assoc] at hnumber
      exact startsNumber_line.mp hnumber
  · rintro ⟨run, tail, rfl, hnumber, hrun, hall, hdigits⟩
    refine ⟨run, tail ++ '\n' :: rest, by simp, ?_, hrun, (hlast _).mpr hall, ?_⟩
    · rw [← List.append_assoc]
      exact startsNumber_line.mpr hnumber
    · rwa [digitsOf_line]

/-- The name that is found is the first that starts. -/
theorem foundWith_cons {c : Char} : FoundWith r p (c :: text) ↔
    StartsWith r p (c :: text) ∨ ¬ StartsName r (c :: text) ∧ FoundWith r p text := by
  apply Iff.intro
  · rintro ⟨before, run, tail, hfinds, hdigits⟩
    cases before with
    | nil =>
        exact Or.inl ⟨run, tail, hfinds.split, hfinds.number, hfinds.line, hfinds.last, hdigits⟩
    | cons d before =>
        have hsplit := hfinds.split
        rw [List.cons_append, List.cons.injEq] at hsplit
        obtain ⟨rfl, rfl⟩ := hsplit
        have hnone := hfinds.first [] (c :: before) rfl (List.cons_ne_nil c before)
        refine Or.inr ⟨hnone, before, run, tail, ⟨rfl, hfinds.number, hfinds.line, ?_,
          hfinds.last⟩, hdigits⟩
        rintro early late rfl hlate
        exact hfinds.first (c :: early) late rfl hlate
  · rintro (⟨run, tail, hsplit, hnumber, hrun, hall, hdigits⟩ |
      ⟨hnone, before, run, tail, hfinds, hdigits⟩)
    · refine ⟨[], run, tail, ⟨hsplit, hnumber, hrun, ?_, hall⟩, hdigits⟩
      intro early late heq hlate
      exact absurd (List.append_eq_nil_iff.mp heq.symm).2 hlate
    · refine ⟨c :: before, run, tail, ⟨?_, hfinds.number, hfinds.line, ?_, hfinds.last⟩, hdigits⟩
      · rw [hfinds.split, List.cons_append]
      · intro early late heq hlate
        cases early with
        | nil =>
            obtain rfl : c :: before = late := heq
            rwa [List.cons_append, ← hfinds.split]
        | cons d early =>
            obtain ⟨-, rfl⟩ := List.cons.inj heq
            exact hfinds.first early late rfl hlate

theorem hasName_cons {c : Char} :
    HasName r (c :: text) ↔ StartsName r (c :: text) ∨ HasName r text := by
  apply Iff.intro
  · rintro ⟨before, rest, heq, hstarts⟩
    cases before with
    | nil => exact Or.inl (heq ▸ hstarts)
    | cons d before =>
        obtain ⟨-, rfl⟩ := List.cons.inj heq
        exact Or.inr ⟨before, rest, rfl, hstarts⟩
  · rintro (hstarts | ⟨before, rest, rfl, hstarts⟩)
    · exact ⟨[], _, rfl, hstarts⟩
    · exact ⟨c :: before, rest, rfl, hstarts⟩

theorem FoundWith.hasName (hfound : FoundWith r p text) : HasName r text := by
  obtain ⟨before, run, tail, hfinds, -⟩ := hfound
  exact ⟨before, _, hfinds.split, run, _, rfl, hfinds.line, hfinds.number⟩

theorem not_hasName_nil : ¬ HasName r [] := by
  rintro ⟨before, rest, heq, run, more, rfl, -⟩
  obtain ⟨-, hnil⟩ := List.append_eq_nil_iff.mp heq.symm
  have htypes := (List.append_eq_nil_iff.mp hnil).1
  revert htypes
  cases r <;> decide

/-- The name is found on the first line, or if none starts there, in the rest. -/
theorem foundWith_line : FoundWith r p (line ++ '\n' :: rest) ↔
    FoundWith r p line ∨ ¬ HasName r line ∧ FoundWith r p rest := by
  induction line with
  | nil =>
      have hnone : ¬ StartsName r ('\n' :: rest) := by
        intro hstarts
        have hempty : StartsName r [] := startsName_line.mp hstarts
        exact not_hasName_nil ⟨[], [], rfl, hempty⟩
      have hleft : ¬ FoundWith r p [] := fun hfound => not_hasName_nil hfound.hasName
      rw [List.nil_append, foundWith_cons, or_iff_right fun hstarts => hnone hstarts.startsName,
        or_iff_right hleft, and_iff_right hnone, and_iff_right not_hasName_nil]
  | cons c line ih =>
      have hdigits : StartsWith r p (c :: (line ++ '\n' :: rest)) ↔
          StartsWith r p (c :: line) := by
        rw [← List.cons_append, startsWith_line]
      have hname : StartsName r (c :: (line ++ '\n' :: rest)) ↔ StartsName r (c :: line) := by
        rw [← List.cons_append, startsName_line]
      rw [List.cons_append, foundWith_cons, foundWith_cons, hasName_cons, hdigits, hname, ih,
        not_or, and_assoc, or_assoc, ← and_or_left]

theorem not_firstNamed_nil : ¬ FirstNamed r [] line := by
  rintro ⟨earlier, later, heq, -⟩
  exact List.cons_ne_nil line later (List.append_eq_nil_iff.mp heq.symm).2

theorem firstNamed_cons {first : List Char} {ls : List (List Char)} :
    FirstNamed r (first :: ls) line ↔
      line = first ∧ HasName r first ∨ ¬ HasName r first ∧ FirstNamed r ls line := by
  apply Iff.intro
  · rintro ⟨earlier, later, hsplit, hnone, hname⟩
    cases earlier with
    | nil =>
        obtain rfl := (List.cons.inj hsplit).1
        exact Or.inl ⟨rfl, hname⟩
    | cons other earlier =>
        obtain ⟨rfl, hrest⟩ := List.cons.inj hsplit
        exact Or.inr ⟨hnone first List.mem_cons_self, earlier, later, hrest,
          fun l hl => hnone l (List.mem_cons_of_mem first hl), hname⟩
  · rintro (⟨rfl, hname⟩ | ⟨hnot, earlier, later, rfl, hnone, hname⟩)
    · exact ⟨[], ls, rfl, fun _ hmem => absurd hmem List.not_mem_nil, hname⟩
    · exact ⟨first :: earlier, later, rfl, List.forall_mem_cons.mpr ⟨hnot, hnone⟩, hname⟩

theorem lines_cons (hline : '\n' ∉ line) : lines (line ++ '\n' :: rest) = line :: lines rest :=
  List.splitOn_append_cons_self_of_not_mem hline rest

theorem lines_single (hline : '\n' ∉ line) : lines line = [line] :=
  List.splitOn_eq_singleton hline

/-- **Lines.** What is found in a text is found on the first line on which a name starts. -/
theorem foundWith_iff : FoundWith r p text ↔ ∃ l, NameLine r text l ∧ FoundWith r p l := by
  induction hlength : text.length using Nat.strong_induction_on generalizing text with
  | _ length ih =>
    unfold NameLine
    by_cases hnewline : '\n' ∈ text
    · obtain ⟨line, rest, rfl, hline⟩ := List.eq_append_cons_of_mem hnewline
      have hrest := ih rest.length (by simp [← hlength]; omega) rfl
      simp only [foundWith_line, lines_cons hline, firstNamed_cons, hrest, NameLine]
      apply Iff.intro
      · rintro (hfound | ⟨hnone, l, hl, hfound⟩)
        · exact ⟨line, Or.inl ⟨rfl, hfound.hasName⟩, hfound⟩
        · exact ⟨l, Or.inr ⟨hnone, hl⟩, hfound⟩
      · rintro ⟨l, ⟨rfl, -⟩ | ⟨hnone, hl⟩, hfound⟩
        · exact Or.inl hfound
        · exact Or.inr ⟨hnone, l, hl, hfound⟩
    · simp only [lines_single hnewline, firstNamed_cons, not_firstNamed_nil, and_false, or_false]
      apply Iff.intro
      · exact fun hfound => ⟨text, ⟨rfl, hfound.hasName⟩, hfound⟩
      · rintro ⟨l, ⟨rfl, -⟩, hfound⟩
        exact hfound

theorem found_iff : Found r text ↔ ∃ l, NameLine r text l ∧ Found r l :=
  foundWith_iff (p := fun digits => Text.decimal (String.ofList digits) < 2 ^ 63)

/-- The first line starts with the types collection, and the last one ends with a separator
and a number in range. -/
structure Encloses (r : Resource) (text : List Char) : Prop where
  first : ∃ l, (lines text).head? = some l ∧ r.typesCollection.toList <+: l
  last : ∃ l id, (lines text).getLast? = some l ∧ Text.Numeral id ∧
    r.separator.toList ++ id.toList <:+ l

theorem suffix_line {ending : List Char} (hending : '\n' ∉ ending) :
    ending <:+ rest ++ '\n' :: line ↔ ending <:+ line := by
  rw [← List.reverse_prefix, ← List.reverse_prefix, List.reverse_append, List.reverse_cons,
    List.append_assoc, List.singleton_append]
  exact prefix_line (by rwa [List.mem_reverse])

theorem newline_not_mem_numeral {id : String} (hid : Text.Numeral id) :
    '\n' ∉ r.separator.toList ++ id.toList := by
  intro hmem
  rcases List.mem_append.mp hmem with hsep | hdigit
  · exact newline_not_mem_separator r hsep
  · cases hid.1.2 '\n' hdigit

/-- A text of several lines is of the grammar if its first and its last line are. -/
theorem instanceName_iff_encloses {s : String} (hseveral : '\n' ∈ s.toList) :
    InstanceName r s ↔ Encloses r s.toList := by
  obtain ⟨first, more, hfirst, hfirstLine⟩ := List.eq_append_cons_of_mem hseveral
  obtain ⟨last, front, hlast, hlastLine⟩ : ∃ last front, s.toList = front ++ '\n' :: last ∧
      '\n' ∉ last := by
    obtain ⟨last, front, hsplit, hline⟩ :=
      List.eq_append_cons_of_mem (List.mem_reverse.mpr hseveral)
    refine ⟨last.reverse, front.reverse, ?_, by rwa [List.mem_reverse]⟩
    rw [← List.reverse_reverse s.toList, hsplit]
    simp
  have hhead : (lines s.toList).head? = some first := by
    rw [hfirst, lines_cons hfirstLine, List.head?_cons]
  have hgetLast : (lines s.toList).getLast? = some last := by
    rw [lines, hlast, List.splitOn_append_cons_self, List.splitOn_eq_singleton hlastLine,
      List.getLast?_concat]
  apply Iff.intro
  · rintro ⟨typeName, id, hs, -, hid⟩
    have htoList : s.toList = r.typesCollection.toList ++
        (typeName.toList ++ (r.separator.toList ++ id.toList)) := by
      simp only [hs, String.toList_append, List.append_assoc]
    have hprefix : r.typesCollection.toList <+: first ++ '\n' :: more :=
      ⟨_, by rw [← hfirst, htoList]⟩
    have hsuffix : r.separator.toList ++ id.toList <:+ front ++ '\n' :: last :=
      ⟨r.typesCollection.toList ++ typeName.toList, by rw [← hlast, htoList, List.append_assoc]⟩
    exact ⟨⟨first, hhead, (prefix_line (newline_not_mem_typesCollection r)).mp hprefix⟩,
      last, id, hgetLast, hid, (suffix_line (newline_not_mem_numeral hid)).mp hsuffix⟩
  · rintro ⟨⟨l, hl, hprefix⟩, l', id, hl', hid, run, hrun⟩
    obtain rfl : l = first := Option.some.inj (hl.symm.trans hhead)
    obtain rfl : l' = last := Option.some.inj (hl'.symm.trans hgetLast)
    have hstart : r.typesCollection.toList <+: front ++ '\n' :: l' := by
      rw [← hlast, hfirst]
      exact hprefix.trans (List.prefix_append l _)
    obtain ⟨mid, rfl⟩ := (prefix_line (newline_not_mem_typesCollection r)).mp hstart
    refine ⟨String.ofList (mid ++ '\n' :: run), id, ?_, ?_, hid⟩
    · apply String.toList_injective
      rw [hlast, ← hrun]
      simp only [String.toList_append, String.toList_ofList, List.append_assoc, List.cons_append]
    · intro hempty
      have hnil := congrArg String.toList hempty
      simp at hnil

end Lines

/-! ## When the parsers keep to the grammar -/

/-- On a single line, a name that is found with a number in range is all of the text, and its
type is not empty. Over several lines, the first line on which a name starts decides: if the
number there is in range, then the first line of the text starts with the types collection
and the last one ends with a separator and a number in range; and if they do, there is such
a line. -/
structure StandsAlone (r : Resource) (s : String) : Prop where
  single : '\n' ∉ s.toList → ∀ before run tail, Finds r s.toList before run tail →
    InRange tail → before = [] ∧ run ≠ [] ∧ digitsOf tail = tail
  several : '\n' ∈ s.toList → ∀ line, NameLine r s.toList line → Found r line →
    Encloses r s.toList
  enclosed : '\n' ∈ s.toList → Encloses r s.toList →
    ∃ line, NameLine r s.toList line ∧ Found r line

/-- The text is a number on its own, or a number with a sign after a collection. -/
def StrayNumber (s : String) : Prop :=
  Text.Numeral s ∨ Text.SignedNumeral s ∨
    ∃ number, (s = artifactCollection ++ number ∨ s = executionCollection ++ number) ∧
      Text.SignedNumeral number

/-- In a name of the grammar on a single line, the pattern finds the whole name. -/
theorem submatch_of_instanceName {s : String} (hname : InstanceName r s)
    (hline : '\n' ∉ s.toList) :
    ∃ typeName id, s = r.typesCollection ++ typeName ++ r.separator ++ id ∧ typeName ≠ "" ∧
      Text.Numeral id ∧ r.nameRE.submatch s.toList = some [s.toList, id.toList] := by
  obtain ⟨typeName, id, rfl, htype, hid⟩ := hname
  have hslash : r.separator.toList.head? = some '/' := by
    cases r <;> decide
  have htypeLine : '\n' ∉ typeName.toList := by
    intro hmem
    apply hline
    simp only [String.toList_append, List.mem_append]
    exact Or.inl (Or.inl (Or.inr hmem))
  refine ⟨typeName, id, rfl, htype, hid, ?_⟩
  rw [r.nameRE_eq]
  exact submatch_instanceNameRE _ hslash htypeLine hid.1.1 hid.1.2

/-- On a single line, a name that is found is of the grammar if it is the whole text and
its type is not empty, and only then. -/
theorem Finds.instanceName_iff {s : String} {before run tail : List Char}
    (hfinds : Finds r s.toList before run tail) (hrange : InRange tail)
    (hline : '\n' ∉ s.toList) :
    InstanceName r s ↔ before = [] ∧ run ≠ [] ∧ digitsOf tail = tail := by
  apply Iff.intro
  · intro hname
    obtain ⟨typeName, id, hs, htype, -, hmatch⟩ := submatch_of_instanceName hname hline
    rw [submatch_iff.mpr ⟨before, run, tail, hfinds, rfl⟩] at hmatch
    have hfound : foundName r run tail = s.toList := (List.cons.inj (Option.some.inj hmatch)).1
    have hdigits : digitsOf tail = id.toList :=
      (List.cons.inj (List.cons.inj (Option.some.inj hmatch)).2).1
    have hlead : digitsOf tail <+: tail := List.takeWhile_prefix _
    have htail := hlead.length_le
    -- The name is as long as the text it was found in, and as its parts.
    have hlength := congrArg List.length (hfound.trans hfinds.split)
    have hparts := congrArg List.length (hfound.trans (congrArg String.toList hs))
    simp only [foundName, String.toList_append, List.length_append, hdigits] at hlength hparts
    rw [hdigits] at htail
    refine ⟨List.eq_nil_of_length_eq_zero (by omega), ?_, hlead.eq_of_length ?_⟩
    · intro hrun
      rw [hrun, List.length_nil] at hparts
      exact htype (String.toList_eq_nil_iff.mp (List.eq_nil_of_length_eq_zero (by omega)))
    · rw [hdigits]
      omega
  · intro hwhole
    obtain ⟨rfl, hrun, hdigits⟩ := hwhole
    refine ⟨String.ofList run, String.ofList tail, ?_, ?_, ?_⟩
    · apply String.toList_injective
      simp only [String.toList_append, String.toList_ofList, hfinds.split, List.nil_append,
        List.append_assoc]
    · intro hempty
      have hnil := congrArg String.toList hempty
      exact hrun (by simpa using hnil)
    · have hnumeral : Text.Numeral (String.ofList (digitsOf tail)) := ⟨hfinds.digits, hrange⟩
      rwa [hdigits] at hnumeral

theorem parseInstanceName_iff {s : String} :
    ((∃ id, parseInstanceName r s = .ok id) ↔ InstanceName r s) ↔ StandsAlone r s := by
  rw [parseInstanceName_ok_iff]
  apply Iff.intro
  · intro hexact
    apply StandsAlone.mk
    · intro hline before run tail hfinds hrange
      exact (hfinds.instanceName_iff hrange hline).mp
        (hexact.mp ⟨before, run, tail, hfinds, hrange⟩)
    · intro hseveral line hline hfound
      exact (instanceName_iff_encloses hseveral).mp
        (hexact.mp (found_iff.mpr ⟨line, hline, hfound⟩))
    · intro hseveral hencloses
      exact found_iff.mp (hexact.mpr ((instanceName_iff_encloses hseveral).mpr hencloses))
  · intro halone
    by_cases hline : '\n' ∈ s.toList
    · rw [instanceName_iff_encloses hline]
      apply Iff.intro
      · intro hfound
        obtain ⟨line, hname, hnumber⟩ := found_iff.mp hfound
        exact halone.several hline line hname hnumber
      · exact fun hencloses => found_iff.mpr (halone.enclosed hline hencloses)
    · apply Iff.intro
      · intro hfound
        obtain ⟨before, run, tail, hfinds, hrange⟩ := hfound
        exact (hfinds.instanceName_iff hrange hline).mpr
          (halone.single hline before run tail hfinds hrange)
      · intro hname
        obtain ⟨typeName, id, -, -, hid, hmatch⟩ := submatch_of_instanceName hname hline
        obtain ⟨before, run, tail, hfinds, htokens⟩ := submatch_iff.mp hmatch
        refine ⟨before, run, tail, hfinds, ?_⟩
        have hdigits : id.toList = digitsOf tail := (List.cons.inj (List.cons.inj htokens).2).1
        rw [InRange, ← hdigits, String.ofList_toList]
        exact hid.2

/-- A text that starts with a collection is no number. -/
theorem not_number_of_collection {collection number : String}
    (hcollection : collection = artifactCollection ∨ collection = executionCollection) :
    ¬ (Text.Numeral (collection ++ number) ∨ Text.SignedNumeral (collection ++ number)) := by
  intro hnumber
  obtain ⟨c, hhead, hc⟩ := Text.head?_of_numeral hnumber
  rcases hcollection with rfl | rfl
  · obtain rfl : 'a' = c := by simpa [String.toList_append, artifactCollection] using hhead
    exact absurd hc (by decide)
  · obtain rfl : 'e' = c := by simpa [String.toList_append, executionCollection] using hhead
    exact absurd hc (by decide)

theorem not_hasPrefix_executions (number : String) :
    Text.hasPrefix (executionCollection ++ number) artifactCollection = false := by
  rw [Text.hasPrefix, String.toList_append]
  rfl

theorem listName_iff {collection number : String} :
    ListName collection (collection ++ number) ↔ Text.Numeral number := by
  apply Iff.intro
  · intro hname
    obtain ⟨id, heq, hid⟩ := hname
    rwa [(String.append_right_inj collection).mp heq]
  · exact fun hid => ⟨number, rfl, hid⟩

theorem storedParsedExactly_iff {s : String} : StoredParsedExactly r s ↔ StandsAlone r s := by
  obtain ⟨hreaches, hrejected⟩ := getStored_firstCall r s
  rw [← parseInstanceName_iff, ← hreaches]
  apply Iff.intro StoredParsedExactly.reaches
  intro hexact
  exact ⟨hexact, fun hnot => hrejected fun hparsed => hnot (hexact.mp (hreaches.mpr hparsed))⟩

theorem artifacts_ne_executions (first second : String) :
    artifactCollection ++ first ≠ executionCollection ++ second := by
  intro heq
  have hlead := not_hasPrefix_executions second
  rw [← heq, Text.hasPrefix_iff.mpr ⟨first, rfl⟩] at hlead
  cases hlead

/-- The events of an artifact are looked up if what follows the collection parses. -/
theorem listEvents_of_artifacts (number : String) :
    ((∃ id, (listEvents (artifactCollection ++ number)).run.firstCall =
        some (.getEventsByArtifactIDs [id])) ↔
      Text.Numeral number ∨ Text.SignedNumeral number) ∧
    ¬ ∃ id, (listEvents (artifactCollection ++ number)).run.firstCall =
      some (.getEventsByExecutionIDs [id]) := by
  have hlead : Text.hasPrefix (artifactCollection ++ number) artifactCollection = true :=
    Text.hasPrefix_iff.mpr ⟨number, rfl⟩
  obtain ⟨hcall, -⟩ := listEvents_firstCall (artifactCollection ++ number)
  simp only [eventsNumber, eventsCollection, eventsLookup, hlead, if_true,
    Text.trimPrefix_append] at hcall
  rw [← Text.parseInt64_ok_iff]
  apply And.intro
  · apply Iff.intro
    · intro hreached
      obtain ⟨id, hid⟩ := hreached
      obtain ⟨n, hn, -⟩ := (hcall _).mp hid
      exact ⟨n, hn⟩
    · intro hok
      obtain ⟨n, hn⟩ := hok
      exact ⟨n, (hcall _).mpr ⟨n, hn, rfl⟩⟩
  · intro hreached
    obtain ⟨id, hid⟩ := hreached
    obtain ⟨n, -, hop⟩ := (hcall _).mp hid
    cases hop

/-- Otherwise the events of an execution are looked up if what is left parses. -/
theorem listEvents_of_others {s : String}
    (hlead : Text.hasPrefix s artifactCollection = false) :
    ((∃ id, (listEvents s).run.firstCall = some (.getEventsByExecutionIDs [id])) ↔
      Text.Numeral (Text.trimPrefix s executionCollection) ∨
        Text.SignedNumeral (Text.trimPrefix s executionCollection)) ∧
    ¬ ∃ id, (listEvents s).run.firstCall = some (.getEventsByArtifactIDs [id]) := by
  obtain ⟨hcall, -⟩ := listEvents_firstCall s
  simp only [eventsNumber, eventsCollection, eventsLookup, hlead, Bool.false_eq_true,
    if_false] at hcall
  rw [← Text.parseInt64_ok_iff]
  apply And.intro
  · apply Iff.intro
    · intro hreached
      obtain ⟨id, hid⟩ := hreached
      obtain ⟨n, hn, -⟩ := (hcall _).mp hid
      exact ⟨n, hn⟩
    · intro hok
      obtain ⟨n, hn⟩ := hok
      exact ⟨n, (hcall _).mpr ⟨n, hn, rfl⟩⟩
  · intro hreached
    obtain ⟨id, hid⟩ := hreached
    obtain ⟨n, -, hop⟩ := (hcall _).mp hid
    cases hop

/-- Rejection follows from what gets to a lookup. -/
theorem eventsParsedExactly_of_reaches {s : String}
    (hartifacts : (∃ id, (listEvents s).run.firstCall = some (.getEventsByArtifactIDs [id])) ↔
      ListName artifactCollection s)
    (hexecutions : (∃ id, (listEvents s).run.firstCall = some (.getEventsByExecutionIDs [id])) ↔
      ListName executionCollection s) : EventsParsedExactly s := by
  apply EventsParsedExactly.mk hartifacts hexecutions
  intro hnoArtifact hnoExecution
  obtain ⟨hcall, hrejected⟩ := listEvents_firstCall s
  apply hrejected
  intro hparsed
  obtain ⟨n, hn⟩ := hparsed
  have hreached := (hcall _).mpr ⟨n, hn, rfl⟩
  unfold eventsLookup at hreached
  split at hreached
  next => exact hnoArtifact (hartifacts.mp ⟨n, hreached⟩)
  next => exact hnoExecution (hexecutions.mp ⟨n, hreached⟩)

theorem plain_iff_of_number {number : String} :
    (Text.Numeral number ∨ Text.SignedNumeral number ↔ Text.Numeral number) ↔
      ¬ Text.SignedNumeral number := by
  apply Iff.intro
  · intro hplain hsigned
    exact (hplain.mp (Or.inr hsigned)).1.not_signed hsigned
  · exact fun hunsigned => or_iff_left hunsigned

theorem strayNumber_of_collection {collection number : String}
    (hcollection : collection = artifactCollection ∨ collection = executionCollection) :
    StrayNumber (collection ++ number) ↔ Text.SignedNumeral number := by
  have hnot : ¬ (Text.Numeral (collection ++ number) ∨
      Text.SignedNumeral (collection ++ number)) := not_number_of_collection hcollection
  apply Iff.intro
  · intro hstray
    rcases hstray with hplain | hsigned | ⟨other, hother, hsigned⟩
    · exact absurd (Or.inl hplain) hnot
    · exact absurd (Or.inr hsigned) hnot
    · rcases hcollection with rfl | rfl
      · rcases hother with heq | heq
        · rwa [(String.append_right_inj _).mp heq]
        · exact absurd heq (artifacts_ne_executions _ _)
      · rcases hother with heq | heq
        · exact absurd heq.symm (artifacts_ne_executions _ _)
        · rwa [(String.append_right_inj _).mp heq]
  · intro hsigned
    exact Or.inr (Or.inr ⟨number, hcollection.imp (by rintro rfl; rfl) (by rintro rfl; rfl),
      hsigned⟩)

/-- Below the collection of artifacts only a sign is accepted beyond the grammar. -/
theorem eventsParsedExactly_of_artifacts (number : String) :
    EventsParsedExactly (artifactCollection ++ number) ↔ ¬ Text.SignedNumeral number := by
  obtain ⟨hreaches, hother⟩ := listEvents_of_artifacts number
  have hplain : ListName artifactCollection (artifactCollection ++ number) ↔
      Text.Numeral number := listName_iff
  rw [← plain_iff_of_number, ← hreaches, ← hplain]
  apply Iff.intro EventsParsedExactly.artifacts
  intro hexact
  apply eventsParsedExactly_of_reaches hexact
  apply iff_of_false hother
  intro hname
  obtain ⟨id, heq, -⟩ := hname
  exact artifacts_ne_executions _ _ heq

/-- Elsewhere what is left without the collection of executions decides. -/
theorem eventsParsedExactly_of_others {s : String}
    (hlead : Text.hasPrefix s artifactCollection = false) :
    EventsParsedExactly s ↔
      (Text.Numeral (Text.trimPrefix s executionCollection) ∨
        Text.SignedNumeral (Text.trimPrefix s executionCollection) ↔
          ListName executionCollection s) := by
  obtain ⟨hreaches, hother⟩ := listEvents_of_others hlead
  have hnoArtifact : ¬ ListName artifactCollection s := by
    intro hname
    obtain ⟨id, heq, -⟩ := hname
    exact Text.ne_append_of_not_hasPrefix hlead id heq
  rw [← hreaches]
  apply Iff.intro EventsParsedExactly.executions
  exact eventsParsedExactly_of_reaches (iff_of_false hother hnoArtifact)

/-- Below neither collection a stray number stands alone. -/
theorem strayNumber_of_neither {s : String}
    (hartifacts : ∀ number, s ≠ artifactCollection ++ number)
    (hexecutions : ∀ number, s ≠ executionCollection ++ number) :
    StrayNumber s ↔ Text.Numeral s ∨ Text.SignedNumeral s := by
  rw [StrayNumber, ← or_assoc]
  apply or_iff_left
  intro hcollection
  obtain ⟨number, heq, -⟩ := hcollection
  exact heq.elim (hartifacts number) (hexecutions number)

theorem eventsParsedExactly_iff {s : String} :
    EventsParsedExactly s ↔ ¬ StrayNumber s := by
  cases hartifacts : Text.hasPrefix s artifactCollection with
  | true =>
      obtain ⟨number, rfl⟩ := Text.hasPrefix_iff.mp hartifacts
      rw [strayNumber_of_collection (Or.inl rfl)]
      exact eventsParsedExactly_of_artifacts number
  | false =>
      rw [eventsParsedExactly_of_others hartifacts]
      cases hexecutions : Text.hasPrefix s executionCollection with
      | true =>
          obtain ⟨number, rfl⟩ := Text.hasPrefix_iff.mp hexecutions
          rw [Text.trimPrefix_append, listName_iff, plain_iff_of_number,
            strayNumber_of_collection (Or.inr rfl)]
      | false =>
          have hnoName : ¬ ListName executionCollection s := by
            intro hname
            obtain ⟨id, heq, -⟩ := hname
            exact Text.ne_append_of_not_hasPrefix hexecutions id heq
          rw [Text.trimPrefix_of_not_hasPrefix hexecutions, iff_false_right hnoName,
            strayNumber_of_neither (Text.ne_append_of_not_hasPrefix hartifacts)
              (Text.ne_append_of_not_hasPrefix hexecutions)]

/-- A text is parsed as the grammars of all names say. -/
structure ParsedExactly (s : String) : Prop where
  stored : ∀ r, StoredParsedExactly r s
  events : EventsParsedExactly s

/-- **When a text is parsed as the grammars say.** The parsers of instance names keep to
the grammar on a text exactly if any name that they find in it stands alone, and the
parser of event lists exactly if the text is no stray number. -/
theorem parsedExactly_iff (s : String) :
    ParsedExactly s ↔ (∀ r, StandsAlone r s) ∧ ¬ StrayNumber s := by
  rw [← eventsParsedExactly_iff, ← forall_congr' fun r => storedParsedExactly_iff]
  exact ⟨fun h => ⟨h.stored, h.events⟩, fun h => ⟨h.1, h.2⟩⟩

/-- A number on its own lists the events of an execution, and an artifact is looked up
under a name with other text in front. -/
theorem parsers_accept_more :
    ¬ ParsedExactly "5" ∧ ¬ ParsedExactly "see artifact_types/A/artifacts/7" := by
  apply And.intro
  · intro hexact
    have hname : ListName executionCollection "5" := hexact.events.executions.mp ⟨5, rfl⟩
    obtain ⟨id, heq, -⟩ := hname
    have hhead := congrArg (fun s => s.toList.head?) heq
    simp [String.toList_append, executionCollection] at hhead
  · intro hexact
    have hname : InstanceName .artifact "see artifact_types/A/artifacts/7" :=
      (hexact.stored .artifact).reaches.mp ⟨7, rfl⟩
    obtain ⟨typeName, id, heq, -⟩ := hname
    have hhead := congrArg (fun s => s.toList.head?) heq
    simp [String.toList_append, Resource.typesCollection, artifactTypesCollection] at hhead

end KfMetadata.Service
