/-
# Path templates

A template is a list of segments that a path has to have, one of which may stand
for any number of segments. Which segments that one takes is settled by the
number of segments that come after it in the template. A variable of a template
names the part of the path that a run of its segments has matched.
-/

import Mathlib.Data.List.Basic

namespace PathTemplate

/-! ## Segments of a path -/

def segments (path : String) : List String := (path.toList.splitOn '/').map String.ofList

def join (segs : List String) : String := "/".intercalate segs

theorem segments_ne_nil (path : String) : segments path ≠ [] := by
  simp [segments, List.splitOn_ne_nil]

@[simp] theorem join_segments (path : String) : join (segments path) = path := by
  apply String.toList_injective
  have hchars : (segments path).map String.toList = path.toList.splitOn '/' := by
    simp [segments, Function.comp_def]
  rw [join, String.toList_intercalate, hchars]
  exact List.intercalate_splitOn '/'

theorem segments_append (path path' : String) :
    segments (path ++ "/" ++ path') = segments path ++ segments path' := by
  have hslash : "/".toList = ['/'] := rfl
  simp only [segments, String.toList_append, hslash, List.append_assoc, List.singleton_append,
    List.splitOn_append_cons_self, List.map_append]

theorem segments_injective : Function.Injective segments := by
  intro path path' heq
  rw [← join_segments path, heq, join_segments]

/-- A text without slashes is one segment. -/
theorem segments_of_notMem {path : String} (hslash : '/' ∉ path.toList) :
    segments path = [path] := by
  rw [segments, List.splitOn_eq_singleton hslash, List.map_singleton, String.ofList_toList]

theorem join_append {segs segs' : List String} (hne : segs ≠ []) (hne' : segs' ≠ []) :
    join (segs ++ segs') = join segs ++ "/" ++ join segs' :=
  String.intercalate_append_of_ne_nil hne hne'

@[simp] theorem join_singleton (seg : String) : join [seg] = seg := String.intercalate_singleton

/-- A path with a slash is cut at its last one. -/
theorem exists_last_slash {path : String} (hslash : '/' ∈ path.toList) :
    ∃ front last, path = front ++ "/" ++ last ∧ '/' ∉ last.toList := by
  have hreverse : '/' ∈ path.toList.reverse := List.mem_reverse.mpr hslash
  obtain ⟨after, before, hcut, hlast⟩ := List.eq_append_cons_of_mem hreverse
  refine ⟨String.ofList before.reverse, String.ofList after.reverse, ?_, by simpa using hlast⟩
  have hchars : path.toList = before.reverse ++ '/' :: after.reverse := by
    simpa using congrArg List.reverse hcut
  apply String.toList_injective
  simp [hchars]

/-- The cut at the last slash is the only one that leaves no slash behind it. -/
theorem last_slash_inj {front front' last last' : String} (hlast : '/' ∉ last.toList)
    (hlast' : '/' ∉ last'.toList) (heq : front ++ "/" ++ last = front' ++ "/" ++ last') :
    front = front' ∧ last = last' := by
  have hsegs := congrArg segments heq
  rw [segments_append, segments_append, segments_of_notMem hlast,
    segments_of_notMem hlast'] at hsegs
  obtain ⟨hfront, hsingle⟩ := List.append_inj' hsegs rfl
  exact ⟨segments_injective hfront, List.singleton_inj.mp hsingle⟩

/-! ## Templates -/

inductive Segment
  /-- exactly this segment -/
  | literal (text : String)
  /-- one segment -/
  | any
  /-- any number of segments -/
  | anyMany
  deriving DecidableEq, Repr

/-- What each segment of the template matches, the segments of an `anyMany` joined. It
leaves one segment of the path to each segment that follows it. -/
def parts : List Segment → List String → Option (List String)
  | [], [] => some []
  | [], _ :: _ => none
  | .literal _ :: _, [] => none
  | .literal text :: template, seg :: segs =>
      if seg = text then (parts template segs).map (seg :: ·) else none
  | .any :: _, [] => none
  | .any :: template, seg :: segs => (parts template segs).map (seg :: ·)
  | .anyMany :: template, segs =>
      if template.length ≤ segs.length then
        (parts template (segs.drop (segs.length - template.length))).map
          (join (segs.take (segs.length - template.length)) :: ·)
      else none

/-- A template with one variable, which may be empty. -/
structure Template where
  before : List Segment
  captured : List Segment
  after : List Segment

/-- The value of the variable, if the path matches. -/
def Template.capture (t : Template) (path : String) : Option String :=
  (parts (t.before ++ t.captured ++ t.after) (segments path)).map fun matched =>
    join ((matched.drop t.before.length).take t.captured.length)

/-! ## Matching -/

@[simp] theorem parts_literal_self (text : String) (template : List Segment) (segs : List String) :
    parts (.literal text :: template) (text :: segs) =
      (parts template segs).map (text :: ·) := by
  simp [parts]

theorem parts_literal_of_ne {text seg : String} (hne : seg ≠ text) (template : List Segment)
    (segs : List String) : parts (.literal text :: template) (seg :: segs) = none := by
  simp [parts, hne]

/-- An `anyMany` at the end takes all. -/
@[simp] theorem parts_anyMany (segs : List String) : parts [.anyMany] segs = some [join segs] := by
  simp [parts]

/-- Before a last literal it takes all but one. -/
theorem parts_anyMany_literal (text : String) (segs : List String) :
    parts [.anyMany, .literal text] segs =
      if segs.getLast? = some text then some [join segs.dropLast, text] else none := by
  rcases List.eq_nil_or_concat segs with rfl | ⟨front, last, rfl⟩
  · rfl
  · by_cases hlast : last = text
    · simp [parts, hlast]
    · simp [parts, hlast]

/-- Before a literal and one more segment it takes all but two. -/
theorem parts_anyMany_literal_any (text : String) (segs : List String) :
    parts [.anyMany, .literal text, .any] segs =
      if segs.dropLast.getLast? = some text then
        some [join segs.dropLast.dropLast, text, segs.getLast?.getD ""]
      else none := by
  rcases List.eq_nil_or_concat segs with rfl | ⟨front, last, rfl⟩
  · rfl
  · rcases List.eq_nil_or_concat front with rfl | ⟨front, middle, rfl⟩
    · simp [parts]
    · by_cases hmiddle : middle = text
      · simp [parts, hmiddle]
      · simp [parts, hmiddle]

end PathTemplate
