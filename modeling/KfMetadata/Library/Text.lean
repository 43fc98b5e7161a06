/-
# Prefixes and decimal numerals

The few functions of a string library that resource names are built from and
taken apart with: removing a leading text, printing an integer in decimal, and
parsing a signed 64-bit decimal. The parser reads its digits from left to right
and stops at the first one that is no digit or that leaves the unsigned range,
so which of the two failures is reported depends on which comes first.
-/

import Mathlib.Algebra.Group.Int.Defs
import Mathlib.Algebra.Group.Nat.Defs
import Mathlib.Data.List.Basic

namespace Text

/-- Remove `lead` from the front of `s`, or return `s` when it is not there. -/
def trimPrefix (s lead : String) : String :=
  match lead.toList.isPrefixOf? s.toList with
  | some rest => String.ofList rest
  | none => s

/-- Whether `s` starts with `lead`. -/
def hasPrefix (s lead : String) : Bool := lead.toList.isPrefixOf s.toList

@[simp]
theorem trimPrefix_append (lead rest : String) : trimPrefix (lead ++ rest) lead = rest := by
  have hprefix : lead.toList.isPrefixOf? (lead ++ rest).toList = some rest.toList :=
    List.isPrefixOf?_eq_some_iff_append_eq.mpr String.toList_append.symm
  simp only [trimPrefix, hprefix, String.ofList_toList]

theorem trimPrefix_of_not_hasPrefix {s lead : String} (hnot : hasPrefix s lead = false) :
    trimPrefix s lead = s := by
  unfold trimPrefix
  cases hprefix : lead.toList.isPrefixOf? s.toList with
  | none => rfl
  | some rest =>
      have hhas : lead.toList.isPrefixOf s.toList = true :=
        List.isPrefixOf_iff_prefix.mpr ⟨rest, List.isPrefixOf?_eq_some_iff_append_eq.mp hprefix⟩
      rw [hasPrefix, hhas] at hnot
      cases hnot

theorem hasPrefix_iff {s lead : String} : hasPrefix s lead = true ↔ ∃ rest, s = lead ++ rest := by
  rw [hasPrefix, List.isPrefixOf_iff_prefix]
  apply Iff.intro
  · intro hprefix
    obtain ⟨rest, hrest⟩ := hprefix
    apply Exists.intro (String.ofList rest)
    apply String.toList_injective
    rw [String.toList_append, String.toList_ofList, hrest]
  · intro hrest
    obtain ⟨rest, rfl⟩ := hrest
    exact ⟨rest.toList, String.toList_append.symm⟩

theorem ne_append_of_not_hasPrefix {s lead : String} (hlead : hasPrefix s lead = false)
    (rest : String) : s ≠ lead ++ rest := by
  intro heq
  rw [hasPrefix_iff.mpr ⟨rest, heq⟩] at hlead
  cases hlead

/-- Why a numeral is not a 64-bit integer. -/
inductive NumeralError
  | badDigit
  | outOfRange
  deriving DecidableEq, Repr

/-- Read the remaining digits of an unsigned 64-bit numeral. -/
def parseDigits : List Char → Nat → Except NumeralError Nat
  | [], value => .ok value
  | c :: cs, value =>
      if c.isDigit then
        if 10 * value + (c.toNat - '0'.toNat) < 2 ^ 64 then
          parseDigits cs (10 * value + (c.toNat - '0'.toNat))
        else .error .outOfRange
      else .error .badDigit

/-- Split an optional sign from the digits; the flag says the sign is a minus. -/
def splitSign : List Char → Bool × List Char
  | [] => (false, [])
  | c :: cs =>
      if c = '-' then (true, cs) else if c = '+' then (false, cs) else (false, c :: cs)

/-- Parse a decimal numeral with an optional sign as a signed 64-bit integer. -/
def parseInt64 (s : String) : Except NumeralError Int :=
  let signed := splitSign s.toList
  if signed.2 = [] then .error .badDigit
  else
    match parseDigits signed.2 0 with
    | .error e => .error e
    | .ok magnitude =>
        if signed.1 then
          if magnitude ≤ 2 ^ 63 then .ok (-magnitude) else .error .outOfRange
        else if magnitude < 2 ^ 63 then .ok magnitude
        else .error .outOfRange

/-- Reading digits never lowers the value read so far. -/
theorem le_ofDigitChars (cs : List Char) (value : Nat) :
    value ≤ Nat.ofDigitChars 10 cs value := by
  induction cs generalizing value with
  | nil => simp
  | cons c cs ih =>
      rw [Nat.ofDigitChars_cons]
      exact Nat.le_trans (by omega) (ih _)

/-- A run of digits whose value is in range is read as that value. -/
theorem parseDigits_eq {cs : List Char} {value : Nat} (hdigits : ∀ c ∈ cs, c.isDigit = true)
    (hrange : Nat.ofDigitChars 10 cs value < 2 ^ 64) :
    parseDigits cs value = .ok (Nat.ofDigitChars 10 cs value) := by
  induction cs generalizing value with
  | nil => simp [parseDigits]
  | cons c cs ih =>
      rw [Nat.ofDigitChars_cons] at hrange ⊢
      have hc : c.isDigit = true := hdigits c List.mem_cons_self
      have hstep := Nat.lt_of_le_of_lt (le_ofDigitChars cs _) hrange
      rw [parseDigits, if_pos hc, if_pos hstep]
      exact ih (fun d hd => hdigits d (List.mem_cons_of_mem c hd)) hrange

/-- A text that starts with a digit carries no sign. -/
theorem splitSign_of_digits {cs : List Char} (hdigits : ∀ c ∈ cs, c.isDigit = true) :
    splitSign cs = (false, cs) := by
  cases cs with
  | nil => rfl
  | cons c cs =>
      have hc : c.isDigit = true := hdigits c List.mem_cons_self
      have hminus : c ≠ '-' := by
        rintro rfl
        exact absurd hc (by decide)
      have hplus : c ≠ '+' := by
        rintro rfl
        exact absurd hc (by decide)
      simp only [splitSign, if_neg hminus, if_neg hplus]

/-- A nonempty run of digits below `2 ^ 63` parses as its decimal value. -/
theorem parseInt64_digits {s : String} (hne : s.toList ≠ [])
    (hdigits : ∀ c ∈ s.toList, c.isDigit = true)
    (hrange : Nat.ofDigitChars 10 s.toList 0 < 2 ^ 63) :
    parseInt64 s = .ok (Nat.ofDigitChars 10 s.toList 0 : Nat) := by
  have hdigitsEq : parseDigits s.toList 0 = .ok (Nat.ofDigitChars 10 s.toList 0) :=
    parseDigits_eq hdigits (by omega)
  simp only [parseInt64, splitSign_of_digits hdigits, if_neg hne, hdigitsEq, if_pos hrange]
  simp

/-- What is read without error are digits only, with a value in range. -/
theorem digits_of_parseDigits {cs : List Char} {value n : Nat}
    (hparse : parseDigits cs value = .ok n) :
    (∀ c ∈ cs, c.isDigit = true) ∧ n = Nat.ofDigitChars 10 cs value := by
  induction cs generalizing value with
  | nil =>
      obtain rfl := Except.ok.inj hparse
      simp
  | cons c cs ih =>
      rw [parseDigits] at hparse
      split at hparse
      next hc =>
        split at hparse
        next =>
          obtain ⟨hall, hn⟩ := ih hparse
          exact ⟨List.forall_mem_cons.mpr ⟨hc, hall⟩, by rw [Nat.ofDigitChars_cons, hn]⟩
        next => cases hparse
      next => cases hparse

/-- The value of a text as a decimal numeral. -/
def decimal (s : String) : Nat := Nat.ofDigitChars 10 s.toList 0

/-- The text consists of digits, at least one. -/
def Digits (s : String) : Prop := s.toList ≠ [] ∧ ∀ c ∈ s.toList, c.isDigit = true

/-- A decimal numeral below `2 ^ 63`, without a sign. -/
def Numeral (s : String) : Prop := Digits s ∧ decimal s < 2 ^ 63

/-- A sign in front of digits, with a value in the signed 64-bit range. -/
def SignedNumeral (s : String) : Prop :=
  ∃ digits, Digits digits ∧
    (s = "+" ++ digits ∧ decimal digits < 2 ^ 63 ∨ s = "-" ++ digits ∧ decimal digits ≤ 2 ^ 63)

/-- Digits carry no sign. -/
theorem Digits.not_signed {s : String} (hdigits : Digits s) : ¬ SignedNumeral s := by
  intro hsigned
  obtain ⟨digits, -, ⟨rfl, -⟩ | ⟨rfl, -⟩⟩ := hsigned
  · exact absurd (hdigits.2 '+' (by simp [String.toList_append])) (by decide)
  · exact absurd (hdigits.2 '-' (by simp [String.toList_append])) (by decide)

/-- A number starts with a digit or with a sign. -/
theorem head?_of_numeral {s : String} (hnumber : Numeral s ∨ SignedNumeral s) :
    ∃ c, s.toList.head? = some c ∧ (c.isDigit = true ∨ c = '+' ∨ c = '-') := by
  rcases hnumber with hplain | ⟨digits, -, ⟨rfl, -⟩ | ⟨rfl, -⟩⟩
  · obtain ⟨c, cs, hs⟩ := List.exists_cons_of_ne_nil hplain.1.1
    exact ⟨c, by rw [hs]; rfl, Or.inl (hplain.1.2 c (by simp [hs]))⟩
  · exact ⟨'+', by rw [String.toList_append]; rfl, Or.inr (Or.inl rfl)⟩
  · exact ⟨'-', by rw [String.toList_append]; rfl, Or.inr (Or.inr rfl)⟩

/-- A text parses if what follows its sign are digits with a value in range. -/
theorem parseInt64_ok_iff_split {s : String} :
    (∃ n, parseInt64 s = .ok n) ↔
      ((splitSign s.toList).2 ≠ [] ∧ ∀ c ∈ (splitSign s.toList).2, c.isDigit = true) ∧
        if (splitSign s.toList).1 then Nat.ofDigitChars 10 (splitSign s.toList).2 0 ≤ 2 ^ 63
        else Nat.ofDigitChars 10 (splitSign s.toList).2 0 < 2 ^ 63 := by
  simp only [parseInt64]
  generalize splitSign s.toList = signed
  by_cases hempty : signed.2 = []
  · simp [hempty]
  · rw [if_neg hempty]
    apply Iff.intro
    · intro hok
      obtain ⟨n, hn⟩ := hok
      cases hdigits : parseDigits signed.2 0 with
      | error e =>
          rw [hdigits] at hn
          cases hn
      | ok magnitude =>
          obtain ⟨hall, rfl⟩ := digits_of_parseDigits hdigits
          rw [hdigits] at hn
          apply And.intro ⟨hempty, hall⟩
          cases hsign : signed.1 with
          | true =>
              simp only [hsign, if_true] at hn ⊢
              split at hn
              next hrange => exact hrange
              next => cases hn
          | false =>
              simp only [hsign, Bool.false_eq_true, if_false] at hn ⊢
              split at hn
              next hrange => exact hrange
              next => cases hn
    · intro hall
      have hrange : Nat.ofDigitChars 10 signed.2 0 < 2 ^ 64 := by
        have hbound := hall.2
        split at hbound <;> omega
      rw [parseDigits_eq hall.1.2 hrange]
      have hbound := hall.2
      split at hbound
      next hsign =>
        simp only [hsign, if_true, if_pos hbound]
        exact ⟨_, rfl⟩
      next hsign =>
        simp only [hsign, Bool.false_eq_true, if_false, if_pos hbound]
        exact ⟨_, rfl⟩

theorem splitSign_plus (s : String) : splitSign ("+" ++ s).toList = (false, s.toList) := by
  rw [String.toList_append]
  rfl

theorem splitSign_minus (s : String) : splitSign ("-" ++ s).toList = (true, s.toList) := by
  rw [String.toList_append]
  rfl

/-- **What parses.** A text is a signed 64-bit integer if and only if it is a numeral
with or without a sign. -/
theorem parseInt64_ok_iff {s : String} :
    (∃ n, parseInt64 s = .ok n) ↔ Numeral s ∨ SignedNumeral s := by
  rw [parseInt64_ok_iff_split]
  apply Iff.intro
  · intro hsplit
    cases hs : s.toList with
    | nil => exact absurd (by rw [hs]; rfl) hsplit.1.1
    | cons c cs =>
        have hrest : ∀ sign : String, sign.toList = [c] → s = sign ++ String.ofList cs := by
          intro sign hsign
          apply String.toList_injective
          rw [String.toList_append, hsign, hs, String.toList_ofList, List.singleton_append]
        rw [hs] at hsplit
        by_cases hminus : c = '-'
        · subst hminus
          refine Or.inr ⟨String.ofList cs, ?_, Or.inr ⟨hrest "-" rfl, ?_⟩⟩
          · simpa [Digits, splitSign] using hsplit.1
          · simpa [decimal, splitSign] using hsplit.2
        · by_cases hplus : c = '+'
          · subst hplus
            refine Or.inr ⟨String.ofList cs, ?_, Or.inl ⟨hrest "+" rfl, ?_⟩⟩
            · simpa [Digits, splitSign] using hsplit.1
            · simpa [decimal, splitSign] using hsplit.2
          · simp only [splitSign, if_neg hminus, if_neg hplus] at hsplit
            have hdigits : Digits s := by
              rw [Digits, hs]
              exact hsplit.1
            exact Or.inl ⟨hdigits, by simpa [decimal, hs] using hsplit.2⟩
  · intro hnumeral
    rcases hnumeral with hplain | ⟨digits, hdigits, ⟨rfl, hrange⟩ | ⟨rfl, hrange⟩⟩
    · rw [splitSign_of_digits hplain.1.2]
      exact ⟨hplain.1, by simpa [decimal] using hplain.2⟩
    · rw [splitSign_plus]
      exact ⟨hdigits, by simpa [decimal] using hrange⟩
    · rw [splitSign_minus]
      exact ⟨hdigits, by simpa [decimal] using hrange⟩

theorem toList_toString_natCast (n : Nat) :
    (toString (n : Int)).toList = Nat.toDigits 10 n := by
  show (toString n).toList = _
  rw [Nat.toString_eq_repr, Nat.toList_repr]

/-- Parsing undoes printing for nonnegative 64-bit integers. -/
theorem parseInt64_toString {n : Int} (hnonneg : 0 ≤ n) (hrange : n < 2 ^ 63) :
    parseInt64 (toString n) = .ok n := by
  obtain ⟨m, rfl⟩ := Int.eq_ofNat_of_zero_le hnonneg
  have hchars : (toString (m : Int)).toList = Nat.toDigits 10 m := toList_toString_natCast m
  have hvalue : Nat.ofDigitChars 10 (toString (m : Int)).toList 0 = m := by
    rw [hchars, Nat.ofDigitChars_ten_toDigits]
  rw [parseInt64_digits, hvalue]
  · rw [hchars]
    exact Nat.toDigits_ne_nil
  · rw [hchars]
    intro c hc
    exact Nat.isDigit_of_mem_toDigits (by decide) (by decide) hc
  · rw [hvalue]
    omega

end Text
