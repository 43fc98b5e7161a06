/-
# Percent-encoded text

A percent sign and two hexadecimal digits stand for an octet, and the octets that stand
next to each other are UTF-8. Decoding fails on a percent sign without two digits, and on
octets that are not the shortest encoding of a character.
-/

import Mathlib.Data.List.Basic

namespace PercentEncoding

/-- The value of a hexadecimal digit. -/
def hexDigit (c : Char) : Option Nat :=
  if '0' ≤ c ∧ c ≤ '9' then some (c.toNat - '0'.toNat)
  else if 'a' ≤ c ∧ c ≤ 'f' then some (c.toNat - 'a'.toNat + 10)
  else if 'A' ≤ c ∧ c ≤ 'F' then some (c.toNat - 'A'.toNat + 10)
  else none

/-- A character that stands for itself, or an octet. -/
inductive Piece
  | char (c : Char)
  | octet (value : Nat)

/-- The pieces of a text. -/
def pieces : List Char → Option (List Piece)
  | [] => some []
  | '%' :: high :: low :: rest => do
      let high ← hexDigit high
      let low ← hexDigit low
      let others ← pieces rest
      return .octet (high * 16 + low) :: others
  | c :: rest => do
      if c = '%' then none
      let others ← pieces rest
      return .char c :: others

/-- The bits that an octet adds to a character it does not start. -/
def continuation : Piece → Option Nat
  | .octet value => if 0x80 ≤ value ∧ value < 0xC0 then some (value - 0x80) else none
  | .char _ => none

/-- The character with a code that has no shorter encoding. -/
def scalar (least code : Nat) : Option Char :=
  if least ≤ code ∧ code.isValidChar then some (Char.ofNat code) else none

/-- The characters that pieces stand for. -/
def assemble : List Piece → Option (List Char)
  | [] => some []
  | .char c :: rest => (assemble rest).map (c :: ·)
  | .octet lead :: rest =>
      if lead < 0x80 then (assemble rest).map (Char.ofNat lead :: ·)
      else if 0xC0 ≤ lead ∧ lead < 0xE0 then
        match rest with
        | p₁ :: rest => do
            let c ← scalar 0x80 ((lead - 0xC0) * 0x40 + (← continuation p₁))
            (assemble rest).map (c :: ·)
        | _ => none
      else if 0xE0 ≤ lead ∧ lead < 0xF0 then
        match rest with
        | p₁ :: p₂ :: rest => do
            let c ← scalar 0x800 (((lead - 0xE0) * 0x40 + (← continuation p₁)) * 0x40 +
              (← continuation p₂))
            (assemble rest).map (c :: ·)
        | _ => none
      else if 0xF0 ≤ lead ∧ lead < 0xF8 then
        match rest with
        | p₁ :: p₂ :: p₃ :: rest => do
            let c ← scalar 0x10000 ((((lead - 0xF0) * 0x40 + (← continuation p₁)) * 0x40 +
              (← continuation p₂)) * 0x40 + (← continuation p₃))
            (assemble rest).map (c :: ·)
        | _ => none
      else none

/-- The text that a percent-encoded text stands for. -/
def decode (s : String) : Option String :=
  ((pieces s.toList).bind assemble).map String.ofList

example : decode "caf%C3%a9 50%25" = some "café 50%" ∧ decode "50%" = none ∧
    decode "%C0%80" = none ∧ decode "%ED%A0%80" = none := by
  decide +kernel

end PercentEncoding
