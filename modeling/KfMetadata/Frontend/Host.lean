/-
# The browser

What the pages rely on of the language they are written in and of the browser that runs
it: the values that table cells hold, and how they compare and print; the values that a
parsed text can have; and the few functions whose result depends on tables or number
formats of the browser, which are collected in one structure.
-/

import KfMetadata.Library.Keyed
import KfMetadata.Library.PercentEncoding
import Mathlib.Data.List.Infix
import Mathlib.Data.Rat.Defs

namespace KfMetadata.Frontend

/-- The 16-bit units of a character. -/
def codeUnits (c : Char) : List Nat :=
  if c.toNat < 0x10000 then [c.toNat]
  else [0xD800 + (c.toNat - 0x10000) / 0x400, 0xDC00 + (c.toNat - 0x10000) % 0x400]

/-- Texts are ordered by their 16-bit units. -/
def textLess (a b : String) : Bool :=
  decide (a.toList.flatMap codeUnits < b.toList.flatMap codeUnits)

/-- Whether a text occurs in another. -/
def includes (hay needle : String) : Bool := decide (needle.toList <:+: hay.toList)

/-- A number, up to the sign of zero. -/
inductive Number
  | nan
  | infinity (negative : Bool)
  | finite (value : ℚ)
  deriving DecidableEq

namespace Number

/-- Whether a number is less than another; never when either is not a number. -/
def less : Number → Number → Bool
  | .nan, _ => false
  | _, .nan => false
  | .infinity true, .infinity true => false
  | .infinity true, _ => true
  | .infinity false, _ => false
  | .finite _, .infinity negative => !negative
  | .finite a, .finite b => a < b

/-- Zero and what is not a number count as false. -/
def truthy : Number → Bool
  | .nan => false
  | .infinity _ => true
  | .finite value => value ≠ 0

end Number

/-- What a cell of a row holds. -/
inductive Cell
  | undefined
  | null
  | text (value : String)
  | number (value : Number)
  deriving DecidableEq

namespace Cell

def truthy : Cell → Bool
  | .undefined => false
  | .null => false
  | .text value => value ≠ ""
  | .number value => value.truthy

/-- The first cell, unless it counts as false. -/
def or (first second : Cell) : Cell :=
  if first.truthy then first else second

end Cell

/-- The values of a parsed text. The fields of an object have different names. -/
inductive Json
  | null
  | bool (value : Bool)
  | number (value : Number)
  | string (value : String)
  | array (items : List Json)
  | object (fields : List (String × Json))

namespace Json

/-- Whether a value counts as true; a missing one does not. -/
def truthy : Option Json → Bool
  | none => false
  | some .null => false
  | some (.bool value) => value
  | some (.number value) => value.truthy
  | some (.string value) => value ≠ ""
  | some (.array _) => true
  | some (.object _) => true

/-- Whether a value is the number zero. -/
def isZero : Option Json → Bool
  | some (.number value) => value = .finite 0
  | _ => false

/-- Read a property of a value. It is missing from most, and reading it fails on a missing
value and on null. -/
def property (value : Option Json) (name : String) : Except Unit (Option Json) :=
  match value with
  | none => .error ()
  | some .null => .error ()
  | some (.object fields) => .ok ((Keyed.find Prod.fst fields name).map Prod.snd)
  | some (.array items) =>
      .ok (if name = "length" then some (.number (.finite items.length))
        else if name = "0" then items.head?
        else none)
  | some (.string value) =>
      let units := value.toList.flatMap codeUnits
      .ok (if name = "length" then some (.number (.finite units.length))
        else if name = "0" then value.toList.head?.map fun c => .string (String.singleton c)
        else none)
  | some _ => .ok none

end Json

/-- An error that is thrown. Those that a service sends have a code. -/
structure Thrown where
  message : String
  code : Option Int
  deriving DecidableEq, Repr

/-- Whether a row shows the rows of its group. -/
inductive ExpandState
  | collapsed
  | expanded
  | none
  deriving DecidableEq, Repr

/-- A row of a table. -/
structure Row where
  expandState : Option ExpandState
  id : String
  otherFields : List Cell
  deriving DecidableEq

/-- The functions whose results the browser decides. -/
structure Host where
  numberToString : Number → String
  stringToNumber : String → Number
  toLowerCase : String → String
  /-- The value of a text; nothing if the text has none. -/
  jsonParse : String → Option Json
  /-- A list in an order that a comparison suggests. The order is up to the browser where
  the comparison is not that of any order. -/
  sort : (Row → Row → Int) → List Row → List Row
  /-- Sorting keeps every row. -/
  sort_perm : ∀ compare rows, (sort compare rows).Perm rows
  /-- What the error says that is thrown for a text that cannot be decoded. -/
  malformedMessage : String

namespace Host

variable (host : Host)

/-- The number that a cell compares as. -/
def toNumber : Cell → Number
  | .undefined => .nan
  | .null => .finite 0
  | .text value => host.stringToNumber value
  | .number value => value

/-- Whether a cell is less than another: as texts if both are, else as numbers. -/
def less : Cell → Cell → Bool
  | .text a, .text b => textLess a b
  | a, b => (host.toNumber a).less (host.toNumber b)

/-- What a cell adds to the text of its row. -/
def joined : Cell → String
  | .undefined => ""
  | .null => ""
  | .text value => value
  | .number value => host.numberToString value

/-- A cell as text. -/
def toText : Cell → String
  | .undefined => "undefined"
  | .null => "null"
  | .text value => value
  | .number value => host.numberToString value

mutual

/-- A parsed value as text. The conversion fails on an object with a field that hides how
objects are converted. -/
def jsonText : Json → Except Unit String
  | .null => .ok "null"
  | .bool value => .ok (if value then "true" else "false")
  | .number value => .ok (host.numberToString value)
  | .string value => .ok value
  | .array items => (jsonTexts items).map (",".intercalate ·)
  | .object fields =>
      if fields.any (·.1 = "toString") then .error () else .ok "[object Object]"

/-- The items of an array as texts, where null is left blank. -/
def jsonTexts : List Json → Except Unit (List String)
  | [] => .ok []
  | item :: items => do
      let text ← match item with
        | .null => pure ""
        | item => jsonText item
      let texts ← jsonTexts items
      return text :: texts

end

/-- The text that a percent-encoded text stands for. -/
def decodeURIComponent (encoded : String) : Except Thrown String :=
  match PercentEncoding.decode encoded with
  | some decoded => .ok decoded
  | none => .error ⟨host.malformedMessage, none⟩

end Host

end KfMetadata.Frontend
