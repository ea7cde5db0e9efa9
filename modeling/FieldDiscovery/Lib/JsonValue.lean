import FieldDiscovery.Lib.Datetime
import FieldDiscovery.Lib.JsonLoads

/-!
# Working with loaded JSON values

What Python does with a value that `json.loads` returned and that nobody has checked: its truth
value, its `str`, its number as a double, and a timestamp read off it. A `list` or a `dict` is not
hashable, so it cannot be looked up in a set.
-/

namespace Py

/-! ## Doubles by their `repr` -/

/-- The double with this `repr`; `none` for `nan` and `inf`. -/
def floatValue (repr : Str) : Option ℚ := do
  let (integer, rest) ← jsonInteger repr
  let (fraction, rest) := jsonFraction rest
  let (exponent, _) := jsonExponent rest
  let digits := decimal ((integer ++ fraction).filter isDigit)
  let power : Int := decimal (exponent.filter isDigit)
  let power := if cp '-' ∈ exponent then -power else power
  let sign : ℚ := if repr.head? = some (cp '-') then -1 else 1
  toDouble (sign * digits * (10 : ℚ) ^ (power - fraction.tail.length))

/-- `datetime.fromtimestamp(q, UTC)` of a double that is not negative: the fraction of the second
is rounded to microseconds on its own. `none` is an exception. -/
def Datetime.fromTimestamp (q : ℚ) : Option Datetime := do
  let micros ← toDouble ((q - ⌊q⌋) * 1000000)
  Datetime.ofEpochMicros (⌊q⌋ * 1000000 + roundHalfEven micros)

/-! ## `repr` and `str` -/

section

-- `str.isprintable` of a code point outside ASCII
variable (printable : CodePoint → Bool)

/-- `\xXX`, `\uXXXX` or `\UXXXXXXXX` -/
def reprEscape (n : Nat) : Str :=
  if n < 0x100 then str "\\x" ++ [hexDigit (n / 16), hexDigit n]
  else if n < 0x10000 then unicodeEscape n
  else str "\\U" ++ [hexDigit (n / 0x10000000), hexDigit (n / 0x1000000), hexDigit (n / 0x100000),
    hexDigit (n / 0x10000)] ++ (unicodeEscape (n % 0x10000)).drop 2

/-- One character of the `repr` of a string between the quotation marks `quote`. -/
def reprChar (quote c : CodePoint) : Str :=
  if c = quote ∨ c = cp '\\' then [cp '\\', c]
  else if c = cp '\t' then str "\\t"
  else if c = cp '\n' then str "\\n"
  else if c = cp '\r' then str "\\r"
  else if c.val < 32 ∨ c.val = 127 then reprEscape c.val
  else if c.val < 127 ∨ printable c then [c]
  else reprEscape c.val

/-- The single quotation mark. -/
def singleQuote : CodePoint := Fin.ofNat _ 39

/-- `repr(s)` of a string. -/
def reprStr (s : Str) : Str :=
  let quote := if singleQuote ∈ s ∧ cp '"' ∉ s then cp '"' else singleQuote
  quote :: s.flatMap (reprChar printable quote) ++ [quote]

namespace Json

mutual

/-- `repr(value)` -/
def repr : Json → Str
  | null => str "None"
  | bool b => if b then str "True" else str "False"
  | int n => intStr n
  | float repr => repr
  | nonFinite rendering =>
    if rendering = str "NaN" then str "nan"
    else if rendering = str "Infinity" then str "inf"
    else str "-inf"
  | string s => reprStr printable s
  | list items => str "[" ++ join (str ", ") (reprItems items) ++ str "]"
  | dict items => str "\x7b" ++ join (str ", ") (reprFields items) ++ str "\x7d"

/-- The items of a `list`. -/
def reprItems : List Json → List Str
  | [] => []
  | v :: vs => repr v :: reprItems vs

/-- The items of a `dict`, in their order. -/
def reprFields : List (Str × Json) → List Str
  | [] => []
  | (k, v) :: rest => (reprStr printable k ++ str ": " ++ repr v) :: reprFields rest

end

/-- `str(value)` -/
def toStr : Json → Str
  | string s => s
  | v => v.repr printable

end Json

end

namespace Json

/-! ## Truth and membership -/

/-- `bool(value)` -/
def truthy : Json → Bool
  | null => false
  | bool b => b
  | int n => n ≠ 0
  | float repr => floatValue repr ≠ some 0
  | nonFinite _ => true
  | string s => s ≠ []
  | list items => !items.isEmpty
  | dict items => !items.isEmpty

/-- `hash(value)` returns. -/
def isHashable : Json → Bool
  | list _ | dict _ => false
  | _ => true

/-- `value == False`, which is also what a zero of any kind compares to. -/
def equalsFalse : Json → Bool
  | bool b => !b
  | int n => n = 0
  | float repr => floatValue repr = some 0
  | _ => false

/-- `record.get(key)` of a `dict`, with `None` for a missing key. -/
def field (record : Dict Str Json) (key : String) : Json := (record.get (str key)).getD .null

end Json

end Py
