import FieldDiscovery.Lib.Str
import FieldDiscovery.Lib.Sorted

/-!
# JSON values and their serialization

`json.dumps` with `sort_keys=True`. A number that is not an integer is given by its `repr`, which is
what `json` writes; the values `nan` and `inf` are apart, since `allow_nan=False` refuses them.
-/

namespace Py

/-- `JsonValue`: a scalar, a `list` or a `dict` with `str` keys. -/
inductive Json where
  | null
  | bool (b : Bool)
  | int (n : Int)
  | float (repr : Str)
  /-- `NaN`, `Infinity` or `-Infinity`. -/
  | nonFinite (rendering : Str)
  | string (s : Str)
  | list (items : List Json)
  | dict (items : List (Str × Json))

/-- The keyword arguments of `json.dumps` besides `sort_keys=True`. -/
structure DumpStyle where
  ensureAscii : Bool := true
  itemSeparator : Str := str ", "
  keySeparator : Str := str ": "

/-- `separators=(",", ":")` -/
def DumpStyle.compact (ensureAscii : Bool) : DumpStyle := ⟨ensureAscii, str ",", str ":"⟩

/-- A hexadecimal digit in lower case. -/
def hexDigit (n : Nat) : CodePoint :=
  if n % 16 < 10 then Fin.ofNat _ (48 + n % 16) else Fin.ofNat _ (87 + n % 16)

/-- `\uXXXX` -/
def unicodeEscape (n : Nat) : Str :=
  str "\\u" ++ [hexDigit (n / 4096), hexDigit (n / 256), hexDigit (n / 16), hexDigit n]

/-- One character of a string. -/
def escapeChar (ensureAscii : Bool) (c : CodePoint) : Str :=
  if c = cp '"' then str "\\\""
  else if c = cp '\\' then str "\\\\"
  else if c = cp '\n' then str "\\n"
  else if c = cp '\r' then str "\\r"
  else if c = cp '\t' then str "\\t"
  else if c.val = 12 then str "\\f"
  else if c.val = 8 then str "\\b"
  else if c.val < 32 then unicodeEscape c.val
  else if c.val < 127 ∨ ensureAscii = false then [c]
  else if c.val < 0x10000 then unicodeEscape c.val
  else unicodeEscape (0xD800 + (c.val - 0x10000) / 0x400) ++
    unicodeEscape (0xDC00 + (c.val - 0x10000) % 0x400)

/-- A string with its quotation marks. -/
def quoted (ensureAscii : Bool) (s : Str) : Str :=
  str "\"" ++ s.flatMap (escapeChar ensureAscii) ++ str "\""

/-- `str(n)` of an `int`. -/
def intStr (n : Int) : Str := if n < 0 then str "-" ++ natStr n.natAbs else natStr n.natAbs

namespace Json

mutual

/-- `json.dumps(value, sort_keys=True, ...)` -/
def dumps (style : DumpStyle) : Json → Str
  | null => str "null"
  | bool b => if b then str "true" else str "false"
  | int n => intStr n
  | float repr => repr
  | nonFinite rendering => rendering
  | string s => quoted style.ensureAscii s
  | list items => str "[" ++ join style.itemSeparator (dumpsItems style items) ++ str "]"
  | dict items =>
    str "\x7b" ++ join style.itemSeparator ((sortedBy Prod.fst (dumpsFields style items)).map
      fun p => quoted style.ensureAscii p.1 ++ style.keySeparator ++ p.2) ++ str "\x7d"

/-- The items of a `list`. -/
def dumpsItems (style : DumpStyle) : List Json → List Str
  | [] => []
  | v :: vs => dumps style v :: dumpsItems style vs

/-- The values of a `dict` under their keys. -/
def dumpsFields (style : DumpStyle) : List (Str × Json) → List (Str × Str)
  | [] => []
  | (k, v) :: rest => (k, dumps style v) :: dumpsFields style rest

end

mutual

/-- `allow_nan=False` accepts the value. -/
def isFinite : Json → Bool
  | nonFinite _ => false
  | list items => areFinite items
  | dict items => fieldsFinite items
  | _ => true

def areFinite : List Json → Bool
  | [] => true
  | v :: vs => isFinite v && areFinite vs

def fieldsFinite : List (Str × Json) → Bool
  | [] => true
  | (_, v) :: rest => isFinite v && fieldsFinite rest

end

end Json

end Py
