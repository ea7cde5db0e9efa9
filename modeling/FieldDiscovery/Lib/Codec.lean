import FieldDiscovery.Lib.Regex

/-!
# Byte codecs

UTF-8 decoding, percent encoding, hexadecimal and base64, as `bytes.decode`, `urllib.parse` and
`base64` define them.
-/

namespace Py

/-! ## UTF-8 decoding -/

def isContinuation (b : Byte) : Bool := 0x80 ≤ b.val && b.val ≤ 0xBF

/-- The second bytes that may follow a lead byte. -/
def isSecond (lead b : Byte) : Bool :=
  isContinuation b && (lead.val != 0xE0 || 0xA0 ≤ b.val) && (lead.val != 0xED || b.val ≤ 0x9F) &&
    (lead.val != 0xF0 || 0x90 ≤ b.val) && (lead.val != 0xF4 || b.val ≤ 0x8F)

/-- The length of the sequence a lead byte announces; `0` for a byte that leads none. -/
def leadLength (b : Byte) : Nat :=
  if b.val < 0x80 then 1
  else if 0xC2 ≤ b.val ∧ b.val ≤ 0xDF then 2
  else if 0xE0 ≤ b.val ∧ b.val ≤ 0xEF then 3
  else if 0xF0 ≤ b.val ∧ b.val ≤ 0xF4 then 4
  else 0

/-- The code point of a well-formed sequence. -/
def utf8Value : List Byte → CodePoint
  | [a] => Fin.ofNat _ a.val
  | [a, b] => Fin.ofNat _ (a.val % 32 * 64 + b.val % 64)
  | [a, b, c] => Fin.ofNat _ (a.val % 16 * 4096 + b.val % 64 * 64 + c.val % 64)
  | [a, b, c, d] =>
    Fin.ofNat _ (a.val % 8 * 262144 + b.val % 64 * 4096 + c.val % 64 * 64 + d.val % 64)
  | _ => Fin.ofNat _ 0xFFFD

/-- The sequence at the front: its bytes, and whether it is well formed. An ill-formed sequence is
its longest prefix that could have been continued. -/
def utf8Front : List Byte → List Byte × Bool
  | [] => ([], false)
  | a :: bs =>
    match leadLength a with
    | 0 => ([a], false)
    | 1 => ([a], true)
    | n + 2 =>
      match bs with
      | [] => ([a], false)
      | b :: bs =>
        if isSecond a b then
          let tail := (bs.take n).takeWhile isContinuation
          (a :: b :: tail, decide (tail.length = n))
        else ([a], false)

/-- The sequences of a byte string. -/
def utf8Split : Nat → List Byte → List (List Byte × Bool)
  | 0, _ => []
  | _ + 1, [] => []
  | fuel + 1, a :: bs =>
    let front := utf8Front (a :: bs)
    front :: utf8Split fuel ((a :: bs).drop front.1.length)

/-- `data.decode("utf-8", "replace")`. -/
def decodeUtf8Replace (data : List Byte) : Str :=
  (utf8Split data.length data).map fun front =>
    if front.2 then utf8Value front.1 else Fin.ofNat _ 0xFFFD

/-- `data.decode("utf-8")`; `none` is `UnicodeDecodeError`. -/
def decodeUtf8 (data : List Byte) : Option Str :=
  (utf8Split data.length data).mapM fun front => if front.2 then some (utf8Value front.1) else none

/-! ## Hexadecimal -/

/-- The value of a hexadecimal digit. -/
def hexValue (c : CodePoint) : Nat :=
  if isDigit c then c.val - 48 else if isLower c then c.val - 87 else c.val - 55

/-- The number written by hexadecimal digits. -/
def hexNumber (s : Str) : Nat := s.foldl (fun n c => 16 * n + hexValue c) 0

def upperHexDigit (n : Nat) : CodePoint :=
  if n % 16 < 10 then Fin.ofNat _ (48 + n % 16) else Fin.ofNat _ (55 + n % 16)

def upperHex (b : Byte) : Str := [upperHexDigit (b.val / 16), upperHexDigit b.val]

/-- `data.hex()`. -/
def hexBytes (data : List Byte) : Str := data.flatMap fun b => (upperHex b).map lowerAscii

/-- `bytes.fromhex(s)` for a string of hexadecimal digits. -/
def fromHex : Str → Option (List Byte)
  | [] => some []
  | [_] => none
  | a :: b :: s => (fromHex s).map fun bytes => Fin.ofNat _ (hexNumber [a, b]) :: bytes

/-! ## Percent encoding -/

/-- `_ALWAYS_SAFE` of `urllib.parse`. -/
def isUnreserved (c : CodePoint) : Bool := isAsciiAlnum c || c ∈ str "_.-~"

/-- `quote(s, safe=safe)`; `none` is `UnicodeEncodeError`. -/
def quote (s : Str) (safe : Str := []) : Option Str :=
  (encodeUtf8 s).map fun data => data.flatMap fun b =>
    let c : CodePoint := Fin.ofNat _ b.val
    if b.val < 128 && (isUnreserved c || c ∈ safe) then [c] else cp '%' :: upperHex b

/-- `quote_plus(s, safe="")`. -/
def quotePlus (s : Str) : Option Str :=
  if cp ' ' ∈ s then (quote s (str " ")).map (replace (str " ") (str "+")) else quote s

/-- `re.sub(r"%[0-9A-F]{2}", lambda match: match.group().lower(), s)`. -/
def lowerEscapes (s : Str) : Str :=
  rewrite [.re (.seq (.lit '%') (.times 2 (.chr fun c => isDigit c || (isHex c && isUpper c))))]
    (fun pieces => pieces.flatten.map lowerAscii) s

/-- `unquote_to_bytes` of an ASCII string. -/
def unquoteToBytes : Str → List Byte
  | [] => []
  | c :: a :: b :: s =>
    if c = cp '%' ∧ isHex a ∧ isHex b then Fin.ofNat _ (hexNumber [a, b]) :: unquoteToBytes s
    else Fin.ofNat _ c.val :: unquoteToBytes (a :: b :: s)
  | c :: s => Fin.ofNat _ c.val :: unquoteToBytes s

/-- `unquote_plus(s)`: each run of ASCII is unquoted and decoded on its own. -/
def unquotePlus (s : Str) : Str :=
  let spaced := s.map fun c => if c = cp '+' then cp ' ' else c
  if cp '%' ∈ spaced then
    (spaced.splitBy fun a b => (a.val < 128) == (b.val < 128)).flatMap fun run =>
      if run.all (·.val < 128) then decodeUtf8Replace (unquoteToBytes run) else run
  else spaced

/-! ## Base64 -/

def base64Digit (plus slash : CodePoint) (n : Nat) : CodePoint :=
  if n < 26 then Fin.ofNat _ (65 + n)
  else if n < 52 then Fin.ofNat _ (71 + n)
  else if n < 62 then Fin.ofNat _ (n - 4)
  else if n = 62 then plus else slash

/-- Base64 with the given last two digits. -/
def base64With (plus slash : CodePoint) : List Byte → Str
  | [] => []
  | [a] => [base64Digit plus slash (a.val / 4), base64Digit plus slash (a.val % 4 * 16), cp '=',
      cp '=']
  | [a, b] => [base64Digit plus slash (a.val / 4),
      base64Digit plus slash (a.val % 4 * 16 + b.val / 16),
      base64Digit plus slash (b.val % 16 * 4), cp '=']
  | a :: b :: c :: rest => base64Digit plus slash (a.val / 4) ::
      base64Digit plus slash (a.val % 4 * 16 + b.val / 16) ::
      base64Digit plus slash (b.val % 16 * 4 + c.val / 64) ::
      base64Digit plus slash (c.val % 64) :: base64With plus slash rest

/-- `base64.b64encode(data).decode()`. -/
def b64encode : List Byte → Str := base64With (cp '+') (cp '/')

/-- `base64.urlsafe_b64encode(data).decode()`. -/
def urlsafeB64encode : List Byte → Str := base64With (cp '-') (cp '_')

end Py
