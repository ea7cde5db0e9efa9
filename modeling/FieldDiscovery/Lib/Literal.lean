import FieldDiscovery.Lib.Codec
import FieldDiscovery.Lib.Runtime

/-!
# String literals

`json.loads` on a text that starts with a quotation mark, and `ast.literal_eval` on a single
Python string or bytes literal.
-/

namespace Py

/-- The code point of hexadecimal digits, when it is one. -/
def hexCodePoint (s : Str) : Option CodePoint :=
  if h : s ≠ [] ∧ s.all isHex ∧ hexNumber s < 1114112 then some ⟨hexNumber s, h.2.2⟩ else none

/-! ## JSON -/

/-- The characters that JSON escapes with one letter. -/
def jsonEscape (c : CodePoint) : Option CodePoint :=
  if c = cp '"' ∨ c = cp '\\' ∨ c = cp '/' then some c
  else if c = cp 'b' then some (cp '\x08')
  else if c = cp 'f' then some (cp '\x0c')
  else if c = cp 'n' then some (cp '\n')
  else if c = cp 'r' then some (cp '\r')
  else if c = cp 't' then some (cp '\t')
  else none

/-- The pair of surrogates `high`, `low` as one code point. -/
def joinSurrogates (high low : CodePoint) : CodePoint :=
  Fin.ofNat _ (0x10000 + (high.val - 0xD800) * 1024 + (low.val - 0xDC00))

/-- The rest of a JSON string after its opening quotation mark: the decoded text, and what follows
the closing one. -/
def jsonString : Nat → Str → Option (Str × Str)
  | 0, _ => none
  | _, [] => none
  | fuel + 1, c :: s =>
    if c = cp '"' then some ([], s)
    else if c.val < 32 then none
    else if c ≠ cp '\\' then (jsonString fuel s).map fun m => (c :: m.1, m.2)
    else
      match s with
      | [] => none
      | d :: s =>
        if d = cp 'u' then do
          let c ← if 4 ≤ s.length then hexCodePoint (s.take 4) else none
          let s := s.drop 4
          let low := if s.take 2 = str "\\u" then hexCodePoint ((s.drop 2).take 4) else none
          let joined := low.filter fun low => decide (0xD800 ≤ c.val ∧ c.val ≤ 0xDBFF ∧
            6 ≤ s.length ∧ 0xDC00 ≤ low.val ∧ low.val ≤ 0xDFFF)
          match joined with
          | some low =>
            let m ← jsonString fuel (s.drop 6)
            some (joinSurrogates c low :: m.1, m.2)
          | none =>
            let m ← jsonString fuel s
            some (c :: m.1, m.2)
        else do
          let c ← jsonEscape d
          let m ← jsonString fuel s
          some (c :: m.1, m.2)

def isJsonSpace (c : CodePoint) : Bool :=
  c = cp ' ' || c = cp '\t' || c = cp '\n' || c = cp '\r'

/-- `json.loads(text)` for a text that starts with a quotation mark; `none` is
`JSONDecodeError`. -/
def jsonLoadsString (text : Str) : Option Str :=
  match text with
  | [] => none
  | _ :: s =>
    match jsonString text.length s with
    | some (value, rest) => if rest.all isJsonSpace then some value else none
    | none => none

/-! ## Python -/

def isOctal (c : CodePoint) : Bool := 48 ≤ c.val && c.val ≤ 55

/-- The characters that Python escapes with one letter. -/
def pyEscape (c : CodePoint) : Option CodePoint :=
  if c = cp '\\' ∨ c = cp '\'' ∨ c = cp '"' then some c
  else if c = cp 'a' then some (cp '\x07')
  else if c = cp 'b' then some (cp '\x08')
  else if c = cp 'f' then some (cp '\x0c')
  else if c = cp 'n' then some (cp '\n')
  else if c = cp 'r' then some (cp '\r')
  else if c = cp 't' then some (cp '\t')
  else if c = cp 'v' then some (cp '\x0b')
  else none

/-- The value of the escape sequence after a backslash, and what follows it; `none` is
`SyntaxError`. An unknown escape keeps its backslash. -/
def pyEscapeSequence (rt : Runtime) (bytes : Bool) (c : CodePoint) (s : Str) :
    Option (Str × Str) :=
  let hex (n : Nat) : Option (Str × Str) :=
    if n ≤ s.length then (hexCodePoint (s.take n)).map fun c => ([c], s.drop n) else none
  match pyEscape c with
  | some d => some ([d], s)
  | none =>
    if c = cp '\n' then some ([], s)
    else if isOctal c then
      let digits := c :: (s.take 2).takeWhile isOctal
      let n := digits.foldl (fun n c => 8 * n + (c.val - 48)) 0
      some ([Fin.ofNat _ (if bytes then n % 256 else n)], s.drop (digits.length - 1))
    else if c = cp 'x' then hex 2
    else if bytes then some ([cp '\\', c], s)
    else if c = cp 'u' then hex 4
    else if c = cp 'U' then hex 8
    else if c = cp 'N' then
      match s with
      | d :: s' =>
        let name := s'.takeWhile (· != cp '\x7d')
        if d = cp '\x7b' ∧ name.length < s'.length then
          (rt.namedChar name).map fun c => ([c], s'.drop (name.length + 1))
        else none
      | [] => none
    else some ([cp '\\', c], s)

/-- The value of the text between the quotation marks of a literal on one line. -/
def pyBody (rt : Runtime) (bytes : Bool) : Nat → Str → Option Str
  | 0, _ => some []
  | _ + 1, [] => some []
  | fuel + 1, c :: s =>
    if c = cp '\n' ∨ c.val = 0 ∨ isSurrogate c ∨ (bytes ∧ 128 ≤ c.val) then none
    else if c ≠ cp '\\' then (pyBody rt bytes fuel s).map (c :: ·)
    else
      match s with
      | [] => none
      | d :: s =>
        if d.val = 0 ∨ isSurrogate d ∨ (bytes ∧ 128 ≤ d.val) then none
        else do
          let (value, rest) ← pyEscapeSequence rt bytes d s
          let tail ← pyBody rt bytes fuel rest
          some (value ++ tail)

/-- Source text reads `\r\n` and `\r` as newlines. -/
def universalNewlines : Str → Str
  | [] => []
  | c :: s =>
    if c = cp '\r' then
      if s.head? = some (cp '\n') then universalNewlines s else cp '\n' :: universalNewlines s
    else c :: universalNewlines s

/-- `ast.literal_eval(token)` for one quoted token, prefixed by `b` for bytes, which are then
decoded as ASCII; `none` is an error of either. -/
def literalEvalKey (rt : Runtime) (token : Str) : Option Str :=
  let bytes := token.head?.any fun c => c = cp 'b' || c = cp 'B'
  let quoted := if bytes then token.drop 1 else token
  let body := universalNewlines ((quoted.drop 1).dropLast)
  (pyBody rt bytes body.length body).filter fun value => !bytes || value.all isAscii

end Py
