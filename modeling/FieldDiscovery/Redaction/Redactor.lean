import FieldDiscovery.Lib.Literal
import FieldDiscovery.Lib.Sorted
import FieldDiscovery.Errors
import FieldDiscovery.Redaction.Patterns

/-!
# The redactor

`redaction.py`: the passes over a text in their order, and the recursion over structured values.

`json.loads` on the key of a JSON-like field is not guarded, so a text with a malformed quoted key
makes `text` raise. The order in which variants of one length are replaced is the iteration order
of a set, a parameter of the constructor.
-/

namespace FieldDiscovery.Redaction

open Py

/-- `REDACTED`. -/
def redacted : Str := str "[REDACTED]"

/-- `key.casefold() in {"authorization", "authentication"}`. -/
def isAuthorization (rt : Runtime) (key : Str) : Bool :=
  rt.casefold key = str "authorization" || rt.casefold key = str "authentication"

/-! ## Replacements of matches -/

/-- `_redact_quoted_authorization`. -/
def redactQuotedAuthorization : List Str → Str
  | [key, opening, _, closing] => key ++ opening ++ redacted ++ closing
  | pieces => pieces.flatten

/-- `_redact_json_authorization`. -/
def redactJsonAuthorization (rt : Runtime) : List Str → Except Exc Str
  | [key, separator, value] =>
    match jsonLoadsString key with
    | none => .error .jsonDecode
    | some name =>
      if isAuthorization rt name then .ok (key ++ separator ++ (str "\"" ++ redacted ++ str "\""))
      else .ok (key ++ separator ++ value)
  | pieces => .ok pieces.flatten

/-- `f'"{key[2:-2]}"'`, the key of an escaped field as a JSON text. -/
def unescapedKey (key : Str) : Str :=
  str "\"" ++ (key.drop 2).take (key.length - 4) ++ str "\""

/-- `_redact_escaped_json_authorization`. -/
def redactEscapedJsonAuthorization (rt : Runtime) : List Str → Except Exc Str
  | [key, separator, value] =>
    match jsonLoadsString (unescapedKey key) with
    | none => .error .jsonDecode
    | some name =>
      if isAuthorization rt name then
        .ok (key ++ separator ++ (str "\\\"" ++ redacted ++ str "\\\""))
      else .ok (key ++ separator ++ value)
  | pieces => .ok pieces.flatten

/-- `_is_authorization_key`. -/
def isAuthorizationKey (rt : Runtime) (token : Str) : Bool :=
  (literalEvalKey rt token).any (isAuthorization rt)

/-- `_is_escaped_authorization_key`. -/
def isEscapedAuthorizationKey (rt : Runtime) (token : Str) : Bool :=
  (jsonLoadsString (unescapedKey token)).any (isAuthorization rt)

/-! ## Authorization sequences -/

/-- `_MAX_SEQUENCE_DEPTH`. -/
def maxSequenceDepth : Nat := 16

/-- `_MAX_SEQUENCE_CHARS`. -/
def maxSequenceChars : Nat := 65536

def isQuote (c : CodePoint) : Bool := c == cp '\'' || c == cp '"'

/-- `pairs.get(character)`. -/
def closingOf (c : CodePoint) : Option CodePoint :=
  if c = cp '[' then some (cp ']') else if c = cp '(' then some (cp ')') else none

/-- The loop of `_sequence_end` over the characters from `index` up to the limit. -/
def sequenceScan (serialized : Bool) : Nat → Nat → List CodePoint → Option CodePoint → Bool →
    Str → Option Nat
  | 0, _, _, _, _, _ => none
  | _, _, _, _, _, [] => none
  | fuel + 1, index, stack, quote, escaped, c :: s =>
    let slashes := if serialized then (c :: s).takeWhile (· == cp '\\') else []
    let after := (c :: s).drop slashes.length
    if slashes ≠ [] ∧ after.head?.any isQuote then
      let quote := match quote with
        | none => after.head?
        | some q => if slashes.length % 4 = 1 ∧ after.head? = some q then none else some q
      sequenceScan serialized fuel (index + slashes.length + 1) stack quote escaped after.tail
    else
      match quote with
      | some q =>
        if escaped then sequenceScan serialized fuel (index + 1) stack quote false s
        else if c = cp '\\' then sequenceScan serialized fuel (index + 1) stack quote true s
        else if c = q then sequenceScan serialized fuel (index + 1) stack none escaped s
        else sequenceScan serialized fuel (index + 1) stack quote escaped s
      | none =>
        if isQuote c then sequenceScan serialized fuel (index + 1) stack (some c) escaped s
        else
          match closingOf c with
          | some closing =>
            if maxSequenceDepth ≤ stack.length then none
            else sequenceScan serialized fuel (index + 1) (closing :: stack) none escaped s
          | none =>
            if c = cp ']' ∨ c = cp ')' then
              if stack.head? ≠ some c then none
              else if stack.tail = [] then some (index + 1)
              else sequenceScan serialized fuel (index + 1) stack.tail none escaped s
            else sequenceScan serialized fuel (index + 1) stack none escaped s

/-- `_sequence_end(value, start)`, relative to the opening bracket that the text starts with. -/
def sequenceEnd (serialized : Bool) (text : Str) : Option Nat :=
  match text.take maxSequenceChars with
  | [] => none
  | bracket :: s =>
    sequenceScan serialized (s.length + 1) 1 [(closingOf bracket).getD bracket] none false s

/-- The first `\r?\n`: its offset and its length. -/
def firstNewline (text : Str) : Option (Nat × Nat) :=
  (search [.re newline] text).map fun m => (m.1.length, m.2.1.flatten.length)

/-- The loop of `_malformed_sequence_boundary`, with the text from `nextLine` on. -/
def boundaryLoop : Nat → Nat → Nat → Str → Nat
  | 0, boundary, _, _ => boundary
  | fuel + 1, boundary, nextLine, s =>
    if s.head?.any fun c => c == cp ' ' || c == cp '\t' then
      match firstNewline s with
      | none => nextLine + s.length
      | some (offset, length) =>
        boundaryLoop fuel (nextLine + offset) (nextLine + (offset + length))
          (s.drop (offset + length))
    else boundary

/-- `_malformed_sequence_boundary(value, start)`, relative to `start`. -/
def malformedSequenceBoundary (text : Str) : Nat :=
  match firstNewline text with
  | none => text.length
  | some (offset, length) =>
    boundaryLoop text.length offset (offset + length) (text.drop (offset + length))

/-- `key_is_authorization`. -/
def isSequenceKey (rt : Runtime) (serialized : Bool) (key : Str) : Bool :=
  if serialized then isEscapedAuthorizationKey rt key else isAuthorizationKey rt key

/-- `quote_character`. -/
def sequenceQuote (serialized : Bool) (key : Str) : Str :=
  if serialized then str "\\\"" else if cp '"' ∈ key then str "\"" else str "'"

/-- The loop of `_redact_authorization_sequences` over the text from the cursor on. -/
def sequenceLoop (rt : Runtime) (serialized : Bool) (pattern : Pattern) : Nat → Str → Str
  | 0, text => text
  | fuel + 1, text =>
    match search pattern text with
    | some (before, [key, separator, bracket], rest) =>
      if isSequenceKey rt serialized key then
        let sequence := bracket ++ rest
        let stop := (sequenceEnd serialized sequence).getD (malformedSequenceBoundary sequence)
        let quote := sequenceQuote serialized key
        before ++ key ++ separator ++ (quote ++ redacted ++ quote) ++
          sequenceLoop rt serialized pattern fuel (sequence.drop stop)
      else
        before ++ key ++ separator ++ bracket ++ sequenceLoop rt serialized pattern fuel rest
    | _ => text

/-- `_redact_authorization_sequences`. -/
def redactAuthorizationSequences (rt : Runtime) (serialized : Bool) (pattern : Pattern)
    (text : Str) : Str :=
  sequenceLoop rt serialized pattern text.length text

/-! ## Authorization headers -/

/-- `key.lower()` of a key of `_STRUCTURED_FIELD`. -/
def lowerKey (key : Str) : Str :=
  key.flatMap fun c =>
    if c.val = 0x130 then [cp 'i', Fin.ofNat _ 0x307]
    else if c.val = 0x212A then [cp 'k'] else [lowerAscii c]

/-- The loop over the fields of a header: where the redacted stretch ends. -/
def fieldBoundary (value : Str) (boundary : Nat) : Bool → List (Nat × List Str) → Nat
  | _, [] => boundary
  | parameterized, (offset, pieces) :: fields =>
    if boundary ≤ offset then boundary
    else
      let parameterized := parameterized || decide (cp '=' ∈ value.take offset)
      if pieces.getD 1 [] ≠ [] then offset
      else if !parameterized && lowerKey (pieces.getD 2 []) ∉ authParameters then offset
      else fieldBoundary value boundary true fields

/-- `boundary` of `_redact_authorization_header`. -/
def headerBoundary (value : Str) : Nat :=
  let boundary := match search semicolonField value with
    | some (before, _) => before.length
    | none => value.length
  fieldBoundary value boundary false (finditer structuredField value)

/-- `_AUTH_HEADER.sub(_redact_authorization_header, text)`. The replacement searches the rest of
its own match again, which is shorter than the text. -/
def redactHeaders (rt : Runtime) : Nat → Str → Str
  | 0, text => text
  | fuel + 1, text =>
    rewrite (authHeader rt) (fun
      | [start, name, value] => start ++ name ++ redacted ++
          redactHeaders rt fuel (value.drop (headerBoundary value))
      | pieces => pieces.flatten) text

/-! ## The redactor -/

/-- Redact known values, common encodings, and structural secret fields. -/
structure Redactor where
  variants : List Str
  registered : List Str

/-- The forms under which one secret is searched for; `none` is `UnicodeEncodeError`. -/
def secretVariants (rt : Runtime) (secret : Str) : Option (List Str) := do
  let raw ← encodeUtf8 secret
  let percent ← quote secret
  let doublePercent ← quote percent
  let percentLower := lowerEscapes percent
  let doublePercentLower ← quote percentLower
  let plus ← quotePlus secret
  let encoded := [b64encode raw, urlsafeB64encode raw]
  some ([secret, rt.casefold secret, percent, percentLower, doublePercent, doublePercentLower,
    lowerEscapes doublePercent, hexBytes raw, raw.flatMap upperHex, plus] ++ encoded ++
    encoded.map fun value => value.rdropWhile (· == cp '='))

/-- `Redactor(secrets)`. -/
def Redactor.new (rt : Runtime) (so : SetOrder) (secrets : List Str) : Except Exc Redactor :=
  let kept := secrets.filter (4 ≤ ·.length)
  match kept.mapM (secretVariants rt) with
  | none => .error .unicodeEncode
  | some variants => .ok
      { variants := sortedBy (fun v : Str => OrderDual.toDual v.length) (so.iterate variants.flatten)
        registered := kept.map rt.casefold }

namespace Redactor

variable (rt : Runtime) (r : Redactor)

/-- `_encoded`. -/
def encoded (candidate : Str) : Str :=
  let once := unquotePlus candidate
  if rt.casefold once ∈ r.registered || rt.casefold (unquotePlus once) ∈ r.registered then redacted
  else candidate

/-- `_hex`. -/
def hex (candidate : Str) : Str :=
  match (fromHex candidate).bind decodeUtf8 with
  | some decoded => if rt.casefold decoded ∈ r.registered then redacted else candidate
  | none => candidate

/-- `for variant in self._variants: result = result.replace(variant, REDACTED)`. -/
def replaceVariants (text : Str) : Str :=
  r.variants.foldl (fun result variant => replace variant redacted result) text

/-- The passes of `text` from there to the first that may raise. -/
def maskTokens (text : Str) : Str :=
  let result := rewrite percentToken (fun pieces => r.encoded rt pieces.flatten) text
  let result := rewrite hexToken (fun pieces => r.hex rt pieces.flatten) result
  let result := redactAuthorizationSequences rt true escapedAuthSequenceStart result
  redactAuthorizationSequences rt false authSequenceStart result

/-- `_ASSIGNMENT.sub(r"\1\2" + REDACTED, text)`. -/
def redactAssignments (text : Str) : Str :=
  rewrite (assignment rt) (fun
    | [start, name, separator, _] => start ++ name ++ separator ++ redacted
    | pieces => pieces.flatten) text

/-- `_URI_USERINFO.sub(r"\1" + REDACTED + r"\3", text)`. -/
def redactUserinfo (text : Str) : Str :=
  rewrite (uriUserinfo rt) (fun
    | [scheme, _, at_] => scheme ++ redacted ++ at_
    | pieces => pieces.flatten) text

/-- The passes of `text` after the last that may raise. -/
def maskFields (text : Str) : Str :=
  let result := rewrite quotedAuthDouble redactQuotedAuthorization text
  let result := rewrite quotedAuthSingle redactQuotedAuthorization result
  let result := rewrite escapedAuthDouble redactQuotedAuthorization result
  let result := redactHeaders rt result.length result
  redactUserinfo rt (redactAssignments rt result)

/-- `text`. -/
def text (value : Str) : Except Exc Str := do
  let result := r.maskTokens rt (r.replaceVariants value)
  let result ← sub jsonField (redactJsonAuthorization rt) result
  let result ← sub escapedJsonField (redactEscapedJsonAuthorization rt) result
  .ok (maskFields rt result)

end Redactor

end FieldDiscovery.Redaction
