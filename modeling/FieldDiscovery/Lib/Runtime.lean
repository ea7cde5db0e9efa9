import FieldDiscovery.Lib.Str

/-!
# What the standard library takes from tables

`Runtime` collects the operations of Python's standard library whose definition is a table of the
Unicode database, or a digest. Each field covers only the code points outside ASCII; inside ASCII
the operations below are fixed by definition. Theorems quantify over every `Runtime`, so they do
not depend on a Unicode version.
-/

namespace Py

/-- Table-driven parts of the standard library. -/
structure Runtime where
  /-- Full case folding of a code point outside ASCII. -/
  foldChar : CodePoint → Str
  /-- `str.isalnum` of a code point outside ASCII. -/
  alnumChar : CodePoint → Bool
  /-- `encodings.idna.ToASCII` of a label that is not ASCII; `none` is `UnicodeError`. -/
  idnaLabel : Str → Option Str
  /-- The compatibility decomposition of a code point outside ASCII. -/
  nfkdChar : CodePoint → Str
  /-- The code point of a Unicode character name, as `\N{...}` looks it up. -/
  namedChar : Str → Option CodePoint
  /-- `unicodedata.decimal` of a code point outside ASCII. -/
  decimalChar : CodePoint → Option Nat
  /-- `hashlib.sha256(data).hexdigest()`. -/
  sha256 : List Byte → Str
  sha256_length : ∀ data, (sha256 data).length = 64
  sha256_hex : ∀ data, (sha256 data).all isHex = true

/-- ASCII code points. -/
def isAscii (c : CodePoint) : Bool := c.val < 128

namespace Runtime

variable (rt : Runtime)

/-- `s.casefold()`. -/
def casefold (s : Str) : Str :=
  s.flatMap fun c => if isAscii c then [lowerAscii c] else rt.foldChar c

/-- The word class `\w` of a `str` pattern. -/
def isWord (c : CodePoint) : Bool :=
  if isAscii c then isAsciiAlnum c || c == cp '_' else rt.alnumChar c

/-- `unicodedata.normalize("NFKD", s).encode("ascii", "ignore")`. Canonical reordering moves only
combining marks, which are not ASCII, so the ASCII characters of the decompositions remain in
place. -/
def nfkdAscii (s : Str) : Str :=
  s.flatMap fun c => if isAscii c then [c] else (rt.nfkdChar c).filter isAscii

/-- `s.encode("idna")`. An ASCII name is split at full stops and only bounded; any other name is
split at the four full stops of IDNA and every label goes through `ToASCII`. -/
def encodeIdna (s : Str) : Option Str :=
  if s = [] then some []
  else if s.all isAscii then
    let labels := s.splitOn (cp '.')
    if labels.dropLast.any (· = []) || labels.any (64 ≤ ·.length) then none else some s
  else
    let dot : CodePoint → Bool := fun c =>
      c == cp '.' || c.val == 0x3002 || c.val == 0xFF0E || c.val == 0xFF61
    let labels := s.splitOnP dot
    let trailing := labels.getLast? = some []
    let labels := if trailing then labels.dropLast else labels
    (labels.mapM toAscii).map fun parts =>
      join (str ".") parts ++ if trailing then str "." else []
where
  /-- `encodings.idna.ToASCII`. -/
  toAscii (label : Str) : Option Str :=
    if label.all isAscii then
      if label = [] || 64 ≤ label.length then none else some label
    else rt.idnaLabel label

/-- The tables restricted to ASCII text, with the digests of the given UTF-8 texts. -/
def ofDigests (digests : List (Str × Str)) : Runtime where
  foldChar c := [c]
  alnumChar _ := false
  idnaLabel _ := none
  nfkdChar c := [c]
  namedChar _ := none
  decimalChar _ := none
  sha256 data :=
    match digests.find? fun d => d.1.flatMap utf8Char = data with
    | some d => (d.2.filter isHex ++ List.replicate 64 (cp '0')).take 64
    | none => List.replicate 64 (cp '0')
  sha256_length data := by
    split
    · simp
    · simp
  sha256_hex data := by
    have hzeros : (List.replicate 64 (cp '0')).all isHex = true := by
      rw [List.all_replicate]
      rfl
    split
    · next d _ =>
      rw [List.all_eq_true]
      intro c hc
      rcases List.mem_append.mp (List.mem_of_mem_take hc) with h | h
      · exact (List.mem_filter.mp h).2
      · exact List.all_eq_true.mp hzeros c h
    · exact hzeros

@[simp] theorem casefold_append (s t : Str) :
    rt.casefold (s ++ t) = rt.casefold s ++ rt.casefold t := List.flatMap_append

end Runtime

end Py
