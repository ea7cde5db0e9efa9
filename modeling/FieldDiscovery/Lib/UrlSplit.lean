import FieldDiscovery.Lib.IpAddress
import FieldDiscovery.Lib.Runtime

/-!
# Splitting URLs

`urllib.parse.urlsplit` of CPython 3.13. `ValueError` is `none`.
-/

namespace Py

/-- `s.partition(sep)` for one character, without the middle part. -/
def partitionAt (sep : CodePoint) (s : Str) : Str × Str :=
  (s.takeWhile (· ≠ sep), (s.dropWhile (· ≠ sep)).tail)

/-- `s.rpartition(sep)[2]` for one character. -/
def afterLast (sep : CodePoint) (s : Str) : Str := s.rtakeWhile (· ≠ sep)

/-- `SplitResult` -/
structure UrlParts where
  scheme : Str
  netloc : Str
  path : Str
  query : Str
  fragment : Str

namespace UrlParts

/-- `_hostinfo[0]`, which is empty exactly when `hostname` is `None`. -/
def hostinfo (netloc : Str) : Str :=
  let hostinfo := afterLast (cp '@') netloc
  if cp '[' ∈ hostinfo then (partitionAt (cp ']') (partitionAt (cp '[') hostinfo).2).1
  else (partitionAt (cp ':') hostinfo).1

/-- `_check_bracketed_host` accepts: an address of a later version, or an IPv6 address. -/
def bracketedHost (hostname : Str) : Bool :=
  if (str "v").isPrefixOf hostname then
    let version := (hostname.drop 1).takeWhile isHex
    let rest := (hostname.drop 1).dropWhile isHex
    version ≠ [] ∧ (str ".").isPrefixOf rest ∧ 2 ≤ rest.length
  else (addressValue hostname).isNone ∧ (ipv6Value hostname).isSome

/-- `_check_bracketed_netloc` accepts. -/
def bracketedNetloc (netloc : Str) : Bool :=
  let hostinfo := afterLast (cp '@') netloc
  if cp '[' ∈ hostinfo then
    let parts := partitionAt (cp '[') hostinfo
    let host := partitionAt (cp ']') parts.2
    parts.1 = [] ∧ (host.2 = [] ∨ (str ":").isPrefixOf host.2) ∧ bracketedHost host.1
  else bracketedHost (partitionAt (cp ':') hostinfo).1

/-- `_checknetloc` accepts: no delimiter appears when the characters are decomposed. The five
characters are composed with no mark, so NFKC has them where NFKD does. -/
def plainNetloc (rt : Runtime) (netloc : Str) : Bool :=
  netloc.all isAscii ||
    (rt.nfkdAscii (netloc.filter fun c => !(str "@:#?").contains c)).all fun c =>
      !(str "/?#@:").contains c

/-- The brackets of the host are paired, and hold an address. -/
def wellBracketed (netloc : Str) : Bool :=
  if cp '[' ∈ netloc ∧ cp ']' ∈ netloc then bracketedNetloc netloc
  else cp '[' ∉ netloc ∧ cp ']' ∉ netloc

/-- The scheme and what comes after its colon. -/
def schemeOf (url : Str) : Str × Str :=
  let parts := partitionAt (cp ':') url
  if cp ':' ∈ url ∧ (parts.1.head?.any fun c => isLower c || isUpper c) ∧
      parts.1.all fun c => isAsciiAlnum c || (str "+-.").contains c then
    (parts.1.map lowerAscii, parts.2)
  else ([], url)

end UrlParts

/-- `urlsplit(url)` -/
def urlsplit (rt : Runtime) (url : Str) : Option UrlParts :=
  let url := (url.dropWhile fun c => c.val ≤ 32).filter fun c => !(str "\t\r\n").contains c
  let (scheme, url) := UrlParts.schemeOf url
  let located := (str "//").isPrefixOf url
  let netloc := if located then (url.drop 2).takeWhile fun c => !(str "/?#").contains c else []
  let url := if located then url.drop (2 + netloc.length) else url
  let (url, fragment) := partitionAt (cp '#') url
  let (path, query) := partitionAt (cp '?') url
  if UrlParts.wellBracketed netloc ∧ UrlParts.plainNetloc rt netloc then
    some ⟨scheme, netloc, path, query, fragment⟩
  else none

end Py
