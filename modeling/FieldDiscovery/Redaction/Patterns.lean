import FieldDiscovery.Lib.Regex
import FieldDiscovery.Lib.Runtime

/-!
# The patterns of the redactor

The compiled patterns of `redaction.py`, one part for each top-level group and for each stretch
between groups. A pattern that uses `\b` takes the word class from the runtime.
-/

namespace FieldDiscovery.Redaction

open Py Re

/-! ## Common pieces -/

def space : Re := chr isSpace

/-- `.` -/
def dot : Re := chr (· != cp '\n')

/-- `[^...]` for the listed characters. -/
def noneOf (s : String) : Re := chr fun c => !(str s).contains c

/-- `[...]` for the listed characters. -/
def oneOf (s : String) : Re := chr fun c => (str s).contains c

/-- `\\.` -/
def escapePair : Re := seq (lit '\\') dot

/-- `(?:\\.|[^"\\])*`, for either quotation mark. -/
def doubleBody : Re := star (alt escapePair (noneOf "\"\\"))

def singleBody : Re := star (alt escapePair (noneOf "'\\"))

/-- `\\"` -/
def escapedQuote : Re := word "\\\""

/-- `(?:(?!\\").)*` -/
def escapedBody : Re := star (seq (look true escapedQuote) dot)

/-- `(?:authorization|authentication)` under `IGNORECASE`. -/
def authorizationWord : Re := alt (wordIgnoreCase "authorization") (wordIgnoreCase "authentication")

/-- `\s*:\s*` -/
def colonSeparator : Re := seqs [star space, lit ':', star space]

/-- `(?:b)?` under `IGNORECASE`. -/
def bytesPrefix : Re := opt (wordIgnoreCase "b")

/-! ## Keys -/

/-- `_SENSITIVE_KEY`. -/
def sensitiveKey : Pattern :=
  [.re start,
   .re (alts ([wordIgnoreCase "password", wordIgnoreCase "passwd", wordIgnoreCase "pwd",
      wordIgnoreCase "passphrase", wordIgnoreCase "token", wordIgnoreCase "access_token",
      seqs [wordIgnoreCase "api", opt (oneOf "_-"), wordIgnoreCase "key"]] ++
      (["community", "authorization", "authentication", "cookie", "secret", "client_secret",
        "auth_key", "priv_key", "private_key", "refresh_token", "id_token", "snmp_community",
        "community_string"].map wordIgnoreCase))),
   .re (eol false)]

/-! ## Quoted authorization fields -/

/-- `_QUOTED_AUTH_DOUBLE`. -/
def quotedAuthDouble : Pattern :=
  [.re (seqs [bytesPrefix, lit '"', authorizationWord, lit '"', colonSeparator, bytesPrefix]),
   .re (lit '"'), .re doubleBody, .re (lit '"')]

/-- `_QUOTED_AUTH_SINGLE`. -/
def quotedAuthSingle : Pattern :=
  [.re (seqs [bytesPrefix, lit '\'', authorizationWord, lit '\'', colonSeparator, bytesPrefix]),
   .re (lit '\''), .re singleBody, .re (lit '\'')]

/-- `_ESCAPED_AUTH_DOUBLE`. -/
def escapedAuthDouble : Pattern :=
  [.re (seqs [escapedQuote, authorizationWord, escapedQuote, colonSeparator]),
   .re escapedQuote, .re escapedBody, .re escapedQuote]

/-- `_JSON_FIELD`: key, separator, value. -/
def jsonField : Pattern :=
  [.re (seqs [lit '"', doubleBody, lit '"']), .re colonSeparator,
   .re (seqs [lit '"', doubleBody, lit '"'])]

/-- `_ESCAPED_JSON_FIELD`: key, separator, value. -/
def escapedJsonField : Pattern :=
  [.re (seqs [escapedQuote, escapedBody, escapedQuote]), .re colonSeparator,
   .re (seqs [escapedQuote, escapedBody, escapedQuote])]

/-! ## Authorization sequences and headers -/

/-- `_AUTH_SEQUENCE_START`: key, separator, opening bracket. -/
def authSequenceStart : Pattern :=
  [.re (alt (seqs [bytesPrefix, lit '"', doubleBody, lit '"'])
      (seqs [bytesPrefix, lit '\'', singleBody, lit '\''])),
   .re colonSeparator, .re (oneOf "[(")]

/-- `_ESCAPED_AUTH_SEQUENCE_START`: key, separator, opening bracket. -/
def escapedAuthSequenceStart : Pattern :=
  [.re (seqs [escapedQuote, escapedBody, escapedQuote]), .re colonSeparator, .re (oneOf "[(")]

/-- `\r?\n` -/
def newline : Re := seq (opt (lit '\r')) (lit '\n')

/-- `_AUTH_HEADER`. -/
def authHeader (rt : Runtime) : Pattern :=
  [.re (boundary rt.isWord),
   .re (seqs [authorizationWord, star space, oneOf ":=", star space]),
   .re (seq (star (noneOf "\r\n"))
      (star (seqs [newline, plus (oneOf " \t"), star (noneOf "\r\n")])))]

/-- `_STRUCTURED_FIELD`: quote, key and the quote again. -/
def structuredField : Pattern :=
  [.re (seq (lit ',') (star space)), .re (opt (oneOf "\"'")),
   .re (seq (chr fun c => letterIgnoreCase c || c == cp '_')
      (star (chr fun c => letterIgnoreCase c || isDigit c || c == cp '_' || c == cp '-'))),
   .backref 1, .re (seq (star space) (oneOf ":="))]

/-- `_SEMICOLON_FIELD`. -/
def semicolonField : Pattern := [.re (seq (lit ';') (look false space))]

/-- `_AUTH_PARAMETERS`. -/
def authParameters : List Str :=
  [str "algorithm", str "cnonce", str "credential", str "nc", str "nonce", str "opaque",
   str "qop", str "realm", str "response", str "signature", str "signedheaders", str "uri",
   str "username"]

/-! ## Assignments, URIs and encoded tokens -/

/-- `_ASSIGNMENT`: the name, the separator and the value. -/
def assignment (rt : Runtime) : Pattern :=
  [.re (boundary rt.isWord),
   .re (alts ([wordIgnoreCase "password", wordIgnoreCase "passwd", wordIgnoreCase "pwd",
      wordIgnoreCase "passphrase", wordIgnoreCase "token", wordIgnoreCase "access_token",
      seqs [wordIgnoreCase "api", opt (oneOf "_-"), wordIgnoreCase "key"]] ++
      (["community", "cookie", "client_secret", "secret", "auth_key", "priv_key", "private_key",
        "refresh_token", "id_token", "snmp_community", "community_string"].map wordIgnoreCase))),
   .re (seqs [star space, alts [word "=>", word "->", word "::", oneOf ":="], star space]),
   .re (alts
     [seqs [lit '"', doubleBody, lit '"'], seqs [lit '\'', singleBody, lit '\''],
      seqs [lit '"', star (alt escapePair (noneOf "\"\\\r\n;")), endOfValue],
      seqs [lit '\'', star (alt escapePair (noneOf "'\\\r\n;")), endOfValue],
      plus (chr fun c => !(isSpace c || c == cp ',' || c == cp ';'))])]
where
  /-- `(?=;|\r?$)` -/
  endOfValue : Re := look false (alt (lit ';') (seq (opt (lit '\r')) (eol true)))

/-- `_URI_USERINFO`. -/
def uriUserinfo (rt : Runtime) : Pattern :=
  [.re (seqs [boundary rt.isWord, chr letterIgnoreCase,
      star (chr fun c => letterIgnoreCase c || isDigit c || (str "+.-").contains c),
      word "://", star (chr fun c => !(isSpace c || (str "/:@").contains c)), lit ':']),
   .re (plus (chr fun c => !(isSpace c || (str "/@").contains c))), .re (lit '@')]

/-- `[A-Za-z0-9_.~%+\-]` -/
def isTokenChar (c : CodePoint) : Bool := isAsciiAlnum c || (str "_.~%+-").contains c

/-- `_PERCENT_TOKEN`. -/
def percentToken : Pattern :=
  [.re (seqs [notBehind isTokenChar, star (chr isTokenChar), oneOf "%+", star (chr isTokenChar),
      look true (chr isTokenChar)])]

/-- `_HEX_TOKEN`. -/
def hexToken : Pattern :=
  [.re (seqs [notBehind isHex, times 8 (chr isHex), star (chr isHex), look true (chr isHex)])]

end FieldDiscovery.Redaction
