import FieldDiscovery.Errors
import FieldDiscovery.Lib.JsonValue

/-!
# Directory entries

What `ad_collection.py` keeps of an entry that a directory server sent: approved attributes only,
with values that JSON can hold. An entry is known by the key attribute of its query, else by its
distinguished name.
-/

namespace FieldDiscovery.ActiveDirectory

open Py

/-! ## Values -/

/-- `MAX_ATTRIBUTE_TEXT` -/
def maxAttributeText : Nat := 4096

/-- `MAX_ATTRIBUTE_VALUES` -/
def maxAttributeValues : Nat := 100000

/-- The value of an attribute, as the LDAP library gives it. -/
inductive LdapValue where
  | none
  | bool (b : Bool)
  | int (n : Int)
  | float (repr : Str)
  | nonFinite (rendering : Str)
  | text (s : Str)
  | bytes (data : List Byte)
  | list (items : List LdapValue)
  | tuple (items : List LdapValue)
  /-- Any other object, by its `str`. -/
  | other (rendering : Str)

mutual

/-- `_safe_value` -/
def safeValue : LdapValue → Json
  | .none => .null
  | .bool b => .bool b
  | .int n => .int n
  | .float repr => .float repr
  | .nonFinite rendering => .nonFinite rendering
  | .text s => .string (s.take maxAttributeText)
  | .bytes data => .string (hexBytes data)
  | .list items => .list (safeValues maxAttributeValues items)
  | .tuple items => .list (safeValues maxAttributeValues items)
  | .other rendering => .string (rendering.take maxAttributeText)

/-- The first `limit` items, each made safe. -/
def safeValues : Nat → List LdapValue → List Json
  | 0, _ => []
  | _, [] => []
  | limit + 1, v :: vs => safeValue v :: safeValues limit vs

end

/-- The attributes of an entry that was kept. -/
abbrev Attributes := Dict Str Json

/-- An entry of a page. -/
abbrev Entry := Dict Str LdapValue

section

variable (rt : Runtime)

/-- `_FORBIDDEN_ATTRIBUTE` -/
def forbiddenAttribute : Pattern :=
  [.re (.alts ((["passw", "passwd", "unicodepwd", "supplementalcredentials", "ntpassword",
    "lmhash", "nthash", "managedpassword", "ms-mcs-admpwd", "laps", "privatekey", "secret",
    "token", "ticket", "credential", "allowedtoactonbehalfofotheridentity",
    "securitydescriptor", "attack"]).map Re.wordIgnoreCase))]

/-- `name.split(";", 1)[0]` -/
def baseName (name : Str) : Str := name.takeWhile (· != cp ';')

/-- `_sanitize_entry`, with the number of attributes it left out. -/
def sanitizeEntry (entry : Entry) (allowed : List Str) : Attributes × Nat :=
  let allowedFolded := allowed.map fun name => rt.casefold (baseName name)
  let kept := entry.filter fun (name, _) =>
    !((search forbiddenAttribute (baseName name)).isSome ||
      !decide (rt.casefold (baseName name) ∈ allowedFolded))
  (kept.map fun (name, value) => (name, safeValue value), entry.length - kept.length)

/-- `_first`: the `str` of the value, or of its first item. -/
def first (printable : CodePoint → Bool) (attributes : Attributes) (name : String) : Option Str :=
  let value := Json.field attributes name
  let value := match value with
    | .list (item :: _) => item
    | value => value
  match value with
  | .null => none
  | .string [] => none
  | value => some (value.toStr printable)

end

/-! ## Queries -/

/-- One fixed documentation query. -/
structure QuerySpec where
  kind : Str
  base : Str
  ldapFilter : Str
  scope : Str
  attributes : List Str
  keyAttribute : String

/-- One object that a query found. -/
structure ADRecord where
  kind : Str
  key : Str
  attributes : Attributes

/-- A limitation of a collector run. -/
structure CollectorIssue where
  category : Str
  detail : Str
  deriving DecidableEq

/-- One page of a query. -/
structure LDAPPage where
  entries : List Entry
  cookie : List Byte
  referrals : List Str := []

/-- What the collector meets where it would ask for the next page: the page, an exception of the
session, or a cancellation. -/
inductive Response where
  | page (p : LDAPPage)
  | failed (e : Exc)
  | cancelled

end FieldDiscovery.ActiveDirectory
