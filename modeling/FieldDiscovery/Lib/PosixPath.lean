import FieldDiscovery.Lib.Str

/-!
# POSIX paths as texts

`PurePosixPath` of a text: its root and its segments. Nothing is looked up, and a parent step `..` is
a segment like any other.
-/

namespace Py

/-- `".."` -/
def parentStep : Str := str ".."

/-- The segments of a path that are not empty and not `.`. -/
def segments (s : Str) : List Str :=
  (s.splitOn (cp '/')).filter fun segment => segment ≠ [] ∧ segment ≠ str "."

/-- The slashes that make a path absolute: one, or two when there are exactly two in front. -/
def rootOf (s : Str) : Str :=
  if str "//" <+: s ∧ ¬ str "///" <+: s then str "//"
  else if str "/" <+: s then str "/"
  else []

/-- `PurePosixPath` -/
structure PurePath where
  root : Str
  parts : List Str

/-- `PurePosixPath(s)` -/
def PurePath.of (s : Str) : PurePath := ⟨rootOf s, segments s⟩

end Py
