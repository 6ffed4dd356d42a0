import Mathlib.Data.UInt

/-!
# URL records

A URL as the WHATWG standard has it, and what the two programs that read one see of it: the crate
of the server and the class of the deployment program.  They differ in a part that is present and
empty.
-/

namespace Whatwg

/-- The host is as it is serialized, the path with its slashes. -/
structure UrlRecord where
  scheme : String
  username : String
  password : String
  host : Option String
  port : Option UInt16
  path : String
  query : Option String
  fragment : Option String
  deriving DecidableEq

namespace UrlRecord

/-- `Url::password`: an empty password is none. -/
def passwordStr (url : UrlRecord) : Option String :=
  if url.password = "" then none else some url.password

/-- There is no password where it is empty. -/
theorem passwordStr_eq_none {url : UrlRecord} : url.passwordStr = none ↔ url.password = "" := by
  unfold passwordStr
  by_cases h : url.password = "" <;> simp [h]

/-- `URL.protocol`. -/
def protocol (url : UrlRecord) : String := url.scheme ++ ":"

/-- A part with its mark, or nothing for a part that is absent or empty. -/
def marked (mark : String) : Option String → String
  | some "" => ""
  | some part => mark ++ part
  | none => ""

/-- `URL.search`. -/
def search (url : UrlRecord) : String := marked "?" url.query

/-- `URL.hash`. -/
def hash (url : UrlRecord) : String := marked "#" url.fragment

/-- A part that is missing or empty is written as nothing. -/
theorem marked_eq_empty {mark : String} {part : Option String} (hmark : mark ≠ "") :
    marked mark part = "" ↔ part = none ∨ part = some "" := by
  unfold marked
  split
  · simp
  · next part hpart =>
      have hne : part ≠ "" := hpart
      simp [hmark, hne]
  · simp

end UrlRecord

end Whatwg
