import SiteServer.Dictionary

/-!
# Header maps

A message carries each header at most once.  A second value for a name is
refused and the first one stays; names are compared exactly, case included.
-/

namespace SiteServer.Http

/-- The headers of a message, in ascending order of their names. -/
abbrev Headers := Dictionary String

/-- A header was given twice. -/
structure DuplicateHeader where
  name : String
deriving DecidableEq, Repr

/-- What is reported of a header that was given twice. -/
def DuplicateHeader.message (e : DuplicateHeader) : String :=
  "duplicate header: " ++ e.name

namespace Headers

/-- The map with one more header. -/
def add (headers : Headers) (name value : String) : Except DuplicateHeader Headers :=
  if headers.contains name then .error ⟨name⟩ else .ok (headers.insert name value)

/-- The map with more headers, up to the first that is already there. -/
def addAll (headers : Headers) : List (String × String) → Except DuplicateHeader Headers
  | [] => .ok headers
  | (name, value) :: rest => do addAll (← headers.add name value) rest

theorem add_eq_error_iff {headers : Headers} {name value : String} {e : DuplicateHeader} :
    headers.add name value = .error e ↔ headers.contains name = true ∧ e = ⟨name⟩ := by
  unfold add
  split
  · next h => simpa [h] using eq_comm
  · next h => simp [h]

theorem add_eq_ok_iff {headers added : Headers} {name value : String} :
    headers.add name value = .ok added ↔
      headers.contains name = false ∧ headers.insert name value = added := by
  unfold add
  split <;> simp_all

end Headers

end SiteServer.Http
