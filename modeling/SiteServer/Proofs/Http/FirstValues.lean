import SiteServer.Http.Response
import SiteServer.Proofs.Dictionary
import Mathlib.Data.List.Induction

/-!
# The first value of a header

Headers are added to an empty map one after another.  A call for a name that was added
before is refused and leaves the map as it is (`add_eq_error_iff_addedIn`), so whatever is
called for later, a name keeps the value of the first call for it (`find?_ofCalls_iff`).

All that is left of a sequence of calls is thus, for each name, its first call.  Names are
listed by their bytes and not by their calls, so two sequences with the same first calls
give the same map, in whatever order these come and whatever is refused in between
(`ofCalls_eq_iff`).
-/

namespace SiteServer.Http

/-- A call for a header is the first one for its name. -/
def FirstIn (call : String × String) (calls : List (String × String)) : Prop :=
  ∃ before after, calls = before ++ call :: after ∧ ∀ earlier ∈ before, earlier.1 ≠ call.1

namespace Headers

/-- The map after a call, which may be refused. -/
def attempt (headers : Headers) (call : String × String) : Headers :=
  match headers.add call.1 call.2 with
  | .ok added => added
  | .error _ => headers

/-- The map after calls for headers, in their order. -/
def ofCalls (calls : List (String × String)) : Headers :=
  calls.foldl attempt .empty

/-- One of the calls added a header of that name. -/
def AddedIn (name : String) (calls : List (String × String)) : Prop :=
  ∃ before value after, calls = before ++ (name, value) :: after ∧
    ∃ added, (ofCalls before).add name value = .ok added

/-! ## One call -/

theorem attempt_of_error {headers : Headers} {call : String × String} {e : DuplicateHeader}
    (h : headers.add call.1 call.2 = .error e) : headers.attempt call = headers := by
  rw [attempt, h]

/-- What is there stays, and what is called for is there afterwards. -/
theorem find?_attempt (headers : Headers) (call : String × String) (name : String) :
    (headers.attempt call).find? name =
      (headers.find? name).or (if call.1 = name then some call.2 else none) := by
  cases hadd : headers.add call.1 call.2 with
  | ok added =>
      obtain ⟨hfree, rfl⟩ := add_eq_ok_iff.1 hadd
      rw [attempt, hadd, Dictionary.find?_insert]
      by_cases hname : call.1 = name
      · have hnone : headers.find? name = none := by
          rw [← hname]
          simpa [Dictionary.contains] using hfree
        rw [if_pos hname, hnone, Option.none_or]
        exact (if_pos hname).symm
      · rw [if_neg hname, if_neg hname, Option.or_none]
  | error e =>
      obtain ⟨htaken, -⟩ := add_eq_error_iff.1 hadd
      rw [attempt_of_error hadd]
      by_cases hname : call.1 = name
      · obtain ⟨value, hvalue⟩ := Option.isSome_iff_exists.1 htaken
        rw [← hname, hvalue, Option.some_or]
      · rw [if_neg hname, Option.or_none]

/-! ## All calls -/

theorem find?_foldl_attempt (calls : List (String × String)) (headers : Headers) (name : String) :
    (calls.foldl attempt headers).find? name =
      (headers.find? name).or (Dictionary.lookup name calls) := by
  induction calls generalizing headers with
  | nil => exact (Option.or_none ..).symm
  | cons call rest ih =>
      rw [List.foldl_cons, ih, find?_attempt, Option.or_assoc, Dictionary.lookup_cons]
      by_cases hname : call.1 = name
      · rw [if_pos hname, if_pos hname, Option.some_or]
      · rw [if_neg hname, if_neg hname, Option.none_or]

/-- Under a name there is what the first call for it gave. -/
theorem find?_ofCalls (calls : List (String × String)) (name : String) :
    (ofCalls calls).find? name = Dictionary.lookup name calls :=
  find?_foldl_attempt calls .empty name

theorem find?_ofCalls_iff {calls : List (String × String)} {name value : String} :
    (ofCalls calls).find? name = some value ↔ FirstIn (name, value) calls := by
  rw [find?_ofCalls, Dictionary.lookup_eq_some_iff_first]
  exact Iff.rfl

theorem find?_ofCalls_eq_none_iff {calls : List (String × String)} {name : String} :
    (ofCalls calls).find? name = none ↔ name ∉ calls.map (·.1) := by
  rw [find?_ofCalls, Dictionary.lookup_eq_none_iff]

theorem contains_ofCalls_iff {calls : List (String × String)} {name : String} :
    (ofCalls calls).contains name = true ↔ name ∈ calls.map (·.1) := by
  rw [← not_iff_not, ← find?_ofCalls_eq_none_iff, Dictionary.contains]
  simp

/-- A name that was called for was added, by its first call. -/
theorem addedIn_iff {calls : List (String × String)} {name : String} :
    AddedIn name calls ↔ name ∈ calls.map (·.1) := by
  constructor
  · rintro ⟨before, value, after, rfl, -⟩
    simp
  · intro hmem
    obtain ⟨value, hvalue⟩ := Option.isSome_iff_exists.1 (contains_ofCalls_iff.2 hmem)
    obtain ⟨before, after, rfl, hfirst⟩ := find?_ofCalls_iff.1 hvalue
    have hfree : (ofCalls before).contains name = false := by
      rw [← Bool.not_eq_true, contains_ofCalls_iff]
      intro hearlier
      obtain ⟨call, hcall, hname⟩ := List.mem_map.1 hearlier
      exact hfirst call hcall hname
    exact ⟨before, value, after, rfl, _, add_eq_ok_iff.2 ⟨hfree, rfl⟩⟩

/-- A call is refused exactly if its name was added before. -/
theorem add_eq_error_iff_addedIn {calls : List (String × String)} {name value : String}
    {e : DuplicateHeader} :
    (ofCalls calls).add name value = .error e ↔ AddedIn name calls ∧ e = ⟨name⟩ := by
  rw [add_eq_error_iff, contains_ofCalls_iff, addedIn_iff]

theorem ofCalls_append_singleton (calls : List (String × String)) (call : String × String) :
    ofCalls (calls ++ [call]) = (ofCalls calls).attempt call := by
  rw [ofCalls, List.foldl_append]
  rfl

theorem mem_keys_ofCalls_iff {calls : List (String × String)} {name : String} :
    name ∈ (ofCalls calls).keys ↔ name ∈ calls.map (·.1) := by
  rw [Dictionary.mem_keys_iff, ← Option.isSome_iff_exists, ← contains_ofCalls_iff]
  exact Iff.rfl

theorem size_ofCalls (calls : List (String × String)) :
    (ofCalls calls).size = (calls.map (·.1)).toFinset.card := by
  apply Dictionary.size_eq_card
  intro name
  exact mem_keys_ofCalls_iff

/-- The first calls are all that shows in a map. -/
theorem ofCalls_eq_iff {calls other : List (String × String)} :
    ofCalls calls = ofCalls other ↔ ∀ call, FirstIn call calls ↔ FirstIn call other := by
  constructor
  · rintro hsame ⟨name, value⟩
    rw [← find?_ofCalls_iff, ← find?_ofCalls_iff, hsame]
  · intro hfirst
    apply Dictionary.ext_find?
    intro name
    ext value
    rw [find?_ofCalls_iff, find?_ofCalls_iff, hfirst]

/-- What becomes of calls that add headers to an empty map. -/
structure FirstWins (calls : List (String × String)) : Prop where
  /-- A call is refused, under its name, exactly if an earlier one added that name. -/
  refused : ∀ before name value after, calls = before ++ (name, value) :: after →
    ∀ e, (ofCalls before).add name value = .error e ↔ AddedIn name before ∧ e = ⟨name⟩
  /-- A call that is refused changes nothing. -/
  unchanged : ∀ before name value after, calls = before ++ (name, value) :: after →
    ∀ e, (ofCalls before).add name value = .error e →
      ofCalls (before ++ [(name, value)]) = ofCalls before
  /-- A name has the value of the first call for it. -/
  found : ∀ name value, (ofCalls calls).find? name = some value ↔ FirstIn (name, value) calls
  missing : ∀ name, (ofCalls calls).find? name = none ↔ name ∉ calls.map (·.1)
  /-- The first calls are what is listed, -/
  listed : ∀ call, call ∈ (ofCalls calls).entries ↔ FirstIn call calls
  /-- in strictly ascending order of the bytes of the names, -/
  ascending : (ofCalls calls).entries.Pairwise fun a b => Text.bytes a.1 < Text.bytes b.1
  /-- and the names are listed in the same way, each of them once. -/
  names : (ofCalls calls).keys = (ofCalls calls).entries.map (·.1) ∧ (ofCalls calls).keys.Nodup ∧
    ∀ name, name ∈ (ofCalls calls).keys ↔ name ∈ calls.map (·.1)
  size : (ofCalls calls).size = (calls.map (·.1)).toFinset.card
  /-- Nothing but the first calls makes a difference, -/
  same : ∀ other, ofCalls calls = ofCalls other ↔ ∀ call, FirstIn call calls ↔ FirstIn call other
  /-- nor does anything else show in what a response with these headers is sent as. -/
  sent : ∀ other, (∀ call, FirstIn call calls ↔ FirstIn call other) → ∀ r : Response,
    (r.setHeaders (ofCalls calls)).toBytes = (r.setHeaders (ofCalls other)).toBytes

/-- In whatever order headers are called for, and however often, the first call for each name
is the one that counts, and all that is left of the calls. -/
theorem first_calls_decide (calls : List (String × String)) : FirstWins calls where
  refused := fun _ _ _ _ _ _ => add_eq_error_iff_addedIn
  unchanged := by
    intro before name value after _ e herror
    rw [ofCalls_append_singleton, attempt_of_error herror]
  found := fun _ _ => find?_ofCalls_iff
  missing := fun _ => find?_ofCalls_eq_none_iff
  listed := by
    rintro ⟨name, value⟩
    rw [← Dictionary.find?_eq_some_iff, find?_ofCalls_iff]
  ascending := (ofCalls calls).ascending
  names := ⟨rfl, (ofCalls calls).nodup_keys, fun _ => mem_keys_ofCalls_iff⟩
  size := size_ofCalls calls
  same := fun _ => ofCalls_eq_iff
  sent := by
    intro other hfirst r
    rw [ofCalls_eq_iff.2 hfirst]

/-- Calls for two names, the second of them twice. -/
def repeatedCalls : List (String × String) := [("b", "1"), ("a", "2"), ("a", "3")]

/-- The same first calls in the other order. -/
def turnedCalls : List (String × String) := [("a", "2"), ("a", "4"), ("b", "1"), ("b", "2")]

theorem turned_calls_are_sent_alike :
    (ofCalls [("b", "1"), ("a", "2")]).add "a" "3" = .error ⟨"a"⟩ ∧
      ofCalls repeatedCalls = ofCalls [("b", "1"), ("a", "2")] ∧
      ∀ r : Response, (r.setHeaders (ofCalls repeatedCalls)).toBytes =
        (r.setHeaders (ofCalls turnedCalls)).toBytes := by
  have hdecide := first_calls_decide repeatedCalls
  have hadded : AddedIn "a" [("b", "1"), ("a", "2")] := addedIn_iff.2 (by simp)
  have hrefused := (hdecide.refused [("b", "1"), ("a", "2")] "a" "3" [] rfl ⟨"a"⟩).2 ⟨hadded, rfl⟩
  have hturned : ∀ call, FirstIn call repeatedCalls ↔ FirstIn call turnedCalls := by
    rintro ⟨name, value⟩
    rw [← find?_ofCalls_iff, ← find?_ofCalls_iff]
    exact Iff.rfl
  exact ⟨hrefused, hdecide.unchanged _ _ _ [] rfl _ hrefused, hdecide.sent turnedCalls hturned⟩

end Headers

end SiteServer.Http
