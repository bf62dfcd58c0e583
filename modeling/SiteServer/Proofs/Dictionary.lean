import SiteServer.Dictionary
import Mathlib.Data.Finset.Card

/-!
# Entries and look-up

A list of entries may have a key more than once; look-up then finds the first entry with it
(`lookup_eq_some_iff_first`).  Where keys differ there is one entry for each key that look-up
finds something under (`filter_key`), so a dictionary has as many entries as it has keys
(`size_eq_card`).
-/

namespace SiteServer.Dictionary

variable {α : Type _}

/-- Look-up finds the first entry with a key. -/
theorem lookup_eq_some_iff_first {entries : List (String × α)} {key : String} {value : α} :
    lookup key entries = some value ↔
      ∃ before after, entries = before ++ (key, value) :: after ∧ ∀ e ∈ before, e.1 ≠ key := by
  rw [lookup, Option.map_eq_some_iff]
  constructor
  · rintro ⟨⟨name, value⟩, hfind, rfl⟩
    obtain ⟨hname, before, after, hentries, hbefore⟩ := List.find?_eq_some_iff_append.1 hfind
    obtain rfl : name = key := by simpa using hname
    exact ⟨before, after, hentries, by simpa using hbefore⟩
  · rintro ⟨before, after, hentries, hbefore⟩
    refine ⟨(key, value), List.find?_eq_some_iff_append.2 ⟨?_, before, after, hentries, ?_⟩, rfl⟩
    · simp
    · simpa using hbefore

theorem lookup_eq_none_iff {entries : List (String × α)} {key : String} :
    lookup key entries = none ↔ key ∉ entries.map (·.1) := by
  simp only [lookup, Option.map_eq_none_iff, List.find?_eq_none, List.mem_map, not_exists,
    not_and, decide_eq_true_eq]

/-- The entries of a key are those that look-up finds: one or none. -/
theorem filter_key {l : List (String × α)} (h : l.Pairwise fun a b => a.1 ≠ b.1) (key : String) :
    (l.filter (·.1 = key)).map (·.2) = (lookup key l).toList := by
  induction l with
  | nil => rfl
  | cons head rest ih =>
      obtain ⟨name, value⟩ := head
      obtain ⟨hhead, hrest⟩ := List.pairwise_cons.1 h
      rw [lookup_cons]
      by_cases hname : name = key
      · subst hname
        have hothers : rest.filter (·.1 = name) = [] := by
          rw [List.filter_eq_nil_iff]
          intro entry hmem
          simpa using (hhead entry hmem).symm
        simp [hothers]
      · simp [hname, ih hrest]

/-- A dictionary whose keys are some names has as many entries as there are different names. -/
theorem size_eq_card {d : Dictionary α} {names : List String}
    (h : ∀ key, key ∈ d.keys ↔ key ∈ names) : d.size = names.toFinset.card := by
  have hsame : d.keys.toFinset = names.toFinset := by
    ext key
    rw [List.mem_toFinset, List.mem_toFinset, h key]
  rw [← hsame, List.toFinset_card_of_nodup d.nodup_keys, keys, List.length_map, size]

end SiteServer.Dictionary
