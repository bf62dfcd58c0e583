/-!
# Letter case

Names that are compared without regard to case fold the letters `A` to `Z` and
nothing else, so that no character outside ASCII ever equals one inside it.
-/

namespace SiteServer.Text

/-- The text with the letters `A` to `Z` in lower case. -/
def fold (text : List Char) : List Char :=
  text.map Char.toLower

/-- The string with the letters `A` to `Z` in lower case. -/
def lowercase (s : String) : String :=
  String.ofList (fold s.toList)

@[simp] theorem toList_lowercase (s : String) : (lowercase s).toList = fold s.toList := by
  simp [lowercase]

/-- What is no letter from `A` to `Z` is its own lower case. -/
theorem toLower_of_not_upper {c : Char} (h : ¬ (c.val ≥ 'A'.val ∧ c.val ≤ 'Z'.val)) :
    c.toLower = c :=
  dif_neg h

/-- Lower case is its own lower case. -/
theorem toLower_toLower (c : Char) : c.toLower.toLower = c.toLower := by
  by_cases h : c.val ≥ 'A'.val ∧ c.val ≤ 'Z'.val
  · refine toLower_of_not_upper ?_
    have hval : c.toLower.val = c.val + ('a'.val - 'A'.val) := by
      rw [show c.toLower = _ from dif_pos h]
    rw [hval]
    rintro ⟨-, h'⟩
    simp only [ge_iff_le, UInt32.le_iff_toNat_le] at h h'
    simp at h h'
    omega
  · rw [toLower_of_not_upper h, toLower_of_not_upper h]

theorem fold_fold (text : List Char) : fold (fold text) = fold text := by
  rw [fold, fold, List.map_map]
  exact List.map_congr_left fun c _ => toLower_toLower c

theorem lowercase_lowercase (s : String) : lowercase (lowercase s) = lowercase s := by
  rw [lowercase, toList_lowercase, fold_fold]
  rfl

end SiteServer.Text
