import SiteServer.Text.Blank
import SiteServer.Text.Case
import Mathlib.Data.List.Forall2

/-!
# Letters of either case

Case is that of the letters from `A` to `Z`: each of them has one small letter, 32 places
behind it.  Two characters are the same letter if they are equal or go together in this way
(`SameLetter`); nothing outside ASCII is ever the same letter as something inside it.

Texts that are folded are compared letter by letter (`fold_eq_fold_iff`).
-/

namespace SiteServer.Text

/-- `small` is the small letter that goes with the letter `capital`. -/
structure IsSmallOf (small capital : Char) : Prop where
  letter : 'A'.toNat ≤ capital.toNat ∧ capital.toNat ≤ 'Z'.toNat
  apart : small.toNat = capital.toNat + 32

/-- The same character, or the same letter in its other case. -/
inductive SameLetter : Char → Char → Prop where
  | same (c : Char) : SameLetter c c
  | small {c d : Char} (h : IsSmallOf c d) : SameLetter c d
  | capital {c d : Char} (h : IsSmallOf d c) : SameLetter c d

/-- Two texts of the same letters, in whatever case. -/
abbrev SameLetters (text other : List Char) : Prop :=
  List.Forall₂ SameLetter text other

/-- Letters in terms of their numbers. -/
theorem sameLetter_iff {c d : Char} :
    SameLetter c d ↔ c.toNat = d.toNat ∨
      (('A'.toNat ≤ d.toNat ∧ d.toNat ≤ 'Z'.toNat) ∧ c.toNat = d.toNat + 32) ∨
      (('A'.toNat ≤ c.toNat ∧ c.toNat ≤ 'Z'.toNat) ∧ d.toNat = c.toNat + 32) := by
  constructor
  · intro h
    cases h with
    | same => exact .inl rfl
    | small hsmall => exact .inr (.inl ⟨hsmall.letter, hsmall.apart⟩)
    | capital hsmall => exact .inr (.inr ⟨hsmall.letter, hsmall.apart⟩)
  · rintro (heq | ⟨hletter, hapart⟩ | ⟨hletter, hapart⟩)
    · obtain rfl := Char.toNat_inj.1 heq
      exact .same c
    · exact .small ⟨hletter, hapart⟩
    · exact .capital ⟨hletter, hapart⟩

theorem toNat_toLower (c : Char) :
    c.toLower.toNat =
      if 'A'.toNat ≤ c.toNat ∧ c.toNat ≤ 'Z'.toNat then c.toNat + 32 else c.toNat := by
  by_cases h : c.val ≥ 'A'.val ∧ c.val ≤ 'Z'.val
  · have hletter : 'A'.toNat ≤ c.toNat ∧ c.toNat ≤ 'Z'.toNat := h
    have hbound : c.toNat ≤ 90 := hletter.2
    have hlow : c.toLower.val = c.val + 32 := by
      rw [show c.toLower = _ from dif_pos h]
      rfl
    rw [if_pos hletter]
    show c.toLower.val.toNat = c.val.toNat + 32
    rw [hlow, UInt32.toNat_add]
    show (c.toNat + 32) % 2 ^ 32 = c.toNat + 32
    omega
  · have hother : ¬ ('A'.toNat ≤ c.toNat ∧ c.toNat ≤ 'Z'.toNat) := h
    rw [toLower_of_not_upper h, if_neg hother]

/-- Comparing in lower case tells letters apart, but not their cases. -/
theorem toLower_eq_toLower_iff {c d : Char} : c.toLower = d.toLower ↔ SameLetter c d := by
  -- the small letters come after all of the capital ones
  have hA : 'A'.toNat = 65 := rfl
  have hZ : 'Z'.toNat = 90 := rfl
  rw [← Char.toNat_inj, toNat_toLower, toNat_toLower, sameLetter_iff]
  split
  · split
    · omega
    · omega
  · split
    · omega
    · omega

theorem fold_eq_fold_iff {text other : List Char} :
    fold text = fold other ↔ SameLetters text other := by
  rw [fold, fold, ← List.forall₂_eq_eq_eq, List.forall₂_map_left_iff, List.forall₂_map_right_iff]
  simp only [toLower_eq_toLower_iff]

/-- The long s, a small letter of the capital S elsewhere, is not taken for one. -/
example : fold "cſs".toList ≠ fold "CSS".toList := by decide

/-- A blank is no letter, and so its own lower case. -/
theorem toLower_of_isBlank {c : Char} (h : isBlank c = true) : c.toLower = c := by
  refine toLower_of_not_upper ?_
  rintro ⟨hlow, hhigh⟩
  have hletter : 65 ≤ c.toNat ∧ c.toNat ≤ 90 := ⟨hlow, hhigh⟩
  simp only [isBlank, Bool.or_eq_true, Bool.and_eq_true, decide_eq_true_eq, beq_iff_eq] at h
  omega

end SiteServer.Text
