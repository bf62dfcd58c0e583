/-!
# Vocabularies

Methods, versions and platforms go by words, and statuses by numbers.  There are
only so many of each, and what goes by one word goes by no other; a word is looked
up as it stands.

A vocabulary lists the values of a type, and finds each of them by its word
(`find?_eq_some_iff`).
-/

namespace SiteServer

/-- All values of a type, with a word for each. -/
structure Vocabulary (α ω : Type) [DecidableEq ω] where
  all : List α
  word : α → ω
  /-- The word of a value leads to that value. -/
  found : ∀ a, all.find? (word · = word a) = some a

namespace Vocabulary

variable {α ω : Type} [DecidableEq ω] (v : Vocabulary α ω)

/-- What a word stands for. -/
def find? (w : ω) : Option α :=
  v.all.find? (v.word · = w)

theorem mem_all (a : α) : a ∈ v.all :=
  List.mem_of_find?_eq_some (v.found a)

theorem find?_eq_some_iff {w : ω} {a : α} : v.find? w = some a ↔ v.word a = w := by
  constructor
  · intro h
    simpa using List.find?_some h
  · rintro rfl
    exact v.found a

theorem find?_eq_none_iff {w : ω} : v.find? w = none ↔ ∀ a, v.word a ≠ w := by
  simp only [Option.eq_none_iff_forall_ne_some, ne_eq, v.find?_eq_some_iff]

@[simp] theorem find?_word (a : α) : v.find? (v.word a) = some a := v.found a

/-- Different values have different words. -/
theorem word_injective {a b : α} (h : v.word a = v.word b) : a = b :=
  Option.some.inj ((v.find?_word a).symm.trans (v.find?_eq_some_iff.2 h.symm))

end Vocabulary

end SiteServer
