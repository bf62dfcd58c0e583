import SiteServer.Text.Cut

/-!
# White space

A character is blank when it has Unicode's `White_Space` property.  The request
line, the values of content types and the inside of a placeholder are all cut
by this one class, so it is stated once, as the ranges of the standard.

Trimming removes blanks at the ends of a text; `words` gives the maximal runs
of other characters, in order.
-/

namespace SiteServer.Text

/-- The characters with the property `White_Space`. -/
def isBlank (c : Char) : Bool :=
  let n := c.toNat
  (0x09 ≤ n && n ≤ 0x0D) || n == 0x20 || n == 0x85 || n == 0xA0 || n == 0x1680 ||
  (0x2000 ≤ n && n ≤ 0x200A) || n == 0x2028 || n == 0x2029 || n == 0x202F ||
  n == 0x205F || n == 0x3000

/-- The text without its leading blanks. -/
def trimStart (text : List Char) : List Char :=
  text.dropWhile isBlank

/-- The text without the characters at both ends that satisfy `p`. -/
def trimBoth (p : Char → Bool) (text : List Char) : List Char :=
  ((text.dropWhile p).reverse.dropWhile p).reverse

/-- The text without its leading and trailing blanks. -/
def trim (text : List Char) : List Char :=
  trimBoth isBlank text

/-- The maximal runs of characters that are not blank, in order. -/
def words (text : List Char) : List (List Char) :=
  (pieces isBlank text).filter (!·.isEmpty)

/-- No word is empty, and no word holds a blank. -/
theorem not_blank_of_mem_words {text word : List Char} (h : word ∈ words text) :
    word ≠ [] ∧ ∀ c ∈ word, isBlank c = false := by
  simp only [words, List.mem_filter, Bool.not_eq_true', List.isEmpty_eq_false_iff] at h
  exact ⟨h.2, fun c hc => not_sep_of_mem_pieces h.1 hc⟩

theorem mem_of_mem_words {text word : List Char} (h : word ∈ words text) {c : Char}
    (hc : c ∈ word) : c ∈ text :=
  mem_of_mem_pieces (List.mem_filter.1 h).1 hc

/-- A word ends at a blank. -/
theorem words_append_cons {word : List Char} (hne : word ≠ [])
    (hword : ∀ c ∈ word, isBlank c = false) {c : Char} (hc : isBlank c = true) (text : List Char) :
    words (word ++ c :: text) = word :: words text := by
  rw [words, pieces_append_cons hc, pieces_of_none hword]
  simp [words, hne]

theorem words_of_not_blank {word : List Char} (hne : word ≠ [])
    (hword : ∀ c ∈ word, isBlank c = false) : words word = [word] := by
  rw [words, pieces_of_none hword]
  simp [hne]

/-- A blank at the end makes no difference. -/
theorem words_concat {c : Char} (hc : isBlank c = true) (text : List Char) :
    words (text ++ [c]) = words text := by
  rw [words, pieces_append_cons hc]
  simp [words]

/-- What is put behind a text goes on with its last word, if the text does not end
with a blank. -/
theorem exists_words_append (text : List Char) :
    ∃ before last, words text = before ++ [last].filter (!·.isEmpty) ∧
      ∀ more, words (text ++ more) = before ++
        ((last ++ (breakAt isBlank more).1) :: (breakAt isBlank more).2).filter (!·.isEmpty) := by
  obtain ⟨before, last, htext, happend⟩ := exists_pieces_append isBlank text
  refine ⟨before.filter (!·.isEmpty), last, ?_, fun more => ?_⟩
  · rw [words, htext, List.filter_append]
  · rw [words, happend, List.filter_append]

end SiteServer.Text
