import SiteServer.Proofs.Text.Settled
import SiteServer.Text.Blank

/-!
# Texts that are cut short

The bytes of a text may be cut anywhere, also inside a character.  What is decoded of
them then goes on like the whole text for a while and ends, perhaps with a replacement
for the character that was cut (`cutShort_decodeLossy`).

Its words are those of the whole text, but for the last one.  That one may go on in the
whole text, and it is the only one in which a replacement can stand for what was cut
(`CutShort.words`).
-/

namespace SiteServer.Text

open Utf8 (decodeLossy decodeLossyFrom replacement)

/-- A text that ends where another one goes on. -/
inductive CutShort : List Char → List Char → Prop where
  | clean (text rest : List Char) : CutShort text (text ++ rest)
  /-- The cut is inside a character. -/
  | torn (text rest : List Char) : CutShort (text ++ [replacement]) (text ++ rest)

/-- Bytes that are cut short are decoded to a text that is cut short. -/
theorem cutShort_decodeLossy {bytes more : Bytes} (h : bytes <+: more) :
    CutShort (decodeLossy bytes) (decodeLossy more) := by
  obtain ⟨rest, rfl⟩ := h
  have hcut := Utf8.decodeLossyFrom_append none bytes []
  rw [List.append_nil] at hcut
  rw [decodeLossy, decodeLossy, hcut, Utf8.decodeLossyFrom_append]
  cases (Utf8.settle none bytes).2 with
  | none =>
      rw [show decodeLossyFrom none [] = [] from rfl, List.append_nil]
      exact .clean _ _
  | some p => exact .torn _ _

/-- What a text that is cut short, and the whole of it, have behind the words that they
begin with. -/
theorem CutShort.exists_words {cut full : List Char} (h : CutShort cut full) :
    ∃ before ends more, Text.words cut = before ++ ends ∧ Text.words full = before ++ more ∧
      (ends = [] ∨ ∃ last, ends = [last] ∧
        (replacement ∈ last ∨ ∃ whole rest, more = whole :: rest ∧ last <+: whole)) := by
  cases h with
  | clean _ rest =>
      obtain ⟨before, last, hcut, hwords⟩ := exists_words_append cut
      refine ⟨before, _, _, hcut, hwords rest, ?_⟩
      cases last with
      | nil => exact .inl rfl
      | cons c last => exact .inr ⟨_, rfl, .inr ⟨_, _, rfl, List.prefix_append _ _⟩⟩
  | torn text rest =>
      obtain ⟨before, last, -, hwords⟩ := exists_words_append text
      have hbreak : breakAt isBlank [replacement] = ([replacement], []) := by decide
      have hcut : Text.words (text ++ [replacement]) = before ++ [last ++ [replacement]] := by
        rw [hwords, hbreak]
        simp
      exact ⟨before, _, _, hcut, hwords rest, .inr ⟨_, rfl, .inl (by simp)⟩⟩

/-- Each word of a text that is cut short is one of the whole text, in its place, unless
it is the last one.  The last one is the beginning of one, unless it was torn. -/
theorem CutShort.words {cut full : List Char} (h : CutShort cut full) {i : Nat}
    {word : List Char} (hword : (Text.words cut)[i]? = some word) :
    (i + 1 < (Text.words cut).length → (Text.words full)[i]? = some word) ∧
      (replacement ∉ word → ∃ whole, (Text.words full)[i]? = some whole ∧ word <+: whole) := by
  obtain ⟨before, ends, more, hcut, hfull, hends⟩ := h.exists_words
  rw [hcut] at hword ⊢
  rw [hfull]
  by_cases hi : i < before.length
  · rw [List.getElem?_append_left hi] at hword ⊢
    exact ⟨fun _ => hword, fun _ => ⟨word, hword, List.prefix_refl word⟩⟩
  · have hlater : before.length ≤ i := Nat.le_of_not_lt hi
    rw [List.getElem?_append_right hlater] at hword ⊢
    obtain rfl | ⟨last, rfl, hlast⟩ := hends
    · simp at hword
    · obtain ⟨hzero, hsame⟩ : i - before.length = 0 ∧ last = word := by
        simpa [List.getElem?_singleton] using hword
      subst hsame
      refine ⟨fun hlength => ?_, fun hwhole => ?_⟩
      · simp only [List.length_append, List.length_singleton] at hlength
        omega
      · obtain htorn | ⟨whole, rest, rfl, hprefix⟩ := hlast
        · exact absurd htorn hwhole
        · exact ⟨whole, by rw [hzero]; rfl, hprefix⟩

end SiteServer.Text
