import SiteServer.Media.Signature
import SiteServer.Proofs.Text.Completed

/-!
# What passes for text

Only the first bytes of a file are looked at, so the test for text has to let through what
is cut inside a character, and nothing else that is not text.  It accepts exactly the
contents that have no NUL and can go on to be valid UTF-8 (`isText_iff`), and these are the
beginnings of the texts without NUL, wherever they are cut (`isText_iff_exists_without_nul`).
-/

namespace SiteServer.Media

open Text (bytes)
open Text.Utf8 (encode)

theorem isText_iff {contents : Bytes} :
    isText contents = true ↔ 0 ∉ contents ∧ ∃ s, contents <+: bytes s := by
  have hvalid : (∃ text, contents <+: encode text) ↔ ∃ s, contents <+: bytes s := by
    constructor
    · rintro ⟨text, htext⟩
      exact ⟨String.ofList text, Text.Utf8.bytes_ofList text ▸ htext⟩
    · rintro ⟨s, hs⟩
      exact ⟨s.toList, Text.Utf8.bytes_eq_encode s ▸ hs⟩
  simp only [isText, Bool.and_eq_true, Bool.not_eq_true', List.contains_eq_mem,
    decide_eq_false_iff_not, Text.Utf8.isPartial_iff, hvalid]

theorem isText_of_isPrefix {cut whole : Bytes} (h : cut <+: whole)
    (hwhole : isText whole = true) : isText cut = true := by
  obtain ⟨hnul, s, hs⟩ := isText_iff.1 hwhole
  exact isText_iff.2 ⟨fun hmem => hnul (h.subset hmem), s, h.trans hs⟩

theorem isText_encode {text : List Char} (h : '\x00' ∉ text) : isText (encode text) = true := by
  have hnul : 0 ∉ encode text := Text.Utf8.not_mem_encode (by decide) rfl h
  refine isText_iff.2 ⟨hnul, String.ofList text, ?_⟩
  simp only [Text.Utf8.bytes_ofList, List.prefix_refl]

/-! ## Texts without NUL -/

/-- A beginning that lacks an element ends before it. -/
theorem prefix_of_not_mem {α : Type} {a : α} {l before after : List α} (ha : a ∉ l)
    (h : l <+: before ++ a :: after) : l <+: before := by
  rcases List.prefix_or_prefix_of_prefix h (List.prefix_append before _) with hshort | ⟨rest, rfl⟩
  · exact hshort
  · rw [List.prefix_append_right_inj] at h
    cases rest with
    | nil => simp
    | cons b rest =>
        obtain ⟨rfl, -⟩ := List.cons_prefix_cons.1 h
        simp at ha

/-- What has no NUL and begins a text begins it before the first NUL. -/
theorem exists_without_nul {contents : Bytes} {s : String} (hnul : 0 ∉ contents)
    (h : contents <+: bytes s) : ∃ t : String, '\x00' ∉ t.toList ∧ contents <+: bytes t := by
  by_cases hmem : '\x00' ∈ s.toList
  · obtain ⟨before, after, hs, hbefore⟩ := List.eq_append_cons_of_mem hmem
    rw [Text.Utf8.bytes_eq_encode, hs, Text.Utf8.encode_append, Text.Utf8.encode_cons] at h
    refine ⟨String.ofList before, by rwa [String.toList_ofList], ?_⟩
    rw [Text.Utf8.bytes_ofList]
    exact prefix_of_not_mem hnul h
  · exact ⟨s, hmem, h⟩

theorem isText_iff_exists_without_nul {contents : Bytes} :
    isText contents = true ↔ ∃ s : String, '\x00' ∉ s.toList ∧ contents <+: bytes s := by
  constructor
  · intro h
    obtain ⟨hnul, s, hs⟩ := isText_iff.1 h
    exact exists_without_nul hnul hs
  · rintro ⟨s, hclean, hs⟩
    rw [Text.Utf8.bytes_eq_encode] at hs
    exact isText_of_isPrefix hs (isText_encode hclean)

/-- Contents are text exactly if they have no NUL and some bytes behind them make them valid
UTF-8.  So a text without NUL is text wherever it is cut, and nothing else is; and what is no
text is none however it goes on. -/
theorem text_can_go_on :
    (∀ contents, isText contents = true ↔ 0 ∉ contents ∧ ∃ s, contents <+: bytes s) ∧
    (∀ contents, isText contents = true ↔
      ∃ s : String, '\x00' ∉ s.toList ∧ contents <+: bytes s) ∧
    ∀ contents more, isText contents = false → isText (contents ++ more) = false := by
  refine ⟨fun _ => isText_iff, fun _ => isText_iff_exists_without_nul,
    fun contents more hrefused => ?_⟩
  rw [Bool.eq_false_iff] at hrefused ⊢
  exact fun hlonger => hrefused (isText_of_isPrefix (List.prefix_append contents more) hlonger)

/-- Two of the three bytes of a euro sign are text; the first two of a surrogate are none,
whatever its third is. -/
theorem half_a_euro_is_text :
    isText ((bytes "5 \u20AC").take 4) = true ∧
      isText [0xED, 0xA0] = false ∧ isText ([0xED, 0xA0] ++ [0x80, 0x35]) = false := by
  obtain ⟨-, hclean, hrefused⟩ := text_can_go_on
  have hsurrogate : isText [0xED, 0xA0] = false := by decide
  exact ⟨(hclean _).2 ⟨"5 \u20AC", by decide, List.take_prefix 4 _⟩, hsurrogate,
    hrefused _ [0x80, 0x35] hsurrogate⟩

end SiteServer.Media
