import SiteServer.Files.Serve
import SiteServer.Proofs.Media.PlainText
import SiteServer.Proofs.Text.CutShort
import SiteServer.Proofs.Text.Ends
import SiteServer.Proofs.Text.Letters
import Mathlib.Data.List.Find
import Mathlib.Data.List.Infix

/-!
# What the beginning of a file shows

Files are recognised by their first bytes only.  A signature ends within the first twelve,
so a beginning of that length has the signatures of the whole.  A page that is cut behind
its start is still a page, and a cut makes nothing a page: the character that it may tear
is replaced by one that stands in no start of a page and is no blank.

The two tests that are left part at what a beginning settles.  If it is no text, it has a
NUL or was refused, and either is settled wherever the contents go on (`exists_foreign`).
A page would have to start before it.  So the beginning of a file is only ever taken for
another type if it is taken for text (`beginning_shows_type`).
-/

namespace SiteServer.Media

open Text (fold isBlank)
open Text.Utf8 (decodeLossy encode replacement settle)

/-! ## Signatures -/

theorem standsAt_of_isPrefix {cut whole : Bytes} (h : cut <+: whole) {mark : Nat × Bytes}
    (hmark : standsAt cut mark = true) : standsAt whole mark = true := by
  rw [standsAt, List.isPrefixOf_iff_prefix] at hmark ⊢
  exact hmark.trans (List.IsPrefix.drop h mark.1)

theorem fits_of_isPrefix {cut whole : Bytes} (h : cut <+: whole) {s : Signature}
    (hfits : s.fits cut = true) : s.fits whole = true := by
  rw [Signature.fits, List.all_eq_true] at hfits ⊢
  exact fun mark hmem => standsAt_of_isPrefix h (hfits mark hmem)

/-- A mark that ends before the cut is there if it is in the whole. -/
theorem standsAt_of_le {cut whole : Bytes} (h : cut <+: whole) {mark : Nat × Bytes}
    (hend : mark.1 + mark.2.length ≤ cut.length) (hmark : standsAt whole mark = true) :
    standsAt cut mark = true := by
  rw [standsAt, List.isPrefixOf_iff_prefix] at hmark ⊢
  refine List.prefix_of_prefix_length_le hmark (List.IsPrefix.drop h mark.1) ?_
  rw [List.length_drop]
  omega

/-- All marks end within the first twelve bytes. -/
theorem mark_end_le {s : Signature} (hs : s ∈ signatures) {mark : Nat × Bytes}
    (hmark : mark ∈ s.marks) : mark.1 + mark.2.length ≤ 12 := by
  have hall : ∀ s ∈ signatures, ∀ mark ∈ s.marks, mark.1 + mark.2.length ≤ 12 := by decide
  exact hall s hs mark hmark

/-- Twelve bytes show the signature of all contents that start with them. -/
theorem find_signature_take (contents : Bytes) {n : Nat} (hn : 12 ≤ n) :
    signatures.find? (·.fits (contents.take n)) = signatures.find? (·.fits contents) := by
  by_cases hshort : contents.length ≤ n
  · rw [List.take_of_length_le hshort]
  · have hprefix : contents.take n <+: contents := List.take_prefix n contents
    have hlength : (contents.take n).length = n := by
      rw [List.length_take]
      omega
    refine List.find?_congr fun s hs => ?_
    rw [Bool.eq_iff_iff]
    refine ⟨fits_of_isPrefix hprefix, fun hwhole => ?_⟩
    rw [Signature.fits, List.all_eq_true] at hwhole ⊢
    intro mark hmem
    have hend := mark_end_le hs hmem
    exact standsAt_of_le hprefix (by omega) (hwhole mark hmem)

/-! ## Pages -/

/-- A text has the start of a page, ASCII case aside, and only blanks before it. -/
def StartsPage (text : List Char) : Prop :=
  ∃ blanks mark rest, text = blanks ++ mark ++ rest ∧ (∀ c ∈ blanks, isBlank c = true) ∧
    ∃ start ∈ pageStarts, fold mark = start.toList

/-- No start of a page is empty or begins with a blank. -/
theorem exists_cons_of_fold {mark : List Char} {start : String} (hstart : start ∈ pageStarts)
    (hfold : fold mark = start.toList) : ∃ c rest, mark = c :: rest ∧ isBlank c = false := by
  have hhead : ∀ start ∈ pageStarts, start.toList.head? = some '<' := by decide
  cases mark with
  | nil =>
      have hnone := hhead start hstart
      rw [← hfold] at hnone
      contradiction
  | cons c rest =>
      refine ⟨c, rest, rfl, ?_⟩
      have hlower : c.toLower = '<' := by
        have hsome := hhead start hstart
        rw [← hfold] at hsome
        exact Option.some.inj hsome
      cases hblank : isBlank c with
      | false => rfl
      | true =>
          rw [Text.toLower_of_isBlank hblank] at hlower
          rw [hlower] at hblank
          contradiction

theorem looksLikePage_iff {contents : Bytes} :
    looksLikePage contents = true ↔ StartsPage (decodeLossy contents) := by
  simp only [looksLikePage, List.any_eq_true, List.isPrefixOf_iff_prefix, Text.trimStart]
  generalize decodeLossy contents = text
  constructor
  · rintro ⟨start, hstart, hprefix⟩
    obtain ⟨blanks, htext, hblanks⟩ := Text.exists_append_dropWhile isBlank text
    obtain ⟨mark, hmark, hfold⟩ := List.prefix_map_iff.1 hprefix
    obtain ⟨rest, hrest⟩ := hmark
    refine ⟨blanks, mark, rest, ?_, hblanks, start, hstart, hfold.symm⟩
    rw [List.append_assoc, hrest]
    exact htext
  · rintro ⟨blanks, mark, rest, rfl, hblanks, start, hstart, hfold⟩
    obtain ⟨c, more, rfl, hc⟩ := exists_cons_of_fold hstart hfold
    refine ⟨start, hstart, ?_⟩
    rw [List.append_assoc, List.dropWhile_append_of_pos hblanks, List.cons_append,
      List.dropWhile_cons_of_neg (by simp [hc]), ← List.cons_append, ← hfold]
    exact (List.prefix_append _ _).map _

theorem StartsPage.append {text : List Char} (h : StartsPage text) (more : List Char) :
    StartsPage (text ++ more) := by
  obtain ⟨blanks, mark, rest, rfl, hblanks, hmark⟩ := h
  exact ⟨blanks, mark, rest ++ more, by simp only [List.append_assoc], hblanks, hmark⟩

/-- A character that comes neither before the start of a page nor in it. -/
def Foreign (c : Char) : Prop :=
  isBlank c = false ∧ ∀ start ∈ pageStarts, c.toLower ∉ start.toList

theorem foreign_nul : Foreign '\x00' := by
  unfold Foreign
  decide

theorem foreign_replacement : Foreign replacement := by
  unfold Foreign
  decide

/-- A page starts before each foreign character. -/
theorem StartsPage.before {before after : List Char} {c : Char} (hc : Foreign c)
    (h : StartsPage (before ++ c :: after)) : StartsPage before := by
  obtain ⟨blanks, mark, rest, htext, hblanks, start, hstart, hfold⟩ := h
  have hfree : c ∉ blanks ++ mark := by
    rw [List.mem_append]
    rintro (hmem | hmem)
    · exact absurd (hblanks c hmem) (by simp [hc.1])
    · refine hc.2 start hstart ?_
      rw [← hfold]
      exact List.mem_map_of_mem hmem
  -- The start of the page ends in front of the character, or it holds it.
  rcases List.append_eq_append_iff.1 htext with ⟨more, hmark, hmore⟩ | ⟨more, rfl, -⟩
  · cases more with
    | nil =>
        rw [List.append_nil] at hmark
        exact ⟨blanks, mark, [], by simp [hmark], hblanks, start, hstart, hfold⟩
    | cons d more =>
        obtain ⟨rfl, -⟩ := List.cons.inj hmore
        exact absurd (by simp [hmark]) hfree
  · exact ⟨blanks, mark, more, rfl, hblanks, start, hstart, hfold⟩

theorem StartsPage.of_cutShort {cut full : List Char} (h : Text.CutShort cut full)
    (hcut : StartsPage cut) : StartsPage full := by
  cases h with
  | clean text rest => exact hcut.append rest
  | torn text rest => exact (hcut.before foreign_replacement).append rest

/-! ## Beginnings -/

section Beginnings

variable {cut whole : Bytes}

/-- A page that is cut behind its start is still one, and a cut makes nothing a page. -/
theorem looksLikePage_of_isPrefix (h : cut <+: whole) (hcut : looksLikePage cut = true) :
    looksLikePage whole = true := by
  rw [looksLikePage_iff] at hcut ⊢
  exact hcut.of_cutShort (Text.cutShort_decodeLossy h)

/-- What is no text has settled a character that is foreign to the start of a page. -/
theorem exists_foreign (h : isText cut = false) : ∃ c ∈ (settle none cut).1, Foreign c := by
  have hstart : Text.Utf8.SoundState none := trivial
  by_cases hnul : 0 ∈ cut
  · exact ⟨_, Text.Utf8.mem_settle hstart (by decide) hnul, foreign_nul⟩
  · by_cases hreplaced : replacement ∈ (settle none cut).1
    · exact ⟨_, hreplaced, foreign_replacement⟩
    · have hread := Text.Utf8.decodeFrom_eq_settle hreplaced
      simp [isText, hnul, Text.Utf8.isPartial, hread] at h

/-- What is no text is not the beginning of a page either, unless it is one itself. -/
theorem looksLikePage_of_not_isText (h : cut <+: whole) (htext : isText cut = false)
    (hwhole : looksLikePage whole = true) : looksLikePage cut = true := by
  obtain ⟨rest, rfl⟩ := h
  obtain ⟨c, hmem, hc⟩ := exists_foreign htext
  obtain ⟨before, after, hsettled⟩ := List.append_of_mem hmem
  have hread : ∀ more, ∃ last, decodeLossy (cut ++ more) = before ++ c :: (after ++ last) := by
    intro more
    rw [decodeLossy, Text.Utf8.decodeLossyFrom_append, hsettled, List.append_assoc]
    exact ⟨_, rfl⟩
  rw [looksLikePage_iff] at hwhole ⊢
  obtain ⟨last, hlast⟩ := hread rest
  obtain ⟨last', hlast'⟩ := hread []
  rw [hlast] at hwhole
  rw [← List.append_nil cut, hlast']
  exact (hwhole.before hc).append _

/-- With the signatures of the whole, a beginning is recognised as the whole, or as text. -/
theorem recognise_of_isPrefix (h : cut <+: whole)
    (hfind : signatures.find? (·.fits cut) = signatures.find? (·.fits whole)) :
    recognise cut = recognise whole ∨ recognise cut = "text/plain" := by
  unfold recognise
  rw [hfind]
  cases signatures.find? (·.fits whole) with
  | some s => exact .inl rfl
  | none =>
      cases hpage : looksLikePage cut with
      | true => simp [looksLikePage_of_isPrefix h hpage]
      | false =>
          cases htext : isText cut with
          | true => exact .inr rfl
          | false =>
              have hwholePage : looksLikePage whole = false := by
                rw [Bool.eq_false_iff] at hpage ⊢
                exact fun hwhole => hpage (looksLikePage_of_not_isText h htext hwhole)
              have hwholeText : isText whole = false := by
                rw [Bool.eq_false_iff] at htext ⊢
                exact fun hwhole => htext (isText_of_isPrefix h hwhole)
              simp [hwholePage, hwholeText]

/-- The beginning of a text is text, if the whole has no signature and is no page. -/
theorem recognise_of_isPrefix_of_text (h : cut <+: whole)
    (hfits : ∀ s ∈ signatures, s.fits whole = false) (hpage : looksLikePage whole = false)
    (htext : isText whole = true) : recognise cut = "text/plain" := by
  have hfind : signatures.find? (·.fits cut) = none := by
    rw [List.find?_eq_none]
    intro s hs hcut
    have hwhole := fits_of_isPrefix h hcut
    rw [hfits s hs] at hwhole
    contradiction
  have hcutPage : looksLikePage cut = false := by
    rw [Bool.eq_false_iff] at hpage ⊢
    exact fun hcut => hpage (looksLikePage_of_isPrefix h hcut)
  rw [recognise, hfind]
  simp [hcutPage, isText_of_isPrefix h htext]

end Beginnings

/-- Contents and any beginning of them that has twelve bytes have the same signature, or
both have none, and the beginning shows the type of the contents unless it looks like plain
text; this is so for what is read of a file to recognise it.  Text without NUL that has no
signature and is no page is plain text wherever it is cut, be it in a character. -/
theorem beginning_shows_type :
    (∀ contents n, 12 ≤ n →
      signatures.find? (·.fits (contents.take n)) = signatures.find? (·.fits contents) ∧
      (recognise (contents.take n) = recognise contents ∨
        recognise (contents.take n) = "text/plain") ∧
      (recognise (contents.take n) = "text/html" → recognise contents = "text/html") ∧
      (recognise (contents.take n) = "application/octet-stream" →
        recognise contents = "application/octet-stream")) ∧
    (∀ text, '\x00' ∉ text → (∀ s ∈ signatures, s.fits (encode text) = false) →
      ¬ StartsPage text → ∀ n, recognise ((encode text).take n) = "text/plain") ∧
    ∀ (fs : Files.FileSystem) path contents, fs.entry path = .file contents →
      ∃ name, fs.sniff path = .ok name ∧
        (name = recognise contents ∨ name = "text/plain") := by
  have hcut : ∀ contents n, 12 ≤ n → recognise (contents.take n) = recognise contents ∨
      recognise (contents.take n) = "text/plain" := fun contents n hn =>
    recognise_of_isPrefix (List.take_prefix n contents) (find_signature_take contents hn)
  have hother : ∀ contents n, 12 ≤ n → ∀ name, name ≠ "text/plain" →
      recognise (contents.take n) = name → recognise contents = name := by
    intro contents n hn name hname htake
    rcases hcut contents n hn with hsame | hplain
    · rw [← hsame, htake]
    · exact absurd (htake.symm.trans hplain) hname
  refine ⟨fun contents n hn => ⟨find_signature_take contents hn, hcut contents n hn, ?html, ?bytes⟩,
    fun text hnul hfits hpage n => ?text, fun fs path contents hentry => ?sniff⟩
  case html => exact hother contents n hn _ (by decide)
  case bytes => exact hother contents n hn _ (by decide)
  case text =>
    have hnoPage : looksLikePage (encode text) = false := by
      rw [Bool.eq_false_iff, Ne, looksLikePage_iff, Text.Utf8.decodeLossy_encode]
      exact hpage
    exact recognise_of_isPrefix_of_text (List.take_prefix n _) hfits hnoPage (isText_encode hnul)
  case sniff =>
    refine ⟨recognise (contents.take 512), ?_, hcut contents 512 (by decide)⟩
    rw [Files.FileSystem.sniff, hentry]
    rfl

/-- A text whose fifth byte is the first of a character of two. -/
def torn : List Char := "tama\u00F1o".toList

/-- An image whose signature ends with its twelfth byte. -/
def picture : Bytes := ascii "RIFF" ++ [8, 0, 0, 0] ++ ascii "WEBPVP8 "

theorem torn_is_text :
    recognise ((encode torn).take 5) = "text/plain" ∧
      recognise (picture.take 12) = recognise picture ∧
      ∃ name, (Files.FileSystem.mk fun _ => .file picture).sniff "a" = .ok name ∧
        (name = recognise picture ∨ name = "text/plain") := by
  obtain ⟨hcut, htext, hsniff⟩ := beginning_shows_type
  have hpage : ¬ StartsPage torn := by
    rw [← Text.Utf8.decodeLossy_encode torn, ← looksLikePage_iff]
    decide
  have hpicture : recognise (picture.take 12) ≠ "text/plain" := by decide
  refine ⟨htext torn (by decide) (by decide) hpage 5, ?_, hsniff _ "a" picture rfl⟩
  exact (hcut picture 12 (by decide)).2.1.resolve_right hpicture

end SiteServer.Media
