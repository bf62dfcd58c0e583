import SiteServer.Proofs.Http.RequestGrammar
import Mathlib.Data.List.Basic

/-!
# Characters without a meaning

A head is recognised by its blanks, the colons and quotes in its header lines, and the
words that are looked up.  All other characters are idle: they tell the parts of a head
apart, and mean nothing else.

Exchanging idle characters for one another (`RenamesIdle`) takes the lines, words, names
and values of a head to those of the other, and leaves the words that are looked up as
they are.  Whether a head opens as that of a request, and whether its header lines are
orderly, is therefore not changed by it (`RenamesIdle.accepted_iff`).

A word that is looked up has no idle character if the head is accepted
(`not_isIdle_of_checked`).
-/

namespace SiteServer.Text

/-! ## Cuts, character by character -/

theorem breakAt_map {α β : Type} {p : α → Bool} {q : β → Bool} {f : α → β}
    (h : ∀ a, q (f a) = p a) (l : List α) :
    breakAt q (l.map f) = ((breakAt p l).1.map f, (breakAt p l).2.map (List.map f)) := by
  induction l with
  | nil => rfl
  | cons a l ih =>
      rw [List.map_cons, breakAt, breakAt, ih, h]
      cases p a <;> rfl

theorem words_map {f : Char → Char} (h : ∀ c, isBlank (f c) = isBlank c) (text : List Char) :
    words (text.map f) = (words text).map (List.map f) := by
  have hcut : pieces isBlank (text.map f) = (pieces isBlank text).map (List.map f) := by
    rw [pieces, breakAt_map h]
    rfl
  rw [words, hcut, List.filter_map]
  congr 1
  exact List.filter_congr fun piece _ => by simp

theorem IsTrimmed.map {p : Char → Bool} {f : Char → Char} (h : ∀ c, p (f c) = p c)
    {text core : List Char} (trimmed : IsTrimmed p text core) :
    IsTrimmed p (text.map f) (core.map f) := by
  obtain ⟨⟨before, after, rfl, hbefore, hafter⟩, hhead, hlast⟩ := trimmed
  refine ⟨⟨before.map f, after.map f, by simp, ?_, ?_⟩, ?_, ?_⟩
  · simpa [h] using hbefore
  · simpa [h] using hafter
  · simpa [h] using hhead
  · simpa [h] using hlast

end SiteServer.Text

namespace SiteServer.Http

open Text.Utf8 (decodeLossy)

/-! ## Idle characters -/

/-- The words that a head is recognised by. -/
def knownWords : List String :=
  Method.words.all.map Method.token ++ Version.words.all.map Version.token ++
    Platform.words.all.map Platform.token ++ [hostName, userAgentName, platformName]

/-- A character that nothing in a head is recognised by. -/
def IsIdle (c : Char) : Prop :=
  Text.isBlank c = false ∧ c ≠ ':' ∧ c ≠ '"' ∧ ∀ word ∈ knownWords, c ∉ word.toList

instance (c : Char) : Decidable (IsIdle c) :=
  inferInstanceAs (Decidable (_ ∧ _ ∧ _ ∧ _))

/-- What stands for invalid bytes is idle. -/
theorem isIdle_replacement : IsIdle Text.Utf8.replacement := by decide

theorem not_isIdle_of_mem {word : String} (hword : word ∈ knownWords) :
    ∀ c ∈ word.toList, ¬ IsIdle c :=
  fun _ hc idle => idle.2.2.2 word hword hc

/-- Each word of a vocabulary is known if all that it lists are. -/
theorem word_mem_knownWords {α : Type} {v : Vocabulary α String}
    (h : v.all.map v.word ⊆ knownWords) (a : α) : v.word a ∈ knownWords :=
  h (List.mem_map_of_mem (v.mem_all a))

/-- A hint has no idle character. -/
theorem IsHint.not_isIdle {value : List Char} {p : Platform} (h : IsHint value p) :
    ∀ c ∈ value, ¬ IsIdle c := by
  obtain ⟨opened, closed, ended, rfl⟩ := h
  have hperhaps : ∀ d, ¬ IsIdle d → ∀ given, ∀ c ∈ Text.perhaps d given, ¬ IsIdle c := by
    intro d hd given c hc
    cases given with
    | true => rwa [List.mem_singleton.1 hc]
    | false => exact absurd hc List.not_mem_nil
  intro c hc
  simp only [List.mem_append] at hc
  rcases hc with ((hopened | hword) | hclosed) | hended
  · exact hperhaps '"' (by decide) _ c hopened
  · exact not_isIdle_of_mem (word_mem_knownWords (by decide) p) c hword
  · exact hperhaps '"' (by decide) _ c hclosed
  · exact hperhaps '\r' (by decide) _ c hended

/-! ## Words that are looked up -/

/-- The words of a head that have to be known ones: the method, the version, and the
values that hint at a platform. -/
inductive Checked (head : Bytes) : List Char → Prop where
  | method {word : List Char} (first : (requestWords head)[0]? = some word) : Checked head word
  | version {word : List Char} (third : (requestWords head)[2]? = some word) : Checked head word
  | platform {line value : List Char} (mem : line ∈ headerLines head)
      (header : IsHeader line platformName value) : Checked head value

/-- In a head that is accepted, no word that is looked up has an idle character. -/
theorem not_isIdle_of_checked {head : Bytes} (opens : Opens head)
    (orderly : Orderly (headerLines head)) {word : List Char} (h : Checked head word) :
    ∀ c ∈ word, ¬ IsIdle c := by
  cases h with
  | method first =>
      obtain ⟨m, hm⟩ := opens.method
      obtain rfl : word = m.token.toList := Option.some.inj (first.symm.trans hm)
      exact not_isIdle_of_mem (word_mem_knownWords (by decide) m)
  | version third =>
      obtain ⟨v, hv⟩ := opens.version
      obtain rfl : word = v.token.toList := Option.some.inj (third.symm.trans hv)
      exact not_isIdle_of_mem (word_mem_knownWords (by decide) v)
  | platform mem header =>
      obtain ⟨p, hint⟩ := orderly.hints _ mem _ header
      exact hint.not_isIdle

/-! ## Renaming -/

/-- Exchanges idle characters for one another, and leaves all others as they are. -/
structure RenamesIdle (σ : Char → Char) : Prop where
  involutive : ∀ c, σ (σ c) = c
  fixed : ∀ c, ¬ IsIdle c → σ c = c

/-- Exchanges two characters. -/
def exchange (c d : Char) (x : Char) : Char :=
  if x = c then d else if x = d then c else x

theorem renamesIdle_exchange {c d : Char} (hc : IsIdle c) (hd : IsIdle d) :
    RenamesIdle (exchange c d) := by
  constructor
  · intro x
    unfold exchange
    split_ifs <;> simp_all
  · intro x hx
    have hxc : x ≠ c := fun heq => hx (heq ▸ hc)
    have hxd : x ≠ d := fun heq => hx (heq ▸ hd)
    simp [exchange, hxc, hxd]

theorem renamesIdle_id : RenamesIdle id := ⟨fun _ => rfl, fun _ _ => rfl⟩

/-- A name with its characters exchanged. -/
def renamed (σ : Char → Char) (name : String) : String :=
  String.ofList (name.toList.map σ)

/-- The words of a request line are those of the first line of its text. -/
theorem requestWords_eq (head : Bytes) :
    requestWords head = Text.words (linesOf (decodeLossy head)).1 := by
  rw [linesOf_decodeLossy, requestWords]

theorem headerLines_eq (head : Bytes) :
    headerLines head = headerLinesOf (linesOf (decodeLossy head)).2 := by
  rw [linesOf_decodeLossy, headerLines]

namespace RenamesIdle

variable {σ : Char → Char} (h : RenamesIdle σ)

include h

/-- A character with a meaning comes from itself only. -/
theorem eq_iff {m : Char} (hm : ¬ IsIdle m) {c : Char} : σ c = m ↔ c = m := by
  constructor
  · intro heq
    rw [← h.involutive c, heq, h.fixed m hm]
  · intro heq
    rw [heq, h.fixed m hm]

theorem isBlank (c : Char) : Text.isBlank (σ c) = Text.isBlank c := by
  by_cases hc : IsIdle c
  · by_cases hσ : IsIdle (σ c)
    · rw [hσ.1, hc.1]
    · rw [← h.fixed (σ c) hσ, h.involutive]
  · rw [h.fixed c hc]

theorem map_map (text : List Char) : (text.map σ).map σ = text := by
  simp [Function.comp_def, h.involutive]

/-- Characters with a meaning stay. -/
theorem map_eq_self {text : List Char} (htext : ∀ c ∈ text, ¬ IsIdle c) : text.map σ = text := by
  rw [List.map_congr_left fun c hc => h.fixed c (htext c hc), List.map_id']

theorem mem_map_iff {m : Char} (hm : ¬ IsIdle m) {text : List Char} :
    m ∈ text.map σ ↔ m ∈ text := by
  simp [h.eq_iff hm]

/-! ### Lines -/

theorem linesOf (text : List Char) :
    Http.linesOf (text.map σ) =
      ((Http.linesOf text).1.map σ, (Http.linesOf text).2.map (List.map σ)) := by
  refine Text.breakAt_map (fun c => ?_) text
  have hlf : ¬ IsIdle '\n' := by decide
  simp [h.eq_iff hlf]

theorem dropTrailing (text : List Char) :
    Text.dropTrailing '\r' (text.map σ) = (Text.dropTrailing '\r' text).map σ := by
  have hcr : ¬ IsIdle '\r' := by decide
  have hlast : (text.map σ).getLast? = some '\r' ↔ text.getLast? = some '\r' := by
    simp [h.eq_iff hcr]
  unfold Text.dropTrailing
  rw [List.map_dropLast.symm]
  split_ifs <;> simp_all

theorem headerLinesOf (raws : List (List Char)) :
    Http.headerLinesOf (raws.map (List.map σ)) =
      (Http.headerLinesOf raws).map (List.map σ) := by
  have hdrop : (raws.map (List.map σ)).map (Text.dropTrailing '\r') =
      (raws.map (Text.dropTrailing '\r')).map (List.map σ) := by
    simp only [List.map_map]
    exact List.map_congr_left fun raw _ => h.dropTrailing raw
  have hempty : ((!·.isEmpty) ∘ List.map σ) = ((!·.isEmpty) : List Char → Bool) := by
    funext line
    simp
  rw [Http.headerLinesOf, hdrop, List.takeWhile_map, hempty, Http.headerLinesOf]

/-! ### Headers -/

theorem header {line value : List Char} {name : String} (header : IsHeader line name value) :
    IsHeader (line.map σ) (renamed σ name) (value.map σ) := by
  obtain ⟨rest, hcolon, rfl, trimmed⟩ := header
  have hmark : ¬ IsIdle ':' := by decide
  have hspace : ¬ IsIdle ' ' := by decide
  refine ⟨rest.map σ, ?_, ?_, ?_⟩
  · rwa [renamed, String.toList_ofList, h.mem_map_iff hmark]
  · simp [renamed, h.fixed ':' hmark]
  · refine trimmed.map fun c => ?_
    simp [h.eq_iff hspace]

theorem renamed_renamed (name : String) : renamed σ (renamed σ name) = name := by
  rw [renamed, renamed, String.toList_ofList, h.map_map, String.ofList_toList]

/-- A name that is looked up stays. -/
theorem renamed_eq_self {name : String} (hname : name ∈ knownWords) : renamed σ name = name := by
  rw [renamed, h.map_eq_self (not_isIdle_of_mem hname), String.ofList_toList]

theorem isOrdinary {name : String} (ordinary : IsOrdinary name) :
    IsOrdinary (renamed σ name) := by
  have hne : ∀ own ∈ knownWords, name ≠ own → renamed σ name ≠ own := by
    intro own hown hne heq
    apply hne
    rw [← h.renamed_renamed name, heq, h.renamed_eq_self hown]
  exact ⟨hne _ (by decide) ordinary.1, hne _ (by decide) ordinary.2.1,
    hne _ (by decide) ordinary.2.2⟩

/-- A line that carries a name, renamed, carries the renamed name. -/
theorem header_of_map {line value : List Char} {name : String}
    (header : IsHeader (line.map σ) name value) :
    IsHeader line (renamed σ name) (value.map σ) := by
  have hback := h.header header
  rwa [h.map_map] at hback

theorem orderly {lines : List (List Char)} (orderly : Orderly lines) :
    Orderly (lines.map (List.map σ)) := by
  constructor
  · intro line hline value header
    obtain ⟨original, hmem, rfl⟩ := List.mem_map.1 hline
    have hplatform : renamed σ platformName = platformName :=
      h.renamed_eq_self (by decide)
    have hheader := h.header_of_map header
    rw [hplatform] at hheader
    obtain ⟨p, hint⟩ := orderly.hints original hmem _ hheader
    -- A hint has no idle character, so the value is what it was.
    have hsame : value = value.map σ := by
      have hfixed := h.map_eq_self hint.not_isIdle
      rwa [h.map_map] at hfixed
    exact ⟨p, hsame ▸ hint⟩
  · rw [List.pairwise_map]
    refine orderly.distinct.imp fun {a b} hdistinct name ordinary hfirst hsecond => ?_
    obtain ⟨v, hv⟩ := hfirst
    obtain ⟨w, hw⟩ := hsecond
    exact hdistinct _ (h.isOrdinary ordinary) ⟨_, h.header_of_map hv⟩ ⟨_, h.header_of_map hw⟩

/-! ### Heads -/

section Heads

variable {head other : Bytes} (htext : decodeLossy other = (decodeLossy head).map σ)

include htext

theorem requestWords : Http.requestWords other = (Http.requestWords head).map (List.map σ) := by
  rw [requestWords_eq, requestWords_eq, htext, h.linesOf, Text.words_map h.isBlank]

theorem headerLines : Http.headerLines other = (Http.headerLines head).map (List.map σ) := by
  rw [headerLines_eq, headerLines_eq, htext, h.linesOf, h.headerLinesOf]

/-- A known word stays in its place. -/
theorem word {i : Nat} {known : String} (hknown : known ∈ knownWords)
    (hword : (Http.requestWords head)[i]? = some known.toList) :
    (Http.requestWords other)[i]? = some known.toList := by
  rw [h.requestWords htext, List.getElem?_map, hword, Option.map_some,
    h.map_eq_self (not_isIdle_of_mem hknown)]

theorem opens (opens : Opens head) : Opens other := by
  refine ⟨?_, ?_, ?_, ?_⟩
  · obtain ⟨c, hmem, hsolid⟩ := opens.text
    refine ⟨σ c, ?_, by rw [h.isBlank, hsolid]⟩
    rw [htext]
    exact List.mem_map_of_mem hmem
  · have hwords : 3 ≤ (Http.requestWords head).length := opens.words
    rwa [HasWords, h.requestWords htext, List.length_map]
  · obtain ⟨m, hm⟩ := opens.method
    exact ⟨m, h.word htext (word_mem_knownWords (by decide) m) hm⟩
  · obtain ⟨v, hv⟩ := opens.version
    exact ⟨v, h.word htext (word_mem_knownWords (by decide) v) hv⟩

/-- Heads that differ in idle characters only are accepted alike. -/
theorem accepted_iff : Opens other ∧ Orderly (Http.headerLines other) ↔
    Opens head ∧ Orderly (Http.headerLines head) := by
  have hback : decodeLossy head = (decodeLossy other).map σ := by rw [htext, h.map_map]
  constructor
  · intro accepted
    refine ⟨h.opens hback accepted.1, ?_⟩
    rw [h.headerLines hback]
    exact h.orderly accepted.2
  · intro accepted
    refine ⟨h.opens htext accepted.1, ?_⟩
    rw [h.headerLines htext]
    exact h.orderly accepted.2

end Heads

end RenamesIdle

end SiteServer.Http
