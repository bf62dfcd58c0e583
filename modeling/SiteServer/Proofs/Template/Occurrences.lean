import SiteServer.Proofs.Text.Ends
import SiteServer.Template.Placeholder

/-!
# Where placeholders stand

What a placeholder is can be said without reading a template: two braces, blanks,
a key, blanks, two braces.  A text may hold any number of them anywhere
(`Occurs`).

None of the characters between the braces is a brace, so an occurrence can neither
begin within another nor go on differently from the same place
(`Occurs.end_le`, `Occurs.unique`).  It is therefore no loss that a template is read
from left to right, and that what is tried at a place is one length only
(`placeholder?_eq_some_iff`).
-/

namespace SiteServer.Template

/-! ## Keys and placeholders -/

/-- A key is written with these segments, at least one of them, and dots between them.
A segment is one or more ASCII letters, digits or underscores. -/
structure Spells (key : List Char) (parts : List (List Char)) : Prop where
  ne_nil : parts ≠ []
  part : ∀ part ∈ parts, part ≠ [] ∧ ∀ c ∈ part, isSegmentChar c = true
  joined : key = ['.'].intercalate parts

/-- A key: a text that is written with some segments. -/
def IsDotted (key : List Char) : Prop :=
  ∃ parts, Spells key parts

/-- The text of a placeholder with a key. -/
def IsPlaceholder (text key : List Char) : Prop :=
  ∃ left right, (∀ c ∈ left, Text.isBlank c = true) ∧ (∀ c ∈ right, Text.isBlank c = true) ∧
    IsDotted key ∧ text = ['\x7b', '\x7b'] ++ left ++ key ++ right ++ ['\x7d', '\x7d']

/-- A placeholder stands at a position of a text. -/
structure Occurs (source : List Char) (i : Nat) (text key : List Char) : Prop where
  placeholder : IsPlaceholder text key
  stands : text <+: source.drop i

/-! ## The characters of a placeholder -/

theorem isKeyChar_of_isSegmentChar {c : Char} (h : isSegmentChar c = true) :
    isKeyChar c = true := by
  simp [isKeyChar, h]

/-- What has no place in a segment. -/
theorem Spells.not_mem {key : List Char} {parts : List (List Char)} (h : Spells key parts)
    {c : Char} (hc : isSegmentChar c = false) : ∀ part ∈ parts, c ∉ part := by
  intro part hpart hmem
  rw [(h.part part hpart).2 c hmem] at hc
  contradiction

theorem Spells.segments_eq {key : List Char} {parts : List (List Char)} (h : Spells key parts) :
    segments key = parts := by
  have hdot : isSegmentChar '.' = false := by decide
  rw [segments, h.joined, Text.pieces_intercalate h.ne_nil (h.not_mem hdot)]

/-- The characters of keys lie between the dot and the lower case `z`. -/
theorem toNat_of_isKeyChar {c : Char} (h : isKeyChar c = true) :
    '.'.toNat ≤ c.toNat ∧ c.toNat ≤ 'z'.toNat := by
  have halpha : c.isAlpha = (c.isUpper || c.isLower) := rfl
  have hupper : c.isUpper = decide (c.val ≥ 'A'.val ∧ c.val ≤ 'Z'.val) := rfl
  have hlower : c.isLower = (decide (c.val ≥ 'a'.val) && decide (c.val ≤ 'z'.val)) := rfl
  simp only [isKeyChar, isSegmentChar, Char.isAlphanum, halpha, hupper, hlower, Char.isDigit,
    Bool.or_eq_true, Bool.and_eq_true, decide_eq_true_eq, UInt32.le_iff_toNat_le, ge_iff_le] at h
  rcases h with (((⟨hlow, hhigh⟩ | ⟨hlow, hhigh⟩) | ⟨hlow, hhigh⟩) | rfl) | rfl
  · exact ⟨Nat.le_trans (by decide) hlow, Nat.le_trans hhigh (by decide)⟩
  · exact ⟨Nat.le_trans (by decide) hlow, Nat.le_trans hhigh (by decide)⟩
  · exact ⟨Nat.le_trans (by decide) hlow, Nat.le_trans hhigh (by decide)⟩
  · decide
  · decide

theorem not_isBlank_of_isKeyChar {c : Char} (h : isKeyChar c = true) :
    Text.isBlank c = false := by
  obtain ⟨hlow, hhigh⟩ := toNat_of_isKeyChar h
  have hdot : '.'.toNat = 46 := rfl
  have hz : 'z'.toNat = 122 := rfl
  simp only [Text.isBlank, Bool.or_eq_false_iff, Bool.and_eq_false_iff, decide_eq_false_iff_not,
    beq_eq_false_iff_ne]
  omega

/-- A key is what the reader takes for one. -/
theorem isDotted_iff {key : List Char} :
    IsDotted key ↔ isKey key = true ∧ ∀ c ∈ key, isKeyChar c = true := by
  constructor
  · rintro ⟨parts, spells⟩
    constructor
    · rw [isKey, spells.segments_eq, List.all_eq_true]
      intro part hpart
      simpa using (spells.part part hpart).1
    · intro c hc
      rw [spells.joined] at hc
      rcases Text.mem_intercalate hc with rfl | ⟨part, hpart, hmem⟩
      · rfl
      · exact isKeyChar_of_isSegmentChar ((spells.part part hpart).2 c hmem)
  · rintro ⟨hkey, hchars⟩
    refine ⟨segments key, Text.pieces_ne_nil _ _, ?_, (Text.intercalate_pieces '.' key).symm⟩
    intro part hpart
    have hne := List.all_eq_true.1 hkey part hpart
    refine ⟨by simpa using hne, fun c hc => ?_⟩
    have hchar := hchars c (Text.mem_of_mem_pieces hpart hc)
    have hdot : c ≠ '.' := by simpa using Text.not_sep_of_mem_pieces hpart hc
    simpa [isKeyChar, hdot] using hchar

theorem IsDotted.isKeyChar {key : List Char} (h : IsDotted key) {c : Char} (hc : c ∈ key) :
    isKeyChar c = true :=
  (isDotted_iff.1 h).2 c hc

theorem IsDotted.ne_nil {key : List Char} (h : IsDotted key) : key ≠ [] := by
  intro hnil
  have hkey := (isDotted_iff.1 h).1
  rw [hnil] at hkey
  exact absurd hkey (by decide)

/-- What stands between the opening braces of a placeholder and its end holds no
opening brace. -/
theorem IsPlaceholder.exists_inner {text key : List Char} (h : IsPlaceholder text key) :
    ∃ c inner, text = '\x7b' :: '\x7b' :: c :: inner ∧ '\x7b' ∉ c :: inner := by
  obtain ⟨left, right, hleft, hright, hkey, rfl⟩ := h
  obtain ⟨first, others, hfirst⟩ := List.exists_cons_of_ne_nil hkey.ne_nil
  have hbrace : '\x7b' ∉ left ++ key ++ right ++ ['\x7d', '\x7d'] := by
    have hblank : ¬ Text.isBlank '\x7b' = true := by decide
    have hchar : ¬ isKeyChar '\x7b' = true := by decide
    simp only [List.mem_append, List.mem_cons, List.not_mem_nil, or_false, not_or]
    exact ⟨⟨⟨fun h => hblank (hleft _ h), fun h => hchar (hkey.isKeyChar h)⟩,
      fun h => hblank (hright _ h)⟩, by decide, by decide⟩
  obtain ⟨c, inner, hinner⟩ : ∃ c inner, left ++ key ++ right ++ ['\x7d', '\x7d'] = c :: inner :=
    List.exists_cons_of_ne_nil (by simp)
  refine ⟨c, inner, ?_, hinner ▸ hbrace⟩
  rw [← hinner]
  simp

theorem IsPlaceholder.length_pos {text key : List Char} (h : IsPlaceholder text key) :
    0 < text.length := by
  obtain ⟨c, inner, rfl, -⟩ := h.exists_inner
  exact Nat.zero_lt_succ _

/-! ## The reader of a placeholder -/

section Span

variable {p : Char → Bool} {before after : List Char}

/-- A run of characters ends where one stands that does not belong to it. -/
theorem span_append (hbefore : ∀ c ∈ before, p c = true)
    (hafter : ∀ c, after.head? = some c → p c = false) :
    (before ++ after).takeWhile p = before ∧ (before ++ after).dropWhile p = after := by
  have htake : after.takeWhile p = [] := by
    cases after with
    | nil => rfl
    | cons c after => simp [hafter c rfl]
  rw [List.takeWhile_append_of_pos hbefore, List.dropWhile_append_of_pos hbefore, htake,
    Text.dropWhile_eq_self hafter, List.append_nil]
  exact ⟨rfl, rfl⟩

end Span

theorem placeholder?_append {text key : List Char} (h : IsPlaceholder text key)
    (more : List Char) : placeholder? (text ++ more) = some (key, text.length) := by
  obtain ⟨left, right, hleft, hright, hkey, rfl⟩ := h
  let tail := right ++ '\x7d' :: '\x7d' :: more
  have hbrace : ∀ c, ('\x7d' :: '\x7d' :: more).head? = some c → Text.isBlank c = false := by
    intro c hc
    obtain rfl := Option.some.inj hc
    decide
  have hinner : ∀ c, (key ++ tail).head? = some c → Text.isBlank c = false := by
    intro c hc
    obtain ⟨first, others, hfirst⟩ := List.exists_cons_of_ne_nil hkey.ne_nil
    rw [hfirst] at hc
    obtain rfl := Option.some.inj hc
    exact not_isBlank_of_isKeyChar (hkey.isKeyChar (hfirst ▸ List.mem_cons_self ..))
  have htail : ∀ c, tail.head? = some c → isKeyChar c = false := by
    intro c hc
    cases right with
    | nil =>
        obtain rfl := Option.some.inj hc
        decide
    | cons b right =>
        obtain rfl := Option.some.inj hc
        have hblank := hright b (List.mem_cons_self ..)
        cases hchar : isKeyChar b with
        | false => rfl
        | true =>
            rw [not_isBlank_of_isKeyChar hchar] at hblank
            contradiction
  obtain ⟨hleftTake, hleftDrop⟩ := span_append hleft hinner
  obtain ⟨hkeyTake, hkeyDrop⟩ := span_append (fun c hc => hkey.isKeyChar hc) htail
  obtain ⟨hrightTake, hrightDrop⟩ := span_append hright hbrace
  have hsource : ['\x7b', '\x7b'] ++ left ++ key ++ right ++ ['\x7d', '\x7d'] ++ more =
      '\x7b' :: '\x7b' :: (left ++ (key ++ tail)) := by
    simp [tail]
  rw [hsource]
  simp only [placeholder?, hleftTake, hleftDrop, hkeyTake, hkeyDrop, hrightTake, hrightDrop, tail,
    (isDotted_iff.1 hkey).1, if_true]
  congr 2
  simp
  omega

theorem isPlaceholder_of_placeholder? {source key : List Char} {n : Nat}
    (h : placeholder? source = some (key, n)) :
    ∃ text, IsPlaceholder text key ∧ text <+: source ∧ text.length = n := by
  unfold placeholder? at h
  split at h
  · rename_i rest
    let inner := rest.dropWhile Text.isBlank
    let tail := inner.dropWhile isKeyChar
    dsimp only at h
    split at h
    · rename_i more hend
      split at h
      · rename_i hkey
        obtain ⟨rfl, rfl⟩ := Prod.mk.inj (Option.some.inj h)
        have hrest : rest = rest.takeWhile Text.isBlank ++ inner :=
          List.takeWhile_append_dropWhile.symm
        have hinner : inner = inner.takeWhile isKeyChar ++ tail :=
          List.takeWhile_append_dropWhile.symm
        have htail : tail = tail.takeWhile Text.isBlank ++ '\x7d' :: '\x7d' :: more := by
          rw [← hend]
          exact List.takeWhile_append_dropWhile.symm
        have hblank : ∀ text : List Char, ∀ c ∈ text.takeWhile Text.isBlank,
            Text.isBlank c = true := fun text => List.all_eq_true.1 List.all_takeWhile
        refine ⟨_, ⟨rest.takeWhile Text.isBlank, tail.takeWhile Text.isBlank, hblank rest,
          hblank tail, isDotted_iff.2 ⟨hkey, List.all_eq_true.1 List.all_takeWhile⟩, rfl⟩,
          ⟨more, ?_⟩, ?_⟩
        · calc
            _ = '\x7b' :: '\x7b' :: (rest.takeWhile Text.isBlank ++ (inner.takeWhile isKeyChar ++
                  (tail.takeWhile Text.isBlank ++ '\x7d' :: '\x7d' :: more))) := by
              simp [inner]
            _ = '\x7b' :: '\x7b' :: rest := by
              rw [← htail, ← hinner, ← hrest]
        · simp only [List.length_append, List.length_cons, List.length_nil, inner, tail]
          omega
      · contradiction
    · contradiction
  · contradiction

theorem placeholder?_eq_some_iff {source key : List Char} {n : Nat} :
    placeholder? source = some (key, n) ↔
      ∃ text, IsPlaceholder text key ∧ text <+: source ∧ text.length = n := by
  constructor
  · exact isPlaceholder_of_placeholder?
  · rintro ⟨text, htext, ⟨more, rfl⟩, rfl⟩
    exact placeholder?_append htext more

/-! ## Occurrences keep apart -/

namespace Occurs

variable {source text key text' key' : List Char} {i j : Nat}

theorem reads (h : Occurs source i text key) :
    placeholder? (source.drop i) = some (key, text.length) :=
  placeholder?_eq_some_iff.2 ⟨text, h.placeholder, h.stands, rfl⟩

/-- What stands at a place is one placeholder only. -/
theorem unique (h : Occurs source i text key) (h' : Occurs source i text' key') :
    text = text' ∧ key = key' := by
  have hsame := h'.reads
  rw [h.reads] at hsame
  obtain ⟨rfl, hlength⟩ := Prod.mk.inj (Option.some.inj hsame)
  refine ⟨?_, rfl⟩
  have hprefix := List.prefix_of_prefix_length_le h.stands h'.stands (Nat.le_of_eq hlength)
  exact hprefix.eq_of_length hlength

/-- No placeholder begins within another. -/
theorem end_le (h : Occurs source i text key) (h' : Occurs source j text' key') (hij : i < j) :
    i + text.length ≤ j := by
  obtain ⟨c, inner, rfl, hinner⟩ := h.placeholder.exists_inner
  obtain ⟨c', inner', rfl, -⟩ := h'.placeholder.exists_inner
  obtain ⟨more, hmore⟩ := h.stands
  obtain ⟨more', hmore'⟩ := h'.stands
  have hdrop : (source.drop i).drop (j - i) = source.drop j := by
    rw [List.drop_drop]
    congr 1
    omega
  obtain ⟨d, hd⟩ : ∃ d, j - i = d + 1 := ⟨j - i - 1, by omega⟩
  rw [← hmore, ← hmore', hd] at hdrop
  simp only [List.cons_append, List.drop_succ_cons] at hdrop
  apply Nat.le_of_not_lt
  intro hwithin
  -- The brace that `j` points to is either the second one at `i`, or one behind it.
  apply hinner
  cases d with
  | zero =>
      have hsecond := (List.cons.inj (List.cons.inj hdrop).2).1
      rw [hsecond]
      exact List.mem_cons_self ..
  | succ e =>
      have hlt : e < (c :: inner).length := by
        simp only [List.length_cons] at hwithin ⊢
        omega
      have hhead : (c :: inner ++ more)[e]? = some '\x7b' := by
        rw [← List.head?_drop]
        exact congrArg List.head? hdrop
      rw [List.getElem?_append_left hlt] at hhead
      exact List.mem_of_getElem? hhead

end Occurs

end SiteServer.Template
