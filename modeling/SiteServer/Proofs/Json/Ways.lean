import SiteServer.Json.Value
import SiteServer.Proofs.Dictionary
import SiteServer.Text.Cut
import Mathlib.Data.List.Induction

/-!
# Ways down a JSON value

A step goes from an object to the member of exactly one name, and from an array to the
element whose position is the number that is written; there are no others.  A way is a
step for each of its segments, in their order (`Leads`), and following the segments finds
what the way leads to (`descend?_eq_some_iff`).

A position is written in decimal and without leading zeros.  Each number is written in one
way only, so that a position is read back exactly from its own digits
(`position?_eq_some_iff`), however large it is.

A pointer is a way as one text: a slash in front of each segment, where the slashes and
tildes of the segments themselves are written `~1` and `~0`.
-/

namespace SiteServer

namespace Text

/-! ## Numerals -/

theorem digitsValue_eq_ofDigitChars (text : List Char) :
    digitsValue text = Nat.ofDigitChars 10 text 0 := by
  have hstep : ∀ (n : Nat) (c : Char),
      n * 10 + digitValue c = 10 * n + (c.toNat - '0'.toNat) := by
    intro n c
    rw [Nat.mul_comm, digitValue]
  simp only [digitsValue, Nat.ofDigitChars, hstep]

theorem digitsValue_digits (n : Nat) : digitsValue (digits n) = n := by
  rw [digitsValue_eq_ofDigitChars, digits, Nat.ofDigitChars_toDigits (by decide) (by decide)]

theorem digits?_digits (n : Nat) : digits? (digits n) = some n := by
  have hne : (digits n).isEmpty = false := List.isEmpty_eq_false_iff.2 Nat.toDigits_ne_nil
  have hall : (digits n).all Char.isDigit = true := List.all_eq_true.2 fun c hc =>
    Nat.isDigit_of_mem_toDigits (by decide) (by decide) hc
  rw [digits?, hne, hall, digitsValue_digits]
  rfl

/-- Only zero is written with a zero in front. -/
theorem eq_zero_of_head?_digits {n : Nat} (h : (digits n).head? = some '0') : n = 0 := by
  induction n using Nat.strongRecOn with
  | ind n ih =>
    rcases Nat.lt_or_ge n 10 with hlt | hge
    · have hchar : ∀ n < 10, Nat.digitChar n = '0' → n = 0 := by decide
      rw [digits, Nat.toDigits_of_lt_base hlt] at h
      exact hchar n hlt (Option.some.inj h)
    · obtain ⟨c, rest, hfront⟩ := List.exists_cons_of_ne_nil (@Nat.toDigits_ne_nil (n / 10) 10)
      rw [digits, Nat.toDigits_of_base_le (by decide) hge, hfront] at h
      have hzero := ih (n / 10) (by omega) (by rw [digits, hfront]; exact h)
      omega

/-- A digit is the digit of its value. -/
theorem digits_digitValue {c : Char} (h : c.isDigit = true) :
    digitValue c < 10 ∧ digits (digitValue c) = [c] := by
  simp only [Char.isDigit, Bool.and_eq_true, decide_eq_true_eq, UInt32.le_iff_toNat_le,
    ge_iff_le] at h
  have hlow : 48 ≤ c.toNat := h.1
  have hhigh : c.toNat ≤ 57 := h.2
  have hzero : '0'.toNat = 48 := rfl
  have hlt : digitValue c < 10 := by
    rw [digitValue, hzero]
    omega
  have hchar : ∀ n < 10, Nat.digitChar n = Char.ofNat (n + 48) := by decide
  refine ⟨hlt, ?_⟩
  rw [digits, Nat.toDigits_of_lt_base hlt, hchar _ hlt, digitValue, hzero,
    Nat.sub_add_cancel hlow, Char.ofNat_toNat]

/-- Digits without a leading zero are those of the number that they write. -/
theorem digits_digitsValue {text : List Char} (hne : text ≠ [])
    (hdigits : ∀ c ∈ text, c.isDigit = true) (hzero : text.head? = some '0' → text = ['0']) :
    digits (digitsValue text) = text := by
  induction text using List.reverseRecOn with
  | nil => exact absurd rfl hne
  | append_singleton before c ih =>
      obtain ⟨hlt, hdigit⟩ := digits_digitValue (hdigits c (by simp))
      have hvalue : digitsValue (before ++ [c]) = 10 * digitsValue before + digitValue c := by
        simp [digitsValue, Nat.mul_comm]
      rcases List.eq_nil_or_concat before with rfl | ⟨first, d, hbefore⟩
      · have hone : digitsValue ([] ++ [c]) = digitValue c := by
          rw [hvalue]
          exact Nat.zero_add _
        rw [hone, hdigit, List.nil_append]
      · have hcons : before ≠ [] := by simp [hbefore]
        have hhead : (before ++ [c]).head? = before.head? := by
          obtain ⟨a, rest, rfl⟩ := List.exists_cons_of_ne_nil hcons
          rfl
        have hnot : before.head? ≠ some '0' := by
          intro heq
          have hshort := congrArg List.length (hzero (hhead.trans heq))
          have hpos := List.length_pos_iff.2 hcons
          simp only [List.length_append, List.length_singleton] at hshort
          omega
        have hsame := ih hcons (fun c hc => hdigits c (by simp [hc])) fun heq => absurd heq hnot
        have hpos : 0 < digitsValue before := by
          rcases Nat.eq_zero_or_pos (digitsValue before) with hnull | hpos
          · rw [hnull] at hsame
            exact absurd (hsame ▸ rfl) hnot
          · exact hpos
        rw [hvalue, digits, ← Nat.toDigits_append_toDigits (by decide) hpos hlt]
        exact congrArg₂ (· ++ ·) hsame hdigit

end Text

namespace Json

/-! ## Steps and ways -/

/-- A segment names a part of a value. -/
inductive StepsTo : Json → List Char → Json → Prop where
  /-- The member of an object with that name, and the first one if there were several. -/
  | member {members before after : List (String × Json)} {name : String} {value : Json}
      (stands : members = before ++ (name, value) :: after) (first : ∀ m ∈ before, m.1 ≠ name) :
      StepsTo (.object members) name.toList value
  /-- The element of an array at the position that is written. -/
  | element {items : List Json} {i : Nat} {value : Json} (stands : items[i]? = some value) :
      StepsTo (.array items) (Text.digits i) value

/-- Segments that lead down from a value, one after another. -/
inductive Leads : Json → List (List Char) → Json → Prop where
  | here (value : Json) : Leads value [] value
  | down {value next found : Json} {segment : List Char} {rest : List (List Char)}
      (step : StepsTo value segment next) (leads : Leads next rest found) :
      Leads value (segment :: rest) found

/-- In an object whose names are different, a name leads to the member of the name. -/
theorem stepsTo_object_iff {members : List (String × Json)}
    (distinct : members.Pairwise fun a b => a.1 ≠ b.1) {name : String} {value : Json} :
    StepsTo (.object members) name.toList value ↔ (name, value) ∈ members := by
  rw [← Dictionary.lookup_eq_some_iff distinct, Dictionary.lookup_eq_some_iff_first]
  constructor
  · generalize hsegment : name.toList = segment
    intro h
    cases h with
    | member stands first =>
        obtain rfl := String.toList_inj.1 hsegment
        exact ⟨_, _, stands, first⟩
  · rintro ⟨before, after, stands, first⟩
    exact .member stands first

/-- A position is read from its own digits, and from nothing else. -/
theorem position?_eq_some_iff {segment : List Char} {i : Nat} :
    position? segment = some i ↔ segment = Text.digits i := by
  rw [position?]
  constructor
  · intro h
    split at h
    · contradiction
    · rename_i hzero
      rw [Text.digits?] at h
      split at h
      · contradiction
      · rename_i hdigits
        simp only [Bool.or_eq_true, List.isEmpty_iff, Bool.not_eq_true', not_or,
          Bool.not_eq_false, List.all_eq_true] at hdigits
        simp only [Bool.and_eq_true, decide_eq_true_eq, not_and] at hzero
        obtain rfl := Option.some.inj h
        refine (Text.digits_digitsValue hdigits.1 hdigits.2 fun hhead => ?_).symm
        have hshort : segment.length ≤ 1 := Nat.le_of_not_lt fun hlong => hzero hlong hhead
        obtain ⟨c, rest, rfl⟩ := List.exists_cons_of_ne_nil hdigits.1
        obtain rfl : rest = [] := List.length_eq_zero_iff.1 (by simpa using hshort)
        rw [Option.some.inj hhead]
  · rintro rfl
    have hzero : ¬ ((Text.digits i).length > 1 && (Text.digits i).head? = some '0') = true := by
      simp only [Bool.and_eq_true, decide_eq_true_eq, not_and]
      intro hlong hhead
      rw [Text.eq_zero_of_head?_digits hhead] at hlong
      exact absurd hlong (by decide)
    rw [if_neg hzero, Text.digits?_digits]

theorem child?_eq_some_iff {value next : Json} {segment : List Char} :
    value.child? segment = some next ↔ StepsTo value segment next := by
  constructor
  · intro h
    unfold child? at h
    split at h
    · obtain ⟨before, after, stands, first⟩ := Dictionary.lookup_eq_some_iff_first.1 h
      have hstep : StepsTo _ (String.ofList segment).toList next := .member stands first
      rwa [String.toList_ofList] at hstep
    · obtain ⟨i, hposition, stands⟩ := Option.bind_eq_some_iff.1 h
      rw [position?_eq_some_iff.1 hposition]
      exact .element stands
    · contradiction
  · intro h
    cases h with
    | member stands first =>
        rw [child?, String.ofList_toList]
        exact Dictionary.lookup_eq_some_iff_first.2 ⟨_, _, stands, first⟩
    | element stands =>
        rw [child?, position?_eq_some_iff.2 rfl]
        exact stands

/-- Following segments finds what they lead to. -/
theorem descend?_eq_some_iff {value found : Json} {way : List (List Char)} :
    value.descend? way = some found ↔ Leads value way found := by
  induction way generalizing value with
  | nil =>
      constructor
      · intro h
        obtain rfl := Option.some.inj h
        exact .here value
      · intro h
        cases h
        rfl
  | cons segment rest ih =>
      rw [descend?, Option.bind_eq_some_iff]
      constructor
      · rintro ⟨next, hchild, hrest⟩
        exact .down (child?_eq_some_iff.1 hchild) (ih.1 hrest)
      · intro h
        cases h with
        | down step leads => exact ⟨_, child?_eq_some_iff.2 step, ih.2 leads⟩

/-! ## Pointers -/

/-- A segment of a pointer as it is meant. -/
def unescaped : List Char → List Char
  | '~' :: '1' :: rest => '/' :: unescaped rest
  | '~' :: '0' :: rest => '~' :: unescaped rest
  | c :: rest => c :: unescaped rest
  | [] => []

/-- What a pointer leads to.  The empty one stands for the whole value, and every other
one begins with a slash. -/
def atPointer? (value : Json) : List Char → Option Json
  | [] => some value
  | '/' :: rest => value.descend? ((Text.pieces (· = '/') rest).map unescaped)
  | _ => none

theorem unescaped_eq_self {segment : List Char} (h : '~' ∉ segment) :
    unescaped segment = segment := by
  induction segment with
  | nil => rfl
  | cons c rest ih =>
      obtain ⟨hc, hrest⟩ := List.ne_and_not_mem_of_not_mem_cons h
      rw [unescaped, ih hrest]
      · rintro rest rfl
        exact absurd rfl hc
      · rintro rest rfl
        exact absurd rfl hc

/-- Segments with slashes in front are a pointer for the way that they are, if they hold
no slash and no tilde themselves. -/
theorem atPointer?_intercalate (value : Json) {way : List (List Char)} (hne : way ≠ [])
    (hway : ∀ segment ∈ way, '/' ∉ segment ∧ '~' ∉ segment) :
    value.atPointer? ('/' :: ['/'].intercalate way) = value.descend? way := by
  have hsame : way.map unescaped = way := by
    have hall := List.map_congr_left fun segment hmem => unescaped_eq_self (hway segment hmem).2
    rw [hall, List.map_id']
  rw [atPointer?, Text.pieces_intercalate hne fun segment hmem => (hway segment hmem).1, hsame]

end Json

end SiteServer
