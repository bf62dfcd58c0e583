import SiteServer.Text.Blank

/-!
# The ends of a text

Trimming and dropping are described by the text they were applied to.  A trimmed
text stands in the original between characters that all were to go, and begins
and ends with none of them (`trimBoth_eq_iff`).  Where a single character may be
dropped, the original is the result with that character once or not at all at
its end (`perhaps`).
-/

namespace SiteServer.Text

/-! ## Trimming -/

/-- `core` is what is left of a text without the characters at both ends that
satisfy `p`. -/
structure IsTrimmed (p : Char → Bool) (text core : List Char) : Prop where
  parts : ∃ before after, text = before ++ core ++ after ∧
    (∀ c ∈ before, p c = true) ∧ ∀ c ∈ after, p c = true
  head : ∀ c, core.head? = some c → p c = false
  last : ∀ c, core.getLast? = some c → p c = false

theorem dropWhile_eq_self {p : Char → Bool} {text : List Char}
    (h : ∀ c, text.head? = some c → p c = false) : text.dropWhile p = text := by
  cases text with
  | nil => rfl
  | cons c text => simp [h c rfl]

theorem head_dropWhile {p : Char → Bool} {text : List Char} {c : Char}
    (h : (text.dropWhile p).head? = some c) : p c = false := by
  have hnot := List.head?_dropWhile_not p text
  rw [h] at hnot
  simpa using hnot

/-- What `dropWhile` drops from the front. -/
theorem exists_append_dropWhile (p : Char → Bool) (text : List Char) :
    ∃ before, text = before ++ text.dropWhile p ∧ ∀ c ∈ before, p c = true := by
  refine ⟨text.takeWhile p, List.takeWhile_append_dropWhile.symm, ?_⟩
  exact List.all_eq_true.1 List.all_takeWhile

theorem isTrimmed_trimBoth (p : Char → Bool) (text : List Char) :
    IsTrimmed p text (trimBoth p text) := by
  rcases exists_append_dropWhile p text with ⟨before, hbefore, hp⟩
  rcases exists_append_dropWhile p (text.dropWhile p).reverse with ⟨after, hafter, hq⟩
  have hmiddle : text.dropWhile p = trimBoth p text ++ after.reverse := by
    have h := congrArg List.reverse hafter
    simpa [trimBoth] using h
  refine ⟨⟨before, after.reverse, ?_, hp, by simpa using hq⟩, fun c hc => ?_, fun c hc => ?_⟩
  · rw [List.append_assoc, ← hmiddle, ← hbefore]
  · have hfront : (text.dropWhile p).head? = some c := by
      rw [hmiddle, List.head?_append, hc]
      rfl
    exact head_dropWhile hfront
  · rw [trimBoth, List.getLast?_reverse] at hc
    exact head_dropWhile hc

theorem trimBoth_eq_iff {p : Char → Bool} {text core : List Char} :
    trimBoth p text = core ↔ IsTrimmed p text core := by
  constructor
  · intro heq
    subst heq
    exact isTrimmed_trimBoth p text
  · intro h
    rcases h with ⟨⟨before, after, rfl, hbefore, hafter⟩, hhead, hlast⟩
    rw [trimBoth, List.append_assoc, List.dropWhile_append_of_pos hbefore]
    cases core with
    | nil =>
        have hnil : after.dropWhile p = [] := by
          rw [← List.append_nil after, List.dropWhile_append_of_pos hafter]
          rfl
        simp [hnil]
    | cons c core =>
        have hfront : ((c :: core) ++ after).dropWhile p = (c :: core) ++ after :=
          dropWhile_eq_self fun d hd => hhead d hd
        have hback : (c :: core).reverse.dropWhile p = (c :: core).reverse :=
          dropWhile_eq_self fun d hd => hlast d (by rwa [List.head?_reverse] at hd)
        rw [hfront, List.reverse_append, List.dropWhile_append_of_pos (by simpa using hafter),
          hback, List.reverse_reverse]

/-! ## One character at an end -/

/-- One `c`, or nothing. -/
def perhaps (c : Char) (given : Bool) : List Char :=
  if given then [c] else []

theorem exists_dropTrailing (c : Char) (text : List Char) :
    ∃ given, text = dropTrailing c text ++ perhaps c given := by
  unfold dropTrailing
  split
  · next h =>
      rcases List.getLast?_eq_some_iff.1 h with ⟨rest, rfl⟩
      exact ⟨true, by simp [perhaps]⟩
  · exact ⟨false, by simp [perhaps]⟩

theorem exists_dropLeading (c : Char) (text : List Char) :
    ∃ given, text = perhaps c given ++ dropLeading c text := by
  cases text with
  | nil => exact ⟨false, rfl⟩
  | cons a rest =>
      by_cases h : a = c
      · exact ⟨true, by simp [perhaps, dropLeading, h]⟩
      · exact ⟨false, by simp [perhaps, dropLeading, h]⟩

theorem dropTrailing_perhaps {c : Char} {text : List Char} (h : c ∉ text) (given : Bool) :
    dropTrailing c (text ++ perhaps c given) = text := by
  cases given with
  | true => exact dropTrailing_append_self c text
  | false =>
      have hlast : text.getLast? ≠ some c := fun e => h (List.mem_of_getLast? e)
      simpa [perhaps] using dropTrailing_of_getLast_ne hlast

theorem dropLeading_perhaps {c : Char} {text : List Char} (h : text.head? ≠ some c)
    (given : Bool) : dropLeading c (perhaps c given ++ text) = text := by
  cases given with
  | true => exact dropLeading_cons_self c text
  | false =>
      cases text with
      | nil => rfl
      | cons a rest =>
          have hac : a ≠ c := fun e => h (by rw [e]; rfl)
          simp [perhaps, dropLeading, hac]

end SiteServer.Text
