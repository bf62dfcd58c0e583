import SiteServer.Http.Head
import SiteServer.Text.Cut

/-!
# Where a head ends

The search for the terminator is described by what it finds: a position where
the terminator stands, and none before it where it does.  Two facts follow for
buffers that grow.  A terminator that was found stays where it is, and one that
stands in a longer buffer is found as soon as all of its four bytes are there.

A buffer with a terminator is cut in the one way in which none begins in its head
(`findTerminator_and_splitHead_iff`).

A head that is written as lines has its terminator right behind the last line,
provided that no line is empty and none holds a line feed
(`findTerminator_lines`): the line feeds of a terminator are two bytes apart,
and every line puts more than that between two of them.  What is cut off there is
the lines again, without the end of the last one (`splitHead_lines`).
-/

namespace SiteServer.Http

/-- The terminator stands at a position and nowhere before it. -/
structure IsFirstTerminator (buffer : Bytes) (i : Nat) : Prop where
  stands : terminator <+: buffer.drop i
  first : ∀ j, terminator <+: buffer.drop j → i ≤ j

/-- The head of a buffer: the bytes before its first terminator, or all of it. -/
def IsHead (buffer head : Bytes) : Prop :=
  (∃ i, IsFirstTerminator buffer i ∧ head = buffer.take i) ∨
    ((∀ i, ¬ terminator <+: buffer.drop i) ∧ head = buffer)

/-! ## What the search finds -/

/-- Where the terminator stands, or before, the search finds one. -/
theorem exists_findTerminator {buffer : Bytes} {j : Nat} (h : terminator <+: buffer.drop j) :
    ∃ i, findTerminator buffer = some i ∧ i ≤ j := by
  induction buffer generalizing j with
  | nil => simp [terminator] at h
  | cons b rest ih =>
      simp only [findTerminator]
      split
      · exact ⟨0, rfl, Nat.zero_le _⟩
      · next hp =>
          cases j with
          | zero => exact absurd (List.isPrefixOf_iff_prefix.2 h) hp
          | succ j =>
              rcases @ih j h with ⟨i, hi, hle⟩
              exact ⟨i + 1, by simp [hi], by omega⟩

theorem findTerminator_eq_some_iff {buffer : Bytes} {i : Nat} :
    findTerminator buffer = some i ↔ IsFirstTerminator buffer i := by
  constructor
  · intro h
    refine ⟨terminator_prefix_drop h, fun j hj => ?_⟩
    rcases exists_findTerminator hj with ⟨i', hi', hle⟩
    rw [h] at hi'
    have heq := Option.some.inj hi'
    subst heq
    exact hle
  · intro h
    rcases exists_findTerminator h.stands with ⟨i', hi', hle⟩
    have hge : i ≤ i' := h.first i' (terminator_prefix_drop hi')
    rw [hi', Nat.le_antisymm hle hge]

theorem findTerminator_eq_none_iff {buffer : Bytes} :
    findTerminator buffer = none ↔ ∀ i, ¬ terminator <+: buffer.drop i := by
  constructor
  · intro h i hi
    rcases exists_findTerminator hi with ⟨j, hj, -⟩
    rw [h] at hj
    simp at hj
  · intro h
    cases hf : findTerminator buffer with
    | none => rfl
    | some i => exact absurd (terminator_prefix_drop hf) (h i)

theorem isHead_splitHead (buffer : Bytes) : IsHead buffer (splitHead buffer).1 := by
  cases h : findTerminator buffer with
  | none => exact .inr ⟨findTerminator_eq_none_iff.1 h, by simp [splitHead, h]⟩
  | some i => exact .inl ⟨i, findTerminator_eq_some_iff.1 h, by simp [splitHead, h]⟩

/-- A buffer has one head. -/
theorem isHead_iff {buffer head : Bytes} : IsHead buffer head ↔ head = (splitHead buffer).1 := by
  constructor
  · intro h
    rcases h with ⟨i, hfirst, rfl⟩ | ⟨hnone, rfl⟩
    · rw [splitHead, findTerminator_eq_some_iff.2 hfirst]
    · rw [splitHead, findTerminator_eq_none_iff.2 hnone]
  · intro h
    exact h ▸ isHead_splitHead buffer

/-! ## Buffers that grow -/

/-- All of a terminator lies in the buffer. -/
theorem add_four_le_of_prefix {buffer : Bytes} {i : Nat} (h : terminator <+: buffer.drop i) :
    i + 4 ≤ buffer.length := by
  have hlen := h.length_le
  simp only [terminator, List.length_cons, List.length_nil, List.length_drop] at hlen
  omega

/-- What comes behind a terminator, or behind where one would end, does not matter to it. -/
theorem prefix_drop_append_iff {buffer : Bytes} {i : Nat} (hi : i + 4 ≤ buffer.length)
    (more : Bytes) : terminator <+: (buffer ++ more).drop i ↔ terminator <+: buffer.drop i := by
  rw [List.drop_append_of_le_length (by omega)]
  constructor
  · intro h
    refine List.prefix_of_prefix_length_le h (List.prefix_append _ _) ?_
    simp only [terminator, List.length_cons, List.length_nil, List.length_drop]
    omega
  · intro h
    exact h.trans (List.prefix_append _ _)

/-- The answer for a buffer is the answer for all that it begins, as soon as all of the
terminator is there and no sooner. -/
theorem findTerminator_prefix_iff {shorter longer : Bytes} (hle : shorter <+: longer) {i : Nat} :
    findTerminator shorter = some i ↔
      findTerminator longer = some i ∧ i + 4 ≤ shorter.length := by
  rcases hle with ⟨more, rfl⟩
  constructor
  · intro h
    exact ⟨findTerminator_append h more, add_four_le_of_prefix (terminator_prefix_drop h)⟩
  · rintro ⟨h, hi⟩
    have hstands := (prefix_drop_append_iff hi more).1 (terminator_prefix_drop h)
    rcases exists_findTerminator hstands with ⟨j, hj, -⟩
    have hsame := findTerminator_append hj more
    rw [h] at hsame
    rw [hj, ← hsame]

/-! ## Heads that are put in front of a terminator -/

/-- No terminator begins in a head, though it may end behind it. -/
def HoldsNone (head : Bytes) : Prop := ¬ terminator <:+: head ++ [13, 10, 13]

theorem exists_drop_of_infix {l : Bytes} (h : terminator <:+: l) :
    ∃ j, terminator <+: l.drop j := by
  obtain ⟨before, after, rfl⟩ := h
  refine ⟨before.length, after, ?_⟩
  rw [List.append_assoc, List.drop_left]

theorem infix_of_prefix_drop {l : Bytes} {j : Nat} (h : terminator <+: l.drop j) :
    terminator <:+: l :=
  h.isInfix.trans (List.drop_suffix j l).isInfix

/-- No terminator begins before the first one. -/
theorem holdsNone_of_findTerminator {buffer : Bytes} {i : Nat}
    (h : findTerminator buffer = some i) : HoldsNone (buffer.take i) := by
  intro hinfix
  obtain ⟨j, hj⟩ := exists_drop_of_infix hinfix
  have hend := add_four_le_of_prefix hj
  obtain ⟨rest, hrest⟩ := terminator_prefix_drop h
  have hbuffer : buffer.take i ++ [13, 10, 13] ++ 10 :: rest = buffer := by
    rw [List.append_assoc]
    exact (congrArg (buffer.take i ++ ·) hrest).trans (List.take_append_drop i buffer)
  have hstands : terminator <+: buffer.drop j := by
    rw [← hbuffer]
    exact (prefix_drop_append_iff hend _).2 hj
  have hfirst := (findTerminator_eq_some_iff.1 h).first j hstands
  have hlength := List.length_take_le i buffer
  simp only [List.length_append, List.length_cons, List.length_nil] at hend
  omega

/-- Behind a head that holds no terminator, the one that is put there is the first. -/
theorem HoldsNone.findTerminator {head : Bytes} (h : HoldsNone head) (body : Bytes) :
    findTerminator (head ++ (terminator ++ body)) = some head.length := by
  refine findTerminator_eq_some_iff.2 ⟨?_, fun j hj => ?_⟩
  · rw [List.drop_left]
    exact List.prefix_append _ _
  · refine Nat.le_of_not_lt fun hlt => ?_
    have hsplit : head ++ (terminator ++ body) = (head ++ [13, 10, 13]) ++ 10 :: body := by
      simp [terminator]
    have hlength : (head ++ [13, 10, 13]).length = head.length + 3 := by simp
    rw [hsplit] at hj
    exact h (infix_of_prefix_drop ((prefix_drop_append_iff (by omega) _).1 hj))

/-- A head that holds no terminator is cut off at the one that is put behind it. -/
theorem HoldsNone.splitHead {head : Bytes} (h : HoldsNone head) (body : Bytes) :
    splitHead (head ++ (terminator ++ body)) = (head, body) := by
  rw [Http.splitHead, h.findTerminator body]
  simp [← List.drop_drop]

/-- The search answers, and cuts, in the one way in which the buffer is a head that holds
no terminator, one behind it, and a body. -/
theorem findTerminator_and_splitHead_iff {buffer head body : Bytes} {i : Nat} :
    findTerminator buffer = some i ∧ splitHead buffer = (head, body) ↔
      head ++ terminator ++ body = buffer ∧ HoldsNone head ∧ head.length = i := by
  constructor
  · rintro ⟨hfound, hcut⟩
    have hwhole := splitHead_append hfound
    rw [hcut] at hwhole
    have hhead : head = buffer.take i := by
      rw [splitHead, hfound] at hcut
      exact (Prod.mk.inj hcut).1.symm
    have hend := add_four_le_of_prefix (terminator_prefix_drop hfound)
    refine ⟨hwhole, hhead ▸ holdsNone_of_findTerminator hfound, ?_⟩
    rw [hhead, List.length_take]
    omega
  · rintro ⟨rfl, hnone, rfl⟩
    rw [List.append_assoc]
    exact ⟨hnone.findTerminator body, hnone.splitHead body⟩

/-! ## The search as a whole -/

/-- The search finds the first place where a terminator stands, and nothing exactly if there
is none.  The answer does not depend on what comes behind the terminator, and the buffer is
cut there into a head that holds none, the terminator and a body. -/
theorem search_finds_first_terminator (buffer : Bytes) :
    (∀ i, findTerminator buffer = some i ↔ IsFirstTerminator buffer i) ∧
    (findTerminator buffer = none ↔ ∀ i, ¬ terminator <+: buffer.drop i) ∧
    (∀ more i, findTerminator buffer = some i ↔
      findTerminator (buffer ++ more) = some i ∧ i + 4 ≤ buffer.length) ∧
    ∀ i head body, findTerminator buffer = some i ∧ splitHead buffer = (head, body) ↔
      head ++ terminator ++ body = buffer ∧ HoldsNone head ∧ head.length = i :=
  ⟨fun _ => findTerminator_eq_some_iff, findTerminator_eq_none_iff,
    fun more _ => findTerminator_prefix_iff (List.prefix_append buffer more),
    fun _ _ _ => findTerminator_and_splitHead_iff⟩

/-- Of two terminators that share an end of a line, behind a CR, the first counts. -/
example : findTerminator [13, 13, 10, 13, 10, 13, 10] = some 1 := by decide

/-! ## Heads that are written as lines -/

/-- The bytes of a line, and of its end. -/
def withEnd (line : Bytes) : Bytes := line ++ [13, 10]

/-- No terminator begins with a byte of a line: the byte behind it is one of the
line too, or the CR of its end. -/
theorem findTerminator_cons {c : UInt8} {line : Bytes} (hline : 10 ∉ line) (rest : Bytes) :
    findTerminator (c :: (withEnd line ++ rest)) =
      (findTerminator (withEnd line ++ rest)).map (· + 1) := by
  have hc : ¬ terminator.isPrefixOf (c :: (withEnd line ++ rest)) = true := by
    intro hp
    have hp := List.isPrefixOf_iff_prefix.1 hp
    cases line with
    | nil => simp [terminator, withEnd] at hp
    | cons d line =>
        simp only [terminator, withEnd, List.cons_append, List.cons_prefix_cons] at hp
        exact hline (by simp [hp.2.1])
  rw [findTerminator, if_neg hc]

/-- No terminator begins inside a line, or with its end if no empty line follows. -/
theorem findTerminator_withEnd {line rest : Bytes} (hline : 10 ∉ line)
    (hrest : ¬ [13, 10] <+: rest) :
    findTerminator (withEnd line ++ rest) =
      (findTerminator rest).map (· + (withEnd line).length) := by
  induction line with
  | nil =>
      have hCR : terminator.isPrefixOf (13 :: 10 :: rest) = false := by
        rw [Bool.eq_false_iff]
        intro hp
        have hp := List.isPrefixOf_iff_prefix.1 hp
        simp only [terminator, List.cons_prefix_cons, true_and] at hp
        exact hrest hp
      have hLF : terminator.isPrefixOf (10 :: rest) = false := rfl
      simp [withEnd, findTerminator, hCR, hLF, Function.comp_def]
  | cons c line ih =>
      have htail := (List.ne_and_not_mem_of_not_mem_cons hline).2
      have hcons : withEnd (c :: line) = c :: withEnd line := rfl
      rw [hcons, List.cons_append, findTerminator_cons htail, ih htail, List.length_cons]
      simp [Function.comp_def, Nat.add_assoc]

/-- The end of a line and an empty line behind it are a terminator. -/
theorem findTerminator_last {line : Bytes} (hline : 10 ∉ line) (body : Bytes) :
    findTerminator (withEnd line ++ ([13, 10] ++ body)) = some line.length := by
  induction line with
  | nil =>
      have hp : terminator.isPrefixOf (withEnd [] ++ ([13, 10] ++ body)) = true := by
        simp [terminator, withEnd]
      simpa [withEnd, findTerminator] using hp
  | cons c line ih =>
      have htail := (List.ne_and_not_mem_of_not_mem_cons hline).2
      have hcons : withEnd (c :: line) = c :: withEnd line := rfl
      rw [hcons, List.cons_append, findTerminator_cons htail, ih htail]
      simp

/-- A line that holds something does not begin with its end. -/
theorem not_end_prefix {line : Bytes} (hne : line ≠ []) (hline : 10 ∉ line) (rest : Bytes) :
    ¬ [13, 10] <+: withEnd line ++ rest := by
  intro hp
  match line, hne with
  | [c], _ => simp [withEnd] at hp
  | c :: d :: line, _ =>
      simp only [withEnd, List.cons_append, List.cons_prefix_cons] at hp
      exact hline (by simp [hp.2.1])

/-- Behind lines that hold something but no line feed, the first terminator is
the end of the last of them and the empty line. -/
theorem findTerminator_lines {lines : List Bytes} {last : Bytes}
    (hlines : ∀ line ∈ lines ++ [last], line ≠ [] ∧ 10 ∉ line) (body : Bytes) :
    findTerminator (lines.flatMap withEnd ++ (withEnd last ++ ([13, 10] ++ body))) =
      some ((lines.flatMap withEnd).length + last.length) := by
  induction lines with
  | nil => simpa using findTerminator_last (hlines last (by simp)).2 body
  | cons line lines ih =>
      have hline := hlines line (by simp)
      have htail : ∀ l ∈ lines ++ [last], l ≠ [] ∧ 10 ∉ l := fun l hl =>
        hlines l (List.mem_cons_of_mem _ hl)
      have hrest : ¬ [13, 10] <+:
          lines.flatMap withEnd ++ (withEnd last ++ ([13, 10] ++ body)) := by
        cases lines with
        | nil =>
            have hlast := htail last (by simp)
            exact not_end_prefix hlast.1 hlast.2 _
        | cons next lines =>
            have hnext := htail next (by simp)
            rw [List.flatMap_cons, List.append_assoc]
            exact not_end_prefix hnext.1 hnext.2 _
      rw [List.flatMap_cons, List.append_assoc, findTerminator_withEnd hline.2 hrest, ih htail]
      simp only [Option.map_some, List.length_append]
      congr 1
      omega

/-- Behind lines that hold something but no line feed, an empty line is the first
terminator, together with the end of the last of them. -/
theorem isFirstTerminator_flatMap {lines : List Bytes} (hne : lines ≠ [])
    (hlines : ∀ line ∈ lines, line ≠ [] ∧ 10 ∉ line) (body : Bytes) :
    ∃ i, IsFirstTerminator (lines.flatMap withEnd ++ [13, 10] ++ body) i ∧
      i + 4 = (lines.flatMap withEnd ++ [13, 10]).length := by
  rcases (List.eq_nil_or_concat lines).resolve_left hne with ⟨before, last, rfl⟩
  rw [List.concat_eq_append] at hlines ⊢
  refine ⟨(before.flatMap withEnd).length + last.length, ?_, ?_⟩
  · apply findTerminator_eq_some_iff.1
    have hfound := findTerminator_lines hlines body
    simpa using hfound
  · simp [withEnd]
    omega

/-- Cutting at line feeds gives the lines back, each with the CR of its end. -/
theorem pieces_flatMap_withEnd {lines : List Bytes} (hlines : ∀ line ∈ lines, 10 ∉ line)
    (rest : Bytes) :
    Text.pieces (· = 10) (lines.flatMap withEnd ++ rest) =
      lines.map (· ++ [13]) ++ Text.pieces (· = 10) rest := by
  induction lines with
  | nil => rfl
  | cons line lines ih =>
      have htail : ∀ l ∈ lines, 10 ∉ l := fun l hl => hlines l (List.mem_cons_of_mem _ hl)
      have hline : 10 ∉ line ++ [13] := by
        have hnot := hlines line (List.mem_cons_self ..)
        simpa using hnot
      have hsplit : (line :: lines).flatMap withEnd ++ rest =
          (line ++ [13]) ++ 10 :: (lines.flatMap withEnd ++ rest) := by
        simp [withEnd]
      rw [hsplit, Text.pieces_append_cons (by simp), Text.pieces_of_not_mem hline, ih htail]
      simp

/-- Each line with its end: the lines with ends between them, and one more end. -/
theorem flatMap_withEnd {lines : List Bytes} (hne : lines ≠ []) :
    lines.flatMap withEnd = [13, 10].intercalate lines ++ [13, 10] := by
  induction lines with
  | nil => exact absurd rfl hne
  | cons line lines ih =>
      cases lines with
      | nil => simp [withEnd]
      | cons next rest =>
          rw [List.flatMap_cons, ih (List.cons_ne_nil _ _), List.intercalate_cons_cons, withEnd]
          simp only [List.append_assoc]

/-- Lines that hold something but no line feed are cut off at the empty line behind
them, and the last one without its end. -/
theorem splitHead_lines {lines : List Bytes} (hne : lines ≠ [])
    (hlines : ∀ line ∈ lines, line ≠ [] ∧ 10 ∉ line) (body : Bytes) :
    splitHead (lines.flatMap withEnd ++ [13, 10] ++ body) = ([13, 10].intercalate lines, body) := by
  rcases isFirstTerminator_flatMap hne hlines body with ⟨i, hfirst, hi⟩
  have hfound := findTerminator_eq_some_iff.2 hfirst
  have hlength : i = ([13, 10].intercalate lines).length := by
    simpa [flatMap_withEnd hne] using hi
  have hsplit : lines.flatMap withEnd ++ [13, 10] ++ body =
      [13, 10].intercalate lines ++ (terminator ++ body) := by
    rw [flatMap_withEnd hne]
    simp [terminator]
  rw [splitHead, hfound, hsplit, hlength]
  simp [← List.drop_drop]

end SiteServer.Http
