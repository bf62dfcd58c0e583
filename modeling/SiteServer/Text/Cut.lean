/-!
# Cutting lists

The server reads its texts by cutting them: lines at line feeds, words at
blanks, headers at the first colon, paths at slashes.  The cuts here are stated
for lists of any element, so that bytes and characters share them.

`breakAt` cuts at every separator and always gives a first piece; `pieces` is
the same cut as one list, which is therefore never empty.  `cutAtFirst` cuts
only once.  Joining the parts with the separator gives the list back
(`intercalate_pieces`, `cutAtFirst_eq_some_iff`), and cutting what was joined gives the
parts (`pieces_intercalate`).
-/

namespace SiteServer.Text

variable {α : Type _}

/-- The piece before the first separator, and the pieces after each of them. -/
def breakAt (p : α → Bool) : List α → List α × List (List α)
  | [] => ([], [])
  | a :: rest =>
    let (first, others) := breakAt p rest
    if p a then ([], first :: others) else (a :: first, others)

/-- The pieces between separators: `n` separators leave `n + 1` pieces. -/
def pieces (p : α → Bool) (l : List α) : List (List α) :=
  (breakAt p l).1 :: (breakAt p l).2

/-- The parts before and after the first `c`, if there is one. -/
def cutAtFirst [DecidableEq α] (c : α) : List α → Option (List α × List α)
  | [] => none
  | a :: rest =>
    if a = c then some ([], rest)
    else (cutAtFirst c rest).map fun parts => (a :: parts.1, parts.2)

/-- The list without one leading `c`, if it begins with one. -/
def dropLeading [DecidableEq α] (c : α) : List α → List α
  | [] => []
  | a :: rest => if a = c then rest else a :: rest

/-- The list without one trailing `c`, if it ends with one. -/
def dropTrailing [DecidableEq α] (c : α) (l : List α) : List α :=
  if l.getLast? = some c then l.dropLast else l

/-! ## Every separator -/

@[simp] theorem pieces_nil (p : α → Bool) : pieces p [] = [[]] := rfl

theorem pieces_ne_nil (p : α → Bool) (l : List α) : pieces p l ≠ [] := by
  simp [pieces]

theorem pieces_cons_of_sep {p : α → Bool} {a : α} (h : p a = true) (l : List α) :
    pieces p (a :: l) = [] :: pieces p l := by
  simp [pieces, breakAt, h]

theorem pieces_cons_of_not_sep {p : α → Bool} {a : α} (h : p a = false) (l : List α) :
    pieces p (a :: l) = (a :: (breakAt p l).1) :: (breakAt p l).2 := by
  simp [pieces, breakAt, h]

/-- A piece holds no separator. -/
theorem not_sep_of_mem_pieces {p : α → Bool} {l piece : List α} (h : piece ∈ pieces p l)
    {a : α} (ha : a ∈ piece) : p a = false := by
  induction l generalizing piece with
  | nil => simp_all [pieces, breakAt]
  | cons b rest ih =>
      cases hb : p b with
      | true =>
          rw [pieces_cons_of_sep hb, List.mem_cons] at h
          rcases h with rfl | h
          · simp at ha
          · exact ih h ha
      | false =>
          rw [pieces_cons_of_not_sep hb, List.mem_cons] at h
          rcases h with rfl | h
          · rcases List.mem_cons.1 ha with rfl | ha
            · exact hb
            · exact ih (List.mem_cons_self ..) ha
          · exact ih (List.mem_cons_of_mem _ h) ha

theorem mem_of_mem_pieces {p : α → Bool} {l piece : List α} (h : piece ∈ pieces p l) {a : α}
    (ha : a ∈ piece) : a ∈ l := by
  induction l generalizing piece with
  | nil => simp_all
  | cons b rest ih =>
      cases hb : p b with
      | true =>
          rw [pieces_cons_of_sep hb, List.mem_cons] at h
          rcases h with rfl | h
          · simp at ha
          · exact List.mem_cons_of_mem _ (ih h ha)
      | false =>
          rw [pieces_cons_of_not_sep hb, List.mem_cons] at h
          rcases h with rfl | h
          · rcases List.mem_cons.1 ha with rfl | ha
            · exact List.mem_cons_self ..
            · exact List.mem_cons_of_mem _ (ih (List.mem_cons_self ..) ha)
          · exact List.mem_cons_of_mem _ (ih (List.mem_cons_of_mem _ h) ha)

/-- The pieces are what the library splits a list into. -/
theorem pieces_eq_splitOnP (p : α → Bool) (l : List α) : pieces p l = l.splitOnP p := by
  induction l with
  | nil => rfl
  | cons a rest ih =>
      rw [List.splitOnP_cons_eq_if_modifyHead, ← ih]
      cases h : p a with
      | true => exact pieces_cons_of_sep h rest
      | false => exact pieces_cons_of_not_sep h rest

/-- Joining the pieces with the separator gives the list back. -/
theorem intercalate_pieces [DecidableEq α] (c : α) (l : List α) :
    [c].intercalate (pieces (· = c) l) = l := by
  rw [pieces_eq_splitOnP]
  exact List.intercalate_splitOn c

theorem mem_intercalate {sep a : α} {parts : List (List α)} (h : a ∈ [sep].intercalate parts) :
    a = sep ∨ ∃ part ∈ parts, a ∈ part := by
  induction parts with
  | nil => exact absurd h List.not_mem_nil
  | cons part parts ih =>
      cases parts with
      | nil => exact .inr ⟨part, List.mem_cons_self .., by simpa using h⟩
      | cons next rest =>
          rw [List.intercalate_cons_cons, List.append_assoc, List.mem_append] at h
          rcases h with h | h
          · exact .inr ⟨part, List.mem_cons_self .., h⟩
          · rcases List.mem_cons.1 h with h | h
            · exact .inl h
            · obtain hsep | ⟨found, hfound, hmem⟩ := ih h
              · exact .inl hsep
              · exact .inr ⟨found, List.mem_cons_of_mem _ hfound, hmem⟩

theorem map_intercalate {β : Type _} (f : α → β) (sep : α) (parts : List (List α)) :
    ([sep].intercalate parts).map f = [f sep].intercalate (parts.map (List.map f)) := by
  induction parts with
  | nil => rfl
  | cons part parts ih =>
      cases parts with
      | nil => simp
      | cons next rest =>
          rw [List.intercalate_cons_cons, List.map_append, List.map_append, ih]
          exact List.intercalate_cons_cons.symm

/-- Cutting a list around a separator in it. -/
theorem pieces_append_cons {p : α → Bool} {c : α} (hc : p c = true) (l m : List α) :
    pieces p (l ++ c :: m) = pieces p l ++ pieces p m := by
  induction l with
  | nil => exact pieces_cons_of_sep hc m
  | cons a l ih =>
      by_cases ha : p a = true
      · rw [List.cons_append, pieces_cons_of_sep ha, pieces_cons_of_sep ha, ih]
        rfl
      · have hne : p a = false := Bool.eq_false_iff.2 ha
        rw [List.cons_append, pieces_cons_of_not_sep hne, pieces_cons_of_not_sep hne]
        have hcut : (breakAt p (l ++ c :: m)).1 = (breakAt p l).1 ∧
            (breakAt p (l ++ c :: m)).2 = (breakAt p l).2 ++ pieces p m :=
          List.cons.inj ih
        rw [hcut.1, hcut.2]
        rfl

/-- What is put behind a list goes on with its last piece. -/
theorem exists_pieces_append (p : α → Bool) (l : List α) :
    ∃ before last, pieces p l = before ++ [last] ∧ ∀ m, pieces p (l ++ m) =
      before ++ (last ++ (breakAt p m).1) :: (breakAt p m).2 := by
  induction l with
  | nil => exact ⟨[], [], rfl, fun m => rfl⟩
  | cons a l ih =>
      obtain ⟨before, last, hl, happend⟩ := ih
      cases ha : p a with
      | true =>
          refine ⟨[] :: before, last, by rw [pieces_cons_of_sep ha, hl]; rfl, fun m => ?_⟩
          rw [List.cons_append, pieces_cons_of_sep ha, happend]
          rfl
      | false =>
          have hcons : ∀ {l first rest}, pieces p l = first :: rest →
              pieces p (a :: l) = (a :: first) :: rest := by
            intro l first rest h
            obtain ⟨hfirst, hrest⟩ := List.cons.inj h
            rw [pieces_cons_of_not_sep ha, hfirst, hrest]
          cases before with
          | nil => exact ⟨[], a :: last, hcons hl, fun m => hcons (happend m)⟩
          | cons first before =>
              exact ⟨(a :: first) :: before, last, hcons hl, fun m => hcons (happend m)⟩

theorem breakAt_of_none {p : α → Bool} {l : List α} (h : ∀ a ∈ l, p a = false) :
    breakAt p l = (l, []) := by
  induction l with
  | nil => rfl
  | cons a l ih =>
      have hrest := ih fun b hb => h b (List.mem_cons_of_mem _ hb)
      simp [breakAt, h a (List.mem_cons_self ..), hrest]

/-- A list without separators is one piece. -/
theorem pieces_of_none {p : α → Bool} {l : List α} (h : ∀ a ∈ l, p a = false) :
    pieces p l = [l] := by
  rw [pieces, breakAt_of_none h]

/-! ## Behind what holds no separator -/

section Behind

variable [DecidableEq α]

theorem breakAt_append {c : α} {l : List α} (h : c ∉ l) (m : List α) :
    breakAt (· = c) (l ++ m) = (l ++ (breakAt (· = c) m).1, (breakAt (· = c) m).2) := by
  induction l with
  | nil => rfl
  | cons a l ih =>
      obtain ⟨hac, hl⟩ := List.ne_and_not_mem_of_not_mem_cons h
      simp [breakAt, ih hl, Ne.symm hac]

theorem breakAt_of_not_mem {c : α} {l : List α} (h : c ∉ l) : breakAt (· = c) l = (l, []) := by
  refine breakAt_of_none fun a ha => ?_
  have hne : a ≠ c := fun heq => h (heq ▸ ha)
  simpa using hne

theorem breakAt_cons_self (c : α) (l : List α) :
    breakAt (· = c) (c :: l) = ([], pieces (· = c) l) := by
  simp [breakAt, pieces]

theorem pieces_of_not_mem {c : α} {l : List α} (h : c ∉ l) : pieces (· = c) l = [l] := by
  rw [pieces, breakAt_of_not_mem h]

/-- Cutting what was joined with a separator gives the parts back, if none of them
holds it. -/
theorem pieces_intercalate {c : α} {parts : List (List α)} (hne : parts ≠ [])
    (hparts : ∀ part ∈ parts, c ∉ part) :
    pieces (· = c) ([c].intercalate parts) = parts := by
  rw [pieces_eq_splitOnP]
  exact List.splitOn_intercalate c hparts hne

/-- Cutting at `lf`, and dropping a `cr` in front of it, gives back the lines between
which both were put. -/
theorem map_dropTrailing_pieces_intercalate {cr lf : α} (hne : cr ≠ lf) {lines : List (List α)}
    (hlines : lines ≠ []) (hplain : ∀ line ∈ lines, cr ∉ line ∧ lf ∉ line) :
    (pieces (· = lf) ([cr, lf].intercalate lines)).map (dropTrailing cr) = lines := by
  induction lines with
  | nil => exact absurd rfl hlines
  | cons line lines ih =>
      obtain ⟨hcr, hlf⟩ := hplain line (List.mem_cons_self ..)
      cases lines with
      | nil =>
          have hlast : line.getLast? ≠ some cr := fun heq => hcr (List.mem_of_getLast? heq)
          simp [pieces_of_not_mem hlf, dropTrailing, hlast]
      | cons next rest =>
          have htail := ih (List.cons_ne_nil _ _) fun l hl => hplain l (List.mem_cons_of_mem _ hl)
          have hline : lf ∉ line ++ [cr] := by simp [hlf, Ne.symm hne]
          have hsplit : [cr, lf].intercalate (line :: next :: rest) =
              (line ++ [cr]) ++ lf :: [cr, lf].intercalate (next :: rest) := by
            rw [List.intercalate_cons_cons]
            simp
          rw [hsplit, pieces_append_cons (by simp), pieces_of_not_mem hline, List.map_append, htail]
          simp [dropTrailing]

end Behind

/-! ## The first separator -/

theorem cutAtFirst_append [DecidableEq α] {c : α} {l : List α} (h : c ∉ l) (rest : List α) :
    cutAtFirst c (l ++ c :: rest) = some (l, rest) := by
  induction l with
  | nil => simp [cutAtFirst]
  | cons a l ih =>
      have hac : a ≠ c := fun e => h (by simp [e])
      have hl : c ∉ l := fun m => h (List.mem_cons_of_mem _ m)
      simp [cutAtFirst, hac, ih hl]

/-- The cut is at the first separator, and loses nothing else. -/
theorem cutAtFirst_eq_some_iff [DecidableEq α] {c : α} {l before after : List α} :
    cutAtFirst c l = some (before, after) ↔ c ∉ before ∧ l = before ++ c :: after := by
  constructor
  · intro h
    induction l generalizing before with
    | nil => simp [cutAtFirst] at h
    | cons a rest ih =>
        by_cases hac : a = c
        · simp only [cutAtFirst, hac, if_true, Option.some.injEq, Prod.mk.injEq] at h
          simp [← h.1, ← h.2, hac]
        · simp only [cutAtFirst, hac, if_false, Option.map_eq_some_iff] at h
          obtain ⟨parts, hp, heq⟩ := h
          obtain ⟨rfl, rfl⟩ := Prod.mk.inj heq
          obtain ⟨hmem, hrest⟩ := ih hp
          exact ⟨by simp [hmem, Ne.symm hac], by simp [← hrest]⟩
  · rintro ⟨h, rfl⟩
    exact cutAtFirst_append h after

/-! ## One element at an end -/

@[simp] theorem dropLeading_cons_self [DecidableEq α] (c : α) (l : List α) :
    dropLeading c (c :: l) = l := by
  simp [dropLeading]

@[simp] theorem dropTrailing_append_self [DecidableEq α] (c : α) (l : List α) :
    dropTrailing c (l ++ [c]) = l := by
  simp [dropTrailing]

theorem dropTrailing_of_getLast_ne [DecidableEq α] {c : α} {l : List α}
    (h : l.getLast? ≠ some c) : dropTrailing c l = l := by
  simp [dropTrailing, h]

end SiteServer.Text
