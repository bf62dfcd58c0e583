import SiteServer.Proofs.Template.Occurrences
import SiteServer.Template.Store

/-!
# What rendering puts in place of placeholders

A page is described place by place of its template (`Fills`): where a placeholder
begins stands its value, for the rest of the placeholder stands nothing, and every
character outside of placeholders stands for itself.  Nothing is said of an order,
and what the values hold is not looked at, so all placeholders are filled at once.

Reading a template from left to right comes to the same (`Scans`): a placeholder at
the front is taken whole, and a character where none begins is kept.  By induction
over this reading, a page is what the places say (`renderText_eq_ok_iff`), and there is
none exactly because of the leftmost key without a value (`renderText_eq_error_iff`).
-/

namespace SiteServer.Template

variable {source rest text key : List Char} {c : Char} {ps : List Part}

/-! ## Reading from left to right -/

/-- The parts of a text, as they are taken off its front. -/
inductive Scans : List Char → List Part → Prop
  | done : Scans [] []
  | char {c : Char} {rest : List Char} {ps : List Part}
      (plain : ∀ text key, ¬ Occurs (c :: rest) 0 text key) (scan : Scans rest ps) :
      Scans (c :: rest) (.char c :: ps)
  | hole {text key rest : List Char} {ps : List Part} (found : IsPlaceholder text key)
      (scan : Scans rest ps) : Scans (text ++ rest) (.hole key :: ps)

theorem partsFrom_eq_parts_drop (skip : Nat) (source : List Char) :
    partsFrom skip source = parts (source.drop skip) := by
  induction source generalizing skip with
  | nil => simp [parts, partsFrom]
  | cons c rest ih =>
      cases skip with
      | zero => rfl
      | succ skip => exact ih skip

/-- The parts of a template are those that are taken off its front. -/
theorem scans_parts (source : List Char) : Scans source (parts source) := by
  induction hlength : source.length using Nat.strongRecOn generalizing source with
  | ind length ih =>
    cases source with
    | nil => exact .done
    | cons c rest =>
        cases hfound : placeholder? (c :: rest) with
        | none =>
            have hparts : parts (c :: rest) = .char c :: parts rest := by
              simp [parts, partsFrom, hfound]
            rw [hparts]
            refine .char (fun text key hoccurs => ?_) (ih rest.length (by simp [← hlength]) rest rfl)
            have hreads := hoccurs.reads
            rw [List.drop_zero, hfound] at hreads
            contradiction
        | some found =>
            obtain ⟨key, n⟩ := found
            obtain ⟨text, htext, ⟨more, hmore⟩, rfl⟩ := placeholder?_eq_some_iff.1 hfound
            have hpos : 0 < text.length := htext.length_pos
            have hrest : rest.drop (text.length - 1) = more := by
              have hdrop := congrArg (List.drop text.length) hmore
              rw [List.drop_left, ← Nat.sub_add_cancel hpos] at hdrop
              exact hdrop.symm
            have hparts : parts (c :: rest) = .hole key :: partsFrom (text.length - 1) rest := by
              simp [parts, partsFrom, hfound]
            rw [partsFrom_eq_parts_drop, hrest] at hparts
            have hshorter : more.length < length := by
              rw [← hlength, ← hmore, List.length_append]
              omega
            rw [hparts, ← hmore]
            exact .hole htext (ih more.length hshorter more rfl)

/-! ## Occurrences behind what was taken off -/

theorem occurs_cons_succ {i : Nat} :
    Occurs (c :: rest) (i + 1) text key ↔ Occurs rest i text key :=
  ⟨fun h => ⟨h.placeholder, h.stands⟩, fun h => ⟨h.placeholder, h.stands⟩⟩

theorem occurs_append_add {front : List Char} {i : Nat} :
    Occurs (front ++ rest) (front.length + i) text key ↔ Occurs rest i text key := by
  constructor
  · intro h
    have hstands := h.stands
    rw [List.drop_append, List.drop_eq_nil_of_le (by omega), Nat.add_sub_cancel_left] at hstands
    exact ⟨h.placeholder, hstands⟩
  · intro h
    refine ⟨h.placeholder, ?_⟩
    rw [List.drop_append, List.drop_eq_nil_of_le (by omega), Nat.add_sub_cancel_left]
    exact h.stands

theorem occurs_of_isPlaceholder (h : IsPlaceholder text key) : Occurs (text ++ rest) 0 text key :=
  ⟨h, List.prefix_append _ _⟩

/-- Where a character was kept, all placeholders stand behind it. -/
theorem Occurs.of_plain (plain : ∀ text key, ¬ Occurs (c :: rest) 0 text key) {i : Nat}
    (h : Occurs (c :: rest) i text key) : ∃ k, i = k + 1 ∧ Occurs rest k text key := by
  cases i with
  | zero => exact absurd h (plain text key)
  | succ k => exact ⟨k, rfl, occurs_cons_succ.1 h⟩

/-- Where a placeholder was taken off, the others stand behind it. -/
theorem Occurs.of_hole {front name : List Char} (found : IsPlaceholder front name) {i : Nat}
    (h : Occurs (front ++ rest) i text key) :
    (i = 0 ∧ text = front ∧ key = name) ∨
      ∃ k, i = front.length + k ∧ Occurs rest k text key := by
  have hfront : Occurs (front ++ rest) 0 front name := occurs_of_isPlaceholder found
  rcases Nat.eq_zero_or_pos i with rfl | hpos
  · exact .inl ⟨rfl, h.unique hfront⟩
  · have hend := hfront.end_le h hpos
    obtain ⟨k, rfl⟩ : ∃ k, i = front.length + k := ⟨i - front.length, by omega⟩
    exact .inr ⟨k, rfl, occurs_append_add.1 h⟩

/-! ## What stands at a place of the page -/

/-- What the page has for the character at a position of its template. -/
inductive Fills (data : Json) (source : List Char) (i : Nat) : List Char → Prop
  /-- A placeholder begins: its value. -/
  | value {text key value : List Char} (occurs : Occurs source i text key)
      (resolved : resolve? data key = some value) : Fills data source i value
  /-- The character is within a placeholder: nothing. -/
  | covered {j : Nat} {text key : List Char} (occurs : Occurs source j text key) (behind : j < i)
      (within : i < j + text.length) : Fills data source i []
  /-- The character is outside of all placeholders: itself. -/
  | kept {c : Char} (stands : source[i]? = some c)
      (outside : ∀ j text key, Occurs source j text key → ¬ (j ≤ i ∧ i < j + text.length)) :
      Fills data source i [c]

/-- A page that has the right thing for each character of its template. -/
def IsPage (data : Json) (source page : List Char) : Prop :=
  ∃ out : Nat → List Char, (∀ i < source.length, Fills data source i (out i)) ∧
    page = (List.range source.length).flatMap out

theorem Occurs.lt_length {i : Nat} (h : Occurs source i text key) : i < source.length := by
  have hpos := h.placeholder.length_pos
  have hlength := h.stands.length_le
  rw [List.length_drop] at hlength
  omega

/-- Each place has one thing only. -/
theorem Fills.unique {data : Json} {i : Nat} {a b : List Char} (ha : Fills data source i a)
    (hb : Fills data source i b) : a = b := by
  have hstart : ∀ {text key : List Char}, Occurs source i text key → i ≤ i ∧ i < i + text.length :=
    fun h => ⟨Nat.le_refl i, Nat.lt_add_of_pos_right h.placeholder.length_pos⟩
  cases ha with
  | value occurs resolved =>
      cases hb with
      | value occurs' resolved' =>
          obtain ⟨-, rfl⟩ := occurs.unique occurs'
          exact Option.some.inj (resolved.symm.trans resolved')
      | covered occurs' behind within =>
          exact absurd within (Nat.not_lt.2 (occurs'.end_le occurs behind))
      | kept _ outside => exact absurd (hstart occurs) (outside _ _ _ occurs)
  | covered occurs behind within =>
      cases hb with
      | value occurs' =>
          exact absurd within (Nat.not_lt.2 (occurs.end_le occurs' behind))
      | covered => rfl
      | kept _ outside =>
          exact absurd ⟨Nat.le_of_lt behind, within⟩ (outside _ _ _ occurs)
  | kept stands outside =>
      cases hb with
      | value occurs' => exact absurd (hstart occurs') (outside _ _ _ occurs')
      | covered occurs' behind within =>
          exact absurd ⟨Nat.le_of_lt behind, within⟩ (outside _ _ _ occurs')
      | kept stands' => rw [Option.some.inj (stands.symm.trans stands')]

theorem IsPage.unique {data : Json} {page page' : List Char} (h : IsPage data source page)
    (h' : IsPage data source page') : page = page' := by
  obtain ⟨out, hout, rfl⟩ := h
  obtain ⟨out', hout', rfl⟩ := h'
  have hsame : (List.range source.length).map out = (List.range source.length).map out' := by
    refine List.map_congr_left fun i hi => ?_
    have hlt := List.mem_range.1 hi
    exact (hout i hlt).unique (hout' i hlt)
  rw [List.flatMap_def, List.flatMap_def, hsame]

/-! ### Taking off the front -/

/-- Behind a character that was kept, the page has what it has for the rest. -/
theorem Fills.behind_char {data : Json} (plain : ∀ text key, ¬ Occurs (c :: rest) 0 text key)
    {i : Nat} {out : List Char} (h : Fills data rest i out) :
    Fills data (c :: rest) (i + 1) out := by
  cases h with
  | value occurs resolved => exact .value (occurs_cons_succ.2 occurs) resolved
  | covered occurs behind within =>
      exact .covered (occurs_cons_succ.2 occurs) (by omega) (by omega)
  | kept stands outside =>
      refine .kept stands fun j text key occurs hwithin => ?_
      obtain ⟨k, rfl, hk⟩ := occurs.of_plain plain
      exact outside k text key hk (by omega)

/-- Behind a placeholder that was taken off as well. -/
theorem Fills.behind_hole {data : Json} {front name : List Char}
    (found : IsPlaceholder front name) {i : Nat} {out : List Char} (h : Fills data rest i out) :
    Fills data (front ++ rest) (front.length + i) out := by
  cases h with
  | value occurs resolved => exact .value (occurs_append_add.2 occurs) resolved
  | covered occurs behind within =>
      exact .covered (occurs_append_add.2 occurs) (by omega) (by omega)
  | kept stands outside =>
      refine .kept (by rwa [List.getElem?_append_right (by omega), Nat.add_sub_cancel_left]) ?_
      intro j text key occurs hwithin
      rcases occurs.of_hole found with ⟨rfl, rfl, -⟩ | ⟨k, rfl, hk⟩
      · omega
      · exact outside k text key hk (by omega)

theorem isPage_nil (data : Json) : IsPage data [] [] :=
  ⟨fun _ => [], by simp, by simp⟩

theorem IsPage.char {data : Json} (plain : ∀ text key, ¬ Occurs (c :: rest) 0 text key)
    {page : List Char} (h : IsPage data rest page) : IsPage data (c :: rest) (c :: page) := by
  obtain ⟨out, hout, rfl⟩ := h
  let all : Nat → List Char
    | 0 => [c]
    | i + 1 => out i
  refine ⟨all, ?_, ?_⟩
  · intro i hi
    cases i with
    | zero =>
        refine .kept rfl fun j text key occurs hwithin => ?_
        obtain ⟨k, rfl, -⟩ := occurs.of_plain plain
        omega
    | succ i => exact (hout i (by simpa using hi)).behind_char plain
  · rw [List.length_cons, List.range_succ_eq_map, List.flatMap_cons, List.flatMap_map]
    rfl

theorem IsPage.hole {data : Json} (found : IsPlaceholder text key) {value : List Char}
    (resolved : resolve? data key = some value) {page : List Char} (h : IsPage data rest page) :
    IsPage data (text ++ rest) (value ++ page) := by
  obtain ⟨out, hout, rfl⟩ := h
  have hpos := found.length_pos
  let all : Nat → List Char := fun i =>
    if i = 0 then value else if i < text.length then [] else out (i - text.length)
  have hfront : ∀ i ∈ List.range (text.length - 1), all (i + 1) = [] := by
    intro i hi
    have hlt := List.mem_range.1 hi
    exact (if_neg (Nat.succ_ne_zero i)).trans (if_pos (by omega))
  have hrest : ∀ i, all (text.length + i) = out i := by
    intro i
    have hne : text.length + i ≠ 0 := by omega
    have hge : ¬ text.length + i < text.length := by omega
    simp only [all, if_neg hne, if_neg hge, Nat.add_sub_cancel_left]
  have hoccurs : Occurs (text ++ rest) 0 text key := occurs_of_isPlaceholder found
  refine ⟨all, ?_, ?_⟩
  · intro i hi
    rcases Nat.lt_or_ge i text.length with hlt | hge
    · rcases Nat.eq_zero_or_pos i with rfl | hi
      · exact .value hoccurs resolved
      · obtain ⟨k, rfl⟩ : ∃ k, i = k + 1 := ⟨i - 1, by omega⟩
        rw [hfront k (List.mem_range.2 (by omega))]
        exact .covered hoccurs hi (by omega)
    · obtain ⟨k, rfl⟩ : ∃ k, i = text.length + k := ⟨i - text.length, by omega⟩
      rw [hrest k]
      rw [List.length_append] at hi
      exact (hout k (by omega)).behind_hole found
  · have hrange : List.range text.length = 0 :: (List.range (text.length - 1)).map Nat.succ := by
      rw [← List.range_succ_eq_map, Nat.sub_add_cancel hpos]
    rw [List.length_append, List.range_add, List.flatMap_append, hrange, List.flatMap_cons,
      List.flatMap_map, List.flatMap_map, List.flatMap_eq_nil_iff.2 hfront]
    simp only [hrest, List.append_nil]
    rfl

/-! ## Which key has no value -/

/-- All keys in a text have values. -/
def AllResolve (data : Json) (source : List Char) : Prop :=
  ∀ i text key, Occurs source i text key → ∃ value, resolve? data key = some value

/-- The leftmost key of a text without a value. -/
def FirstMissing (data : Json) (source key : List Char) : Prop :=
  ∃ i text, Occurs source i text key ∧ resolve? data key = none ∧
    ∀ j text' key', j < i → Occurs source j text' key' → ∃ value, resolve? data key' = some value

theorem fill_char (data : Json) : fill data (.char c :: ps) = (fill data ps).map (c :: ·) := rfl

theorem fill_hole_of_some {data : Json} {value : List Char} (h : resolve? data key = some value) :
    fill data (.hole key :: ps) = (fill data ps).map (value ++ ·) := by
  rw [fill, h]

theorem fill_hole_of_none {data : Json} (h : resolve? data key = none) :
    fill data (.hole key :: ps) = .error key := by
  rw [fill, h]

/-- The leftmost key stays the leftmost one when a character is put in front. -/
theorem FirstMissing.char {data : Json} (plain : ∀ text key, ¬ Occurs (c :: rest) 0 text key)
    (h : FirstMissing data rest key) : FirstMissing data (c :: rest) key := by
  obtain ⟨i, text, occurs, missing, before⟩ := h
  refine ⟨i + 1, text, occurs_cons_succ.2 occurs, missing, fun j text' key' hj occurs' => ?_⟩
  obtain ⟨k, rfl, hk⟩ := occurs'.of_plain plain
  exact before k text' key' (by omega) hk

theorem FirstMissing.hole {data : Json} {front name value : List Char}
    (found : IsPlaceholder front name) (resolved : resolve? data name = some value)
    (h : FirstMissing data rest key) : FirstMissing data (front ++ rest) key := by
  obtain ⟨i, text, occurs, missing, before⟩ := h
  refine ⟨front.length + i, text, occurs_append_add.2 occurs, missing,
    fun j text' key' hj occurs' => ?_⟩
  rcases occurs'.of_hole found with ⟨-, -, rfl⟩ | ⟨k, rfl, hk⟩
  · exact ⟨value, resolved⟩
  · exact before k text' key' (by omega) hk

/-- Filling gives a page of the text, or fails with its leftmost key without a value. -/
theorem Scans.fill {data : Json} (h : Scans source ps) :
    (∃ page, Template.fill data ps = .ok page ∧ IsPage data source page) ∨
      ∃ key, Template.fill data ps = .error key ∧ FirstMissing data source key := by
  induction h with
  | done => exact .inl ⟨[], rfl, isPage_nil data⟩
  | char plain scan ih =>
      rw [fill_char]
      rcases ih with ⟨page, hfill, hpage⟩ | ⟨key, hfill, hmissing⟩
      · exact .inl ⟨_, by rw [hfill]; rfl, hpage.char plain⟩
      · exact .inr ⟨key, by rw [hfill]; rfl, hmissing.char plain⟩
  | @hole text key rest ps found scan ih =>
      cases hvalue : resolve? data key with
      | none =>
          have hoccurs : Occurs (text ++ rest) 0 text key := occurs_of_isPlaceholder found
          exact .inr ⟨key, fill_hole_of_none hvalue, 0, text, hoccurs, hvalue, by simp⟩
      | some value =>
          rw [fill_hole_of_some hvalue]
          rcases ih with ⟨page, hfill, hpage⟩ | ⟨missing, hfill, hmissing⟩
          · exact .inl ⟨_, by rw [hfill]; rfl, hpage.hole found hvalue⟩
          · exact .inr ⟨missing, by rw [hfill]; rfl, hmissing.hole found hvalue⟩

/-! ## Rendering -/

/-- A page can be given only if every key has a value. -/
theorem IsPage.allResolve {data : Json} {page : List Char} (h : IsPage data source page) :
    AllResolve data source := by
  intro i text key occurs
  obtain ⟨out, hout, -⟩ := h
  have hfills := hout i occurs.lt_length
  generalize out i = here at hfills
  cases hfills with
  | value occurs' resolved =>
      obtain ⟨-, rfl⟩ := occurs.unique occurs'
      exact ⟨_, resolved⟩
  | covered occurs' behind within =>
      exact absurd within (Nat.not_lt.2 (occurs'.end_le occurs behind))
  | kept _ outside =>
      have hend := Nat.lt_add_of_pos_right (n := i) occurs.placeholder.length_pos
      exact absurd ⟨Nat.le_refl i, hend⟩ (outside _ _ _ occurs)

theorem FirstMissing.not_allResolve {data : Json} (h : FirstMissing data source key) :
    ¬ AllResolve data source := by
  obtain ⟨i, text, occurs, missing, -⟩ := h
  intro hall
  obtain ⟨value, hvalue⟩ := hall i text key occurs
  rw [missing] at hvalue
  contradiction

theorem FirstMissing.unique {data : Json} {key' : List Char} (h : FirstMissing data source key)
    (h' : FirstMissing data source key') : key = key' := by
  obtain ⟨i, text, occurs, missing, before⟩ := h
  obtain ⟨j, text', occurs', missing', before'⟩ := h'
  rcases Nat.lt_trichotomy i j with hlt | rfl | hlt
  · obtain ⟨value, hvalue⟩ := before' i text key hlt occurs
    rw [missing] at hvalue
    contradiction
  · exact (occurs.unique occurs').2
  · obtain ⟨value, hvalue⟩ := before j text' key' hlt occurs'
    rw [missing'] at hvalue
    contradiction

/-- A text without placeholders is its own page. -/
theorem isPage_self {data : Json} (plain : ∀ i text key, ¬ Occurs source i text key) :
    IsPage data source source := by
  induction source with
  | nil => exact isPage_nil data
  | cons c rest ih =>
      refine (ih fun i text key occurs => ?_).char (plain 0)
      exact plain (i + 1) text key (occurs_cons_succ.2 occurs)

theorem renderText_cases (source : List Char) (data : Json) :
    (∃ page, Store.renderText source data = .ok page ∧ IsPage data source page) ∨
      ∃ key, Store.renderText source data = .error (.unresolved (String.ofList key)) ∧
        FirstMissing data source key := by
  rw [Store.renderText, render]
  have hscan : Scans source (parts source) := scans_parts source
  rcases @Scans.fill _ _ data hscan with ⟨page, hfill, hpage⟩ | ⟨key, hfill, hkey⟩
  · exact .inl ⟨page, by rw [hfill]; rfl, hpage⟩
  · exact .inr ⟨key, by rw [hfill]; rfl, hkey⟩

/-- What is rendered is the page of the text. -/
theorem renderText_eq_ok_iff {page : List Char} {data : Json} :
    Store.renderText source data = .ok page ↔ IsPage data source page := by
  rcases renderText_cases source data with ⟨found, hrender, hfound⟩ | ⟨key, hrender, hmissing⟩
  · rw [hrender]
    constructor
    · intro heq
      exact Except.ok.inj heq ▸ hfound
    · intro hpage
      rw [hfound.unique hpage]
  · rw [hrender]
    exact iff_of_false nofun fun hpage => hmissing.not_allResolve hpage.allResolve

theorem exists_renderText_iff {data : Json} :
    (∃ page, Store.renderText source data = .ok page) ↔ AllResolve data source := by
  rcases renderText_cases source data with ⟨page, hrender, hpage⟩ | ⟨key, hrender, hmissing⟩
  · exact iff_of_true ⟨page, hrender⟩ hpage.allResolve
  · rw [hrender]
    exact iff_of_false nofun hmissing.not_allResolve

/-- What is not rendered has a leftmost key without a value, and that is named. -/
theorem renderText_eq_error_iff {data : Json} {e : TemplateError} :
    Store.renderText source data = .error e ↔
      ∃ key, FirstMissing data source key ∧ e = .unresolved (String.ofList key) := by
  rcases renderText_cases source data with ⟨page, hrender, hpage⟩ | ⟨key, hrender, hmissing⟩
  · rw [hrender]
    refine iff_of_false nofun ?_
    rintro ⟨key, hmissing, -⟩
    exact hmissing.not_allResolve hpage.allResolve
  · rw [hrender]
    constructor
    · intro heq
      exact ⟨key, hmissing, (Except.error.inj heq).symm⟩
    · rintro ⟨found, hfound, rfl⟩
      rw [hmissing.unique hfound]

/-- Placeholders keep apart, and rendering fills all of them at once: there is a page
exactly if every key has a value, the page is what its places say, and otherwise the
leftmost key without a value is named.  Without placeholders nothing changes. -/
theorem render_fills_occurrences (source : List Char) (data : Json) :
    (∀ i j text text' key key', Occurs source i text key → Occurs source j text' key' →
      i + text.length ≤ j ∨ j + text'.length ≤ i ∨ (i = j ∧ text = text' ∧ key = key')) ∧
    ((∃ page, Store.renderText source data = .ok page) ↔ AllResolve data source) ∧
    (∀ page, Store.renderText source data = .ok page ↔ IsPage data source page) ∧
    (∀ e, Store.renderText source data = .error e ↔
      ∃ key, FirstMissing data source key ∧ e = .unresolved (String.ofList key)) ∧
    ((∀ i text key, ¬ Occurs source i text key) → Store.renderText source data = .ok source) := by
  refine ⟨?apart, exists_renderText_iff, fun _ => renderText_eq_ok_iff,
    fun _ => renderText_eq_error_iff, fun plain => renderText_eq_ok_iff.2 (isPage_self plain)⟩
  case apart =>
    intro i j text text' key key' occurs occurs'
    rcases Nat.lt_trichotomy i j with hlt | rfl | hlt
    · exact .inl (occurs.end_le occurs' hlt)
    · exact .inr (.inr ⟨rfl, occurs.unique occurs'⟩)
    · exact .inr (.inl (occurs'.end_le occurs hlt))

/-- Braces too many, keys with dots, and what is no placeholder after all. -/
def thorny : List Char := "\x7b\x7b\x7ba\x7d\x7d \x7b\x7b b.c \x7d\x7d\x7b\x7b a b \x7d\x7d\x7b\x7b".toList

/-- A value that looks like a placeholder, and one further down. -/
def thornyData : Json :=
  .object [("a", .string "\x7b\x7ba\x7d\x7d"), ("b", .object [("c", .bool true)])]

theorem thorny_renders :
    IsPage thornyData thorny
      "\x7b\x7b\x7ba\x7d\x7d true\x7b\x7b a b \x7d\x7d\x7b\x7b".toList :=
  ((render_fills_occurrences thorny thornyData).2.2.1 _).1 rfl

end SiteServer.Template
