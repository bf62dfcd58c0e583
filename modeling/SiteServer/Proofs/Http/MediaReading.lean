import SiteServer.Proofs.Http.MediaNames
import SiteServer.Proofs.Text.Letters

/-!
# Which texts name a media type

A media type is named by its canonical name, in letters of either case, with blanks around
it and with parameters behind a semicolon (`Names`).  Reading finds the type that a text
names, and fails with the text as it stands if it names none (`parse_eq_ok_iff_names`,
`parse_eq_error_iff`).

Canonical names differ, and are in small letters with neither blanks nor semicolons in
them.  So no text names two types (`Names.unique`), and whatever is written in this way from
a canonical name is read as its type (`names_written`).
-/

namespace SiteServer.Http.MediaType

open Text (IsTrimmed SameLetters isBlank)

/-! ## What a text names -/

/-- What may stand behind a name: nothing, or parameters behind a semicolon. -/
def AreParameters (text : List Char) : Prop :=
  text = [] ∨ text.head? = some ';'

/-- What stands before the parameters of a text. -/
structure IsStem (text stem : List Char) : Prop where
  whole : ';' ∉ stem
  rest : ∃ parameters, text = stem ++ parameters ∧ AreParameters parameters

/-- A text names a media type: before the parameters, and with blanks around it, it has the
canonical name in letters of either case. -/
def Names (text : String) (t : MediaType) : Prop :=
  ∃ stem word, IsStem text.toList stem ∧ IsTrimmed isBlank stem word ∧
    SameLetters word t.name.toList

theorem isStem_breakAt (text : List Char) : IsStem text (Text.breakAt (· = ';') text).1 where
  whole := by
    intro hmem
    have hfirst : (Text.breakAt (· = ';') text).1 ∈ Text.pieces (· = ';') text :=
      List.mem_cons_self ..
    have hsep := Text.not_sep_of_mem_pieces hfirst hmem
    simp at hsep
  rest := by
    have hjoin := Text.intercalate_pieces ';' text
    rw [Text.pieces] at hjoin
    cases hothers : (Text.breakAt (· = ';') text).2 with
    | nil =>
        rw [hothers] at hjoin
        exact ⟨[], by simpa using hjoin.symm, .inl rfl⟩
    | cons piece others =>
        rw [hothers] at hjoin
        rw [List.intercalate_cons_cons, List.append_assoc] at hjoin
        exact ⟨';' :: [';'].intercalate (piece :: others), hjoin.symm, .inr rfl⟩

/-- A text has one stem. -/
theorem isStem_iff {text stem : List Char} :
    IsStem text stem ↔ (Text.breakAt (· = ';') text).1 = stem := by
  constructor
  · rintro ⟨hwhole, parameters, rfl, hparameters⟩
    rw [Text.breakAt_append hwhole]
    cases parameters with
    | nil => exact List.append_nil stem
    | cons c rest =>
        obtain rfl : c = ';' := by simpa [AreParameters] using hparameters
        rw [Text.breakAt_cons_self]
        exact List.append_nil stem
  · rintro rfl
    exact isStem_breakAt text

theorem essence_eq_iff {text : String} {word : List Char} :
    essence text = word ↔ ∃ stem, IsStem text.toList stem ∧ IsTrimmed isBlank stem word := by
  rw [essence, Text.trim, Text.trimBoth_eq_iff]
  constructor
  · intro htrimmed
    exact ⟨_, isStem_breakAt text.toList, htrimmed⟩
  · rintro ⟨stem, hstem, htrimmed⟩
    rwa [isStem_iff.1 hstem]

/-- What a text names can be told from its essence, in lower case. -/
theorem names_iff {text : String} {t : MediaType} :
    Names text t ↔ Text.fold (essence text) = t.name.toList := by
  rw [← fold_name t, Text.fold_eq_fold_iff]
  constructor
  · rintro ⟨stem, word, hstem, htrimmed, hsame⟩
    rwa [essence_eq_iff.2 ⟨stem, hstem, htrimmed⟩]
  · intro hsame
    obtain ⟨stem, hstem, htrimmed⟩ := essence_eq_iff.1 (rfl : essence text = _)
    exact ⟨stem, _, hstem, htrimmed, hsame⟩

theorem Names.unique {text : String} {s t : MediaType} (hs : Names text s) (ht : Names text t) :
    s = t :=
  name_injective (String.toList_inj.1 ((names_iff.1 hs).symm.trans (names_iff.1 ht)))

/-! ## Reading -/

/-- What is looked for is what the text names. -/
theorem parse?_eq_some_iff {text : String} {t : MediaType} :
    parse? text = some t ↔ Names text t := by
  have hnames : ∀ s : MediaType,
      Text.fold s.name.toList = Text.fold (essence text) ↔ Names text s := by
    intro s
    rw [names_iff, fold_name]
    exact eq_comm
  constructor
  · intro hfind
    exact (hnames t).1 (by simpa using List.find?_some hfind)
  · intro ht
    cases hfind : parse? text with
    | none =>
        -- every type is tried
        have hnot := List.find?_eq_none.1 hfind t (mem_all t)
        exact absurd ((hnames t).2 ht) (by simpa using hnot)
    | some s =>
        have hs : Names text s := (hnames s).1 (by simpa using List.find?_some hfind)
        rw [hs.unique ht]

theorem parse_eq_ok_iff_names {text : String} {t : MediaType} :
    parse text = .ok t ↔ Names text t := by
  rw [parse_eq_ok_iff, parse?_eq_some_iff]

theorem parse_eq_error_iff {text : String} {e : UnknownMediaType} :
    parse text = .error e ↔ e = ⟨text⟩ ∧ ∀ t, ¬ Names text t := by
  simp only [← parse?_eq_some_iff, ← Option.eq_none_iff_forall_ne_some]
  unfold parse
  cases parse? text with
  | none => simpa using eq_comm
  | some t => simp

/-! ## Writing -/

/-- Neither blanks nor semicolons are letters of a name. -/
theorem plain_of_sameLetters {t : MediaType} {word : List Char}
    (h : SameLetters word t.name.toList) {c : Char} (hc : c ∈ word) :
    isBlank c = false ∧ c ≠ ';' := by
  have hlower : c.toLower ∈ t.name.toList := by
    rw [← fold_name t, ← Text.fold_eq_fold_iff.2 h]
    exact List.mem_map_of_mem hc
  obtain ⟨-, hblank, hsemicolon⟩ := of_mem_name hlower
  constructor
  · cases hgiven : isBlank c with
    | false => rfl
    | true =>
        rw [Text.toLower_of_isBlank hgiven, hgiven] at hblank
        contradiction
  · rintro rfl
    exact hsemicolon (by decide)

/-- A name in letters of either case, with blanks around it and parameters behind it, names
its type. -/
theorem names_written {t : MediaType} {front word back parameters : List Char}
    (hfront : ∀ c ∈ front, isBlank c = true) (hword : SameLetters word t.name.toList)
    (hback : ∀ c ∈ back, isBlank c = true) (hparameters : AreParameters parameters) :
    Names (String.ofList (front ++ word ++ back ++ parameters)) t := by
  have hsemicolon : isBlank ';' = false := by decide
  have hblank : ∀ blanks : List Char, (∀ c ∈ blanks, isBlank c = true) → ';' ∉ blanks := by
    intro blanks hblanks hmem
    rw [hblanks _ hmem] at hsemicolon
    contradiction
  refine ⟨front ++ word ++ back, word, ⟨?whole, parameters, ?text, hparameters⟩, ?trimmed, hword⟩
  case whole =>
    rw [List.mem_append, List.mem_append, not_or, not_or]
    refine ⟨⟨hblank front hfront, fun hmem => ?_⟩, hblank back hback⟩
    exact (plain_of_sameLetters hword hmem).2 rfl
  case text => rw [String.toList_ofList]
  case trimmed =>
    refine ⟨⟨front, back, rfl, hfront, hback⟩, fun c hc => ?_, fun c hc => ?_⟩
    · exact (plain_of_sameLetters hword (List.mem_of_head? hc)).1
    · exact (plain_of_sameLetters hword (List.mem_of_getLast? hc)).1

/-- A text is read as the type that it names, and there is at most one; a text that names
none is reported as it stands.  Every canonical name, in whatever case, with blanks around
it and parameters behind it, is read as its type. -/
theorem texts_name_types :
    (∀ text t, parse text = .ok t ↔ Names text t) ∧
    (∀ text e, parse text = .error e ↔ e = ⟨text⟩ ∧ ∀ t, ¬ Names text t) ∧
    (∀ text s t, Names text s → Names text t → s = t) ∧
    ∀ (t : MediaType) (front word back parameters : List Char),
      (∀ c ∈ front, isBlank c = true) → SameLetters word t.name.toList →
      (∀ c ∈ back, isBlank c = true) → AreParameters parameters →
      parse (String.ofList (front ++ word ++ back ++ parameters)) = .ok t := by
  refine ⟨fun _ _ => parse_eq_ok_iff_names, fun _ _ => parse_eq_error_iff,
    fun _ _ _ => Names.unique, ?_⟩
  intro t front word back parameters hfront hword hback hparameters
  exact parse_eq_ok_iff_names.2 (names_written hfront hword hback hparameters)

/-- Case, blanks and parameters make no difference to the type of a page. -/
theorem loudPage_is_read :
    parse "\u2003Text/HTML\t; charset=UTF-8" = .ok .textHtml ∧
      ∀ t, Names "\u2003Text/HTML\t; charset=UTF-8" t → t = .textHtml := by
  obtain ⟨hread, -, hunique, hwritten⟩ := texts_name_types
  have hword : SameLetters "Text/HTML".toList (name .textHtml).toList :=
    Text.fold_eq_fold_iff.1 (by decide)
  have hpage := hwritten .textHtml ['\u2003'] "Text/HTML".toList ['\t'] "; charset=UTF-8".toList
    (List.forall_mem_singleton.2 rfl) hword (List.forall_mem_singleton.2 rfl) (.inr rfl)
  have hnames := (hread _ _).1 hpage
  exact ⟨hpage, fun t ht => hunique _ _ _ ht hnames⟩

end SiteServer.Http.MediaType
