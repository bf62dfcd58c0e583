import SiteServer.Proofs.Http.HeaderLines
import SiteServer.Proofs.Http.RequestParts

/-!
# The strings of a request

Whatever a request says is said within a line.  The lines of a head are what
stands between its line feeds, so no string of a request can hold one, whatever
else is in it: bare CRs, colons, blanks, or characters that stand for invalid
bytes.
-/

namespace SiteServer.Http

/-- Text without line feeds. -/
def IsOneLine (text : List Char) : Prop := '\n' ∉ text

instance (text : List Char) : Decidable (IsOneLine text) :=
  inferInstanceAs (Decidable ('\n' ∉ text))

/-- The strings of a request. -/
def Request.strings (request : Request) : List String :=
  request.path :: request.host :: request.userAgent ::
    request.headers.entries.flatMap fun header => [header.1, header.2]

theorem IsOneLine.of_subset {text part : List Char} (h : IsOneLine text) (hpart : part ⊆ text) :
    IsOneLine part :=
  fun hmem => h (hpart hmem)

/-- The lines of a text hold no line feeds. -/
theorem isOneLine_linesOf (text : List Char) :
    IsOneLine (linesOf text).1 ∧ ∀ line ∈ (linesOf text).2, IsOneLine line := by
  have hpieces : ∀ line ∈ Text.pieces (· = '\n') text, IsOneLine line := by
    intro line hline hmem
    have hsep := Text.not_sep_of_mem_pieces hline hmem
    simp at hsep
  constructor
  · exact hpieces _ (List.mem_cons_self ..)
  · intro line hline
    exact hpieces line (List.mem_cons_of_mem _ hline)

/-! ## The path -/

/-- Words hold no line feeds, wherever they come from. -/
theorem isOneLine_of_mem_words {text word : List Char} (h : word ∈ Text.words text) :
    IsOneLine word := by
  intro hmem
  have hblank := (Text.not_blank_of_mem_words h).2 '\n' hmem
  exact absurd hblank (by decide)

theorem isOneLine_target {text : List Char} {line : RequestLine}
    (h : RequestLine.parse text = .ok line) : IsOneLine line.target.toList := by
  unfold RequestLine.parse at h
  split at h
  · rename_i method target version more hwords
    have htarget : target ∈ Text.words text := by simp [hwords]
    split at h
    · cases h
    · split at h
      · cases h
      · have heq := Except.ok.inj h
        subst heq
        rw [String.toList_ofList]
        exact isOneLine_of_mem_words htarget
  · cases h

theorem isOneLine_pathOfTarget {target : String} (h : IsOneLine target.toList) :
    IsOneLine (pathOfTarget target).value.toList := by
  unfold pathOfTarget
  split
  · show IsOneLine indexPath.toList
    decide
  · exact h

/-! ## Headers -/

/-- What was read from header lines holds no line feeds. -/
structure HeaderFields.OneLine (fields : HeaderFields) : Prop where
  host : IsOneLine fields.host.toList
  userAgent : IsOneLine fields.userAgent.toList
  others : ∀ header ∈ fields.others.entries,
    IsOneLine header.1.toList ∧ IsOneLine header.2.toList

theorem oneLine_empty : ({} : HeaderFields).OneLine where
  host := List.not_mem_nil
  userAgent := List.not_mem_nil
  others := fun _ hmem => absurd hmem List.not_mem_nil

/-- The name and the value of a header are parts of its line. -/
theorem IsHeader.isOneLine {line value : List Char} {name : String}
    (h : IsHeader line name value) (hline : IsOneLine line) :
    IsOneLine name.toList ∧ IsOneLine value := by
  rcases h with ⟨rest, -, rfl, htrimmed⟩
  rcases htrimmed.parts with ⟨before, after, rfl, -, -⟩
  constructor
  · apply hline.of_subset
    simp
  · apply hline.of_subset
    intro c hc
    simp [hc]

theorem HeaderFields.OneLine.record {fields after : HeaderFields} {name : String}
    {value : List Char} (h : fields.OneLine) (hname : IsOneLine name.toList)
    (hvalue : IsOneLine value) (hrecord : fields.record name value = .ok after) :
    after.OneLine := by
  have hstring : IsOneLine (String.ofList value).toList := by
    rwa [String.toList_ofList]
  rcases name_cases name with rfl | rfl | rfl | ordinary
  · rw [record_host] at hrecord
    have heq := Except.ok.inj hrecord
    subst heq
    exact ⟨hstring, h.userAgent, h.others⟩
  · rw [record_userAgent] at hrecord
    have heq := Except.ok.inj hrecord
    subst heq
    exact ⟨h.host, hstring, h.others⟩
  · rw [record_platform] at hrecord
    split at hrecord
    · have heq := Except.ok.inj hrecord
      subst heq
      exact ⟨h.host, h.userAgent, h.others⟩
    · cases hrecord
  · rw [record_ordinary fields value ordinary] at hrecord
    split at hrecord
    · rename_i others hadd
      have heq := Except.ok.inj hrecord
      subst heq
      rcases Headers.add_eq_ok_iff.1 hadd with ⟨-, rfl⟩
      refine ⟨h.host, h.userAgent, fun header hmem => ?_⟩
      cases Dictionary.key_of_mem_place hmem with
      | inl hnew =>
          subst hnew
          exact ⟨hname, hstring⟩
      | inr hold => exact h.others header hold
    · cases hrecord

/-- Reading header lines without line feeds gives fields without them. -/
theorem HeaderFields.OneLine.parse {fields after : HeaderFields} {lines : List (List Char)}
    (h : fields.OneLine) (hlines : ∀ line ∈ lines, IsOneLine line)
    (hparse : fields.parse lines = .ok after) : after.OneLine := by
  induction lines generalizing fields with
  | nil =>
      have heq := Except.ok.inj hparse
      subst heq
      exact h
  | cons raw rest ih =>
      have hrest : ∀ line ∈ rest, IsOneLine line := fun line hmem =>
        hlines line (List.mem_cons_of_mem _ hmem)
      have hline : IsOneLine (Text.dropTrailing '\r' raw) := by
        rcases Text.exists_dropTrailing '\r' raw with ⟨given, hraw⟩
        have hwhole := hlines raw (List.mem_cons_self ..)
        rw [hraw] at hwhole
        exact hwhole.of_subset (List.subset_append_left ..)
      rw [HeaderFields.parse] at hparse
      split at hparse
      · have heq := Except.ok.inj hparse
        subst heq
        exact h
      · split at hparse
        · exact ih h hrest hparse
        · rename_i name value hheader
          rcases (headerOfLine?_eq_some_iff.1 hheader).isOneLine hline with ⟨hname, hvalue⟩
          split at hparse
          · rename_i next hrecord
            exact ih (h.record hname hvalue hrecord) hrest hparse
          · cases hparse

/-! ## The whole request -/

theorem isOneLine_of_readHead {head : Bytes} {line : RequestLine} {fields : HeaderFields}
    (h : readHead head = .ok (line, fields)) :
    IsOneLine line.target.toList ∧ fields.OneLine := by
  unfold readHead at h
  rcases isOneLine_linesOf (Text.Utf8.decodeLossy head) with ⟨-, hrest⟩
  dsimp only at h
  split at h
  · cases h
  · cases hfirst : RequestLine.parse (linesOf (Text.Utf8.decodeLossy head)).1 with
    | error e =>
        rw [hfirst] at h
        cases h
    | ok found =>
        rw [hfirst] at h
        cases hfields : ({} : HeaderFields).parse (linesOf (Text.Utf8.decodeLossy head)).2 with
        | error e =>
            rw [hfields] at h
            cases h
        | ok seen =>
            rw [hfields] at h
            rcases Prod.mk.inj (Except.ok.inj h) with ⟨rfl, rfl⟩
            exact ⟨isOneLine_target hfirst, oneLine_empty.parse hrest hfields⟩

/-- No string of a request holds a line feed. -/
theorem isOneLine_of_mem_strings {buffer : Bytes} {request : Request}
    (h : (Request.parse buffer).value = .ok request) {s : String} (hs : s ∈ request.strings) :
    IsOneLine s.toList := by
  rcases value_parse_eq_ok_iff.1 h with ⟨line, fields, hread, rfl⟩
  rcases isOneLine_of_readHead hread with ⟨htarget, hfields⟩
  simp only [Request.strings, Request.ofParts, List.mem_cons, List.mem_flatMap, List.not_mem_nil,
    or_false] at hs
  rcases hs with rfl | rfl | rfl | ⟨header, hmem, rfl | rfl⟩
  · exact isOneLine_pathOfTarget htarget
  · exact hfields.host
  · exact hfields.userAgent
  · exact (hfields.others header hmem).1
  · exact (hfields.others header hmem).2

end SiteServer.Http
