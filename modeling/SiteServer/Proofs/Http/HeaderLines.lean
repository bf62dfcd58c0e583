import SiteServer.Http.Request.Reader
import SiteServer.Proofs.Text.Ends
import Mathlib.Data.List.Induction

/-!
# The grammar of header lines

The lines behind a request line are read one after another, and reading stops at
the first that cannot be taken.  Here it is said of the lines themselves which
ones these are.  A line can be taken after others unless it carries a platform
that is no hint, or a name of the map that one of the others carries already
(`Joins`); lines that can all be taken are `Orderly`.

Reading succeeds exactly on orderly lines (`exists_recordLines_iff`) and
otherwise reports the first line that does not join those before it
(`recordLines_eq_error_iff`).
-/

namespace SiteServer.Http

open Text (IsTrimmed perhaps)

/-! ## What a line says -/

/-- A header line: a name without colons, a colon, and a value with any spaces
around it. -/
def IsHeader (line : List Char) (name : String) (value : List Char) : Prop :=
  ∃ rest, ':' ∉ name.toList ∧ line = name.toList ++ ':' :: rest ∧
    IsTrimmed (· = ' ') rest value

/-- A value that hints at a platform: its word, with or without a quote in front
of it, a quote behind it, and a CR at the very end. -/
def IsHint (value : List Char) (platform : Platform) : Prop :=
  ∃ opened closed ended, value =
    perhaps '"' opened ++ platform.token.toList ++ perhaps '"' closed ++ perhaps '\r' ended

/-- A name without a field of its own. -/
def IsOrdinary (name : String) : Prop :=
  name ≠ hostName ∧ name ≠ userAgentName ∧ name ≠ platformName

instance (name : String) : Decidable (IsOrdinary name) :=
  inferInstanceAs (Decidable (_ ∧ _ ∧ _))

/-- A name that stays before the colon of its line. -/
structure IsPlainName (name : String) : Prop where
  colon : ':' ∉ name.toList
  cr : '\r' ∉ name.toList
  lf : '\n' ∉ name.toList

/-- A value that stays in its line. -/
structure IsPlainValue (value : String) : Prop where
  cr : '\r' ∉ value.toList
  lf : '\n' ∉ value.toList

/-- Some of the lines carries a name. -/
def Carries (lines : List (List Char)) (name : String) : Prop :=
  ∃ line ∈ lines, ∃ value, IsHeader line name value

theorem headerOfLine?_eq_some_iff {line value : List Char} {name : String} :
    headerOfLine? line = some (name, value) ↔ IsHeader line name value := by
  simp only [headerOfLine?, Option.map_eq_some_iff, Prod.mk.injEq, Prod.exists]
  constructor
  · intro h
    rcases h with ⟨before, rest, hcut, rfl, htrim⟩
    rcases Text.cutAtFirst_eq_some_iff.1 hcut with ⟨hcolon, rfl⟩
    exact ⟨rest, by simpa using hcolon, by simp, Text.trimBoth_eq_iff.1 htrim⟩
  · intro h
    rcases h with ⟨rest, hcolon, rfl, htrim⟩
    exact ⟨name.toList, rest, Text.cutAtFirst_append hcolon rest, String.ofList_toList,
      Text.trimBoth_eq_iff.2 htrim⟩

/-- A line carries at most one name. -/
theorem IsHeader.unique {line v w : List Char} {m n : String} (hm : IsHeader line m v)
    (hn : IsHeader line n w) : m = n ∧ v = w := by
  have hv := headerOfLine?_eq_some_iff.2 hm
  rw [headerOfLine?_eq_some_iff.2 hn] at hv
  simpa using (Option.some.inj hv).symm

/-! ## Hints -/

theorem token_plain (p : Platform) :
    '"' ∉ p.token.toList ∧ '\r' ∉ p.token.toList ∧ p.token.toList ≠ [] := by
  cases p <;> decide

theorem platformHint_of_isHint {value : List Char} {p : Platform} (h : IsHint value p) :
    platformHint value = p.token.toList := by
  rcases h with ⟨opened, closed, ended, rfl⟩
  rcases token_plain p with ⟨hquote, hcr, hne⟩
  have hcr' : '\r' ∉ perhaps '"' opened ++ p.token.toList ++ perhaps '"' closed := by
    cases opened <;> cases closed <;> simp [perhaps, hcr]
  have hhead : (p.token.toList ++ perhaps '"' closed).head? ≠ some '"' := by
    rcases List.exists_cons_of_ne_nil hne with ⟨c, rest, htoken⟩
    rw [htoken] at hquote ⊢
    simpa using (List.ne_and_not_mem_of_not_mem_cons hquote).1.symm
  rw [platformHint, Text.dropTrailing_perhaps hcr', List.append_assoc,
    Text.dropLeading_perhaps hhead, Text.dropTrailing_perhaps hquote]

/-- The hint is a platform's word exactly where the value hints at the platform. -/
theorem find?_platformHint_iff {value : List Char} {p : Platform} :
    Platform.words.find? (String.ofList (platformHint value)) = some p ↔ IsHint value p := by
  constructor
  · intro h
    have hword : p.token = String.ofList (platformHint value) :=
      Platform.words.find?_eq_some_iff.1 h
    have htoken : platformHint value = p.token.toList := by
      rw [hword, String.toList_ofList]
    rcases Text.exists_dropTrailing '\r' value with ⟨ended, hended⟩
    rcases Text.exists_dropLeading '"' (Text.dropTrailing '\r' value) with ⟨opened, hopened⟩
    obtain ⟨closed, hclosed⟩ :=
      Text.exists_dropTrailing '"' (Text.dropLeading '"' (Text.dropTrailing '\r' value))
    refine ⟨opened, closed, ended, ?_⟩
    rw [← htoken, platformHint, List.append_assoc (perhaps '"' opened), ← hclosed, ← hopened,
      ← hended]
  · intro h
    rw [platformHint_of_isHint h, String.ofList_toList, Platform.words.find?_word]

theorem find?_platformHint_eq_none_iff {value : List Char} :
    Platform.words.find? (String.ofList (platformHint value)) = none ↔ ¬ ∃ p, IsHint value p := by
  simp only [Option.eq_none_iff_forall_ne_some, ne_eq, find?_platformHint_iff, not_exists]

/-! ## Orderly lines -/

/-- What all header lines of a request keep to: their platforms are hints, and no
ordinary name comes twice. -/
structure Orderly (lines : List (List Char)) : Prop where
  hints : ∀ line ∈ lines, ∀ value, IsHeader line platformName value → ∃ p, IsHint value p
  distinct : lines.Pairwise fun a b => ∀ name, IsOrdinary name →
    (∃ v, IsHeader a name v) → ¬ ∃ w, IsHeader b name w

/-- A line that can be taken after others. -/
structure Joins (before : List (List Char)) (line : List Char) : Prop where
  hint : ∀ value, IsHeader line platformName value → ∃ p, IsHint value p
  fresh : ∀ name, IsOrdinary name → (∃ v, IsHeader line name v) → ¬ Carries before name

/-- The error of a line that does not join those before it. -/
inductive Offends (before : List (List Char)) (line : List Char) : RequestError → Prop where
  | platform {value : List Char} (header : IsHeader line platformName value)
      (unknown : ¬ ∃ p, IsHint value p) :
      Offends before line (.unknownPlatform (String.ofList (platformHint value)))
  | duplicate {name : String} {value : List Char} (ordinary : IsOrdinary name)
      (header : IsHeader line name value) (taken : Carries before name) :
      Offends before line (.duplicateHeader ⟨name⟩)

theorem orderly_nil : Orderly [] := ⟨by simp, .nil⟩

theorem orderly_append_singleton {before : List (List Char)} {line : List Char} :
    Orderly (before ++ [line]) ↔ Orderly before ∧ Joins before line := by
  constructor
  · intro h
    rcases h with ⟨hhints, hdistinct⟩
    rw [List.pairwise_append] at hdistinct
    refine ⟨⟨fun l hl => hhints l (by simp [hl]), hdistinct.1⟩, ?_, ?_⟩
    · exact hhints line (by simp)
    · intro name hname hline hcarried
      rcases hcarried with ⟨earlier, hmem, hearlier⟩
      exact hdistinct.2.2 earlier hmem line (by simp) name hname hearlier hline
  · intro h
    rcases h with ⟨⟨hhints, hdistinct⟩, hhint, hfresh⟩
    refine ⟨fun l hl => ?_, ?_⟩
    · rcases List.mem_append.1 hl with hl | hl
      · exact hhints l hl
      · have heq := List.mem_singleton.1 hl
        subst heq
        exact hhint
    · refine List.pairwise_append.2 ⟨hdistinct, List.pairwise_singleton .., ?_⟩
      intro earlier hmem l hl name hname hearlier hline
      have heq := List.mem_singleton.1 hl
      subst heq
      exact hfresh name hname hline ⟨earlier, hmem, hearlier⟩

theorem joins_iff_not_offends {before : List (List Char)} {line : List Char} :
    Joins before line ↔ ¬ ∃ e, Offends before line e := by
  constructor
  · intro hjoins hoffends
    rcases hoffends with ⟨e, h⟩
    cases h with
    | platform header unknown => exact unknown (hjoins.hint _ header)
    | duplicate ordinary header taken => exact hjoins.fresh _ ordinary ⟨_, header⟩ taken
  · intro h
    constructor
    · intro value header
      by_contra unknown
      exact h ⟨_, .platform header unknown⟩
    · intro name ordinary hline taken
      rcases hline with ⟨value, header⟩
      exact h ⟨_, .duplicate ordinary header taken⟩

/-! ## Recording one line -/

/-- Every name is one of the three with a field of their own, or ordinary. -/
theorem name_cases (name : String) :
    name = hostName ∨ name = userAgentName ∨ name = platformName ∨ IsOrdinary name := by
  by_cases hhost : name = hostName
  · exact .inl hhost
  by_cases hagent : name = userAgentName
  · exact .inr (.inl hagent)
  by_cases hplatform : name = platformName
  · exact .inr (.inr (.inl hplatform))
  exact .inr (.inr (.inr ⟨hhost, hagent, hplatform⟩))

theorem not_isOrdinary_hostName : ¬ IsOrdinary hostName := fun h => h.1 rfl

theorem not_isOrdinary_userAgentName : ¬ IsOrdinary userAgentName := fun h => h.2.1 rfl

theorem not_isOrdinary_platformName : ¬ IsOrdinary platformName := fun h => h.2.2 rfl

variable (fields : HeaderFields) (value : List Char)

theorem record_host :
    fields.record hostName value = .ok { fields with host := String.ofList value } := by
  rw [HeaderFields.record, if_pos rfl]

theorem record_userAgent :
    fields.record userAgentName value = .ok { fields with userAgent := String.ofList value } := by
  rw [HeaderFields.record, if_neg (by decide), if_pos rfl]

theorem record_platform :
    fields.record platformName value =
      match Platform.words.find? (String.ofList (platformHint value)) with
      | some platform => .ok { fields with platform }
      | none => .error (.unknownPlatform (String.ofList (platformHint value))) := by
  have hhost : platformName ≠ hostName := by decide
  have hagent : platformName ≠ userAgentName := by decide
  exact (if_neg hhost).trans ((if_neg hagent).trans (if_pos rfl))

theorem record_ordinary {name : String} (h : IsOrdinary name) :
    fields.record name value =
      match fields.others.add name (String.ofList value) with
      | .ok others => .ok { fields with others }
      | .error e => .error (.duplicateHeader e) := by
  exact (if_neg h.1).trans ((if_neg h.2.1).trans (if_neg h.2.2))

variable {fields value}

/-- Recording fails on a platform that is no hint, and on an ordinary name that
is in the map. -/
theorem record_eq_error_iff {name : String} {e : RequestError} :
    fields.record name value = .error e ↔
      (name = platformName ∧ (¬ ∃ p, IsHint value p) ∧
        e = .unknownPlatform (String.ofList (platformHint value))) ∨
      (IsOrdinary name ∧ fields.others.contains name = true ∧ e = .duplicateHeader ⟨name⟩) := by
  rcases name_cases name with rfl | rfl | rfl | ordinary
  · simp [record_host, not_isOrdinary_hostName, show hostName ≠ platformName by decide]
  · simp [record_userAgent, not_isOrdinary_userAgentName,
      show userAgentName ≠ platformName by decide]
  · rw [record_platform, ← find?_platformHint_eq_none_iff]
    cases Platform.words.find? (String.ofList (platformHint value)) with
    | some p => simp [not_isOrdinary_platformName]
    | none => simpa [not_isOrdinary_platformName] using eq_comm
  · have hne : name ≠ platformName := ordinary.2.2
    rw [record_ordinary fields value ordinary]
    cases hadd : fields.others.add name (String.ofList value) with
    | ok others => simp [hne, (Headers.add_eq_ok_iff.1 hadd).1]
    | error d =>
        rcases Headers.add_eq_error_iff.1 hadd with ⟨htaken, rfl⟩
        simpa [hne, ordinary, htaken] using eq_comm

theorem contains_insert {headers : Headers} {name other text : String} :
    (headers.insert name text).contains other = true ↔
      headers.contains other = true ∨ name = other := by
  unfold Dictionary.contains
  rw [Dictionary.find?_insert]
  by_cases h : name = other <;> simp [h]

/-- What recording adds to the names of the map. -/
theorem contains_of_record {after : HeaderFields} {name other : String}
    (h : fields.record name value = .ok after) :
    after.others.contains other = true ↔
      fields.others.contains other = true ∨ IsOrdinary name ∧ name = other := by
  rcases name_cases name with rfl | rfl | rfl | ordinary
  · rw [record_host] at h
    have heq := Except.ok.inj h
    subst heq
    simp [not_isOrdinary_hostName]
  · rw [record_userAgent] at h
    have heq := Except.ok.inj h
    subst heq
    simp [not_isOrdinary_userAgentName]
  · rw [record_platform] at h
    split at h
    · have heq := Except.ok.inj h
      subst heq
      simp [not_isOrdinary_platformName]
    · simp at h
  · rw [record_ordinary fields value ordinary] at h
    split at h
    · next others hadd =>
        have heq := Except.ok.inj h
        subst heq
        rcases Headers.add_eq_ok_iff.1 hadd with ⟨-, rfl⟩
        rw [contains_insert]
        simp [ordinary]
    · simp at h

/-- Takes a header line into account; one without a colon says nothing. -/
def HeaderFields.recordLine (fields : HeaderFields) (line : List Char) :
    Except RequestError HeaderFields :=
  match headerOfLine? line with
  | none => .ok fields
  | some (name, value) => fields.record name value

theorem recordLine_of_isHeader {line : List Char} {name : String}
    (h : IsHeader line name value) : fields.recordLine line = fields.record name value := by
  rw [HeaderFields.recordLine, headerOfLine?_eq_some_iff.2 h]

/-- The fields hold, as names of the map, what the lines carry. -/
def Recorded (fields : HeaderFields) (lines : List (List Char)) : Prop :=
  ∀ name, fields.others.contains name = true ↔ IsOrdinary name ∧ Carries lines name

theorem recorded_empty : Recorded {} [] := by
  simp [Recorded, Carries, Dictionary.contains]

theorem carries_append_singleton {before : List (List Char)} {line : List Char} {name : String} :
    Carries (before ++ [line]) name ↔ Carries before name ∨ ∃ v, IsHeader line name v := by
  simp [Carries, or_and_right, exists_or]

/-- Reading a line fails where it does not join those that were read. -/
theorem recordLine_eq_error_iff {before : List (List Char)}
    (hrec : Recorded fields before) {line : List Char} {e : RequestError} :
    fields.recordLine line = .error e ↔ Offends before line e := by
  cases hline : headerOfLine? line with
  | none =>
      have hno : ∀ name value, ¬ IsHeader line name value := by
        intro name value header
        rw [headerOfLine?_eq_some_iff.2 header] at hline
        simp at hline
      constructor
      · intro h
        simp [HeaderFields.recordLine, hline] at h
      · intro h
        cases h with
        | platform header _ => exact absurd header (hno _ _)
        | duplicate _ header _ => exact absurd header (hno _ _)
  | some parts =>
      rcases parts with ⟨name, value⟩
      have header := headerOfLine?_eq_some_iff.1 hline
      rw [recordLine_of_isHeader header, record_eq_error_iff]
      constructor
      · intro h
        rcases h with ⟨rfl, unknown, rfl⟩ | ⟨ordinary, taken, rfl⟩
        · exact .platform header unknown
        · exact .duplicate ordinary header ((hrec name).1 taken).2
      · intro h
        cases h with
        | platform header' unknown =>
            rcases header.unique header' with ⟨rfl, rfl⟩
            exact .inl ⟨rfl, unknown, rfl⟩
        | duplicate ordinary header' taken =>
            rcases header.unique header' with ⟨rfl, rfl⟩
            exact .inr ⟨ordinary, (hrec name).2 ⟨ordinary, taken⟩, rfl⟩

/-- Reading a line keeps the account of the names. -/
theorem recorded_of_recordLine {after : HeaderFields} {before : List (List Char)}
    (hrec : Recorded fields before) {line : List Char} (h : fields.recordLine line = .ok after) :
    Recorded after (before ++ [line]) := by
  intro other
  rw [carries_append_singleton]
  cases hline : headerOfLine? line with
  | none =>
      have hno : ¬ ∃ v, IsHeader line other v := by
        intro h
        rcases h with ⟨v, header⟩
        rw [headerOfLine?_eq_some_iff.2 header] at hline
        simp at hline
      have heq : fields = after := by simpa [HeaderFields.recordLine, hline] using h
      subst heq
      simp [hrec other, hno]
  | some parts =>
      rcases parts with ⟨name, value⟩
      have header := headerOfLine?_eq_some_iff.1 hline
      have hiff : (∃ v, IsHeader line other v) ↔ name = other := by
        constructor
        · intro h
          rcases h with ⟨v, header'⟩
          exact (header.unique header').1
        · intro heq
          subst heq
          exact ⟨value, header⟩
      rw [recordLine_of_isHeader header] at h
      rw [contains_of_record h, hrec other, hiff]
      constructor
      · intro h
        rcases h with ⟨ordinary, carried⟩ | ⟨ordinary, rfl⟩
        · exact ⟨ordinary, .inl carried⟩
        · exact ⟨ordinary, .inr rfl⟩
      · intro h
        rcases h with ⟨ordinary, carried | rfl⟩
        · exact .inl ⟨ordinary, carried⟩
        · exact .inr ⟨ordinary, rfl⟩

/-! ## Recording lines one after another -/

/-- Takes header lines into account, up to the first that cannot be. -/
def HeaderFields.recordLines (fields : HeaderFields) (lines : List (List Char)) :
    Except RequestError HeaderFields :=
  lines.foldlM recordLine fields

theorem recordLines_cons (line : List Char) (rest : List (List Char)) :
    fields.recordLines (line :: rest) = (fields.recordLine line).bind (·.recordLines rest) :=
  List.foldlM_cons

theorem recordLines_append (before rest : List (List Char)) :
    fields.recordLines (before ++ rest) =
      (fields.recordLines before).bind (·.recordLines rest) :=
  List.foldlM_append

/-- A computation in two parts succeeds if both of them do. -/
theorem bind_eq_ok_iff {ε α β : Type} {first : Except ε α} {rest : α → Except ε β} {b : β} :
    first.bind rest = .ok b ↔ ∃ a, first = .ok a ∧ rest a = .ok b := by
  cases first <;> simp [Except.bind]

theorem recordLines_append_singleton (before : List (List Char)) (line : List Char) :
    fields.recordLines (before ++ [line]) =
      (fields.recordLines before).bind (·.recordLine line) := by
  have hone : ∀ seen : HeaderFields, seen.recordLines [line] = seen.recordLine line := by
    intro seen
    rw [recordLines_cons]
    cases seen.recordLine line <;> rfl
  simp only [recordLines_append, hone]

/-- Lines that were recorded are orderly, and accounted for. -/
theorem orderly_of_recordLines {lines : List (List Char)} {after : HeaderFields}
    (h : ({} : HeaderFields).recordLines lines = .ok after) :
    Orderly lines ∧ Recorded after lines := by
  induction lines using List.reverseRecOn generalizing after with
  | nil =>
      have heq := Except.ok.inj h
      subst heq
      exact ⟨orderly_nil, recorded_empty⟩
  | append_singleton before line ih =>
      rw [recordLines_append_singleton] at h
      cases hbefore : ({} : HeaderFields).recordLines before with
      | error e => rw [hbefore] at h; cases h
      | ok seen =>
          rcases ih hbefore with ⟨horderly, hrec⟩
          rw [hbefore] at h
          refine ⟨orderly_append_singleton.2 ⟨horderly, ?_⟩, recorded_of_recordLine hrec h⟩
          rw [joins_iff_not_offends]
          intro h
          rcases h with ⟨e, hoffends⟩
          have herror := (recordLine_eq_error_iff hrec).2 hoffends
          rw [show seen.recordLine line = .ok after from h] at herror
          cases herror

/-- Recording fails only at a line that does not join those before it. -/
theorem offends_of_recordLines {lines : List (List Char)} {e : RequestError}
    (h : ({} : HeaderFields).recordLines lines = .error e) :
    ∃ before line after, lines = before ++ line :: after ∧ Orderly before ∧
      Offends before line e := by
  induction lines using List.reverseRecOn with
  | nil => cases h
  | append_singleton earlier last ih =>
      rw [recordLines_append_singleton] at h
      cases hearlier : ({} : HeaderFields).recordLines earlier with
      | error d =>
          rw [hearlier] at h
          have heq : d = e := Except.error.inj h
          subst heq
          rcases ih hearlier with ⟨before, line, after, hsplit, horderly, hoffends⟩
          exact ⟨before, line, after ++ [last], by simp [hsplit], horderly, hoffends⟩
      | ok seen =>
          rw [hearlier] at h
          rcases orderly_of_recordLines hearlier with ⟨horderly, hrec⟩
          exact ⟨earlier, last, [], rfl, horderly, (recordLine_eq_error_iff hrec).1 h⟩

theorem Orderly.joins {before after : List (List Char)} {line : List Char}
    (h : Orderly (before ++ line :: after)) : Joins before line := by
  have hpart : Orderly (before ++ [line]) := by
    rcases h with ⟨hhints, hdistinct⟩
    rw [List.append_cons] at hhints hdistinct
    exact ⟨fun l hl => hhints l (List.mem_append_left _ hl), (List.pairwise_append.1 hdistinct).1⟩
  exact (orderly_append_singleton.1 hpart).2

theorem exists_recordLines_iff {lines : List (List Char)} :
    (∃ after, ({} : HeaderFields).recordLines lines = .ok after) ↔ Orderly lines := by
  constructor
  · intro h
    rcases h with ⟨after, h⟩
    exact (orderly_of_recordLines h).1
  · intro horderly
    cases h : ({} : HeaderFields).recordLines lines with
    | ok after => exact ⟨after, rfl⟩
    | error e =>
        rcases offends_of_recordLines h with ⟨before, line, after, rfl, -, hoffends⟩
        exact absurd ⟨e, hoffends⟩ (joins_iff_not_offends.1 horderly.joins)

/-- Recording fails at the first line that does not join those before it. -/
theorem recordLines_eq_error_iff {lines : List (List Char)} {e : RequestError} :
    ({} : HeaderFields).recordLines lines = .error e ↔
      ∃ before line after, lines = before ++ line :: after ∧ Orderly before ∧
        Offends before line e := by
  constructor
  · exact offends_of_recordLines
  · intro h
    rcases h with ⟨before, line, after, rfl, horderly, hoffends⟩
    rcases exists_recordLines_iff.2 horderly with ⟨seen, hseen⟩
    have hrec : Recorded seen before := (orderly_of_recordLines hseen).2
    have herror : seen.recordLine line = .error e := (recordLine_eq_error_iff hrec).2 hoffends
    rw [recordLines_append, hseen]
    show seen.recordLines (line :: after) = .error e
    rw [recordLines_cons, herror]
    rfl

/-! ## From raw lines -/

/-- The header lines among raw ones: each without a CR at its end, up to the first
that is empty then. -/
def headerLinesOf (raws : List (List Char)) : List (List Char) :=
  (raws.map (Text.dropTrailing '\r')).takeWhile (!·.isEmpty)

theorem parse_eq_recordLines (raws : List (List Char)) :
    fields.parse raws = fields.recordLines (headerLinesOf raws) := by
  induction raws generalizing fields with
  | nil => rfl
  | cons raw rest ih =>
      rw [HeaderFields.parse]
      cases hempty : (Text.dropTrailing '\r' raw).isEmpty with
      | true =>
          have hnil : headerLinesOf (raw :: rest) = [] := by simp [headerLinesOf, hempty]
          rw [hnil]
          rfl
      | false =>
          have hcons : headerLinesOf (raw :: rest) =
              Text.dropTrailing '\r' raw :: headerLinesOf rest := by
            simp [headerLinesOf, hempty]
          rw [hcons, recordLines_cons, HeaderFields.recordLine]
          cases headerOfLine? (Text.dropTrailing '\r' raw) with
          | none => exact ih
          | some parts =>
              cases hrecord : fields.record parts.1 parts.2 with
              | ok next => simpa [hrecord, Except.bind] using ih
              | error e => simp [hrecord, Except.bind]

end SiteServer.Http
