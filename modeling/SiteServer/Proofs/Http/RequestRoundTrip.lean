import SiteServer.Proofs.Http.Framing
import SiteServer.Proofs.Http.RequestGrammar
import Mathlib.Data.List.TakeWhile

/-!
# Requests are read as they were written

A client that has a method, a target, some headers and a body to send writes a
request line, a line for each header in an order of its own, an empty line, and the
body.  Whatever the texts and the bytes are, as long as no text leaves its place in
its line, reading gives back what was to be sent, and nothing of the order of the
lines (`letter_is_read`).

The proof follows the reader.  The head that is cut off is the lines with CR LF
between them; it is decoded as what was encoded; its words and its header lines are
those that were written.  Headers with different names do not get into each other's
way, so all that can be said of the fields after some of them is what look-up finds
in what was read so far (`Summary`).
-/

namespace SiteServer.Http

open Text (IsTrimmed)
open Text.Utf8 (encode decodeLossy)
open Dictionary (lookup)

/-! ## Letters -/

/-- A word that holds something, and no blanks. -/
def IsSolid (word : String) : Prop :=
  word.toList ≠ [] ∧ ∀ c ∈ word.toList, Text.isBlank c = false

theorem isSolid_of_all {word : String} (hne : word.toList ≠ [])
    (h : word.toList.all (!Text.isBlank ·) = true) : IsSolid word := by
  refine ⟨hne, fun c hc => ?_⟩
  simpa using List.all_eq_true.1 h c hc

/-- A value that is its own reading: it stays in its line, and no space at its ends
gets lost. -/
structure IsTidyValue (value : String) : Prop extends IsPlainValue value where
  first : value.toList.head? ≠ some ' '
  last : value.toList.getLast? ≠ some ' '

/-- What a client has to say.  Host, client and platform may be left out. -/
structure Letter where
  method : Method
  version : Version
  target : String
  host : Option String
  userAgent : Option String
  platform : Option Platform
  others : List (String × String)
  body : Bytes
  target_solid : IsSolid target
  host_tidy : ∀ value, host = some value → IsTidyValue value
  userAgent_tidy : ∀ value, userAgent = some value → IsTidyValue value
  others_fit : ∀ header ∈ others,
    IsOrdinary header.1 ∧ IsPlainName header.1 ∧ IsTidyValue header.2
  others_distinct : (others.map (·.1)).Nodup

namespace Letter

/-- A platform as a client hints at it. -/
def quoted (p : Platform) : String := "\"" ++ p.token ++ "\""

/-- A header that may be left out. -/
def optional (name : String) (value? : Option String) : List (String × String) :=
  (value?.map fun value => (name, value)).toList

/-- The headers of a letter. -/
def headers (letter : Letter) : List (String × String) :=
  optional hostName letter.host ++ (optional userAgentName letter.userAgent ++
    (optional platformName (letter.platform.map quoted) ++ letter.others))

/-- The first line. -/
def requestLine (letter : Letter) : String :=
  letter.method.token ++ " " ++ letter.target ++ " " ++ letter.version.token

/-- The line of a header. -/
def headerText (header : String × String) : String :=
  header.1 ++ ": " ++ header.2

/-- The bytes of a letter whose headers are written in some order. -/
def write (letter : Letter) (headers : List (String × String)) : Bytes :=
  Text.bytes (letter.requestLine ++ "\r\n" ++
    String.join (headers.map fun header => headerText header ++ "\r\n") ++ "\r\n") ++ letter.body

/-- A request that says what a letter says. -/
structure IsReadAs (letter : Letter) (request : Request) : Prop where
  method : request.method = letter.method
  version : request.version = letter.version
  path : request.path = if letter.target = "/" then "/index.html" else letter.target
  host : request.host = letter.host.getD ""
  userAgent : request.userAgent = letter.userAgent.getD ""
  platform : request.platform = letter.platform.getD .unknown
  headers : request.headers.entries.Perm letter.others
  ascending : request.headers.entries.Pairwise fun a b => Text.Precedes a.1 b.1
  body : request.body = letter.body

/-! ## The headers of a letter -/

theorem special_names_distinct :
    hostName ≠ userAgentName ∧ hostName ≠ platformName ∧ userAgentName ≠ platformName := by
  decide

theorem mem_optional {name : String} {value? : Option String} {header : String × String} :
    header ∈ optional name value? ↔ header.1 = name ∧ value? = some header.2 := by
  rcases header with ⟨found, value⟩
  cases value? with
  | none => simp [optional]
  | some given => simp [optional, eq_comm]

theorem mem_headers {letter : Letter} {header : String × String} :
    header ∈ letter.headers ↔
      (header.1 = hostName ∧ letter.host = some header.2) ∨
      (header.1 = userAgentName ∧ letter.userAgent = some header.2) ∨
      (header.1 = platformName ∧ letter.platform.map quoted = some header.2) ∨
      header ∈ letter.others := by
  simp only [headers, List.mem_append, mem_optional]

theorem isTidyValue_quoted (p : Platform) : IsTidyValue (quoted p) := by
  cases p <;> exact ⟨⟨by decide, by decide⟩, by decide, by decide⟩

theorem isHint_quoted (p : Platform) : IsHint (quoted p).toList p :=
  ⟨true, true, false, by simp [quoted, Text.perhaps]⟩

theorem isPlainName_hostName : IsPlainName hostName := by constructor <;> decide

theorem isPlainName_userAgentName : IsPlainName userAgentName := by constructor <;> decide

theorem isPlainName_platformName : IsPlainName platformName := by constructor <;> decide

theorem fit_of_mem_headers {letter : Letter} {header : String × String}
    (h : header ∈ letter.headers) : IsPlainName header.1 ∧ IsTidyValue header.2 := by
  rcases mem_headers.1 h with ⟨hname, hvalue⟩ | ⟨hname, hvalue⟩ | ⟨hname, hvalue⟩ | hother
  · exact ⟨hname ▸ isPlainName_hostName, letter.host_tidy _ hvalue⟩
  · exact ⟨hname ▸ isPlainName_userAgentName, letter.userAgent_tidy _ hvalue⟩
  · rcases Option.map_eq_some_iff.1 hvalue with ⟨p, -, hquoted⟩
    exact ⟨hname ▸ isPlainName_platformName, hquoted ▸ isTidyValue_quoted p⟩
  · exact (letter.others_fit header hother).2

/-- A name that is left out or comes first is not to come again. -/
theorem distinct_optional {name : String} {value? : Option String} {rest : List (String × String)}
    (hrest : rest.Pairwise fun a b => a.1 ≠ b.1) (hname : ∀ header ∈ rest, header.1 ≠ name) :
    (optional name value? ++ rest).Pairwise fun a b => a.1 ≠ b.1 := by
  cases value? with
  | none => exact hrest
  | some value => exact hrest.cons fun header hmem => (hname header hmem).symm

theorem ne_of_mem_optional_append {name other : String} {value? : Option String}
    {rest : List (String × String)} (hne : name ≠ other)
    (hrest : ∀ header ∈ rest, header.1 ≠ other) :
    ∀ header ∈ optional name value? ++ rest, header.1 ≠ other := by
  intro header hmem
  rcases List.mem_append.1 hmem with hmem | hmem
  · exact (mem_optional.1 hmem).1 ▸ hne
  · exact hrest header hmem

theorem headers_distinct (letter : Letter) :
    letter.headers.Pairwise fun a b => a.1 ≠ b.1 := by
  have hothers : ∀ header ∈ letter.others, IsOrdinary header.1 := fun header hmem =>
    (letter.others_fit header hmem).1
  rcases special_names_distinct with ⟨hhostAgent, hhostPlatform, hagentPlatform⟩
  refine distinct_optional (distinct_optional (distinct_optional ?_ ?platform) ?userAgent) ?host
  · exact List.pairwise_map.1 letter.others_distinct
  case platform => exact fun header hmem => (hothers header hmem).2.2
  case userAgent =>
    refine ne_of_mem_optional_append hagentPlatform.symm ?_
    exact fun header hmem => (hothers header hmem).2.1
  case host =>
    refine ne_of_mem_optional_append hhostAgent.symm ?_
    refine ne_of_mem_optional_append hhostPlatform.symm ?_
    exact fun header hmem => (hothers header hmem).1

/-- Headers with names of their own, as the map takes them. -/
theorem filter_headers (letter : Letter) :
    letter.headers.filter (IsOrdinary ·.1) = letter.others := by
  have hothers : letter.others.filter (IsOrdinary ·.1) = letter.others := by
    rw [List.filter_eq_self]
    intro header hmem
    exact decide_eq_true (letter.others_fit header hmem).1
  have hoptional : ∀ name value?, ¬ IsOrdinary name →
      (optional name value?).filter (IsOrdinary ·.1) = [] := by
    intro name value? hname
    rw [List.filter_eq_nil_iff]
    intro header hmem
    rw [(mem_optional.1 hmem).1]
    simpa using hname
  rw [headers, List.filter_append, List.filter_append, List.filter_append, hothers,
    hoptional _ _ not_isOrdinary_hostName, hoptional _ _ not_isOrdinary_userAgentName,
    hoptional _ _ not_isOrdinary_platformName]
  rfl

theorem distinct_of_perm {letter : Letter} {given : List (String × String)}
    (h : given.Perm letter.headers) : given.Pairwise fun a b => a.1 ≠ b.1 :=
  letter.headers_distinct.perm h.symm fun hne => hne.symm

/-- Look-up finds what the letter has under a name, in whatever order its headers are. -/
theorem lookup_of_perm {letter : Letter} {given : List (String × String)}
    (h : given.Perm letter.headers) {name : String} {value? : Option String}
    (hname : ∀ value, (name, value) ∈ letter.headers ↔ value? = some value) :
    lookup name given = value? := by
  ext value
  rw [Dictionary.lookup_eq_some_iff (distinct_of_perm h), h.mem_iff, hname]

theorem not_mem_others {letter : Letter} {name : String} (h : ¬ IsOrdinary name)
    (value : String) : (name, value) ∉ letter.others :=
  fun hmem => h (letter.others_fit _ hmem).1

theorem mem_headers_host {letter : Letter} (value : String) :
    (hostName, value) ∈ letter.headers ↔ letter.host = some value := by
  rcases special_names_distinct with ⟨hagent, hplatform, -⟩
  simp [mem_headers, hagent, hplatform, not_mem_others not_isOrdinary_hostName]

theorem mem_headers_userAgent {letter : Letter} (value : String) :
    (userAgentName, value) ∈ letter.headers ↔ letter.userAgent = some value := by
  rcases special_names_distinct with ⟨hhost, -, hplatform⟩
  simp [mem_headers, hhost.symm, hplatform, not_mem_others not_isOrdinary_userAgentName]

theorem mem_headers_platform {letter : Letter} (value : String) :
    (platformName, value) ∈ letter.headers ↔ letter.platform.map quoted = some value := by
  rcases special_names_distinct with ⟨-, hhost, hagent⟩
  simp only [mem_headers, hhost.symm, hagent.symm, not_mem_others not_isOrdinary_platformName,
    false_and, true_and, false_or, or_false]

end Letter

/-! ## What headers say together -/

section Summary

variable {fields after : HeaderFields} {given : List (String × String)}

/-- The platform that a value hints at. -/
def hinted (value : String) : Option Platform :=
  Platform.words.find? (String.ofList (platformHint value.toList))

/-- What the fields are after some headers with different names. -/
structure Summary (fields : HeaderFields) (given : List (String × String))
    (after : HeaderFields) : Prop where
  host : after.host = (lookup hostName given).getD fields.host
  userAgent : after.userAgent = (lookup userAgentName given).getD fields.userAgent
  platform : after.platform = ((lookup platformName given).bind hinted).getD fields.platform
  others : after.others.entries.Perm
    (given.filter (IsOrdinary ·.1) ++ fields.others.entries)

/-- Headers that do not get into each other's way, nor into that of those before. -/
structure Compatible (fields : HeaderFields) (given : List (String × String)) : Prop where
  distinct : given.Pairwise fun a b => a.1 ≠ b.1
  hints : ∀ value, (platformName, value) ∈ given → ∃ p, hinted value = some p
  fresh : ∀ header ∈ given, fields.others.contains header.1 = false

theorem lookup_eq_none {name : String} (h : ∀ header ∈ given, header.1 ≠ name) :
    lookup name given = none := by
  rw [lookup, Option.map_eq_none_iff, List.find?_eq_none]
  simpa using h

/-- What the first of them leaves is compatible with the others. -/
theorem Compatible.tail {name value : String} (h : Compatible fields ((name, value) :: given))
    {next : HeaderFields} (hrecord : fields.record name value.toList = .ok next) :
    Compatible next given := by
  rcases List.pairwise_cons.1 h.distinct with ⟨hfirst, hdistinct⟩
  refine ⟨hdistinct, fun v hmem => h.hints v (List.mem_cons_of_mem _ hmem), ?_⟩
  intro header hmem
  have hfresh := h.fresh header (List.mem_cons_of_mem _ hmem)
  rw [← Bool.not_eq_true, contains_of_record hrecord, not_or]
  exact ⟨by simp [hfresh], fun hsame => hfirst header hmem hsame.2⟩

/-- The first of them can be taken, and says what it says. -/
theorem Compatible.head {name value : String} (h : Compatible fields ((name, value) :: given)) :
    ∃ next, fields.record name value.toList = .ok next ∧
      Summary fields [(name, value)] next := by
  rcases Letter.special_names_distinct with ⟨hhostAgent, hhostPlatform, hagentPlatform⟩
  rcases name_cases name with rfl | rfl | rfl | ordinary
  · refine ⟨_, record_host .., ?_⟩
    constructor <;>
      simp [lookup, hhostAgent, hhostPlatform, not_isOrdinary_hostName]
  · refine ⟨_, record_userAgent .., ?_⟩
    constructor <;>
      simp [lookup, hhostAgent.symm, hagentPlatform, not_isOrdinary_userAgentName]
  · rcases h.hints value (List.mem_cons_self ..) with ⟨p, hp⟩
    refine ⟨{ fields with platform := p }, ?_, ?_⟩
    · have hfound : Platform.words.find? (String.ofList (platformHint value.toList)) = some p := hp
      rw [record_platform, hfound]
    · constructor <;>
        simp [lookup, hhostPlatform.symm, hagentPlatform.symm, hp, not_isOrdinary_platformName]
  · have hfresh : fields.others.contains name = false := h.fresh _ (List.mem_cons_self ..)
    refine ⟨{ fields with others := fields.others.insert name value }, ?_, ?_⟩
    · have hadd : fields.others.add name value = .ok (fields.others.insert name value) :=
        Headers.add_eq_ok_iff.2 ⟨hfresh, rfl⟩
      rw [record_ordinary _ _ ordinary, String.ofList_toList, hadd]
    · have hinsert := Dictionary.perm_insert value hfresh
      rcases ordinary with ⟨hhost, hagent, hplatform⟩
      constructor <;>
        simp [lookup, hhost, hagent, hplatform, IsOrdinary, hinsert]

/-- Of a header and others with different names, look-up finds one only. -/
theorem lookup_cons_cases {name : String} (value : String)
    (hname : ∀ header ∈ given, header.1 ≠ name) (key : String) :
    (lookup key [(name, value)] = none ∧
        lookup key ((name, value) :: given) = lookup key given) ∨
      (lookup key given = none ∧
        lookup key ((name, value) :: given) = lookup key [(name, value)]) := by
  by_cases hkey : name = key
  · right
    exact ⟨lookup_eq_none (hkey ▸ hname), by simp [Dictionary.lookup_cons, hkey]⟩
  · left
    exact ⟨by simp [lookup, hkey], by simp [Dictionary.lookup_cons, hkey]⟩

/-- One header more, in front of others. -/
theorem Summary.cons {name value : String} {next : HeaderFields}
    (hfirst : Summary fields [(name, value)] next) (hrest : Summary next given after)
    (hname : ∀ header ∈ given, header.1 ≠ name) : Summary fields ((name, value) :: given) after := by
  have hlookup := lookup_cons_cases value hname
  constructor
  · rw [hrest.host, hfirst.host]
    rcases hlookup hostName with ⟨hnone, hfound⟩ | ⟨hnone, hfound⟩ <;> simp [hnone, hfound]
  · rw [hrest.userAgent, hfirst.userAgent]
    rcases hlookup userAgentName with ⟨hnone, hfound⟩ | ⟨hnone, hfound⟩ <;> simp [hnone, hfound]
  · rw [hrest.platform, hfirst.platform]
    rcases hlookup platformName with ⟨hnone, hfound⟩ | ⟨hnone, hfound⟩ <;> simp [hnone, hfound]
  · have hsplit : ((name, value) :: given).filter (IsOrdinary ·.1) =
        [(name, value)].filter (IsOrdinary ·.1) ++ given.filter (IsOrdinary ·.1) := by
      rw [← List.filter_append, List.singleton_append]
    rw [hsplit, List.append_assoc]
    exact (hrest.others.trans (hfirst.others.append_left _)).trans (List.perm_append_comm_assoc ..)

/-- Headers that are compatible are all taken, and say together what look-up finds. -/
theorem Compatible.recordLines (h : Compatible fields given)
    (hlines : ∀ header ∈ given, IsHeader (Letter.headerText header).toList header.1 header.2.toList) :
    ∃ after, fields.recordLines (given.map fun header => (Letter.headerText header).toList) =
        .ok after ∧ Summary fields given after := by
  induction given generalizing fields with
  | nil => exact ⟨fields, rfl, by constructor <;> simp [lookup]⟩
  | cons header given ih =>
      rcases header with ⟨name, value⟩
      rcases h.head with ⟨next, hrecord, hfirst⟩
      rcases ih (h.tail hrecord) fun header hmem => hlines header (List.mem_cons_of_mem _ hmem)
        with ⟨after, hafter, hrest⟩
      have hline : fields.recordLine (Letter.headerText (name, value)).toList =
          fields.record name value.toList :=
        recordLine_of_isHeader (hlines _ (List.mem_cons_self ..))
      have hnames := (List.pairwise_cons.1 h.distinct).1
      refine ⟨after, ?_, hfirst.cons hrest fun header hmem => (hnames header hmem).symm⟩
      rw [List.map_cons, recordLines_cons, hline, hrecord]
      exact hafter

end Summary

namespace Letter

variable {letter : Letter} {given : List (String × String)}

theorem isHeader_headerText {header : String × String} (hname : IsPlainName header.1)
    (hvalue : IsTidyValue header.2) :
    IsHeader (headerText header).toList header.1 header.2.toList := by
  refine ⟨' ' :: header.2.toList, hname.colon, ?_, ⟨[' '], [], ?_, by simp, by simp⟩, ?_, ?_⟩
  · simp [headerText]
  · simp
  · intro c hc
    have hne : c ≠ ' ' := fun heq => hvalue.first (heq ▸ hc)
    simpa using hne
  · intro c hc
    have hne : c ≠ ' ' := fun heq => hvalue.last (heq ▸ hc)
    simpa using hne

theorem hinted_quoted (p : Platform) : hinted (quoted p) = some p :=
  find?_platformHint_iff.2 (isHint_quoted p)

/-- The headers of a letter are compatible, in any order. -/
theorem compatible_of_perm (h : given.Perm letter.headers) : Compatible {} given where
  distinct := distinct_of_perm h
  hints := by
    intro value hmem
    rw [h.mem_iff, mem_headers_platform, Option.map_eq_some_iff] at hmem
    rcases hmem with ⟨p, -, rfl⟩
    exact ⟨p, hinted_quoted p⟩
  fresh := fun _ _ => rfl

/-- The lines of a head, as texts. -/
def headTexts (letter : Letter) (given : List (String × String)) : List (List Char) :=
  letter.requestLine.toList :: given.map fun header => (headerText header).toList

theorem bytes_join_headerText (given : List (String × String)) :
    Text.bytes (String.join (given.map fun header => headerText header ++ "\r\n")) =
      (given.map fun header => encode (headerText header).toList).flatMap withEnd := by
  simp only [← Text.Utf8.bytes_eq_encode]
  exact Response.bytes_join_headerLine given

/-- The bytes are the lines, an empty line, and the body. -/
theorem write_eq : letter.write given =
    ((letter.headTexts given).map encode).flatMap withEnd ++ [13, 10] ++ letter.body := by
  rw [write, headTexts, bytes_append, bytes_append, bytes_append, bytes_join_headerText,
    List.map_cons, List.flatMap_cons, List.map_map, ← Text.Utf8.bytes_eq_encode]
  rfl

theorem solid_words (letter : Letter) :
    ∀ word ∈ [letter.method.token, letter.target, letter.version.token], IsSolid word := by
  intro word hmem
  simp only [List.mem_cons, List.not_mem_nil, or_false] at hmem
  rcases hmem with rfl | rfl | rfl
  · cases letter.method <;> exact isSolid_of_all (by decide) (by decide)
  · exact letter.target_solid
  · cases letter.version <;> exact isSolid_of_all (by decide) (by decide)

theorem words_requestLine (letter : Letter) :
    Text.words letter.requestLine.toList =
      [letter.method.token.toList, letter.target.toList, letter.version.token.toList] := by
  have hwords := letter.solid_words
  rcases hwords letter.method.token (by simp) with ⟨hmethod, hmethodSolid⟩
  rcases hwords letter.target (by simp) with ⟨htarget, htargetSolid⟩
  rcases hwords letter.version.token (by simp) with ⟨hversion, hversionSolid⟩
  have hline : letter.requestLine.toList = letter.method.token.toList ++
      ' ' :: (letter.target.toList ++ ' ' :: letter.version.token.toList) := by
    simp [requestLine]
  have hblank : Text.isBlank ' ' = true := by decide
  rw [hline, Text.words_append_cons hmethod hmethodSolid hblank,
    Text.words_append_cons htarget htargetSolid hblank,
    Text.words_of_not_blank hversion hversionSolid]

/-- No line is empty, and none holds a CR or a line feed. -/
theorem plain_of_mem_headTexts (h : given.Perm letter.headers) {line : List Char}
    (hline : line ∈ letter.headTexts given) : line ≠ [] ∧ '\r' ∉ line ∧ '\n' ∉ line := by
  rw [headTexts, List.mem_cons, List.mem_map] at hline
  rcases hline with rfl | ⟨header, hmem, rfl⟩
  · have hsolid : ∀ c, Text.isBlank c = true → c ≠ ' ' → c ∉ letter.requestLine.toList := by
      intro c hblank hne
      have hword : ∀ word ∈ [letter.method.token, letter.target, letter.version.token],
          c ∉ word.toList := by
        intro word hmem hc
        rw [(letter.solid_words word hmem).2 c hc] at hblank
        contradiction
      simp [requestLine, hne, hword]
    refine ⟨?_, hsolid '\r' (by decide) (by decide), hsolid '\n' (by decide) (by decide)⟩
    simp [requestLine]
  · rcases fit_of_mem_headers (h.mem_iff.1 hmem) with ⟨hname, hvalue⟩
    simp [headerText, hname.cr, hname.lf, hvalue.cr, hvalue.lf]

/-- The head that is cut off is the lines, with CR LF between them. -/
theorem splitHead_write (h : given.Perm letter.headers) :
    splitHead (letter.write given) =
      (encode (['\r', '\n'].intercalate (letter.headTexts given)), letter.body) := by
  have hlines : ∀ line ∈ (letter.headTexts given).map encode, line ≠ [] ∧ 10 ∉ line := by
    intro line hmem
    rcases List.mem_map.1 hmem with ⟨text, htext, rfl⟩
    rcases plain_of_mem_headTexts h htext with ⟨hne, -, hlf⟩
    exact ⟨Text.Utf8.encode_ne_nil hne, Text.Utf8.not_mem_encode (by decide) rfl hlf⟩
  have hsome : (letter.headTexts given).map encode ≠ [] := List.cons_ne_nil _ _
  rw [write_eq, splitHead_lines hsome hlines, Text.Utf8.encode_intercalate]
  rfl

/-- The raw lines of the head, without CRs at their ends, are the lines that were
written. -/
theorem rawLines_write (h : given.Perm letter.headers) :
    let raw := rawLines (splitHead (letter.write given)).1
    Text.dropTrailing '\r' (decodeLossy raw.1) = letter.requestLine.toList ∧
      (raw.2.map decodeLossy).map (Text.dropTrailing '\r') =
        given.map fun header => (headerText header).toList := by
  have hplain : ∀ line ∈ letter.headTexts given, '\r' ∉ line ∧ '\n' ∉ line := fun line hmem =>
    (plain_of_mem_headTexts h hmem).2
  have hsome : letter.headTexts given ≠ [] := List.cons_ne_nil _ _
  have hcut := Text.map_dropTrailing_pieces_intercalate (by decide) hsome hplain
  have hlines := linesOf_decodeLossy (splitHead (letter.write given)).1
  have hdecoded : decodeLossy (splitHead (letter.write given)).1 =
      ['\r', '\n'].intercalate (letter.headTexts given) := by
    rw [splitHead_write h, Text.Utf8.decodeLossy_encode]
  rw [← hdecoded, Text.pieces, ← linesOf, hlines] at hcut
  exact List.cons.inj hcut

/-- The words of the head are those of the request line. -/
theorem requestWords_write (h : given.Perm letter.headers) :
    requestWords (splitHead (letter.write given)).1 =
      [letter.method.token.toList, letter.target.toList, letter.version.token.toList] := by
  rcases rawLines_write h with ⟨hfirst, -⟩
  rcases Text.exists_dropTrailing '\r' (decodeLossy (rawLines (splitHead (letter.write given)).1).1)
    with ⟨ended, hraw⟩
  rw [hfirst] at hraw
  rw [requestWords, hraw]
  -- A CR that is left at the end of the line is a blank behind its last word.
  cases ended with
  | false => simpa [Text.perhaps] using letter.words_requestLine
  | true =>
      have hblank : Text.isBlank '\r' = true := by decide
      rw [Text.perhaps, if_pos rfl, Text.words_concat hblank, letter.words_requestLine]

/-- The header lines of the head are those that were written. -/
theorem headerLines_write (h : given.Perm letter.headers) :
    headerLines (splitHead (letter.write given)).1 =
      given.map fun header => (headerText header).toList := by
  rcases rawLines_write h with ⟨-, hrest⟩
  rw [headerLines, headerLinesOf, hrest, List.takeWhile_eq_self_iff]
  intro line hmem
  have hne := (plain_of_mem_headTexts h (List.mem_cons_of_mem _ hmem)).1
  simpa using hne

theorem firstWords_write (h : given.Perm letter.headers) :
    FirstWords (splitHead (letter.write given)).1 letter.method.token letter.target
      letter.version.token := by
  have hwords := requestWords_write h
  constructor <;> simp [hwords]

/-- The head of a letter is read. -/
theorem readHead_write (h : given.Perm letter.headers) :
    ∃ fields, readHead (splitHead (letter.write given)).1 =
        .ok (⟨letter.method, letter.target, letter.version⟩, fields) ∧
      Summary {} given fields := by
  have hlines : ∀ header ∈ given,
      IsHeader (headerText header).toList header.1 header.2.toList := by
    intro header hmem
    rcases fit_of_mem_headers (h.mem_iff.1 hmem) with ⟨hname, hvalue⟩
    exact isHeader_headerText hname hvalue
  rcases (compatible_of_perm h).recordLines hlines with ⟨fields, hrecord, hsummary⟩
  have hwords := firstWords_write h
  have htext := hasText_of_mem_requestWords (List.mem_of_getElem? hwords.first)
  refine ⟨fields, ?_, hsummary⟩
  rw [readHead_of_hasText htext, hwords.parse, headerLines_write h, hrecord,
    Method.words.find?_word, Version.words.find?_word]
  rfl

theorem value_pathOfTarget (target : String) :
    (pathOfTarget target).value = if target = "/" then "/index.html" else target := by
  unfold pathOfTarget
  split <;> rfl

/-- What was recorded of the headers of a letter, with its first line and its body, says
what the letter says. -/
theorem isReadAs_of_summary (h : given.Perm letter.headers) {fields : HeaderFields}
    (hsummary : Summary {} given fields) :
    letter.IsReadAs
      (.ofParts ⟨letter.method, letter.target, letter.version⟩ fields letter.body) where
  method := rfl
  version := rfl
  path := value_pathOfTarget letter.target
  host := by
    have hhost := hsummary.host
    rw [lookup_of_perm h mem_headers_host] at hhost
    exact hhost
  userAgent := by
    have hagent := hsummary.userAgent
    rw [lookup_of_perm h mem_headers_userAgent] at hagent
    exact hagent
  platform := by
    have hplatform := hsummary.platform
    rw [lookup_of_perm h mem_headers_platform] at hplatform
    show fields.platform = _
    rw [hplatform]
    cases letter.platform with
    | none => rfl
    | some p => simp [hinted_quoted]
  headers := by
    have hothers := hsummary.others
    have hempty : ({} : HeaderFields).others.entries = [] := rfl
    rw [hempty, List.append_nil] at hothers
    rw [← letter.filter_headers]
    exact hothers.trans (h.filter _)
  ascending := fields.others.ascending
  body := rfl

end Letter

/-- A letter is read as it was meant, in whatever order its headers are written. -/
theorem letter_is_read (letter : Letter) {given : List (String × String)}
    (h : given.Perm letter.headers) :
    ∃ request, (Request.parse (letter.write given)).value = .ok request ∧
      letter.IsReadAs request := by
  rcases Letter.readHead_write h with ⟨fields, hread, hsummary⟩
  have hbody : (splitHead (letter.write given)).2 = letter.body := by
    rw [Letter.splitHead_write h]
  refine ⟨_, value_parse_eq_ok_iff.2 ⟨_, fields, hread, rfl⟩, ?_⟩
  rw [hbody]
  exact Letter.isReadAs_of_summary h hsummary

/-- A letter to the root, with an empty host and an empty name, and a body that begins
as if its head ended there. -/
def oddLetter : Letter where
  method := .post
  version := .http20
  target := "/"
  host := some ""
  userAgent := none
  platform := some .macOS
  others := [("b", "x: y"), ("", "")]
  body := terminator
  target_solid := isSolid_of_all (by decide) (by decide)
  host_tidy := by
    intro value hvalue
    rcases Option.some.inj hvalue with rfl
    exact ⟨⟨by decide, by decide⟩, by decide, by decide⟩
  userAgent_tidy := by simp
  others_fit := by
    intro header hmem
    simp only [List.mem_cons, List.not_mem_nil, or_false] at hmem
    rcases hmem with rfl | rfl
    all_goals
      exact ⟨by decide, ⟨by decide, by decide, by decide⟩,
        ⟨by decide, by decide⟩, by decide, by decide⟩
  others_distinct := by decide

/-- Its headers in another order. -/
def shuffled : List (String × String) :=
  [("", ""), ("sec-ch-ua-platform", "\"macOS\""), ("b", "x: y"), ("Host", "")]

theorem oddLetter_is_read :
    ∃ request, (Request.parse (oddLetter.write shuffled)).value = .ok request ∧
      request.path = "/index.html" ∧ request.platform = .macOS ∧
      request.headers.entries.Perm [("b", "x: y"), ("", "")] ∧ request.body = terminator := by
  have hshuffled : shuffled.Perm oddLetter.headers := by decide
  rcases letter_is_read oddLetter hshuffled with ⟨request, hread, hsays⟩
  exact ⟨request, hread, hsays.path, hsays.platform, hsays.headers, hsays.body⟩

end SiteServer.Http
