import SiteServer.Proofs.Connection.Routing
import SiteServer.Proofs.Http.RequestRoundTrip

/-!
# Headers that come twice

A header that comes twice makes a request ambiguous, and a buffer with one should not
be a request.  That is so for the headers that go into the map: whatever else is in the
buffer, it is refused (`refused_of_ordinary`).

It is not so for the three headers with a field of their own.  The later one of them
overwrites the earlier one, and the buffer is read as if the earlier one had not been
sent (`Lacks.value_parse`).  All that can be wrong with the earlier one is a platform
that is no hint.
-/

namespace SiteServer

open Http

namespace Http

open Text.Utf8 (decodeLossy)

/-! ## Fields that are overwritten -/

/-- Two readings agree, the field of one name aside. -/
structure HeaderFields.Agree (name : String) (fields others : HeaderFields) : Prop where
  host : name ≠ hostName → fields.host = others.host
  userAgent : name ≠ userAgentName → fields.userAgent = others.userAgent
  platform : name ≠ platformName → fields.platform = others.platform
  map : fields.others = others.others

namespace HeaderFields.Agree

variable {name : String} {fields others : HeaderFields}

/-- Readings that agree in the field of the name too are the same. -/
theorem eq_of_field (h : fields.Agree name others)
    (host : name = hostName → fields.host = others.host)
    (userAgent : name = userAgentName → fields.userAgent = others.userAgent)
    (platform : name = platformName → fields.platform = others.platform) : fields = others := by
  have hhost : fields.host = others.host := (eq_or_ne name hostName).elim host h.host
  have hagent : fields.userAgent = others.userAgent :=
    (eq_or_ne name userAgentName).elim userAgent h.userAgent
  have hplatform : fields.platform = others.platform :=
    (eq_or_ne name platformName).elim platform h.platform
  have hmap := h.map
  cases fields
  cases others
  simp_all

/-- A header is taken into account by both readings or by none, and where it is one of
the name, they do not differ any more. -/
theorem record (h : fields.Agree name others) (found : String) (value : List Char) :
    (∃ e, fields.record found value = .error e ∧ others.record found value = .error e) ∨
      ∃ after after', fields.record found value = .ok after ∧
        others.record found value = .ok after' ∧ after.Agree name after' ∧
        (found = name → after = after') := by
  rcases name_cases found with rfl | rfl | rfl | ordinary
  · have hagree : ({ fields with host := String.ofList value } : HeaderFields).Agree name
        { others with host := String.ofList value } :=
      ⟨fun _ => rfl, h.userAgent, h.platform, h.map⟩
    refine .inr ⟨_, _, record_host .., record_host .., hagree, ?_⟩
    rintro rfl
    exact hagree.eq_of_field (fun _ => rfl) (fun heq => absurd heq (by decide))
      (fun heq => absurd heq (by decide))
  · have hagree : ({ fields with userAgent := String.ofList value } : HeaderFields).Agree name
        { others with userAgent := String.ofList value } :=
      ⟨h.host, fun _ => rfl, h.platform, h.map⟩
    refine .inr ⟨_, _, record_userAgent .., record_userAgent .., hagree, ?_⟩
    rintro rfl
    exact hagree.eq_of_field (fun heq => absurd heq (by decide)) (fun _ => rfl)
      (fun heq => absurd heq (by decide))
  · rw [record_platform, record_platform]
    cases hhint : Platform.words.find? (String.ofList (platformHint value)) with
    | none => exact .inl ⟨_, rfl, rfl⟩
    | some platform =>
        have hagree : ({ fields with platform } : HeaderFields).Agree name
            { others with platform } := ⟨h.host, h.userAgent, fun _ => rfl, h.map⟩
        refine .inr ⟨_, _, rfl, rfl, hagree, ?_⟩
        rintro rfl
        exact hagree.eq_of_field (fun heq => absurd heq (by decide))
          (fun heq => absurd heq (by decide)) (fun _ => rfl)
  · rw [record_ordinary _ _ ordinary, record_ordinary _ _ ordinary, h.map]
    cases others.others.add found (String.ofList value) with
    | error e => exact .inl ⟨_, rfl, rfl⟩
    | ok map =>
        have hagree : ({ fields with others := map } : HeaderFields).Agree name
            { others with others := map } := ⟨h.host, h.userAgent, h.platform, rfl⟩
        refine .inr ⟨_, _, rfl, rfl, hagree, ?_⟩
        rintro rfl
        exact hagree.eq_of_field (fun heq => absurd heq ordinary.1)
          (fun heq => absurd heq ordinary.2.1) (fun heq => absurd heq ordinary.2.2)

/-- Once a header of the name has come, nothing is left of the difference. -/
theorem recordLines (h : fields.Agree name others) {lines : List (List Char)}
    (carried : Carries lines name) : fields.recordLines lines = others.recordLines lines := by
  induction lines generalizing fields others with
  | nil =>
      obtain ⟨line, hmem, -⟩ := carried
      exact absurd hmem List.not_mem_nil
  | cons line lines ih =>
      rw [recordLines_cons, recordLines_cons]
      cases hline : headerOfLine? line with
      | none =>
          have hcarried : Carries lines name := by
            obtain ⟨found, hmem, value, header⟩ := carried
            rcases List.mem_cons.1 hmem with rfl | hmem
            · rw [headerOfLine?_eq_some_iff.2 header] at hline
              contradiction
            · exact ⟨found, hmem, value, header⟩
          simp only [HeaderFields.recordLine, hline, Except.bind]
          exact ih h hcarried
      | some parts =>
          obtain ⟨found, value⟩ := parts
          have header := headerOfLine?_eq_some_iff.1 hline
          rw [recordLine_of_isHeader header, recordLine_of_isHeader header]
          rcases h.record found value with
            ⟨e, hfields, hothers⟩ | ⟨_, _, hfields, hothers, hagree, hsame⟩
          · rw [hfields, hothers]
          · rw [hfields, hothers]
            by_cases hname : found = name
            · rw [hsame hname]
            · refine ih hagree ?_
              obtain ⟨earlier, hmem, value', header'⟩ := carried
              rcases List.mem_cons.1 hmem with rfl | hmem
              · exact absurd (header.unique header').1 hname
              · exact ⟨earlier, hmem, value', header'⟩

end HeaderFields.Agree

/-- A header with a field of its own changes that field and nothing else. -/
theorem exists_agree_record {name : String} (own : ¬ IsOrdinary name) (fields : HeaderFields)
    {value : List Char} (hint : name = platformName → ∃ p, IsHint value p) :
    ∃ after, fields.record name value = .ok after ∧ after.Agree name fields := by
  rcases name_cases name with rfl | rfl | rfl | ordinary
  · exact ⟨_, record_host .., fun hne => absurd rfl hne, fun _ => rfl, fun _ => rfl, rfl⟩
  · exact ⟨_, record_userAgent .., fun _ => rfl, fun hne => absurd rfl hne, fun _ => rfl, rfl⟩
  · obtain ⟨platform, hplatform⟩ := hint rfl
    have hrecord : fields.record platformName value = .ok { fields with platform } := by
      rw [record_platform, find?_platformHint_iff.2 hplatform]
    exact ⟨_, hrecord, fun _ => rfl, fun _ => rfl, fun hne => absurd rfl hne, rfl⟩
  · exact absurd ordinary own

/-! ## Header lines that are missing -/

/-- A header line is a part of the text of its head. -/
theorem subset_of_mem_headerLines {head : Bytes} {line : List Char} (h : line ∈ headerLines head) :
    line ⊆ decodeLossy head := by
  obtain ⟨raw, hraw, rfl⟩ := List.mem_map.1 ((List.takeWhile_prefix _).subset h)
  have hlines : (rawLines head).2.map decodeLossy = (linesOf (decodeLossy head)).2 := by
    rw [linesOf_decodeLossy]
  rw [hlines] at hraw
  obtain ⟨ended, hended⟩ := Text.exists_dropTrailing '\r' raw
  intro c hc
  refine Text.mem_of_mem_pieces (List.mem_cons_of_mem _ hraw) ?_
  rw [hended]
  exact List.mem_append_left _ hc

/-- A head with a header that has a field of its own holds text: the name of the header. -/
theorem hasText_of_carries {head : Bytes} {name : String} (own : ¬ IsOrdinary name)
    (carried : Carries (headerLines head) name) : HasText head := by
  obtain ⟨line, hmem, value, rest, -, rfl, -⟩ := carried
  have hname : ∃ c ∈ name.toList, Text.isBlank c = false := by
    rcases name_cases name with rfl | rfl | rfl | ordinary
    · exact ⟨'H', by decide, by decide⟩
    · exact ⟨'U', by decide, by decide⟩
    · exact ⟨'s', by decide, by decide⟩
    · exact absurd ordinary own
  obtain ⟨c, hc, hsolid⟩ := hname
  exact ⟨c, subset_of_mem_headerLines hmem (List.mem_append_left _ hc), hsolid⟩

/-- A buffer that lacks one header line of another one, and has all else of it: the request
line, the header lines before and behind that one, and the body. -/
structure Lacks (shorter buffer : Bytes) (before : List (List Char)) (line : List Char)
    (after : List (List Char)) : Prop where
  first : (rawLines (splitHead shorter).1).1 = (rawLines (splitHead buffer).1).1
  fewer : headerLines (splitHead shorter).1 = before ++ after
  lines : headerLines (splitHead buffer).1 = before ++ line :: after
  bodies : (splitHead shorter).2 = (splitHead buffer).2

namespace Lacks

variable {shorter buffer : Bytes} {before after : List (List Char)} {line value : List Char}
  {name : String}

/-- The lines with and without the one that is lacking are recorded alike. -/
theorem recordLines (own : ¬ IsOrdinary name) (header : IsHeader line name value)
    (hint : name = platformName → ∃ p, IsHint value p) (again : Carries after name) :
    ({} : HeaderFields).recordLines (before ++ line :: after) =
      ({} : HeaderFields).recordLines (before ++ after) := by
  rw [recordLines_append, recordLines_append]
  cases ({} : HeaderFields).recordLines before with
  | error e => rfl
  | ok seen =>
      obtain ⟨next, hrecord, hagree⟩ := exists_agree_record own seen hint
      show seen.recordLines (line :: after) = seen.recordLines after
      rw [recordLines_cons, recordLine_of_isHeader header, hrecord]
      exact hagree.recordLines again

/-- A header that comes again is overwritten: without it the buffer is read as the same
request, or has the same flaw. -/
theorem value_parse (h : Lacks shorter buffer before line after) (own : ¬ IsOrdinary name)
    (header : IsHeader line name value) (hint : name = platformName → ∃ p, IsHint value p)
    (again : Carries after name) :
    (Request.parse buffer).value = (Request.parse shorter).value := by
  obtain ⟨later, hlater, carries⟩ := again
  have htext : HasText (splitHead buffer).1 := by
    apply hasText_of_carries own
    exact ⟨line, by simp [h.lines], value, header⟩
  have htext' : HasText (splitHead shorter).1 := by
    apply hasText_of_carries own
    exact ⟨later, by simp [h.fewer, hlater], carries⟩
  rw [Http.value_parse, Http.value_parse, readHead_of_hasText htext, readHead_of_hasText htext',
    h.first, h.bodies, h.lines, h.fewer, recordLines own header hint ⟨later, hlater, carries⟩]

end Lacks

end Http

/-! ## Buffers with a header that comes twice -/

namespace Connection

open Files (FileSystem)
open Letter (headerText isHeader_headerText isPlainName_hostName isPlainName_userAgentName
  isPlainName_platformName)

/-- Two of the header lines of a buffer carry the same name. -/
def Repeats (buffer : Bytes) (name : String) : Prop :=
  ∃ first second v w, [first, second].Sublist (headerLines (splitHead buffer).1) ∧
    IsHeader first name v ∧ IsHeader second name w

/-- A buffer that is no request, and is answered with the page for bad requests. -/
structure Refused (buffer : Bytes) : Prop where
  error : ∃ e, (Request.parse buffer).value = .error e
  answer : ∀ (service : Service) (fs : FileSystem),
    (service.respond fs buffer).value = .badRequest

/-- Two buffers that are the same request or have the same flaw, and are answered alike. -/
structure SameReading (buffer other : Bytes) : Prop where
  request : (Request.parse buffer).value = (Request.parse other).value
  answer : ∀ (service : Service) (fs : FileSystem),
    (service.respond fs buffer).value = (service.respond fs other).value

theorem sameReading_of_value_parse {buffer other : Bytes}
    (h : (Request.parse buffer).value = (Request.parse other).value) :
    SameReading buffer other :=
  ⟨h, fun _ _ => Service.value_respond_congr h⟩

/-- A buffer whose header lines are not orderly is refused, whatever else is in it. -/
theorem refused_of_not_orderly {buffer : Bytes}
    (disorder : ¬ Orderly (headerLines (splitHead buffer).1)) : Refused buffer := by
  cases hparse : (Request.parse buffer).value with
  | error e => exact ⟨⟨e, hparse⟩, fun _ _ => Service.value_respond_of_error hparse⟩
  | ok request =>
      obtain ⟨line, fields, hread, -⟩ := value_parse_eq_ok_iff.1 hparse
      exact absurd (exists_readHead_iff.1 ⟨_, hread⟩).2 disorder

/-- A header of the map that comes twice has its buffer refused. -/
theorem refused_of_ordinary {buffer : Bytes} {name : String} (ordinary : IsOrdinary name)
    (repeated : Repeats buffer name) : Refused buffer := by
  obtain ⟨first, second, v, w, hsub, hfirst, hsecond⟩ := repeated
  apply refused_of_not_orderly
  intro orderly
  have hpair := orderly.distinct.sublist hsub
  exact (List.pairwise_cons.1 hpair).1 second (List.mem_singleton_self _) name ordinary
    ⟨v, hfirst⟩ ⟨w, hsecond⟩

theorem not_refused_of_ok {buffer : Bytes} {request : Request}
    (h : (Request.parse buffer).value = .ok request) : ¬ Refused buffer := by
  intro refused
  obtain ⟨e, herror⟩ := refused.error
  rw [h] at herror
  contradiction

/-- A request with two headers of a name. -/
def withTwo (name first second : String) : Bytes :=
  Text.bytes ("GET / HTTP/1.1\r\n" ++ headerText (name, first) ++ "\r\n" ++
    headerText (name, second) ++ "\r\n\r\n")

theorem repeats_withTwo {name first second : String} (plain : IsPlainName name)
    (tidy : IsTidyValue first) (tidy' : IsTidyValue second)
    (lines : headerLines (splitHead (withTwo name first second)).1 =
      [(headerText (name, first)).toList, (headerText (name, second)).toList]) :
    Repeats (withTwo name first second) name := by
  have header : ∀ value, IsTidyValue value →
      IsHeader (headerText (name, value)).toList name value.toList :=
    fun value tidy => @isHeader_headerText (name, value) plain tidy
  refine ⟨_, _, _, _, ?_, header first tidy, header second tidy'⟩
  rw [lines]

/-- A header with a field of its own may come twice. -/
theorem exists_not_refused {name : String} (own : ¬ IsOrdinary name) :
    ∃ buffer, Repeats buffer name ∧ ¬ Refused buffer := by
  have tidy : IsTidyValue "Linux" := ⟨⟨by decide, by decide⟩, by decide, by decide⟩
  refine ⟨withTwo name "Linux" "Linux", ?_⟩
  rcases name_cases name with rfl | rfl | rfl | ordinary
  · exact ⟨repeats_withTwo isPlainName_hostName tidy tidy (by decide), not_refused_of_ok rfl⟩
  · exact ⟨repeats_withTwo isPlainName_userAgentName tidy tidy (by decide), not_refused_of_ok rfl⟩
  · exact ⟨repeats_withTwo isPlainName_platformName tidy tidy (by decide), not_refused_of_ok rfl⟩
  · exact absurd ordinary own

/-- Of several headers of a name the last one counts.  An earlier one makes no difference,
unless it is a platform that is no hint, and the buffer is refused because of it. -/
def LastCounts (name : String) : Prop :=
  ∀ {shorter buffer : Bytes} {before after : List (List Char)} {line value : List Char},
    Lacks shorter buffer before line after → IsHeader line name value → Carries after name →
    SameReading buffer shorter ∨
      name = platformName ∧ (¬ ∃ p, IsHint value p) ∧ Refused buffer

theorem lastCounts_of_own {name : String} (own : ¬ IsOrdinary name) : LastCounts name := by
  intro shorter buffer before after line value lacks header again
  by_cases hint : name = platformName → ∃ p, IsHint value p
  · exact .inl (sameReading_of_value_parse (lacks.value_parse own header hint again))
  · obtain ⟨rfl, unknown⟩ := Classical.not_imp.1 hint
    refine .inr ⟨rfl, unknown, refused_of_not_orderly fun orderly => unknown ?_⟩
    exact orderly.hints line (by simp [lacks.lines]) value header

/-- Buffers with a header twice are refused exactly if the header is one for the map.  Of
the others the last one counts. -/
theorem repetition_refused_iff_ordinary (name : String) :
    ((∀ buffer, Repeats buffer name → Refused buffer) ↔ IsOrdinary name) ∧
      (¬ IsOrdinary name → LastCounts name) := by
  refine ⟨⟨fun refused => ?_, fun ordinary buffer => refused_of_ordinary ordinary⟩,
    lastCounts_of_own⟩
  by_contra own
  obtain ⟨buffer, repeated, accepted⟩ := exists_not_refused own
  exact accepted (refused buffer repeated)

theorem isTidyValue_hosts : IsTidyValue "a" ∧ IsTidyValue "b" :=
  ⟨⟨⟨by decide, by decide⟩, by decide, by decide⟩, ⟨by decide, by decide⟩, by decide, by decide⟩

/-- Of two hosts the second one counts. -/
theorem second_host_counts :
    SameReading (withTwo hostName "a" "b") (Text.bytes "GET / HTTP/1.1\r\nHost: b\r\n\r\n") := by
  obtain ⟨tidy, tidy'⟩ := isTidyValue_hosts
  have lacks : Lacks (Text.bytes "GET / HTTP/1.1\r\nHost: b\r\n\r\n") (withTwo hostName "a" "b")
      [] (headerText (hostName, "a")).toList [(headerText (hostName, "b")).toList] :=
    ⟨by decide, by decide, by decide, by decide⟩
  have again : Carries [(headerText (hostName, "b")).toList] hostName :=
    ⟨_, List.mem_singleton_self _, _, isHeader_headerText isPlainName_hostName tidy'⟩
  rcases (repetition_refused_iff_ordinary hostName).2 not_isOrdinary_hostName lacks
    (isHeader_headerText isPlainName_hostName tidy) again with same | ⟨hname, -⟩
  · exact same
  · exact absurd hname (by decide)

/-- Two hosts do not make a request a bad one: the second overwrites the first, and the
answer is that the page is missing. -/
theorem two_hosts_are_accepted :
    Repeats (withTwo hostName "a" "b") hostName ∧
      (∃ request, (Request.parse (withTwo hostName "a" "b")).value = .ok request ∧
        request.host = "b") ∧
      (Service.bare.respond .empty (withTwo hostName "a" "b")).value = .notFound ∧
      ¬ Refused (withTwo hostName "a" "b") := by
  obtain ⟨tidy, tidy'⟩ := isTidyValue_hosts
  have hparse : ∃ request, (Request.parse (withTwo hostName "a" "b")).value = .ok request ∧
      request.host = "b" := ⟨_, rfl, by decide⟩
  refine ⟨repeats_withTwo isPlainName_hostName tidy tidy' (by decide), hparse, rfl, ?_⟩
  obtain ⟨request, hread, -⟩ := hparse
  exact not_refused_of_ok hread

end Connection

end SiteServer
