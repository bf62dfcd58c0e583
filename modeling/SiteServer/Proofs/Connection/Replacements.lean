import SiteServer.Connection.Respond
import SiteServer.Proofs.Http.IdleCharacters
import SiteServer.Proofs.Http.Truncation
import SiteServer.Proofs.Text.AsciiRuns

/-!
# Heads that are not valid UTF-8

A head is decoded with replacements before it is looked at, so that nothing behind the
decoder can tell whether it was valid.  A buffer is read, and answered, as the one that
has the replacements written in its head (`respond_mended`).

A replacement is an idle character.  It is refused in a word that is looked up, as every
other idle character is there.  In a target, in the name or the value of any other header,
in a line without a colon and behind the first empty line, it is not noticed, and what is
accepted hands it on (`invalid_head_is_read_as_mended`).  Two names that differ in invalid
bytes only may be one name then, and are refused as such.
-/

namespace SiteServer

namespace Http

open Text.Utf8 (decodeLossy encode decode? replacement asciiText)

/-! ## Other characters in a head -/

/-- The buffer with the characters of its head exchanged. -/
def rewritten (σ : Char → Char) (buffer : Bytes) : Bytes :=
  encode ((headText buffer).map σ) ++ buffer.drop (splitHead buffer).1.length

/-- The buffer with the replacements written in its head. -/
def mended (buffer : Bytes) : Bytes := rewritten id buffer

/-- The ends of lines stay. -/
theorem RenamesIdle.map_ends {σ : Char → Char} (h : RenamesIdle σ) {text : List Char}
    (hends : text.all (fun c => c = '\r' || c = '\n') = true) : text.map σ = text := by
  refine h.map_eq_self fun c hc => ?_
  have hend := List.all_eq_true.1 hends c hc
  simp only [Bool.or_eq_true, decide_eq_true_eq] at hend
  rcases hend with rfl | rfl
  · decide
  · decide

/-- Exchanging idle characters in a text makes no terminator, and breaks none. -/
theorem RenamesIdle.terminator_infix_iff {σ : Char → Char} (h : RenamesIdle σ) {head : Bytes}
    {behind : Bytes} (hbehind : behind = [] ∨ behind = [13, 10, 13]) :
    terminator <:+: encode ((decodeLossy head).map σ) ++ behind ↔
      terminator <:+: head ++ behind := by
  have hne : terminator ≠ [] := List.cons_ne_nil _ _
  have hascii : Text.Utf8.IsAscii terminator := by decide
  have hfixed : (asciiText terminator).map σ = asciiText terminator := h.map_ends (by decide)
  have hdecode : ∀ bytes : Bytes,
      decodeLossy (bytes ++ behind) = decodeLossy bytes ++ asciiText behind := by
    intro bytes
    rcases hbehind with rfl | rfl
    · simp [asciiText]
    · have hrun : Text.Utf8.IsAscii [13, 10, 13] := by decide
      exact Text.Utf8.decodeLossy_around (List.cons_ne_nil _ _) hrun bytes []
  have hsame : (asciiText behind).map σ = asciiText behind := by
    rcases hbehind with rfl | rfl
    · rfl
    · exact h.map_ends (by decide)
  have hmap : decodeLossy (encode ((decodeLossy head).map σ) ++ behind) =
      (decodeLossy (head ++ behind)).map σ := by
    rw [hdecode, hdecode, Text.Utf8.decodeLossy_encode, List.map_append, hsame]
  rw [← Text.Utf8.asciiText_infix_decodeLossy_iff hne hascii,
    ← Text.Utf8.asciiText_infix_decodeLossy_iff hne hascii, hmap]
  constructor
  · intro hinfix
    have hback := hinfix.map σ
    rwa [hfixed, h.map_map] at hback
  · intro hinfix
    have hon := hinfix.map σ
    rwa [hfixed] at hon

/-- The head of the rewritten buffer is the rewritten head, and its body is the same. -/
theorem RenamesIdle.splitHead_rewritten {σ : Char → Char} (h : RenamesIdle σ) (buffer : Bytes) :
    splitHead (rewritten σ buffer) =
      (encode ((headText buffer).map σ), (splitHead buffer).2) := by
  cases hfound : findTerminator buffer with
  | none =>
      have hhead : splitHead buffer = (buffer, []) := by rw [splitHead, hfound]
      have hfree : ¬ terminator <:+: encode ((decodeLossy buffer).map σ) := by
        intro hinfix
        have hiff := @h.terminator_infix_iff σ buffer [] (.inl rfl)
        rw [List.append_nil, List.append_nil] at hiff
        obtain ⟨j, hj⟩ := exists_drop_of_infix (hiff.1 hinfix)
        exact findTerminator_eq_none_iff.1 hfound j hj
      have hnone : findTerminator (encode ((decodeLossy buffer).map σ)) = none :=
        findTerminator_eq_none_iff.2 fun j hj => hfree (infix_of_prefix_drop hj)
      rw [rewritten, headText, hhead, List.drop_length, List.append_nil, splitHead, hnone]
  | some i =>
      have hbehind : buffer.drop (splitHead buffer).1.length =
          terminator ++ (splitHead buffer).2 := by
        have hsplit := splitHead_append hfound
        rw [List.append_assoc] at hsplit
        calc buffer.drop (splitHead buffer).1.length
            = ((splitHead buffer).1 ++ (terminator ++ (splitHead buffer).2)).drop
                (splitHead buffer).1.length := by rw [hsplit]
          _ = terminator ++ (splitHead buffer).2 := List.drop_left
      have hholds : HoldsNone (splitHead buffer).1 := by
        rw [splitHead, hfound]
        exact holdsNone_of_findTerminator hfound
      have hrewritten : HoldsNone (encode ((headText buffer).map σ)) := fun hinfix =>
        hholds ((h.terminator_infix_iff (.inr rfl)).1 hinfix)
      rw [rewritten, hbehind, hrewritten.splitHead]

theorem RenamesIdle.headText_rewritten {σ : Char → Char} (h : RenamesIdle σ) (buffer : Bytes) :
    headText (rewritten σ buffer) = (headText buffer).map σ := by
  rw [headText, h.splitHead_rewritten, Text.Utf8.decodeLossy_encode]

/-! ## Reading -/

/-- A request is read from the text of its head, and its body. -/
theorem parse_congr {buffer other : Bytes} (text : headText buffer = headText other)
    (body : (splitHead buffer).2 = (splitHead other).2) :
    Request.parse buffer = Request.parse other := by
  unfold Request.parse
  rw [text, body]

theorem parse_mended (buffer : Bytes) : Request.parse (mended buffer) = Request.parse buffer := by
  refine parse_congr ?_ ?_
  · rw [mended, renamesIdle_id.headText_rewritten, List.map_id]
  · rw [mended, renamesIdle_id.splitHead_rewritten]

/-- A buffer is refused. -/
def Refused (buffer : Bytes) : Prop := ∃ e, (Request.parse buffer).value = .error e

theorem not_refused_iff {buffer : Bytes} :
    ¬ Refused buffer ↔
      Opens (splitHead buffer).1 ∧ Orderly (headerLines (splitHead buffer).1) := by
  rw [← exists_readHead_iff, Refused]
  simp only [value_parse_eq_error_iff]
  cases readHead (splitHead buffer).1 <;> simp

/-- Exchanging idle characters makes no difference to whether a buffer is refused. -/
theorem RenamesIdle.refused_iff {σ : Char → Char} (h : RenamesIdle σ) (buffer : Bytes) :
    Refused (rewritten σ buffer) ↔ Refused buffer := by
  have htext : decodeLossy (splitHead (rewritten σ buffer)).1 =
      (decodeLossy (splitHead buffer).1).map σ := h.headText_rewritten buffer
  rw [← not_iff_not, not_refused_iff, not_refused_iff]
  exact h.accepted_iff htext

/-- A buffer with an idle character in a word that is looked up is refused. -/
theorem refused_of_checked {buffer : Bytes} {word : List Char}
    (checked : Checked (splitHead buffer).1 word) {c : Char} (hmem : c ∈ word)
    (idle : IsIdle c) : Refused buffer := by
  by_contra accepted
  obtain ⟨opens, orderly⟩ := not_refused_iff.1 accepted
  exact not_isIdle_of_checked opens orderly checked c hmem idle

/-! ## What is handed on -/

/-- What a request has of the text of its head, as it was decoded. -/
structure HandsOn (head : Bytes) (request : Request) : Prop where
  /-- A target with a replacement is the path. -/
  path : ∀ word, (requestWords head)[1]? = some word → replacement ∈ word →
    request.path = String.ofList word
  /-- Each header of the map has the name and the value in its line. -/
  headers : ∀ line ∈ headerLines head, ∀ name value, IsOrdinary name →
    IsHeader line name value → (name, String.ofList value) ∈ request.headers.entries

/-- A header that is recorded is in the map. -/
theorem mem_entries_of_recordLines {lines : List (List Char)} {fields after : HeaderFields}
    (h : fields.recordLines lines = .ok after) {line : List Char} (hline : line ∈ lines)
    {name : String} {value : List Char} (ordinary : IsOrdinary name)
    (header : IsHeader line name value) : (name, String.ofList value) ∈ after.others.entries := by
  obtain ⟨before, rest, rfl⟩ := List.append_of_mem hline
  rw [recordLines_append] at h
  obtain ⟨seen, -, h⟩ := bind_eq_ok_iff.1 h
  rw [recordLines_cons] at h
  obtain ⟨next, hrecord, hrest⟩ := bind_eq_ok_iff.1 h
  rw [recordLine_of_isHeader header, record_ordinary _ _ ordinary] at hrecord
  cases hadd : seen.others.add name (String.ofList value) with
  | error e =>
      rw [hadd] at hrecord
      contradiction
  | ok others =>
      rw [hadd] at hrecord
      obtain ⟨-, rfl⟩ := Headers.add_eq_ok_iff.1 hadd
      obtain rfl := Except.ok.inj hrecord
      apply entries_subset_of_recordLines hrest
      rw [← Dictionary.find?_eq_some_iff, Dictionary.find?_insert, if_pos rfl]

theorem handsOn_of_parse {buffer : Bytes} {request : Request}
    (h : (Request.parse buffer).value = .ok request) :
    HandsOn (splitHead buffer).1 request := by
  obtain ⟨line, fields, hread, rfl⟩ := value_parse_eq_ok_iff.1 h
  obtain ⟨hline, hfields⟩ := readHead_eq_ok hread
  refine ⟨fun word hword hmem => ?_, fun found hfound name value ordinary header => ?_⟩
  · obtain ⟨-, htarget, -⟩ := RequestLine.parse_eq_ok_iff.1 hline
    obtain rfl : word = line.target.toList := Option.some.inj (hword.symm.trans htarget)
    have hroot : line.target ≠ "/" := by
      intro hroot
      rw [hroot] at hmem
      exact absurd hmem (by decide)
    rw [String.ofList_toList]
    simp [Request.ofParts, pathOfTarget, hroot]
  · exact mem_entries_of_recordLines hfields hfound ordinary header

end Http

namespace Connection

open Http
open Text.Utf8 (decodeLossy encode decode? replacement)

/-! ## Answering -/

theorem respond_mended (service : Service) (fs : Files.FileSystem) (buffer : Bytes) :
    service.respond fs (mended buffer) = service.respond fs buffer := by
  rw [Service.respond, parse_mended, Service.respond]

/-- How a buffer is read and answered, whatever its head. -/
structure ReadAsMended (buffer head : Bytes) : Prop where
  /-- The head of the mended buffer is the bytes of the text, and valid. -/
  written : splitHead (mended buffer) = (encode (decodeLossy head), (splitHead buffer).2)
  valid : decode? (encode (decodeLossy head)) = some (decodeLossy head)
  /-- Reading does not tell the two buffers apart. -/
  read : Request.parse (mended buffer) = Request.parse buffer
  /-- Neither do the answer, what is logged of it, and the files that it looks for. -/
  answered : ∀ (service : Service) (fs : Files.FileSystem),
    service.respond fs (mended buffer) = service.respond fs buffer
  /-- In a word that is looked up, a replacement is refused. -/
  checked : ∀ word, Checked head word → replacement ∈ word → Refused buffer
  /-- Otherwise it is refused only where any other idle character would be. -/
  idle : ∀ c, IsIdle c →
    splitHead (rewritten (exchange replacement c) buffer) =
      (encode ((decodeLossy head).map (exchange replacement c)), (splitHead buffer).2) ∧
    (Refused (rewritten (exchange replacement c) buffer) ↔ Refused buffer)
  /-- What is accepted has the replacements. -/
  accepted : ∀ request, (Request.parse buffer).value = .ok request → HandsOn head request

/-- A head that is not valid is read as the valid one with replacements in it: it is
refused where that one is, and otherwise the request has the replacements. -/
theorem invalid_head_is_read_as_mended {buffer head : Bytes} (h : IsHead buffer head)
    (invalid : decode? head = none) :
    replacement ∈ decodeLossy head ∧ ReadAsMended buffer head := by
  obtain rfl := isHead_iff.1 h
  have hmended : (headText buffer).map id = decodeLossy (splitHead buffer).1 := List.map_id _
  refine ⟨Text.Utf8.replacement_mem_decodeLossy invalid, ?_⟩
  constructor
  case written => rw [mended, renamesIdle_id.splitHead_rewritten, hmended]
  case valid => exact Text.Utf8.decode?_encode _
  case read => exact parse_mended buffer
  case answered => exact fun service fs => respond_mended service fs buffer
  case checked =>
    intro word checked hmem
    exact refused_of_checked checked hmem isIdle_replacement
  case idle =>
    intro c hc
    have hexchange := renamesIdle_exchange isIdle_replacement hc
    exact ⟨hexchange.splitHead_rewritten buffer, hexchange.refused_iff buffer⟩
  case accepted => exact fun request hrequest => handsOn_of_parse hrequest

/-- A request for a target that is not valid UTF-8. -/
def invalidTarget : Bytes :=
  Text.bytes "GET /" ++ [0xFF] ++ Text.bytes " HTTP/1.1\r\n\r\n"

/-- The head of that request. -/
def invalidTargetHead : Bytes := Text.bytes "GET /" ++ [0xFF] ++ Text.bytes " HTTP/1.1"

/-- It is accepted, and its path has the replacement. -/
theorem invalid_target_is_accepted :
    IsHead invalidTarget invalidTargetHead ∧ decode? invalidTargetHead = none ∧
      ∃ request, (Request.parse invalidTarget).value = .ok request ∧
        request.path = "/\uFFFD" :=
  ⟨isHead_iff.2 (by decide), by decide, _, rfl, by decide⟩

/-- Its replacement is read as if it had been sent. -/
theorem invalid_target_is_mended :
    decode? invalidTargetHead = none ∧ replacement ∈ decodeLossy invalidTargetHead ∧
      ReadAsMended invalidTarget invalidTargetHead := by
  have hhead : IsHead invalidTarget invalidTargetHead := isHead_iff.2 (by decide)
  have hinvalid : decode? invalidTargetHead = none := by decide
  exact ⟨hinvalid, invalid_head_is_read_as_mended hhead hinvalid⟩

end Connection

end SiteServer
