import SiteServer.Proofs.Http.HeaderLines
import SiteServer.Proofs.Http.RequestParts
import SiteServer.Proofs.Http.Terminator
import SiteServer.Proofs.Text.LossyCut

/-!
# Which buffers are requests

The grammar of a request is stated on the bytes of its head.  They are cut at
line feeds, and every line is decoded for itself: the first into words, and each
one behind it, without a CR at its end, into a header.  A head `Opens` as that
of a request does if it holds text, and three words that begin with a method and
end with a version; it is well formed if its header lines are also orderly.

`Flawed` lists what can be wrong with a head.  Each of its cases asks for all
that stands before it, so a head has at most one flaw, and that is the error
that reading it gives (`readHead_eq_error_iff`).
-/

namespace SiteServer.Http

open Text.Utf8 (decodeLossy)

/-! ## The grammar -/

/-- The lines of a head, as bytes: the first, and those behind it. -/
def rawLines (head : Bytes) : Bytes × List Bytes :=
  Text.breakAt (· = 10) head

/-- The words of a request line. -/
def requestWords (head : Bytes) : List (List Char) :=
  Text.words (decodeLossy (rawLines head).1)

/-- The header lines, up to the first that is empty. -/
def headerLines (head : Bytes) : List (List Char) :=
  headerLinesOf ((rawLines head).2.map decodeLossy)

/-- The head is not all white space. -/
def HasText (head : Bytes) : Prop := ∃ c ∈ decodeLossy head, Text.isBlank c = false

/-- The request line has the three words that it needs. -/
def HasWords (head : Bytes) : Prop := 3 ≤ (requestWords head).length

/-- The first word is a method. -/
def HasMethod (head : Bytes) : Prop :=
  ∃ m : Method, (requestWords head)[0]? = some m.token.toList

/-- The third word is a version. -/
def HasVersion (head : Bytes) : Prop :=
  ∃ v : Version, (requestWords head)[2]? = some v.token.toList

/-- A head that begins as that of a request does. -/
structure Opens (head : Bytes) : Prop where
  text : HasText head
  words : HasWords head
  method : HasMethod head
  version : HasVersion head

/-- What is wrong with a head, where nothing before it is. -/
inductive Flawed (head : Bytes) : RequestError → Prop where
  | empty (blank : ¬ HasText head) : Flawed head .empty
  | incompleteLine (text : HasText head) (short : ¬ HasWords head) :
      Flawed head .incompleteLine
  | unknownMethod {word : String} (text : HasText head) (words : HasWords head)
      (first : (requestWords head)[0]? = some word.toList) (unknown : ¬ HasMethod head) :
      Flawed head (.unknownMethod word)
  | unknownVersion {word : String} (text : HasText head) (words : HasWords head)
      (method : HasMethod head) (third : (requestWords head)[2]? = some word.toList)
      (unknown : ¬ HasVersion head) :
      Flawed head (.unknownVersion word)
  | header (opens : Opens head) {before : List (List Char)} {line : List Char}
      {after : List (List Char)} (lines : headerLines head = before ++ line :: after)
      (orderly : Orderly before) {e : RequestError} (offends : Offends before line e) :
      Flawed head e

/-! ## Reading follows it -/

/-- The lines of the decoded head are the raw lines, decoded. -/
theorem linesOf_decodeLossy (head : Bytes) :
    linesOf (decodeLossy head) =
      (decodeLossy (rawLines head).1, (rawLines head).2.map decodeLossy) :=
  @Text.Utf8.breakAt_decodeLossy 10 (by decide) (by decide) head

theorem not_all_blank_iff {head : Bytes} :
    (decodeLossy head).all Text.isBlank = false ↔ HasText head := by
  rw [List.all_eq_false]
  simp [HasText]

/-- A head with a word in its first line is not blank. -/
theorem hasText_of_mem_requestWords {head : Bytes} {word : List Char}
    (h : word ∈ requestWords head) : HasText head := by
  rcases Text.not_blank_of_mem_words h with ⟨hne, hsolid⟩
  rcases List.exists_mem_of_ne_nil word hne with ⟨c, hc⟩
  have hfirst : decodeLossy (rawLines head).1 ∈
      Text.pieces (· = '\n') (decodeLossy head) := by
    have hlines : (linesOf (decodeLossy head)).1 = decodeLossy (rawLines head).1 := by
      rw [linesOf_decodeLossy]
    rw [← hlines]
    exact List.mem_cons_self ..
  exact ⟨c, Text.mem_of_mem_pieces hfirst (Text.mem_of_mem_words h hc), hsolid c hc⟩

/-- A word means nothing exactly if no value of the vocabulary has its word at that place. -/
theorem find?_eq_none_iff_of_getElem? {α : Type} (v : Vocabulary α String)
    {words : List (List Char)} {i : Nat} {word : String} (h : words[i]? = some word.toList) :
    v.find? word = none ↔ ¬ ∃ a, words[i]? = some (v.word a).toList := by
  rw [v.find?_eq_none_iff, not_exists]
  refine forall_congr' fun a => not_congr ?_
  rw [h, Option.some.injEq, String.toList_inj]
  exact eq_comm

/-- The three words that a request line begins with. -/
structure FirstWords (head : Bytes) (first second third : String) : Prop where
  first : (requestWords head)[0]? = some first.toList
  second : (requestWords head)[1]? = some second.toList
  third : (requestWords head)[2]? = some third.toList

theorem exists_firstWords {head : Bytes} (h : HasWords head) :
    ∃ first second third, FirstWords head first second third := by
  have hlength : 3 ≤ (requestWords head).length := h
  have hword : ∀ i, i < 3 → ∃ word : String, (requestWords head)[i]? = some word.toList := by
    intro i hi
    have hlt : i < (requestWords head).length := by omega
    refine ⟨String.ofList (requestWords head)[i], ?_⟩
    rw [String.toList_ofList, List.getElem?_eq_getElem hlt]
  rcases hword 0 (by omega) with ⟨first, hfirst⟩
  rcases hword 1 (by omega) with ⟨second, hsecond⟩
  rcases hword 2 (by omega) with ⟨third, hthird⟩
  exact ⟨first, second, third, hfirst, hsecond, hthird⟩

/-- A request line that is too short. -/
theorem parse_of_not_hasWords {head : Bytes} (h : ¬ HasWords head) :
    RequestLine.parse (decodeLossy (rawLines head).1) = .error .incompleteLine := by
  have hshort : ¬ 3 ≤ (Text.words (decodeLossy (rawLines head).1)).length := h
  rw [RequestLine.parse]
  match hwords : Text.words (decodeLossy (rawLines head).1) with
  | _ :: _ :: _ :: _ => simp [hwords] at hshort
  | [] => rfl
  | [_] => rfl
  | [_, _] => rfl

/-- A request line of three words or more. -/
theorem FirstWords.parse {head : Bytes} {first second third : String}
    (h : FirstWords head first second third) :
    RequestLine.parse (decodeLossy (rawLines head).1) =
      match Method.words.find? first with
      | none => .error (.unknownMethod first)
      | some m =>
        match Version.words.find? third with
        | none => .error (.unknownVersion third)
        | some v => .ok ⟨m, second, v⟩ := by
  rcases h with ⟨hfirst, hsecond, hthird⟩
  unfold requestWords at hfirst hsecond hthird
  unfold RequestLine.parse
  generalize Text.words (decodeLossy (rawLines head).1) = words at hfirst hsecond hthird ⊢
  match words with
  | [] | [_] | [_, _] => simp at hthird
  | a :: b :: c :: more =>
      have ha : String.ofList a = first := by rw [Option.some.inj hfirst, String.ofList_toList]
      have hb : String.ofList b = second := by rw [Option.some.inj hsecond, String.ofList_toList]
      have hc : String.ofList c = third := by rw [Option.some.inj hthird, String.ofList_toList]
      subst ha hb hc
      rfl

/-- A head with text is read line by line. -/
theorem readHead_of_hasText {head : Bytes} (h : HasText head) :
    readHead head =
      (RequestLine.parse (decodeLossy (rawLines head).1)).bind fun line =>
        (({} : HeaderFields).recordLines (headerLines head)).map fun fields => (line, fields) := by
  have hblank := not_all_blank_iff.2 h
  simp only [readHead, hblank, linesOf_decodeLossy, parse_eq_recordLines, headerLines,
    Bool.false_eq_true, if_false]

theorem readHead_of_not_hasText {head : Bytes} (h : ¬ HasText head) :
    readHead head = .error .empty := by
  have hblank : (decodeLossy head).all Text.isBlank = true := by
    rw [← not_all_blank_iff] at h
    simpa using h
  simp [readHead, hblank]

/-- A head that opens as that of a request is read up to its header lines. -/
theorem Opens.readHead {head : Bytes} (h : Opens head) :
    ∃ line, Http.readHead head =
      (({} : HeaderFields).recordLines (headerLines head)).map fun fields => (line, fields) := by
  rcases exists_firstWords h.words with ⟨first, second, third, hwords⟩
  cases hm : Method.words.find? first with
  | none => exact absurd h.method ((find?_eq_none_iff_of_getElem? Method.words hwords.first).1 hm)
  | some m =>
      cases hv : Version.words.find? third with
      | none =>
          exact absurd h.version ((find?_eq_none_iff_of_getElem? Version.words hwords.third).1 hv)
      | some v =>
          refine ⟨⟨m, second, v⟩, ?_⟩
          rw [readHead_of_hasText h.text, hwords.parse, hm, hv]
          rfl

/-- Each flaw is what reading reports. -/
theorem Flawed.readHead {head : Bytes} {e : RequestError} (h : Flawed head e) :
    Http.readHead head = .error e := by
  cases h with
  | empty blank => exact readHead_of_not_hasText blank
  | incompleteLine text short =>
      rw [readHead_of_hasText text, parse_of_not_hasWords short]
      rfl
  | @unknownMethod word text words first unknown =>
      rcases exists_firstWords words with ⟨found, second, third, hwords⟩
      have hfound : found = word :=
        String.toList_inj.1 (Option.some.inj (hwords.first.symm.trans first))
      have hnone := (find?_eq_none_iff_of_getElem? Method.words first).2 unknown
      rw [readHead_of_hasText text, hwords.parse, hfound, hnone]
      rfl
  | @unknownVersion word text words method third unknown =>
      rcases exists_firstWords words with ⟨first, second, found, hwords⟩
      have hfound : found = word :=
        String.toList_inj.1 (Option.some.inj (hwords.third.symm.trans third))
      have hnone := (find?_eq_none_iff_of_getElem? Version.words third).2 unknown
      cases hm : Method.words.find? first with
      | none => exact absurd method ((find?_eq_none_iff_of_getElem? Method.words hwords.first).1 hm)
      | some m =>
          rw [readHead_of_hasText text, hwords.parse, hm, hfound, hnone]
          rfl
  | header opens lines orderly offends =>
      rcases opens.readHead with ⟨line, hread⟩
      rw [hread, recordLines_eq_error_iff.2 ⟨_, _, _, lines, orderly, offends⟩]
      rfl

/-- A head without a flaw opens as that of a request, and its lines are orderly. -/
theorem opens_of_not_flawed {head : Bytes} (sound : ∀ e, ¬ Flawed head e) :
    Opens head ∧ Orderly (headerLines head) := by
  have text : HasText head := by
    by_contra blank
    exact sound _ (.empty blank)
  have words : HasWords head := by
    by_contra short
    exact sound _ (.incompleteLine text short)
  rcases exists_firstWords words with ⟨first, second, third, hwords⟩
  have method : HasMethod head := by
    by_contra unknown
    exact sound _ (.unknownMethod text words hwords.first unknown)
  have version : HasVersion head := by
    by_contra unknown
    exact sound _ (.unknownVersion text words method hwords.third unknown)
  have opens : Opens head := ⟨text, words, method, version⟩
  refine ⟨opens, exists_recordLines_iff.1 ?_⟩
  cases hlines : ({} : HeaderFields).recordLines (headerLines head) with
  | ok fields => exact ⟨fields, rfl⟩
  | error e =>
      rcases recordLines_eq_error_iff.1 hlines with ⟨before, line, after, hsplit, orderly, offends⟩
      exact absurd (.header opens hsplit orderly offends) (sound e)

/-- A head that opens as that of a request is read if its header lines are orderly. -/
theorem exists_readHead_of_opens {head : Bytes} (opens : Opens head)
    (orderly : Orderly (headerLines head)) : ∃ parts, readHead head = .ok parts := by
  rcases opens.readHead with ⟨line, hread⟩
  rcases exists_recordLines_iff.2 orderly with ⟨fields, hfields⟩
  rw [hread, hfields]
  exact ⟨(line, fields), rfl⟩

theorem readHead_eq_error_iff {head : Bytes} {e : RequestError} :
    readHead head = .error e ↔ Flawed head e := by
  constructor
  · intro h
    by_contra hno
    have sound : ∀ d, ¬ Flawed head d := by
      intro d flawed
      have herror := flawed.readHead
      rw [h] at herror
      exact hno (Except.error.inj herror ▸ flawed)
    rcases opens_of_not_flawed sound with ⟨opens, orderly⟩
    rcases exists_readHead_of_opens opens orderly with ⟨parts, hread⟩
    rw [h] at hread
    cases hread
  · exact Flawed.readHead

/-- A head is read exactly if it opens as that of a request and its header lines
are orderly. -/
theorem exists_readHead_iff {head : Bytes} :
    (∃ parts, readHead head = .ok parts) ↔ Opens head ∧ Orderly (headerLines head) := by
  constructor
  · intro h
    rcases h with ⟨parts, h⟩
    apply opens_of_not_flawed
    intro e flawed
    rw [flawed.readHead] at h
    cases h
  · intro h
    exact exists_readHead_of_opens h.1 h.2

/-- Reading a buffer follows the grammar of its head: it succeeds exactly on heads
that open as that of a request and whose header lines are orderly, and on all
others it reports the one flaw that comes first. -/
theorem parse_follows_grammar (buffer : Bytes) :
    ∃ head, IsHead buffer head ∧
      ((∃ request, (Request.parse buffer).value = .ok request) ↔
        Opens head ∧ Orderly (headerLines head)) ∧
      ∀ e, (Request.parse buffer).value = .error e ↔ Flawed head e := by
  refine ⟨(splitHead buffer).1, isHead_splitHead buffer, ?_, fun e => ?_⟩
  · rw [← exists_readHead_iff]
    constructor
    · intro h
      rcases h with ⟨request, h⟩
      rcases value_parse_eq_ok_iff.1 h with ⟨line, fields, hread, -⟩
      exact ⟨(line, fields), hread⟩
    · intro h
      rcases h with ⟨⟨line, fields⟩, hread⟩
      exact ⟨_, value_parse_eq_ok_iff.2 ⟨line, fields, hread, rfl⟩⟩
  · rw [value_parse_eq_error_iff, readHead_eq_error_iff]

end SiteServer.Http
