import SiteServer.Http.Response
import SiteServer.Proofs.Http.RequestStrings
import SiteServer.Proofs.Http.Terminator
import SiteServer.Proofs.Text.Encoded

/-!
# Where the head of a response ends

Whoever receives a response reads it up to the first empty line, and takes what
stands behind it for the body.  That this is what the server meant depends on all
that is written into the head, and some of it may come from a request.

The head is a list of lines, each with its end, and none of them is empty
(`bytes_head`).  If no line holds a line feed, then the first terminator is the
one that ends the head (`OneLine.framed`); bare CRs do no harm.  Strings of a
request are of that kind, so whatever is reflected from it stays in its line.
-/

namespace SiteServer.Http

/-! ## Bytes of lines -/

theorem lineFeed_not_mem_bytes {s : String} (h : IsOneLine s.toList) : 10 ∉ Text.bytes s :=
  Text.not_mem_bytes (by decide) rfl h

@[simp] theorem bytes_append (s t : String) :
    Text.bytes (s ++ t) = Text.bytes s ++ Text.bytes t := by
  simp only [Text.Utf8.bytes_eq_encode, String.toList_append, Text.Utf8.encode_append]

theorem isOneLine_numeral (n : Nat) : IsOneLine (Text.numeral n).toList := by
  rw [Text.numeral, String.toList_ofList]
  intro hmem
  have hdigit := Nat.isDigit_of_mem_toDigits (by decide) (by decide) hmem
  exact absurd hdigit (by decide)

namespace Response

/-! ## The lines of a head -/

/-- The lines of a head, without their ends. -/
def headLines (r : Response) : List String :=
  ("HTTP/1.1 " ++ r.status.line) :: r.fields.map fun (name, value) => name ++ ": " ++ value

theorem bytes_join_headerLine (fields : List (String × String)) :
    Text.bytes (String.join (fields.map fun (name, value) => headerLine name value)) =
      (fields.map fun (name, value) => Text.bytes (name ++ ": " ++ value)).flatMap withEnd := by
  induction fields with
  | nil => rfl
  | cons field fields ih =>
      rcases field with ⟨name, value⟩
      rw [List.map_cons, String.join_cons, bytes_append, ih, List.map_cons, List.flatMap_cons]
      show Text.bytes (name ++ ": " ++ value ++ "\r\n") ++ _ = _
      rw [bytes_append]
      rfl

/-- The head is its lines and an empty one. -/
theorem bytes_head (r : Response) :
    Text.bytes r.head = (r.headLines.map Text.bytes).flatMap withEnd ++ [13, 10] := by
  rw [head, headLines, bytes_append, bytes_append, bytes_append, bytes_join_headerLine,
    List.map_cons, List.flatMap_cons, List.map_map]
  rfl

theorem bytes_headLine_ne_nil {r : Response} {line : String} (h : line ∈ r.headLines) :
    Text.bytes line ≠ [] := by
  rw [headLines, List.mem_cons, List.mem_map] at h
  rcases h with rfl | ⟨⟨name, value⟩, -, rfl⟩
  · rw [bytes_append]
    exact List.append_ne_nil_of_left_ne_nil (by decide) _
  · rw [bytes_append, bytes_append]
    exact List.append_ne_nil_of_left_ne_nil
      (List.append_ne_nil_of_right_ne_nil _ (by decide)) _

/-- A response whose headers hold no line feeds. -/
def OneLine (r : Response) : Prop :=
  ∀ header ∈ r.headers.entries, IsOneLine header.1.toList ∧ IsOneLine header.2.toList

theorem lineFeed_not_mem_statusLine (status : Status) : 10 ∉ Text.bytes status.line := by
  have hcode : 10 ∉ Text.bytes (Text.numeral status.code) :=
    lineFeed_not_mem_bytes (isOneLine_numeral status.code)
  have hblank : 10 ∉ Text.bytes " " := by decide
  have hreason : 10 ∉ Text.bytes status.reason := by cases status <;> decide
  simp [Status.line, hcode, hblank, hreason]

theorem lineFeed_not_mem_mediaType (type : MediaType) : 10 ∉ Text.bytes type.name := by
  cases type <;> decide

/-- What the server itself writes holds no line feeds either. -/
theorem OneLine.fields {r : Response} (h : r.OneLine) {name value : String}
    (hmem : (name, value) ∈ r.fields) : 10 ∉ Text.bytes name ∧ 10 ∉ Text.bytes value := by
  have htype : 10 ∉ Text.bytes typeName := by decide
  have hlength : 10 ∉ Text.bytes lengthName := by decide
  simp only [Response.fields, List.mem_cons, Prod.mk.injEq] at hmem
  rcases hmem with ⟨rfl, rfl⟩ | ⟨rfl, rfl⟩ | hmem
  · exact ⟨htype, lineFeed_not_mem_mediaType r.type⟩
  · exact ⟨hlength, lineFeed_not_mem_bytes (isOneLine_numeral r.body.length)⟩
  · rcases h (name, value) hmem with ⟨hname, hvalue⟩
    exact ⟨lineFeed_not_mem_bytes hname, lineFeed_not_mem_bytes hvalue⟩

theorem OneLine.headLines {r : Response} (h : r.OneLine) {line : String}
    (hline : line ∈ r.headLines) : 10 ∉ Text.bytes line := by
  have hversion : 10 ∉ Text.bytes "HTTP/1.1 " := by decide
  have hcolon : 10 ∉ Text.bytes ": " := by decide
  rw [Response.headLines, List.mem_cons, List.mem_map] at hline
  rcases hline with rfl | ⟨⟨name, value⟩, hmem, rfl⟩
  · simp [hversion, lineFeed_not_mem_statusLine]
  · rcases h.fields hmem with ⟨hname, hvalue⟩
    simp [hname, hcolon, hvalue]

/-- The lines of a head are of the kind that a terminator can end. -/
theorem OneLine.bytes_headLines {r : Response} (h : r.OneLine) {line : Bytes}
    (hline : line ∈ r.headLines.map Text.bytes) : line ≠ [] ∧ 10 ∉ line := by
  rcases List.mem_map.1 hline with ⟨text, htext, rfl⟩
  exact ⟨bytes_headLine_ne_nil htext, h.headLines htext⟩

/-! ## What the receiver finds -/

/-- What a receiver finds that reads up to the first terminator: the head that was
written, the body, and the length of the body in the third line. -/
structure Framed (r : Response) (body : Bytes) : Prop where
  head : ∃ i, IsFirstTerminator r.toBytes i ∧ r.toBytes.take (i + 4) = Text.bytes r.head
  body : (splitHead r.toBytes).2 = body
  length : (Text.pieces (· = 10) r.toBytes)[2]? = some
    (Text.bytes ("Content-Length: " ++ Text.numeral (splitHead r.toBytes).2.length ++ "\r"))

theorem OneLine.framed {r : Response} (h : r.OneLine) : r.Framed r.body := by
  let lines := r.headLines.map Text.bytes
  have hlines : ∀ line ∈ lines, line ≠ [] ∧ 10 ∉ line := fun line hmem => h.bytes_headLines hmem
  have hbytes : r.toBytes = lines.flatMap withEnd ++ [13, 10] ++ r.body := by
    rw [toBytes, bytes_head]
  have hne : lines ≠ [] := List.cons_ne_nil _ _
  rcases isFirstTerminator_flatMap hne hlines r.body with ⟨i, hfirst, hi⟩
  rw [← hbytes] at hfirst
  rw [← bytes_head] at hi
  have hbody : (splitHead r.toBytes).2 = r.body := by
    rw [hbytes, splitHead_lines hne hlines]
  refine ⟨⟨i, hfirst, ?head⟩, hbody, ?length⟩
  case head => rw [toBytes, hi, List.take_left]
  case length =>
    have hcut : Text.pieces (· = 10) r.toBytes =
        lines.map (· ++ [13]) ++ Text.pieces (· = 10) ([13, 10] ++ r.body) := by
      rw [hbytes, List.append_assoc]
      exact pieces_flatMap_withEnd (fun line hmem => (hlines line hmem).2) _
    rw [hcut, hbody, bytes_append]
    rfl

/-! ## Headers that are added -/

/-- The responses that come of one by calls that change its headers, where every
name and every value is one of those that are permitted. -/
inductive Edited (permitted : String → Prop) (first : Response) : Response → Prop where
  | unchanged : Edited permitted first first
  | withHeader {r after : Response} {name value : String} (earlier : Edited permitted first r)
      (hname : permitted name) (hvalue : permitted value)
      (added : r.withHeader name value = .ok after) : Edited permitted first after
  | setHeaders {r : Response} {headers : Headers} (earlier : Edited permitted first r)
      (hheaders : ∀ header ∈ headers.entries, permitted header.1 ∧ permitted header.2) :
      Edited permitted first (r.setHeaders headers)

theorem withHeader_eq_ok_iff {r after : Response} {name value : String} :
    r.withHeader name value = .ok after ↔
      r.headers.contains name = false ∧
        { r with headers := r.headers.insert name value } = after := by
  rw [withHeader]
  cases hadd : r.headers.add name value with
  | ok headers =>
      rcases Headers.add_eq_ok_iff.1 hadd with ⟨hfresh, rfl⟩
      simp [hfresh]
  | error e => simp [(Headers.add_eq_error_iff.1 hadd).1]

/-- Calls with strings that hold no line feed change headers only, and leave them
without line feeds. -/
theorem Edited.oneLine {permitted : String → Prop} {first r : Response}
    (h : Edited permitted first r) (hpermitted : ∀ s, permitted s → IsOneLine s.toList)
    (hfirst : first.OneLine) : r.OneLine ∧ r.body = first.body := by
  induction h with
  | unchanged => exact ⟨hfirst, rfl⟩
  | withHeader earlier hname hvalue added ih =>
      rcases ih with ⟨hline, hbody⟩
      rcases withHeader_eq_ok_iff.1 added with ⟨-, rfl⟩
      refine ⟨fun header hmem => ?_, hbody⟩
      cases Dictionary.key_of_mem_place hmem with
      | inl hnew =>
          subst hnew
          exact ⟨hpermitted _ hname, hpermitted _ hvalue⟩
      | inr hold => exact hline header hold
  | setHeaders earlier hheaders ih =>
      refine ⟨fun header hmem => ?_, ih.2⟩
      rcases hheaders header hmem with ⟨hname, hvalue⟩
      exact ⟨hpermitted _ hname, hpermitted _ hvalue⟩

end Response

/-- No string of a request holds a line feed, and so a response that reflects some
of them, next to others without line feeds, is framed as it was meant to be. -/
theorem reflection_is_framed {buffer : Bytes} {request : Request}
    (h : (Request.parse buffer).value = .ok request) :
    (∀ s ∈ request.strings, IsOneLine s.toList) ∧
      ∀ (status : Status) (type : MediaType) (body : Bytes) (r : Response),
        Response.Edited (fun s => s ∈ request.strings ∨ IsOneLine s.toList)
          { status, type, body } r →
        r.Framed body := by
  have hstrings : ∀ s ∈ request.strings, IsOneLine s.toList := fun s hs =>
    isOneLine_of_mem_strings h hs
  refine ⟨hstrings, ?_⟩
  intro status type body r hedited
  have hpermitted : ∀ s, s ∈ request.strings ∨ IsOneLine s.toList → IsOneLine s.toList := by
    intro s hs
    cases hs with
    | inl hmem => exact hstrings s hmem
    | inr hline => exact hline
  have hplain : Response.OneLine { status, type, body } := fun _ hmem =>
    absurd hmem List.not_mem_nil
  rcases hedited.oneLine hpermitted hplain with ⟨hline, hbody⟩
  have hframed : r.Framed r.body := hline.framed
  rw [hbody] at hframed
  exact hframed

/-- A request with a bare CR in a header, and an attempt at one more. -/
def suspect : Bytes :=
  Text.bytes "GET /a HTTP/1.1\r\nHost: here\r\nX-Name: a\rX-More: b\r\n\r\n"

theorem reflection_of_suspect_is_framed :
    ∃ request, (Request.parse suspect).value = .ok request ∧
      "a\rX-More: b" ∈ request.strings ∧
      ∃ r, ({ status := .ok, type := .textHtml, body := terminator } : Response).withHeader
          "X-Back" "a\rX-More: b" = .ok r ∧
        r.Framed terminator := by
  have hparse : ∃ request, (Request.parse suspect).value = .ok request ∧
      "a\rX-More: b" ∈ request.strings := ⟨_, rfl, by decide⟩
  rcases hparse with ⟨request, hrequest, hstring⟩
  have hadded := @Response.withHeader_eq_ok_iff
    { status := .ok, type := .textHtml, body := terminator } _ "X-Back" "a\rX-More: b" |>.2
    ⟨rfl, rfl⟩
  refine ⟨request, hrequest, hstring, _, hadded, ?_⟩
  exact (reflection_is_framed hrequest).2 .ok .textHtml terminator _
    (.withHeader .unchanged (.inr (by decide)) (.inl hstring) hadded)

end SiteServer.Http
