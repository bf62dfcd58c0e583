import SiteServer.Http.Request.Reader

/-!
# What a request takes from its head

Everything but the body of a request is read from the head, and the body is what
stands behind it, unread.  Whether a buffer is a request, what is wrong with it if
it is none, and what is logged on the way therefore depend on its head alone
(`value_parse`, `events_parse`).
-/

namespace SiteServer.Http

/-- What is read from a head: its request line, and what its headers say. -/
def readHead (head : Bytes) : Except RequestError (RequestLine × HeaderFields) :=
  let text := Text.Utf8.decodeLossy head
  if text.all Text.isBlank then .error .empty
  else
    (RequestLine.parse (linesOf text).1).bind fun line =>
      (({} : HeaderFields).parse (linesOf text).2).map fun fields => (line, fields)

/-- A request of what was read from its head, and a body. -/
def Request.ofParts (line : RequestLine) (fields : HeaderFields) (body : Bytes) : Request where
  method := line.method
  version := line.version
  path := (pathOfTarget line.target).value
  host := fields.host
  userAgent := fields.userAgent
  platform := fields.platform
  headers := fields.others
  body := body

/-- A buffer is read as its head, and its body is taken as it is. -/
theorem value_parse (buffer : Bytes) :
    (Request.parse buffer).value = (readHead (splitHead buffer).1).map fun parts =>
      .ofParts parts.1 parts.2 (splitHead buffer).2 := by
  unfold Request.parse readHead headText
  dsimp only
  split
  · rfl
  · cases RequestLine.parse (linesOf (Text.Utf8.decodeLossy (splitHead buffer).1)).1 with
    | error e => rfl
    | ok line =>
        simp only [Logged.value_bind, Except.bind]
        cases ({} : HeaderFields).parse
            (linesOf (Text.Utf8.decodeLossy (splitHead buffer).1)).2 with
        | error e => rfl
        | ok fields => rfl

/-- What is logged while a buffer is read depends on its head. -/
theorem events_parse {a b : Bytes} (h : (splitHead a).1 = (splitHead b).1) :
    (Request.parse a).events = (Request.parse b).events := by
  unfold Request.parse headText
  rw [h]
  dsimp only
  split
  · rfl
  · cases RequestLine.parse (linesOf (Text.Utf8.decodeLossy (splitHead b).1)).1 with
    | error e => rfl
    | ok line =>
        simp only [Logged.events_bind]
        cases ({} : HeaderFields).parse
            (linesOf (Text.Utf8.decodeLossy (splitHead b).1)).2 with
        | error e => rfl
        | ok fields => rfl

theorem value_parse_eq_error_iff {buffer : Bytes} {e : RequestError} :
    (Request.parse buffer).value = .error e ↔ readHead (splitHead buffer).1 = .error e := by
  rw [value_parse]
  cases readHead (splitHead buffer).1 <;> simp [Except.map]

theorem value_parse_eq_ok_iff {buffer : Bytes} {request : Request} :
    (Request.parse buffer).value = .ok request ↔
      ∃ line fields, readHead (splitHead buffer).1 = .ok (line, fields) ∧
        request = .ofParts line fields (splitHead buffer).2 := by
  rw [value_parse]
  cases readHead (splitHead buffer).1 with
  | error e => simp [Except.map]
  | ok parts =>
      constructor
      · intro h
        exact ⟨parts.1, parts.2, rfl, (Except.ok.inj h).symm⟩
      · intro h
        rcases h with ⟨line, fields, h, rfl⟩
        have heq := Except.ok.inj h
        subst heq
        rfl

end SiteServer.Http
