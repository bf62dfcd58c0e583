import SiteServer.Proofs.Http.Framing
import SiteServer.Proofs.Http.MediaNames

/-!
# Responses are read back

A receiver of responses is written down here that knows no more than the layout: the
body stands behind the first empty line, the lines before it end with CR LF, and in
each one but the first the name ends before the first colon and space.  A response
that was drafted from names and values that keep to their line is read back by it
as it was drafted (`Drafted.receive_toBytes`), whatever the body holds.

Nothing else shows.  The headers of a draft are in one order only, so two drafts
give the same bytes exactly if they agree up to the order in which headers were
added (`drafts_are_received`).
-/

namespace SiteServer

namespace Text

variable {α : Type _} [DecidableEq α]

/-! ## Cutting at two elements -/

/-- The piece before the first `a` with `b` behind it, and the pieces after each of
them. -/
def breakAtPair (a b : α) : List α → List α × List (List α)
  | [] => ([], [])
  | [c] => ([c], [])
  | c :: d :: rest =>
    if c = a ∧ d = b then
      let (first, others) := breakAtPair a b rest
      ([], first :: others)
    else
      let (first, others) := breakAtPair a b (d :: rest)
      (c :: first, others)

/-- The parts before and after the first `a` with `b` behind it, if there is one. -/
def cutAtPair (a b : α) : List α → Option (List α × List α)
  | [] => none
  | [_] => none
  | c :: d :: rest =>
    if c = a ∧ d = b then some ([], rest)
    else (cutAtPair a b (d :: rest)).map fun parts => (c :: parts.1, parts.2)

variable {a b : α}

theorem breakAtPair_of_not_mem {l : List α} (h : b ∉ l) : breakAtPair a b l = (l, []) := by
  fun_induction breakAtPair a b l with
  | case1 => rfl
  | case2 => rfl
  | case3 c d rest hpair => simp [hpair.2] at h
  | case4 c d rest _ first others heq ih =>
      have hrest := ih (List.not_mem_of_not_mem_cons h)
      rw [heq] at hrest
      simpa using hrest

/-- Behind what holds no second element of the pair. -/
theorem breakAtPair_append (hab : a ≠ b) {l : List α} (h : b ∉ l) (rest : List α) :
    breakAtPair a b (l ++ a :: b :: rest) =
      (l, (breakAtPair a b rest).1 :: (breakAtPair a b rest).2) := by
  induction l with
  | nil => simp [breakAtPair]
  | cons c l ih =>
      have htail : b ∉ l := List.not_mem_of_not_mem_cons h
      -- The element behind `c` is one of the list, or the first of the pair.
      cases l with
      | nil => simp [breakAtPair, hab]
      | cons d l =>
          have hd : d ≠ b := fun heq => htail (heq ▸ List.mem_cons_self ..)
          have hrest := ih htail
          rw [List.cons_append] at hrest
          simp [breakAtPair, hd, hrest]

/-- Cutting at a pair gives the parts back between which it was put. -/
theorem breakAtPair_intercalate (hab : a ≠ b) {first : List α} {others : List (List α)}
    (hparts : ∀ part ∈ first :: others, b ∉ part) :
    breakAtPair a b ([a, b].intercalate (first :: others)) = (first, others) := by
  induction others generalizing first with
  | nil =>
      rw [List.intercalate_singleton]
      exact breakAtPair_of_not_mem (hparts first (List.mem_cons_self ..))
  | cons next rest ih =>
      have htail : ∀ part ∈ next :: rest, b ∉ part := fun part hmem =>
        hparts part (List.mem_cons_of_mem _ hmem)
      have hsplit : [a, b].intercalate (first :: next :: rest) =
          first ++ a :: b :: [a, b].intercalate (next :: rest) := by
        rw [List.intercalate_cons_cons]
        simp
      rw [hsplit, breakAtPair_append hab (hparts first (List.mem_cons_self ..)), ih htail]

/-- The cut comes at the end of what does not hold the first element of the pair. -/
theorem cutAtPair_append {l : List α} (h : a ∉ l) (rest : List α) :
    cutAtPair a b (l ++ a :: b :: rest) = some (l, rest) := by
  induction l with
  | nil => simp [cutAtPair]
  | cons c l ih =>
      obtain ⟨hc, hl⟩ := List.ne_and_not_mem_of_not_mem_cons h
      cases l with
      | nil => simp [cutAtPair, Ne.symm hc]
      | cons d l =>
          have hrest := ih hl
          rw [List.cons_append] at hrest
          simp [cutAtPair, Ne.symm hc, hrest]

end Text

namespace Http

/-! ## The receiver -/

/-- A response as it is received: the first line, the name and the value of each line
behind it, and the body. -/
structure Received where
  statusLine : Bytes
  fields : List (Bytes × Bytes)
  body : Bytes
deriving DecidableEq

/-- Reads a response by its layout; `none` if a line has no colon with a space. -/
def receive (message : Bytes) : Option Received :=
  let (head, body) := splitHead message
  let (statusLine, lines) := Text.breakAtPair 13 10 head
  (lines.mapM (Text.cutAtPair 58 32)).map fun fields => ⟨statusLine, fields, body⟩

/-- Names and values as they are sent. -/
def fieldBytes (fields : List (String × String)) : List (Bytes × Bytes) :=
  fields.map fun (name, value) => (Text.bytes name, Text.bytes value)

theorem fieldBytes_injective {fields others : List (String × String)}
    (h : fieldBytes fields = fieldBytes others) : fields = others := by
  refine List.map_injective_iff.2 ?_ h
  rintro ⟨name, value⟩ ⟨name', value'⟩ hpair
  obtain ⟨hname, hvalue⟩ := Prod.mk.inj hpair
  rw [Text.Utf8.bytes_injective hname, Text.Utf8.bytes_injective hvalue]

theorem cutAtPair_field {name : String} (h : 58 ∉ Text.bytes name) (value : String) :
    Text.cutAtPair 58 32 (Text.bytes (name ++ ": " ++ value)) =
      some (Text.bytes name, Text.bytes value) := by
  have hsplit : Text.bytes (name ++ ": " ++ value) =
      Text.bytes name ++ 58 :: 32 :: Text.bytes value := by
    rw [bytes_append, bytes_append, List.append_assoc]
    rfl
  rw [hsplit, Text.cutAtPair_append h]

theorem mapM_cutAtPair_fields {fields : List (String × String)}
    (h : ∀ field ∈ fields, 58 ∉ Text.bytes field.1) :
    (fields.map fun (name, value) => Text.bytes (name ++ ": " ++ value)).mapM
      (Text.cutAtPair 58 32) = some (fieldBytes fields) := by
  induction fields with
  | nil => rfl
  | cons field fields ih =>
      rcases field with ⟨name, value⟩
      have hname : 58 ∉ Text.bytes name := h (name, value) (List.mem_cons_self ..)
      have hrest := ih fun field hmem => h field (List.mem_cons_of_mem _ hmem)
      simp only [List.map_cons, List.mapM_cons, cutAtPair_field hname, hrest]
      rfl

namespace Response

/-- No name or value of the headers leaves its place in its line. -/
def Plain (r : Response) : Prop :=
  ∀ header ∈ r.headers.entries, IsPlainName header.1 ∧ IsPlainValue header.2

theorem Plain.oneLine {r : Response} (h : r.Plain) : r.OneLine := fun header hmem =>
  ⟨(h header hmem).1.lf, (h header hmem).2.lf⟩

theorem Plain.colon_not_mem {r : Response} (h : r.Plain) {field : String × String}
    (hmem : field ∈ r.fields) : 58 ∉ Text.bytes field.1 := by
  have htype : 58 ∉ Text.bytes typeName := by decide
  have hlength : 58 ∉ Text.bytes lengthName := by decide
  simp only [Response.fields, List.mem_cons] at hmem
  rcases hmem with rfl | rfl | hmem
  · exact htype
  · exact hlength
  · exact Text.not_mem_bytes (by decide) rfl (h field hmem).1.colon

/-- What is received of a response whose headers are plain. -/
theorem Plain.receive_toBytes {r : Response} (h : r.Plain) :
    receive r.toBytes =
      some ⟨Text.bytes ("HTTP/1.1 " ++ r.status.line), fieldBytes r.fields, r.body⟩ := by
  have hlines : ∀ line ∈ r.headLines.map Text.bytes, line ≠ [] ∧ 10 ∉ line := fun line hmem =>
    h.oneLine.bytes_headLines hmem
  have hsplit : splitHead r.toBytes =
      ([13, 10].intercalate (r.headLines.map Text.bytes), r.body) := by
    rw [toBytes, bytes_head]
    exact splitHead_lines (List.cons_ne_nil _ _) hlines r.body
  have hcut : Text.breakAtPair 13 10 ([13, 10].intercalate (r.headLines.map Text.bytes)) =
      (Text.bytes ("HTTP/1.1 " ++ r.status.line),
        r.fields.map fun (name, value) => Text.bytes (name ++ ": " ++ value)) := by
    rw [headLines, List.map_cons, List.map_map]
    refine Text.breakAtPair_intercalate (by decide) fun line hmem => ?_
    have hline : line ∈ r.headLines.map Text.bytes := by
      rw [headLines, List.map_cons, List.map_map]
      exact hmem
    exact (hlines line hline).2
  have hfields := mapM_cutAtPair_fields fun field hmem => h.colon_not_mem hmem
  simp only [receive, hsplit, hcut, hfields, Option.map_some]

/-! ## Drafts -/

/-- The responses that are made of a status, a type and a body, or of a page, by calls
that change their headers, next to the headers that were given since all of them
were replaced last.  Names and values keep to their places. -/
inductive Drafted : Status → MediaType → Bytes → List (String × String) → Response → Prop where
  | new (status : Status) (type : MediaType) (body : Bytes) :
      Drafted status type body [] { status, type, body }
  | html (status : Status) (page : String) :
      Drafted status .textHtml (Text.bytes page) [] (html status page)
  | withHeader {status : Status} {type : MediaType} {body : Bytes}
      {given : List (String × String)} {r after : Response} {name value : String}
      (earlier : Drafted status type body given r)
      (hname : IsPlainName name) (hvalue : IsPlainValue value)
      (added : r.withHeader name value = .ok after) :
      Drafted status type body ((name, value) :: given) after
  | setHeaders {status : Status} {type : MediaType} {body : Bytes}
      {given : List (String × String)} {r : Response} {headers : Headers}
      (earlier : Drafted status type body given r)
      (hheaders : ∀ header ∈ headers.entries, IsPlainName header.1 ∧ IsPlainValue header.2) :
      Drafted status type body headers.entries (r.setHeaders headers)

variable {status status' : Status} {type type' : MediaType} {body body' : Bytes}
  {given given' : List (String × String)} {r r' : Response}

/-- A draft is what it was made of, and its headers are those that were given. -/
theorem Drafted.parts (h : Drafted status type body given r) :
    r.status = status ∧ r.type = type ∧ r.body = body ∧ r.headers.entries.Perm given := by
  induction h with
  | new type body => exact ⟨rfl, rfl, rfl, .refl _⟩
  | html page => exact ⟨rfl, rfl, rfl, .refl _⟩
  | withHeader earlier hname hvalue added ih =>
      obtain ⟨hstatus, htype, hbody, hheaders⟩ := ih
      obtain ⟨hfresh, rfl⟩ := withHeader_eq_ok_iff.1 added
      exact ⟨hstatus, htype, hbody, (Dictionary.perm_insert _ hfresh).trans (hheaders.cons _)⟩
  | setHeaders earlier hheaders ih =>
      obtain ⟨hstatus, htype, hbody, -⟩ := ih
      exact ⟨hstatus, htype, hbody, .refl _⟩

theorem Drafted.plain (h : Drafted status type body given r) : r.Plain := by
  induction h with
  | new type body => exact fun _ hmem => absurd hmem List.not_mem_nil
  | html page => exact fun _ hmem => absurd hmem List.not_mem_nil
  | withHeader earlier hname hvalue added ih =>
      obtain ⟨-, rfl⟩ := withHeader_eq_ok_iff.1 added
      intro header hmem
      cases Dictionary.key_of_mem_place hmem with
      | inl hnew =>
          subst hnew
          exact ⟨hname, hvalue⟩
      | inr hold => exact ih header hold
  | setHeaders earlier hheaders ih => exact hheaders

end Response

/-! ## What is sent determines what was meant -/

/-- The number of a status ends at the first space of its line. -/
theorem Status.cutAtFirst_line (s : Status) :
    Text.cutAtFirst ' ' s.line.toList = some (Text.digits s.code, s.reason.toList) := by
  have hspace : ' ' ∉ Text.digits s.code := by
    intro hmem
    have hdigit := Nat.isDigit_of_mem_toDigits (by decide) (by decide) hmem
    exact absurd hdigit (by decide)
  have hline : s.line.toList = Text.digits s.code ++ ' ' :: s.reason.toList := by
    simp [Status.line, Text.numeral]
  rw [hline, Text.cutAtFirst_append hspace]

theorem Status.line_injective {s t : Status} (h : s.line = t.line) : s = t := by
  have hs := cutAtFirst_line s
  rw [h, cutAtFirst_line] at hs
  exact codes.word_injective (Text.digits_injective (Prod.mk.inj (Option.some.inj hs)).1).symm

namespace Response

variable {status status' : Status} {type type' : MediaType} {body body' : Bytes}
  {given given' : List (String × String)} {r r' : Response}

/-- What is received of a draft is what it was made of, and the headers that were
given, in the order of their map. -/
theorem Drafted.receive_toBytes (h : Drafted status type body given r) :
    receive r.toBytes = some {
      statusLine := Text.bytes ("HTTP/1.1 " ++ Text.numeral status.code ++ " " ++ status.reason)
      fields := fieldBytes (("Content-Type", type.name) ::
        ("Content-Length", Text.numeral body.length) :: r.headers.entries)
      body } := by
  obtain ⟨rfl, rfl, rfl, -⟩ := h.parts
  rw [h.plain.receive_toBytes, Status.line]
  simp only [String.append_assoc]
  rfl

/-- Drafts give the same bytes exactly if they agree up to the order of their headers. -/
theorem Drafted.toBytes_eq_iff (h : Drafted status type body given r)
    (h' : Drafted status' type' body' given' r') :
    r.toBytes = r'.toBytes ↔
      status = status' ∧ type = type' ∧ given.Perm given' ∧ body = body' := by
  obtain ⟨hstatus, htype, hbody, hgiven⟩ := h.parts
  obtain ⟨hstatus', htype', hbody', hgiven'⟩ := h'.parts
  constructor
  · intro heq
    have hreceived := h.plain.receive_toBytes
    rw [heq, h'.plain.receive_toBytes, Option.some.injEq, Received.mk.injEq] at hreceived
    obtain ⟨hfirst, hlater, hsame⟩ := hreceived
    have hline := (String.append_right_inj _).1 (Text.Utf8.bytes_injective hfirst)
    have hfields := fieldBytes_injective hlater
    simp only [fields, List.cons.injEq, Prod.mk.injEq, true_and] at hfields
    obtain ⟨hname, -, hheaders⟩ := hfields
    refine ⟨?_, ?_, ?_, ?_⟩
    · rw [← hstatus, ← hstatus', Status.line_injective hline]
    · rw [← htype, ← htype', MediaType.name_injective hname]
    · rw [hheaders] at hgiven'
      exact hgiven.symm.trans hgiven'
    · rw [← hbody, ← hbody', hsame]
  · rintro ⟨rfl, rfl, hperm, rfl⟩
    have hheaders := Dictionary.eq_of_perm ((hgiven.trans hperm).trans hgiven'.symm)
    rw [toBytes, toBytes, head, head, fields, fields, hstatus, hstatus', htype, htype', hbody,
      hbody', hheaders]

/-! ## Calls in another order -/

theorem withHeaders_cons_eq_ok_iff {name value : String} {calls : List (String × String)}
    {after : Response} :
    r.withHeaders ((name, value) :: calls) = .ok after ↔
      ∃ next, r.withHeader name value = .ok next ∧ next.withHeaders calls = .ok after := by
  rw [withHeaders]
  cases hnext : r.withHeader name value with
  | ok next => simp [bind, Except.bind]
  | error e => simp [bind, Except.bind]

/-- Two headers may be added the other way round. -/
theorem withHeader_swap {name value other text : String} {next after : Response}
    (hnext : r.withHeader name value = .ok next) (hafter : next.withHeader other text = .ok after) :
    ∃ between, r.withHeader other text = .ok between ∧
      between.withHeader name value = .ok after := by
  obtain ⟨hname, rfl⟩ := withHeader_eq_ok_iff.1 hnext
  obtain ⟨hother, rfl⟩ := withHeader_eq_ok_iff.1 hafter
  have hfresh : r.headers.contains other = false ∧ name ≠ other := by
    rw [← Bool.not_eq_true, contains_insert, not_or] at hother
    simpa using hother
  refine ⟨_, withHeader_eq_ok_iff.2 ⟨hfresh.1, rfl⟩, withHeader_eq_ok_iff.2 ⟨?_, ?_⟩⟩
  · rw [← Bool.not_eq_true, contains_insert, not_or]
    exact ⟨by simpa using hname, hfresh.2.symm⟩
  · rw [Dictionary.insert_comm hfresh.2]

/-- The order of the calls that add headers does not show. -/
theorem withHeaders_perm {calls calls' : List (String × String)} (h : calls.Perm calls')
    {after : Response} :
    r.withHeaders calls = .ok after → r.withHeaders calls' = .ok after := by
  induction h generalizing r with
  | nil => exact id
  | cons header hrest ih =>
      intro hcalls
      obtain ⟨next, hnext, hafter⟩ := withHeaders_cons_eq_ok_iff.1 hcalls
      exact withHeaders_cons_eq_ok_iff.2 ⟨next, hnext, ih hafter⟩
  | swap first second rest =>
      intro hcalls
      obtain ⟨next, hnext, hcalls⟩ := withHeaders_cons_eq_ok_iff.1 hcalls
      obtain ⟨last, hlast, hafter⟩ := withHeaders_cons_eq_ok_iff.1 hcalls
      obtain ⟨between, hbetween, hswapped⟩ := withHeader_swap hnext hlast
      exact withHeaders_cons_eq_ok_iff.2
        ⟨between, hbetween, withHeaders_cons_eq_ok_iff.2 ⟨last, hswapped, hafter⟩⟩
  | trans hfirst hsecond ih ih' => exact fun hcalls => ih' (ih hcalls)

end Response

/-- A response that is made of a status, a type and a body, with plain names and values
for headers, is received as it was made: the first line, the type, the length of the
body, the headers that were given, each once and in the order of their names, and the
body.  Two of them are sent as the same bytes only if they were made of the same parts,
and in whatever order headers are added, the outcome is the same. -/
theorem drafts_are_received :
    (∀ status type body given r, Response.Drafted status type body given r →
      r.headers.entries.Perm given ∧
      r.headers.entries.Pairwise (fun a b => Text.Precedes a.1 b.1) ∧
      receive r.toBytes = some {
        statusLine := Text.bytes ("HTTP/1.1 " ++ Text.numeral status.code ++ " " ++ status.reason)
        fields := fieldBytes (("Content-Type", type.name) ::
          ("Content-Length", Text.numeral body.length) :: r.headers.entries)
        body }) ∧
    (∀ status type body given r status' type' body' given' r',
      Response.Drafted status type body given r →
      Response.Drafted status' type' body' given' r' →
      (r.toBytes = r'.toBytes ↔
        status = status' ∧ type = type' ∧ given.Perm given' ∧ body = body')) ∧
    ∀ (r : Response) calls calls', calls.Perm calls' → ∀ after,
      r.withHeaders calls = .ok after ↔ r.withHeaders calls' = .ok after := by
  refine ⟨?received, ?determined, ?reordered⟩
  case received =>
    intro status type body given r h
    exact ⟨h.parts.2.2.2, r.headers.ascending, h.receive_toBytes⟩
  case determined =>
    intro status type body given r status' type' body' given' r' h h'
    exact h.toBytes_eq_iff h'
  case reordered =>
    intro r calls calls' h after
    exact ⟨Response.withHeaders_perm h, Response.withHeaders_perm h.symm⟩

/-- A page whose body begins as if its head ended there. -/
def bareTerminator : Response := { status := .notFound, type := .textHtml, body := terminator }

theorem bareTerminator_is_received :
    ∃ r, bareTerminator.withHeaders [("X-b", ": "), ("X-a", "")] = .ok r ∧
      bareTerminator.withHeaders [("X-a", ""), ("X-b", ": ")] = .ok r ∧
      receive r.toBytes = some {
        statusLine := Text.bytes "HTTP/1.1 404 Not Found"
        fields := fieldBytes [("Content-Type", "text/html"), ("Content-Length", "4"),
          ("X-a", ""), ("X-b", ": ")]
        body := terminator } := by
  obtain ⟨hreceived, -, hreordered⟩ := drafts_are_received
  have hdrafted : ∃ r, Response.Drafted .notFound .textHtml terminator
      [("X-a", ""), ("X-b", ": ")] r ∧
      bareTerminator.withHeaders [("X-b", ": "), ("X-a", "")] = .ok r := by
    refine ⟨_, .withHeader (.withHeader (.new _ _ _) ?_ ?_ rfl) ?_ ?_ rfl, rfl⟩
    all_goals constructor <;> decide
  obtain ⟨r, hdraft, hcalls⟩ := hdrafted
  refine ⟨r, hcalls, (hreordered _ _ _ (.swap ..) r).1 hcalls, ?_⟩
  obtain ⟨-, -, hbytes⟩ := hreceived _ _ _ _ _ hdraft
  have hentries : r.headers.entries = [("X-a", ""), ("X-b", ": ")] := by
    cases hcalls
    rfl
  rw [hbytes, hentries]
  rfl

end Http

end SiteServer
