import SiteServer.Proofs.Dictionary
import SiteServer.Proofs.Http.ResponseRoundTrip

/-!
# How often a name is sent

The map of a response holds each name once and refuses a second value for it.  But a head
is put together from two sources: the type and the length of the body come first, in lines
that every response has, and the map stands behind them.  Adding a header looks into the
map only, so it takes a type or a length like any other name.

Under each name there is thus what every response says and then what the map says
(`values_fields`).  No name is sent twice exactly as long as neither of the two
reserved names was given (`sent_once_iff_unreserved`); a length that was given is sent
behind the true one (`second_length_is_sent`).
-/

namespace SiteServer

namespace Http

/-! ## Names of lines -/

namespace Received

/-- What is sent under a name, line by line. -/
def valuesOf (message : Received) (name : String) : List Bytes :=
  (message.fields.filter (·.1 = Text.bytes name)).map (·.2)

/-- No two lines have the same name. -/
def NamesDiffer (message : Received) : Prop :=
  (message.fields.map (·.1)).Nodup

instance (message : Received) : Decidable message.NamesDiffer :=
  inferInstanceAs (Decidable (List.Nodup _))

end Received

/-- The name of a line that every response has. -/
def IsReserved (name : String) : Prop :=
  name = Response.typeName ∨ name = Response.lengthName

theorem filter_fieldBytes (fields : List (String × String)) (name : String) :
    ((fieldBytes fields).filter (·.1 = Text.bytes name)).map (·.2) =
      ((fields.filter (·.1 = name)).map (·.2)).map Text.bytes := by
  have hname : ∀ field : String × String,
      (Text.bytes field.1 = Text.bytes name) = (field.1 = name) := fun field =>
    propext ⟨fun heq => Text.Utf8.bytes_injective heq, fun heq => by rw [heq]⟩
  rw [fieldBytes, List.filter_map, List.map_map, List.map_map]
  simp only [Function.comp_def, hname]

theorem nodup_fieldBytes_iff (fields : List (String × String)) :
    ((fieldBytes fields).map (·.1)).Nodup ↔ (fields.map (·.1)).Nodup := by
  have hnames : (fieldBytes fields).map (·.1) = (fields.map (·.1)).map Text.bytes := by
    rw [fieldBytes, List.map_map, List.map_map]
    rfl
  rw [hnames]
  exact List.nodup_map_iff fun _ _ heq => Text.Utf8.bytes_injective heq

namespace Response

/-! ## The lines of a response -/

/-- What every response says under a name. -/
def ownValues (r : Response) (name : String) : List String :=
  if name = typeName then [r.type.name]
  else if name = lengthName then [Text.numeral r.body.length]
  else []

/-- Under a name there is what every response says, and behind it what the map says. -/
theorem values_fields (r : Response) (name : String) :
    (r.fields.filter (·.1 = name)).map (·.2) = r.ownValues name ++ (r.headers.find? name).toList := by
  have hmap := Dictionary.filter_key (r.headers.ascending.imp Text.Precedes.ne) name
  have hdistinct : typeName ≠ lengthName := by decide
  rw [Dictionary.find?, ← hmap, fields, ownValues]
  by_cases htype : name = typeName
  · subst htype
    simp [hdistinct.symm]
  · by_cases hlength : name = lengthName
    · subst hlength
      simp [hdistinct, htype]
    · simp [htype, hlength, Ne.symm htype, Ne.symm hlength]

/-- The names of the lines differ exactly if the map has neither of the reserved ones. -/
theorem nodup_fields_iff (r : Response) :
    (r.fields.map (·.1)).Nodup ↔ ∀ key ∈ r.headers.keys, ¬ IsReserved key := by
  have hdistinct : typeName ≠ lengthName := by decide
  have hnames : r.fields.map (·.1) = typeName :: lengthName :: r.headers.keys := rfl
  rw [hnames, List.nodup_cons, List.nodup_cons, List.mem_cons, not_or]
  constructor
  · rintro ⟨⟨-, htype⟩, hlength, -⟩ key hmem (rfl | rfl)
    · exact htype hmem
    · exact hlength hmem
  · intro h
    have htype : typeName ∉ r.headers.keys := fun hmem => h _ hmem (.inl rfl)
    have hlength : lengthName ∉ r.headers.keys := fun hmem => h _ hmem (.inr rfl)
    exact ⟨⟨hdistinct, htype⟩, hlength, r.headers.nodup_keys⟩

/-- Adding a header fails exactly if the map has its name, and names that one. -/
theorem withHeader_eq_error_iff {r : Response} {name value : String} {e : DuplicateHeader} :
    r.withHeader name value = .error e ↔ r.headers.contains name = true ∧ e = ⟨name⟩ := by
  rw [withHeader]
  cases hadd : r.headers.add name value with
  | ok headers => simp [(Headers.add_eq_ok_iff.1 hadd).1]
  | error failure =>
      obtain ⟨hcontains, rfl⟩ := Headers.add_eq_error_iff.1 hadd
      simpa [hcontains] using eq_comm

variable {status : Status} {type : MediaType} {body : Bytes} {given : List (String × String)}
  {r : Response}

/-- The names in the map are those of the headers that were given. -/
theorem Drafted.mem_keys_iff (h : Drafted status type body given r) {name : String} :
    name ∈ r.headers.keys ↔ name ∈ given.map (·.1) :=
  (h.parts.2.2.2.map (·.1)).mem_iff

theorem Drafted.contains_iff (h : Drafted status type body given r) {name : String} :
    r.headers.contains name = true ↔ name ∈ given.map (·.1) := by
  rw [← h.mem_keys_iff, Dictionary.mem_keys_iff, Dictionary.contains, Option.isSome_iff_exists]

end Response

/-- No name of a response is sent twice exactly if none of the headers that were given has
the name of a line that every response has.  Such a header is not refused, because adding
looks at those that were given and at nothing else; it is sent behind the line that was
there already. -/
theorem sent_once_iff_unreserved {status : Status} {type : MediaType} {body : Bytes}
    {given : List (String × String)} {r : Response}
    (h : Response.Drafted status type body given r) :
    ∃ message, receive r.toBytes = some message ∧
      (message.NamesDiffer ↔ ∀ name ∈ given.map (·.1), ¬ IsReserved name) ∧
      message.valuesOf "Content-Type" =
        Text.bytes type.name :: (r.headers.find? "Content-Type").toList.map Text.bytes ∧
      message.valuesOf "Content-Length" =
        Text.bytes (Text.numeral body.length) ::
          (r.headers.find? "Content-Length").toList.map Text.bytes ∧
      (∀ name, ¬ IsReserved name →
        message.valuesOf name = (r.headers.find? name).toList.map Text.bytes) ∧
      ∀ name value, r.withHeader name value = .error ⟨name⟩ ↔ name ∈ given.map (·.1) := by
  obtain ⟨-, htype, hbody, -⟩ := h.parts
  have hvalues : ∀ name, (Received.mk (Text.bytes ("HTTP/1.1 " ++ r.status.line))
      (fieldBytes r.fields) r.body).valuesOf name =
        (r.ownValues name ++ (r.headers.find? name).toList).map Text.bytes := by
    intro name
    rw [Received.valuesOf, filter_fieldBytes, Response.values_fields]
  refine ⟨_, h.plain.receive_toBytes, ?differ, ?type, ?length, ?others, ?refused⟩
  case differ =>
    rw [Received.NamesDiffer, nodup_fieldBytes_iff, Response.nodup_fields_iff]
    simp only [h.mem_keys_iff]
  case type =>
    rw [hvalues, ← htype]
    rfl
  case length =>
    rw [hvalues, ← hbody]
    rfl
  case others =>
    intro name hname
    obtain ⟨hnotType, hnotLength⟩ := not_or.1 hname
    rw [hvalues, Response.ownValues, if_neg hnotType, if_neg hnotLength, List.nil_append]
  case refused =>
    intro name value
    rw [Response.withHeader_eq_error_iff, h.contains_iff]
    simp

/-- A page of one byte. -/
def shortPage : Response := .html .ok "x"

/-- A header with a name of its own is sent once, like the two that are always sent. -/
theorem servedBy_is_sent_once :
    ∃ r, shortPage.withHeader "X-Served-By" "telar" = .ok r ∧
      ∃ message, receive r.toBytes = some message ∧ message.NamesDiffer ∧
        message.valuesOf "Content-Length" = [Text.bytes "1"] ∧
        message.valuesOf "X-Served-By" = [Text.bytes "telar"] := by
  have hdrafted : ∃ r, shortPage.withHeader "X-Served-By" "telar" = .ok r ∧
      Response.Drafted .ok .textHtml (Text.bytes "x") [("X-Served-By", "telar")] r := by
    refine ⟨_, rfl, .withHeader (.html .ok "x") ?_ ?_ rfl⟩
    all_goals constructor <;> decide
  obtain ⟨r, hadded, hdraft⟩ := hdrafted
  obtain ⟨message, hmessage, hdiffer, -, hlength, hothers, -⟩ := sent_once_iff_unreserved hdraft
  have hown : ¬ IsReserved "X-Served-By" := by
    rintro (heq | heq)
    · exact absurd heq (by decide)
    · exact absurd heq (by decide)
  refine ⟨r, hadded, message, hmessage, hdiffer.2 ?_, ?_, ?_⟩
  · simpa using hown
  · cases hadded
    exact hlength
  · cases hadded
    exact hothers _ hown

/-- A second length is not refused, and is sent behind the true one. -/
theorem second_length_is_sent :
    ∃ r, Response.Drafted .ok .textHtml (Text.bytes "x") [("Content-Length", "5")] r ∧
      shortPage.withHeader "Content-Length" "5" = .ok r ∧
      ∃ message, receive r.toBytes = some message ∧
        message.valuesOf "Content-Length" = [Text.bytes "1", Text.bytes "5"] ∧
        ¬ message.NamesDiffer := by
  have hdrafted : ∃ r, shortPage.withHeader "Content-Length" "5" = .ok r ∧
      Response.Drafted .ok .textHtml (Text.bytes "x") [("Content-Length", "5")] r := by
    refine ⟨_, rfl, .withHeader (.html .ok "x") ?_ ?_ rfl⟩
    all_goals constructor <;> decide
  obtain ⟨r, hadded, hdraft⟩ := hdrafted
  refine ⟨r, hdraft, hadded, _, hdraft.plain.receive_toBytes, ?_, ?_⟩
  · cases hadded
    decide
  · cases hadded
    decide

end Http

end SiteServer
