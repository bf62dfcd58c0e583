import SiteServer.Connection.Intake
import SiteServer.Proofs.Http.RequestParts
import SiteServer.Proofs.Http.Terminator
import Mathlib.Data.List.Infix

/-!
# Requests however they are cut

A connection delivers one stream of bytes, but where the stream is cut into
arrivals is up to the network, and reads may be interrupted.  What is taken in is
a part of the stream from its beginning, and the places where the intake can end
leave little choice for it (`receive_of_delivers`): if the head ends soon enough,
all of it was taken in, and otherwise just as much as is allowed.

Two deliveries of one stream can thus differ only in how much of the body came
along with the head, which nothing but the body of the request depends on.
-/

namespace SiteServer.Connection

open Http (terminator findTerminator IsFirstTerminator Request RequestError)

/-- A script that delivers a stream in pieces that hold something, with
interruptions and no other failure. -/
structure Delivers (script : List Delivery) (stream : Bytes) : Prop where
  all : scriptData script = stream
  pieces : .data [] ∉ script
  faults : ∀ why, .fault why ∈ script → why = .interrupted

namespace Delivers

variable {script left : List Delivery} {stream : Bytes}

theorem tail {first : Delivery} {rest : List Delivery} (h : Delivers (first :: rest) stream) :
    Delivers rest (scriptData rest) where
  all := rfl
  pieces := fun hmem => h.pieces (List.mem_cons_of_mem _ hmem)
  faults := fun why hmem => h.faults why (List.mem_cons_of_mem _ hmem)

/-- A read that fails was interrupted, and nothing is lost. -/
theorem of_read_error (h : Delivers script stream) {want : Nat} {why : ReadFault}
    (hread : read want script = (.error why, left)) :
    why = .interrupted ∧ Delivers left stream := by
  cases script with
  | nil => simp [read] at hread
  | cons first rest =>
      cases first with
      | data bs => simp [read] at hread
      | fault found =>
          simp only [read, Prod.mk.injEq, Except.error.injEq] at hread
          rcases hread with ⟨rfl, rfl⟩
          have hall : scriptData rest = stream := h.all
          exact ⟨h.faults found (by simp), hall ▸ h.tail⟩

/-- A read takes the first bytes of what is still to come. -/
theorem of_read_ok (h : Delivers script stream) {want : Nat} {piece : Bytes}
    (hread : read want script = (.ok piece, left)) :
    piece.length ≤ want ∧ ∃ rest, stream = piece ++ rest ∧ Delivers left rest := by
  cases script with
  | nil =>
      simp only [read, Prod.mk.injEq, Except.ok.injEq] at hread
      rcases hread with ⟨rfl, rfl⟩
      exact ⟨Nat.zero_le _, stream, rfl, h⟩
  | cons first script =>
      cases first with
      | fault found => simp [read] at hread
      | data bs =>
          simp only [read, Prod.mk.injEq, Except.ok.injEq] at hread
          rcases hread with ⟨rfl, hleft⟩
          have hall : bs ++ scriptData script = stream := h.all
          refine ⟨List.length_take_le _ _, bs.drop want ++ scriptData script, ?_, ?_⟩
          · rw [← hall, ← List.append_assoc, List.take_append_drop]
          · cases hdrop : bs.drop want with
            | nil =>
                rw [hdrop] at hleft
                exact hleft ▸ h.tail
            | cons b more =>
                rw [hdrop] at hleft
                subst hleft
                exact
                  { all := rfl
                    pieces := by simpa using h.tail.pieces
                    faults := fun why hmem => h.tail.faults why (by simpa using hmem) }

/-- A read that asks for something gives nothing only at the end. -/
theorem of_read_nothing (h : Delivers script stream) {want : Nat} (hwant : 0 < want)
    (hread : read want script = (.ok [], left)) : stream = [] := by
  cases script with
  | nil => exact h.all.symm
  | cons first rest =>
      cases first with
      | fault found => simp [read] at hread
      | data bs =>
          simp only [read, Prod.mk.injEq, Except.ok.injEq, List.take_eq_nil_iff] at hread
          cases hread.1 with
          | inl hzero => omega
          | inr hnil =>
              subst hnil
              exact absurd (by simp) h.pieces

end Delivers

/-! ## What is taken in -/

/-- An intake takes the beginning of a stream, within its limit, and ends where
nothing is wanted or nothing is left. -/
theorem takeIn_of_delivers {limit : Nat} {received stream : Bytes} {script : List Delivery}
    (h : Delivers script stream) (hlimit : received.length ≤ limit) :
    ∃ taken, (takeIn limit received script).result = .ok taken ∧
      taken <+: received ++ stream ∧ taken.length ≤ limit ∧
      (wanted? limit taken = none ∨ taken = received ++ stream) := by
  fun_induction takeIn limit received script generalizing stream with
  | case1 received script hwant =>
      exact ⟨received, rfl, List.prefix_append _ _, hlimit, .inl hwant⟩
  | case2 received script want hwant left hread =>
      have hstream : stream = [] := h.of_read_nothing (wanted?_eq_some hwant).1 hread
      subst hstream
      exact ⟨received, rfl, List.prefix_append _ _, hlimit, .inr (List.append_nil _).symm⟩
  | case3 received script want hwant b more left hread =>
      rename_i ih
      rcases h.of_read_ok hread with ⟨hpiece, rest, hrest, hleft⟩
      have hroom := (wanted?_eq_some hwant).2.2
      have hlength : (received ++ b :: more).length ≤ limit := by
        rw [List.length_append]
        omega
      rcases ih hleft hlength with ⟨taken, hresult, htaken⟩
      rw [List.append_assoc, ← hrest] at htaken
      exact ⟨taken, hresult, htaken⟩
  | case4 received script want hwant left hread =>
      rename_i ih
      rcases h.of_read_error hread with ⟨-, hleft⟩
      exact ih hleft hlimit
  | case5 received script want hwant why left hother hread =>
      rcases h.of_read_error hread with ⟨hwhy, -⟩
      exact absurd hwhy hother

/-- How an intake of a stream ends: with a part that holds the whole head, if the
head ends within the limit, and with as much as is allowed otherwise. -/
structure Received (limit : Nat) (stream taken : Bytes) : Prop where
  isPrefix : taken <+: stream
  length_le : taken.length ≤ limit
  complete : ∀ i, IsFirstTerminator stream i → i + 4 ≤ limit → i + 4 ≤ taken.length
  filled : (∀ i, IsFirstTerminator stream i → limit < i + 4) →
    taken = stream.take (min limit stream.length)

theorem wanted?_eq_none_iff {limit : Nat} {received : Bytes} :
    wanted? limit received = none ↔
      limit ≤ received.length ∨ ∃ i, findTerminator received = some i := by
  rw [wanted?, ite_eq_right_iff]
  cases findTerminator received <;> simp

/-- A head that is found in what was taken is the head of the stream, and all of its
terminator was taken. -/
theorem findTerminator_part_iff {taken stream : Bytes} (hpart : taken <+: stream) {i : Nat} :
    findTerminator taken = some i ↔ IsFirstTerminator stream i ∧ i + 4 ≤ taken.length := by
  rw [Http.findTerminator_prefix_iff hpart, Http.findTerminator_eq_some_iff]

theorem receive_of_delivers {stream : Bytes} {script : List Delivery}
    (h : Delivers script stream) (limit : Nat) :
    ∃ taken, (receive limit script).result = .ok taken ∧ Received limit stream taken := by
  obtain ⟨taken, hresult, hpart, hlength, hend⟩ :=
    @takeIn_of_delivers limit [] stream script h (Nat.zero_le _)
  rw [List.nil_append] at hpart hend
  refine ⟨taken, hresult, hpart, hlength, ?complete, ?filled⟩
  case complete =>
    intro i hi hroom
    have hstream : i + 4 ≤ stream.length := Http.add_four_le_of_prefix hi.stands
    cases hend with
    | inr hall =>
        rw [hall]
        exact hstream
    | inl hwant =>
        rcases wanted?_eq_none_iff.1 hwant with hfull | ⟨j, hj⟩
        · omega
        · obtain ⟨hfirst, htaken⟩ := (findTerminator_part_iff hpart).1 hj
          have hsame : i ≤ j := hi.first j hfirst.stands
          omega
  case filled =>
    intro hlate
    have hle : taken.length ≤ stream.length := hpart.length_le
    have hall : taken.length = min limit stream.length := by
      cases hend with
      | inr hall => rw [hall] at hlength ⊢; omega
      | inl hwant =>
          rcases wanted?_eq_none_iff.1 hwant with hfull | ⟨j, hj⟩
          · omega
          · obtain ⟨hfirst, htaken⟩ := (findTerminator_part_iff hpart).1 hj
            have hfar := hlate j hfirst
            omega
    rw [← hall]
    exact List.prefix_iff_eq_take.1 hpart

/-! ## What is read from it -/

/-- Two readings of a buffer that differ in how much of the body there is, at most. -/
inductive SameButBody : Except RequestError Request → Except RequestError Request → Prop where
  | error (e : RequestError) : SameButBody (.error e) (.error e)
  | ok {first second : Request} (rest : first = { second with body := first.body })
      (body : first.body <+: second.body ∨ second.body <+: first.body) :
      SameButBody (.ok first) (.ok second)

/-- The head of a part of the stream that holds it. -/
theorem splitHead_of_part {taken stream : Bytes} (hpart : taken <+: stream) {i : Nat}
    (hi : IsFirstTerminator stream i) (hlong : i + 4 ≤ taken.length) :
    Http.splitHead taken = (stream.take i, taken.drop (i + 4)) := by
  have hfound : findTerminator taken = some i := (findTerminator_part_iff hpart).2 ⟨hi, hlong⟩
  rcases hpart with ⟨more, rfl⟩
  simp only [Http.splitHead, hfound, List.take_append_of_le_length (show i ≤ taken.length by omega)]
  rfl

theorem sameButBody_of_received {limit : Nat} {stream a b : Bytes} (ha : Received limit stream a)
    (hb : Received limit stream b) {i : Nat} (hi : IsFirstTerminator stream i)
    (hroom : i + 4 ≤ limit) :
    SameButBody (Request.parse a).value (Request.parse b).value := by
  have hlongA : i + 4 ≤ a.length := ha.complete i hi hroom
  have hlongB : i + 4 ≤ b.length := hb.complete i hi hroom
  rw [Http.value_parse, Http.value_parse, splitHead_of_part ha.isPrefix hi hlongA,
    splitHead_of_part hb.isPrefix hi hlongB]
  cases Http.readHead (stream.take i) with
  | error e => exact .error e
  | ok parts =>
      have hbodies : a.drop (i + 4) <+: b.drop (i + 4) ∨ b.drop (i + 4) <+: a.drop (i + 4) := by
        rcases List.prefix_or_prefix_of_prefix ha.isPrefix hb.isPrefix with hab | hba
        · exact .inl (hab.drop _)
        · exact .inr (hba.drop _)
      exact .ok rfl hbodies

theorem events_parse_of_received {limit : Nat} {stream a b : Bytes}
    (ha : Received limit stream a) (hb : Received limit stream b) {i : Nat}
    (hi : IsFirstTerminator stream i) (hroom : i + 4 ≤ limit) :
    (Request.parse a).events = (Request.parse b).events := by
  apply Http.events_parse
  rw [splitHead_of_part ha.isPrefix hi (ha.complete i hi hroom),
    splitHead_of_part hb.isPrefix hi (hb.complete i hi hroom)]

/-- What two intakes of one stream have in common. -/
structure Alike (limit : Nat) (stream a b : Bytes) : Prop where
  /-- A head that ends within the limit is there both times, and is read the same. -/
  early : ∀ i, IsFirstTerminator stream i → i + 4 ≤ limit →
    (a <+: stream ∧ i + 4 ≤ a.length ∧ a.length ≤ limit) ∧
    (b <+: stream ∧ i + 4 ≤ b.length ∧ b.length ≤ limit) ∧
    SameButBody (Request.parse a).value (Request.parse b).value ∧
    (Request.parse a).events = (Request.parse b).events
  /-- Otherwise the same bytes are there both times. -/
  late : (∀ i, IsFirstTerminator stream i → limit < i + 4) →
    a = stream.take (min limit stream.length) ∧ b = stream.take (min limit stream.length) ∧
    Request.parse a = Request.parse b

/-- What a request is does not depend on where the network cuts it, nor on
interruptions. -/
theorem receive_alike {stream : Bytes} {first second : List Delivery}
    (hfirst : Delivers first stream) (hsecond : Delivers second stream) (limit : Nat) :
    ∃ a b, (receive limit first).result = .ok a ∧ (receive limit second).result = .ok b ∧
      Alike limit stream a b := by
  rcases receive_of_delivers hfirst limit with ⟨a, hresultA, ha⟩
  rcases receive_of_delivers hsecond limit with ⟨b, hresultB, hb⟩
  refine ⟨a, b, hresultA, hresultB, ?early, ?late⟩
  case early =>
    intro i hi hroom
    have hlongA : i + 4 ≤ a.length := ha.complete i hi hroom
    have hlongB : i + 4 ≤ b.length := hb.complete i hi hroom
    exact ⟨⟨ha.isPrefix, hlongA, ha.length_le⟩, ⟨hb.isPrefix, hlongB, hb.length_le⟩,
      sameButBody_of_received ha hb hi hroom, events_parse_of_received ha hb hi hroom⟩
  case late =>
    intro hlate
    have hsame : a = b := (ha.filled hlate).trans (hb.filled hlate).symm
    exact ⟨ha.filled hlate, hb.filled hlate, congrArg Request.parse hsame⟩

/-- A request with a body. -/
def sample : Bytes := Text.bytes "GET / HTTP/1.1\r\n\r\nbody"

/-- The same request in three pieces, with the terminator in two of them. -/
def sampleInPieces : List Delivery :=
  [.fault .interrupted, .data (Text.bytes "GET / HTTP/1.1\r\n\r"), .fault .interrupted,
    .data (Text.bytes "\nb"), .data (Text.bytes "ody")]

theorem receive_alike_in_pieces :
    Delivers [.data sample] sample ∧ Delivers sampleInPieces sample ∧
      ∃ a b, (receive 64 [.data sample]).result = .ok a ∧
        (receive 64 sampleInPieces).result = .ok b ∧ Alike 64 sample a b := by
  have hwhole : Delivers [.data sample] sample := ⟨by decide, by decide, by simp⟩
  have hpieces : Delivers sampleInPieces sample :=
    ⟨by decide, by decide, by simp [sampleInPieces]⟩
  exact ⟨hwhole, hpieces, receive_alike hwhole hpieces 64⟩

end SiteServer.Connection
