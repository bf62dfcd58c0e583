import SiteServer.Connection.Respond
import SiteServer.Proofs.Connection.Delivered

/-!
# Whole conversations

The body of a request may come along with its head in part only, and how much of it
does is up to the network.  Nothing of an answer hangs on that but through the handlers:
what is logged of a request is its head, and the files of the site are found by its path.
Two readings of a stream are thus answered alike if no handler looks at bodies
(`respond_of_sameButBody`).

So are the conversations as a whole, down to their last event: for each stream of bytes
there is one, however the stream is delivered (`converse_alike`).
-/

namespace SiteServer

open Files (FileSystem)
open Http (IsFirstTerminator Request)

/-- No handler looks at the body of a request. -/
def Routes.IgnoreBodies (routes : Routes) : Prop :=
  ∀ path route, routes.find? path = some route →
    ∀ (fs : FileSystem) (request : Request) (body : Bytes),
      route.handler fs { request with body } = route.handler fs request

namespace Connection.Service

variable {service : Service} {fs : FileSystem}

theorem dispatch_withBody (blind : service.routes.IgnoreBodies) (request : Request)
    (body : Bytes) : service.dispatch fs { request with body } = service.dispatch fs request := by
  unfold dispatch Routes.handle
  cases hroute : service.routes.answering? request.path request.method with
  | none => rfl
  | some route =>
      have hfound := (Option.filter_eq_some_iff.1 hroute).1
      simp only [blind _ _ hfound]

/-- Buffers that are read alike, but for the body, are answered alike. -/
theorem respond_of_sameButBody (blind : service.routes.IgnoreBodies) {a b : Bytes}
    (hread : SameButBody (Request.parse a).value (Request.parse b).value)
    (hevents : (Request.parse a).events = (Request.parse b).events) :
    service.respond fs a = service.respond fs b := by
  refine Logged.bind_congr hevents ?_
  generalize (Request.parse a).value = first at hread
  generalize (Request.parse b).value = second at hread
  cases hread with
  | error e => rfl
  | @ok first second rest body =>
      -- the heads are the same, and are all that is logged
      rw [rest]
      show (logRequest second >>= fun _ => service.dispatch fs { second with body := first.body }) =
        logRequest second >>= fun _ => service.dispatch fs second
      rw [dispatch_withBody blind]

/-- What a peer gets, and what is logged of it, is settled by what the peer sends. -/
theorem converse_alike (blind : service.routes.IgnoreBodies) (fs : FileSystem) (peer : String)
    {stream : Bytes} {first second : List Delivery} (hfirst : Delivers first stream)
    (hsecond : Delivers second stream) :
    ∃ said, service.converse fs peer first = .ok said ∧
      service.converse fs peer second = .ok said := by
  obtain ⟨a, hresultA, ha⟩ := receive_of_delivers hfirst service.maxRequestSize
  obtain ⟨b, hresultB, hb⟩ := receive_of_delivers hsecond service.maxRequestSize
  have hspeak : service.speak fs peer a = service.speak fs peer b := by
    by_cases hhead : ∃ i, IsFirstTerminator stream i ∧ i + 4 ≤ service.maxRequestSize
    · obtain ⟨i, hi, hroom⟩ := hhead
      have hsome : ∀ {taken}, Received service.maxRequestSize stream taken →
          taken.isEmpty = false := by
        intro taken htaken
        have hlong := htaken.complete i hi hroom
        exact List.isEmpty_eq_false_iff.2 (List.ne_nil_of_length_pos (by omega))
      have hrespond : service.respond fs a = service.respond fs b :=
        respond_of_sameButBody blind (sameButBody_of_received ha hb hi hroom)
          (events_parse_of_received ha hb hi hroom)
      rw [speak, speak, reply, reply, hsome ha, hsome hb, hrespond]
    · have hlate : ∀ i, IsFirstTerminator stream i → service.maxRequestSize < i + 4 := by
        intro i hi
        exact Nat.lt_of_not_le fun hroom => hhead ⟨i, hi, hroom⟩
      rw [ha.filled hlate, hb.filled hlate]
  refine ⟨service.speak fs peer a, ?_, ?_⟩
  · rw [converse, hresultA]
    rfl
  · rw [converse, hresultB, hspeak]
    rfl

end Connection.Service
end SiteServer
