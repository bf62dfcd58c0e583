import SiteServer.Http.Head

/-!
# Taking a request in

A request is read from its connection in pieces, until its head is complete, the
peer has no more to send, or as many bytes as are allowed were taken.  A read
asks for at most `chunkSize` bytes and for no more than may still be taken.  A
read that was interrupted is tried again; any other failure ends the intake.

What a connection delivers is written down as a script: the data of each arrival
and the failures between them.  A read takes from the first arrival only, and
leaves what it did not ask for.
-/

namespace SiteServer.Connection

/-- Why a read fails: it was interrupted, or there is a word of the system about it. -/
inductive ReadFault where
  | interrupted
  | failed (why : String)
deriving DecidableEq, Repr

/-- What one read, or several, find on a connection. -/
inductive Delivery where
  | data (bytes : Bytes)
  | fault (why : ReadFault)
deriving DecidableEq, Repr

namespace Delivery

/-- The data of a delivery. -/
def bytes : Delivery → Bytes
  | data bs => bs
  | fault _ => []

end Delivery

/-- The data of a script, in order. -/
def scriptData (script : List Delivery) : Bytes :=
  script.flatMap Delivery.bytes

/-- Reads at most `want` bytes. -/
def read (want : Nat) : List Delivery → Except ReadFault Bytes × List Delivery
  | [] => (.ok [], [])
  | .fault why :: rest => (.error why, rest)
  | .data bs :: rest =>
    (.ok (bs.take want),
      match bs.drop want with
      | [] => rest
      | left => .data left :: rest)

/-- The most that one read asks for. -/
def chunkSize : Nat := 4096

/-- The outcome of an intake: what was received or why it failed, how much each
read asked for, and what was left on the connection. -/
structure Intake where
  result : Except ReadFault Bytes
  asked : List Nat
  left : List Delivery

/-- How much a script can still keep an intake busy. -/
def scriptWeight : List Delivery → Nat
  | [] => 0
  | d :: rest => d.bytes.length + 1 + scriptWeight rest

/-- A read that gives data or fails leaves less of the script. -/
theorem scriptWeight_read {want : Nat} {script : List Delivery} (hwant : 0 < want)
    (h : (read want script).1 ≠ .ok []) :
    scriptWeight (read want script).2 < scriptWeight script := by
  match script with
  | [] => simp [read] at h
  | .fault why :: rest => simp [read, scriptWeight]
  | .data bs :: rest =>
      have hbs : bs ≠ [] := by
        rintro rfl
        simp [read] at h
      have hlen : 0 < bs.length := List.length_pos_iff.2 hbs
      simp only [read]
      split
      · simp [scriptWeight]
      · simp only [scriptWeight, Delivery.bytes, List.length_drop]
        omega

/-- How much the next read asks for: nothing once the head is complete or no more
bytes are allowed. -/
def wanted? (limit : Nat) (received : Bytes) : Option Nat :=
  if received.length < limit ∧ (Http.findTerminator received).isNone then
    some (min chunkSize (limit - received.length))
  else none

theorem wanted?_eq_some {limit want : Nat} {received : Bytes}
    (h : wanted? limit received = some want) :
    0 < want ∧ want ≤ chunkSize ∧ want ≤ limit - received.length := by
  unfold wanted? at h
  split at h
  · next hroom =>
      obtain rfl := Option.some.inj h
      have : 0 < chunkSize := by decide
      omega
  · simp at h

/-- Takes bytes in from a script, up to `limit`, after some were received. -/
def takeIn (limit : Nat) (received : Bytes) (script : List Delivery) : Intake :=
  match _hwant : wanted? limit received with
  | none => ⟨.ok received, [], script⟩
  | some want =>
    match _hread : read want script with
    | (.ok [], left) => ⟨.ok received, [want], left⟩
    | (.ok (b :: more), left) =>
      let next := takeIn limit (received ++ b :: more) left
      { next with asked := want :: next.asked }
    | (.error .interrupted, left) =>
      let next := takeIn limit received left
      { next with asked := want :: next.asked }
    | (.error why, left) => ⟨.error why, [want], left⟩
termination_by scriptWeight script
decreasing_by
  all_goals
    have := @scriptWeight_read _ script (wanted?_eq_some _hwant).1 (by rw [_hread]; simp)
    rwa [_hread] at this

/-- Takes a request in. -/
def receive (limit : Nat) (script : List Delivery) : Intake :=
  takeIn limit [] script

end SiteServer.Connection
