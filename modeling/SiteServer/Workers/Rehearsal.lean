import SiteServer.Workers.Schedule

/-!
# Rehearsing a pool

A pool is tried with tasks of three kinds: one returns, one panics, and one is a
gate that holds its worker until all gates are released.  Between two calls the
workers go as far as they can.

A rehearsal keeps the handles of the tasks under the names they were given.  Only
the tasks that have a name appear in the list of what ran.
-/

namespace SiteServer.Workers

/-- A task of a rehearsal. -/
inductive Piece where
  | returns (name : Int)
  | panics (name : Int)
  /-- Holds its worker until it is released. -/
  | gate
deriving DecidableEq, Repr

namespace Piece

/-- The name of a task that has one. -/
def name? : Piece → Option Int
  | returns name => some name
  | panics name => some name
  | gate => none

/-- How a task ends while the gates are held. -/
def endsHeld : Piece → Option Outcome
  | returns _ => some .returned
  | panics _ => some .panicked
  | gate => none

/-- How a task ends once the gates are released. -/
def endsReleased : Piece → Outcome
  | returns _ => .returned
  | panics _ => .panicked
  | gate => .returned

end Piece

/-- Why a call of a rehearsal fails. -/
inductive RehearsalError where
  | pool (e : PoolError)
  /-- As many gates are held as there are workers. -/
  | allBlocked
  /-- No handle under this name. -/
  | noSuchTask
deriving DecidableEq, Repr

/-- A pool on trial. -/
structure Rehearsal where
  pool : Pool Piece
  /-- How many gates are held. -/
  held : Nat
  /-- The tickets of the handles that are kept, by name. -/
  handles : List (Int × Nat)

namespace Rehearsal

/-- A rehearsal with a new pool. -/
def create (size : Nat) : Except PoolError Rehearsal :=
  (Pool.create size fun _ => none).map fun pool =>
    ⟨pool.settle Piece.endsHeld, 0, []⟩

/-- Hands a task in. -/
def submit (r : Rehearsal) (piece : Piece) : Except RehearsalError Rehearsal :=
  match r.pool.enqueue Piece.endsHeld piece with
  | .error e => .error (.pool e)
  | .ok pool => .ok { r with pool }

/-- Hands a named task in and keeps its handle. -/
def enqueue (r : Rehearsal) (name : Int) (piece : Piece) : Except RehearsalError Rehearsal :=
  (r.submit piece).map fun after =>
    { after with
      handles := (name, r.pool.accepted.length) :: r.handles.filter (·.1 ≠ name) }

/-- Holds one more worker with a gate. -/
def block (r : Rehearsal) : Except RehearsalError Rehearsal :=
  if r.pool.size ≤ r.held then .error .allBlocked
  else (r.submit .gate).map fun after => { after with held := r.held + 1 }

/-- Releases all gates. -/
def release (r : Rehearsal) : Rehearsal :=
  { r with pool := r.pool.settle (some ∘ Piece.endsReleased), held := 0 }

/-- Lets a handle go; says whether there was one. -/
def discard (r : Rehearsal) (name : Int) : Rehearsal × Bool :=
  match r.handles.lookup name with
  | none => (r, false)
  | some ticket =>
    ({ r with
        pool := r.pool.proceed Piece.endsHeld (.discard ticket)
        handles := r.handles.filter (·.1 ≠ name) }, true)

/-- Releases all gates and waits for a task, whose handle is used up by it. -/
def wait (r : Rehearsal) (name : Int) : Rehearsal × Except RehearsalError Unit :=
  let r := r.release
  match r.handles.lookup name with
  | none => (r, .error .noSuchTask)
  | some ticket =>
    ((r.discard name).1,
      match r.pool.result? ticket with
      | some (.error e) => .error (.pool e)
      | _ => .ok ())

/-- Releases all gates and shuts the pool down. -/
def shutdown (r : Rehearsal) : Rehearsal :=
  { r.release with pool := r.release.pool.shutdown Piece.endsReleased }

/-- The named tasks that ran: in order for a single worker, sorted for more. -/
def ran (r : Rehearsal) : List Int :=
  let names := r.pool.taken.filterMap fun (_, job) => job.task.name?
  if r.pool.size = 1 then names else names.mergeSort

end Rehearsal

end SiteServer.Workers
