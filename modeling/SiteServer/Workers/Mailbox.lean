/-!
# Word of a task's end

Whoever hands a task to the pool keeps one end of a channel that carries a single
word: how the task ended.  The other end travels with the task, through the queue
and to the worker that runs it.  Either end may be let go of, and letting go of
the receiving end never disturbs the sender.

A waiter comes back once there is a word or the sending end is gone.  No word at
all counts like word of a panic, so a sending end that was dropped in silence
would be taken for a failed task.
-/

namespace SiteServer.Workers

/-- How a task ends. -/
inductive Outcome where
  | returned
  | panicked
deriving DecidableEq, Repr

/-- Why the pool refuses a call, or what a waiter learns of a failed task. -/
inductive PoolError where
  /-- The pool takes no more tasks. -/
  | stopped
  | taskPanicked
  /-- A pool without workers. -/
  | invalidSize
  /-- The system gave no thread for a worker. -/
  | spawnFailed (why : String)
deriving DecidableEq, Repr

/-- The wording of an error. -/
def PoolError.message : PoolError → String
  | stopped => "enqueue on stopped worker pool"
  | taskPanicked => "task panicked"
  | invalidSize => "worker pool size must be >= 1"
  | spawnFailed _ => "failed to spawn worker thread"

/-- What the system said, where the error comes from it. -/
def PoolError.cause? : PoolError → Option String
  | spawnFailed why => some why
  | _ => none

/-- The channel between a task and whoever handed it in. -/
structure Mailbox where
  /-- The word that was sent. -/
  word : Option Outcome
  /-- Whether the sending end is still held. -/
  sender : Bool
  /-- Whether the receiving end is still held. -/
  receiver : Bool
deriving DecidableEq, Repr

namespace Mailbox

/-- A channel with both ends held. -/
def fresh : Mailbox := ⟨none, true, true⟩

/-- Sends word of the end and lets the sending end go.  Without a receiver the
word is lost. -/
def tell (outcome : Outcome) (box : Mailbox) : Mailbox :=
  { box with word := if box.receiver then some outcome else box.word, sender := false }

/-- Lets the sending end go without a word. -/
def abandon (box : Mailbox) : Mailbox := { box with sender := false }

/-- Lets the receiving end go. -/
def discard (box : Mailbox) : Mailbox := { box with receiver := false }

/-- Whether a waiter comes back. -/
def isDue (box : Mailbox) : Bool := box.word.isSome || !box.sender

/-- What a waiter learns when it comes back. -/
def result (box : Mailbox) : Except PoolError Unit :=
  match box.word with
  | some .returned => .ok ()
  | _ => .error .taskPanicked

end Mailbox

end SiteServer.Workers
