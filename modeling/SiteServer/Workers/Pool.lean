import SiteServer.Workers.Mailbox

/-!
# A pool of workers

A fixed number of workers share one queue of tasks.  The pool is described by
its state and by the moves that the threads around it can make, each of which
happens at one instant: whatever takes the lock is one move, and whatever
happens outside of it is another.

Handing in a task is two moves: under the lock it joins the queue, and only later
one sleeper is notified.  Between the two anything can happen.  A worker that
finds the queue empty falls asleep unless the pool is to stop, in which case it
exits; it wakes up when it is notified, and sometimes without reason.  A task
runs outside of the lock, and its end is told in a move of its own.  A shutdown
raises the flag, then wakes all sleepers, and then waits for the workers.

`step?` makes one move if it can be made, and a state is `Reachable` if some
sequence of moves leads to it.  The state keeps the history of what was accepted,
taken and ended, which no move looks at.
-/

namespace SiteServer.Workers

/-- A task that was accepted, with its number in the order of acceptance. -/
structure Job (α : Type) where
  ticket : Nat
  task : α
deriving DecidableEq, Repr

/-- Where a worker is in its round. -/
inductive Worker (α : Type) where
  /-- Awake, and on its way to the queue. -/
  | ready
  /-- Asleep until it is notified. -/
  | asleep
  | running (job : Job α)
  /-- Done with a task whose end it has yet to tell. -/
  | reporting (job : Job α) (outcome : Outcome)
  | exited
deriving DecidableEq, Repr

namespace Worker

variable {α : Type}

/-- Whether the worker sleeps. -/
def isAsleep : Worker α → Bool
  | asleep => true
  | _ => false

/-- Whether the worker is awake and will look at the queue next. -/
def isReady : Worker α → Bool
  | ready => true
  | _ => false

/-- Whether the worker has left its round. -/
def isExited : Worker α → Bool
  | exited => true
  | _ => false

/-- The task that the worker runs. -/
def job? : Worker α → Option (Job α)
  | running job => some job
  | _ => none

/-- Wakes a sleeper. -/
def woken : Worker α → Worker α
  | asleep => ready
  | worker => worker

end Worker

/-- How far a shutdown has come. -/
inductive Closing where
  | notAsked
  /-- The flag is raised. -/
  | flagged
  /-- All sleepers were woken, and the workers are waited for. -/
  | joining
  | joined
  /-- The pool itself is gone. -/
  | dropped
deriving DecidableEq, Repr

/-- The state of a pool. -/
structure Pool (α : Type) where
  size : Nat
  /-- Whether the pool is to stop. -/
  stop : Bool
  /-- The tasks that wait, in order. -/
  queue : List (Job α)
  workers : List (Worker α)
  /-- How many notifications of one sleeper are still to be issued. -/
  notifies : Nat
  closing : Closing
  /-- The channel of each accepted task, by ticket. -/
  mail : List Mailbox
  /-- The tasks accepted so far, in order. -/
  accepted : List (Job α)
  /-- Which worker took which task, in order. -/
  taken : List (Nat × Job α)
  /-- Which worker has ended which task, and how, in order. -/
  ended : List (Nat × Job α × Outcome)

/-- One move of a thread. -/
inductive Move (α : Type) where
  /-- Under the lock, a task joins the queue or is refused. -/
  | submit (task : α)
  /-- One notification is issued: for a sleeper, or for nobody if all are awake. -/
  | notifyOne (sleeper : Option Nat)
  /-- A worker looks at the queue. -/
  | poll (worker : Nat)
  /-- A sleeper wakes up without reason. -/
  | stir (worker : Nat)
  /-- The task of a worker ends. -/
  | finish (worker : Nat) (outcome : Outcome)
  /-- A worker tells how its task ended. -/
  | tell (worker : Nat)
  /-- Somebody lets the handle of a task go. -/
  | discard (ticket : Nat)
  /-- A shutdown raises the flag. -/
  | flag
  /-- The shutdown wakes all sleepers. -/
  | notifyAll
  /-- The shutdown has seen all workers exit. -/
  | join
  /-- The pool goes away, with whatever is left in its queue. -/
  | drop
deriving DecidableEq, Repr

namespace Pool

variable {α : Type}

/-- A pool whose workers have just started. -/
def start (size : Nat) : Pool α where
  size := size
  stop := false
  queue := []
  workers := List.replicate size .ready
  notifies := 0
  closing := .notAsked
  mail := []
  accepted := []
  taken := []
  ended := []

/-- Opens a pool; `spawnFault? i` says what keeps the thread of worker `i` from
being started. -/
def create (size : Nat) (spawnFault? : Nat → Option String) : Except PoolError (Pool α) :=
  if size = 0 then .error .invalidSize
  else match (List.range size).findSome? spawnFault? with
    | some why => .error (.spawnFailed why)
    | none => .ok (start size)

/-- Puts a worker into another place of its round. -/
def setWorker (pool : Pool α) (w : Nat) (worker : Worker α) : Pool α :=
  { pool with workers := pool.workers.set w worker }

/-- Changes the channel of a task. -/
def updateMail (pool : Pool α) (ticket : Nat) (f : Mailbox → Mailbox) : Pool α :=
  { pool with mail := pool.mail.modify ticket f }

/-- Puts a task into the queue; a pool that is to stop refuses it. -/
def submit (pool : Pool α) (task : α) : Except PoolError (Pool α) :=
  if pool.stop then .error .stopped
  else
    let job : Job α := ⟨pool.accepted.length, task⟩
    .ok { pool with
      queue := pool.queue ++ [job]
      notifies := pool.notifies + 1
      mail := pool.mail ++ [.fresh]
      accepted := pool.accepted ++ [job] }

/-- A worker looks at the queue: it takes the first task, falls asleep if there
is none, and exits if there is none and the pool is to stop. -/
def poll (pool : Pool α) (w : Nat) : Pool α :=
  match pool.queue with
  | job :: rest =>
    { pool with
      queue := rest
      workers := pool.workers.set w (.running job)
      taken := pool.taken ++ [(w, job)] }
  | [] => pool.setWorker w (if pool.stop then .exited else .asleep)

/-- Makes a move, if it can be made. -/
def step? (pool : Pool α) : Move α → Option (Pool α)
  | .submit task =>
    match pool.submit task with
    | .ok after => some after
    | .error _ => some pool
  | .notifyOne none =>
    if pool.notifies = 0 ∨ pool.workers.any Worker.isAsleep then none
    else some { pool with notifies := pool.notifies - 1 }
  | .notifyOne (some w) =>
    match pool.workers[w]? with
    | some .asleep =>
      if pool.notifies = 0 then none
      else some { pool.setWorker w .ready with notifies := pool.notifies - 1 }
    | _ => none
  | .poll w =>
    match pool.workers[w]? with
    | some .ready => some (pool.poll w)
    | _ => none
  | .stir w =>
    match pool.workers[w]? with
    | some .asleep => some (pool.setWorker w .ready)
    | _ => none
  | .finish w outcome =>
    match pool.workers[w]? with
    | some (.running job) =>
      some { pool.setWorker w (.reporting job outcome) with
        ended := pool.ended ++ [(w, job, outcome)] }
    | _ => none
  | .tell w =>
    match pool.workers[w]? with
    | some (.reporting job outcome) =>
      some ((pool.setWorker w .ready).updateMail job.ticket (Mailbox.tell outcome))
    | _ => none
  | .discard ticket =>
    if ticket < pool.mail.length then some (pool.updateMail ticket Mailbox.discard)
    else none
  | .flag =>
    match pool.closing with
    | .notAsked | .joined => some { pool with stop := true, closing := .flagged }
    | _ => none
  | .notifyAll =>
    match pool.closing with
    | .flagged =>
      some { pool with workers := pool.workers.map Worker.woken, closing := .joining }
    | _ => none
  | .join =>
    match pool.closing with
    | .joining =>
      if pool.workers.all Worker.isExited then some { pool with closing := .joined } else none
    | _ => none
  | .drop =>
    match pool.closing with
    | .joined =>
      some { pool with
        queue := []
        mail := pool.queue.foldl (fun mail job => mail.modify job.ticket Mailbox.abandon) pool.mail
        closing := .dropped }
    | _ => none

/-- Makes moves one after another, if all of them can be made. -/
def steps? (pool : Pool α) : List (Move α) → Option (Pool α)
  | [] => some pool
  | move :: moves => (pool.step? move).bind fun after => steps? after moves

/-- A state of a pool of `size` workers that some sequence of moves leads to. -/
def Reachable (size : Nat) (pool : Pool α) : Prop :=
  ∃ moves, steps? (start size) moves = some pool

/-- The number of tasks that wait. -/
def queued (pool : Pool α) : Nat := pool.queue.length

/-- What waiting for a task gives, once the waiter comes back. -/
def result? (pool : Pool α) (ticket : Nat) : Option (Except PoolError Unit) :=
  match pool.mail[ticket]? with
  | some box => if box.isDue then some box.result else none
  | none => none

theorem steps?_append (pool : Pool α) (moves more : List (Move α)) :
    pool.steps? (moves ++ more) = (pool.steps? moves).bind (·.steps? more) := by
  induction moves generalizing pool with
  | nil => rfl
  | cons move moves ih =>
      simp only [List.cons_append, steps?]
      cases pool.step? move with
      | none => rfl
      | some after => simpa using ih after

theorem reachable_start (size : Nat) : Reachable size (start size : Pool α) := ⟨[], rfl⟩

/-- A move leads from a reachable state to a reachable one. -/
theorem Reachable.step? {size : Nat} {pool after : Pool α} {move : Move α}
    (h : Reachable size pool) (hmove : pool.step? move = some after) :
    Reachable size after := by
  obtain ⟨moves, hrun⟩ := h
  exact ⟨moves ++ [move], by rw [steps?_append, hrun]; simp [steps?, hmove]⟩

end Pool

end SiteServer.Workers
