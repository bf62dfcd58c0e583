import SiteServer.Workers.Pool

/-!
# Letting the workers go on

Of the many orders in which the moves of a pool can come, one is singled out: no
notification waits, no sleeper stirs without reason, and as long as a worker can
go on the first such worker does.  `settle` follows it until all workers are
asleep, gone, or held up by a task that does not end.

Every move of a worker brings the pool nearer to rest, which is what `workLeft`
measures and why settling comes to an end.
-/

namespace SiteServer.Workers.Pool

variable {α : Type}

/-- What is left to do in a worker's round. -/
def roundLeft : Worker α → Nat
  | .running _ => 3
  | .reporting .. => 2
  | .ready => 1
  | .asleep => 0
  | .exited => 0

/-- What is left to do in the rounds of all workers. -/
def roundsLeft : List (Worker α) → Nat
  | [] => 0
  | worker :: rest => roundLeft worker + roundsLeft rest

/-- What is left to do before the pool comes to rest. -/
def workLeft (pool : Pool α) : Nat :=
  roundsLeft pool.workers + 4 * pool.queue.length + 2 * pool.notifies

/-- Whether a move is work that brings the pool nearer to rest. -/
def isWork : Move α → Bool
  | .notifyOne _ => true
  | .poll _ => true
  | .finish .. => true
  | .tell _ => true
  | _ => false

theorem roundsLeft_set {workers : List (Worker α)} {w : Nat} {old : Worker α}
    (new : Worker α) (h : workers[w]? = some old) :
    roundsLeft (workers.set w new) + roundLeft old =
      roundsLeft workers + roundLeft new := by
  induction workers generalizing w with
  | nil => simp at h
  | cons worker workers ih =>
      cases w with
      | zero =>
          obtain rfl : worker = old := by simpa using h
          simp only [List.set_cons_zero, roundsLeft]
          omega
      | succ w =>
          have := ih (by simpa using h)
          simp only [List.set_cons_succ, roundsLeft]
          omega

/-- Work brings the pool nearer to rest. -/
theorem workLeft_step? {pool after : Pool α} {move : Move α} (hwork : isWork move = true)
    (h : pool.step? move = some after) : after.workLeft < pool.workLeft := by
  cases move with
  | notifyOne sleeper =>
      cases sleeper with
      | none =>
          simp only [step?] at h
          split at h
          · simp at h
          · rename_i hfree
            obtain rfl := Option.some.inj h
            simp only [workLeft]
            have : pool.notifies ≠ 0 := fun h0 => hfree (.inl h0)
            omega
      | some w =>
          simp only [step?] at h
          split at h
          · rename_i hw
            split at h
            · simp at h
            · obtain rfl := Option.some.inj h
              have hset := roundsLeft_set .ready hw
              simp only [roundLeft] at hset
              simp only [workLeft, setWorker]
              omega
          · simp at h
  | poll w =>
      simp only [step?] at h
      split at h
      · rename_i hw
        obtain rfl := Option.some.inj h
        simp only [poll]
        split
        · rename_i job rest hq
          have hset := roundsLeft_set (.running job) hw
          simp only [roundLeft] at hset
          simp only [workLeft, hq, List.length_cons]
          omega
        · have hset := roundsLeft_set (if pool.stop then .exited else .asleep) hw
          have hrest : roundLeft (if pool.stop then .exited else .asleep : Worker α) = 0 := by
            split <;> rfl
          rw [hrest] at hset
          simp only [roundLeft] at hset
          simp only [workLeft, setWorker]
          omega
      · simp at h
  | finish w outcome =>
      simp only [step?] at h
      split at h
      · rename_i job hw
        obtain rfl := Option.some.inj h
        have hset := roundsLeft_set (.reporting job outcome) hw
        simp only [roundLeft] at hset
        simp only [workLeft, setWorker]
        omega
      · simp at h
  | tell w =>
      simp only [step?] at h
      split at h
      · rename_i job outcome hw
        obtain rfl := Option.some.inj h
        have hset := roundsLeft_set .ready hw
        simp only [roundLeft] at hset
        simp only [workLeft, setWorker, updateMail]
        omega
      · simp at h
  | submit | stir | discard | flag | notifyAll | join | drop => simp [isWork] at hwork

/-- The move with which a worker goes on, if it can; `ends` says how a task ends,
if it does. -/
def workOf (ends : α → Option Outcome) (w : Nat) : Worker α → Option (Move α)
  | .ready => some (.poll w)
  | .running job => (ends job.task).map (.finish w)
  | .reporting .. => some (.tell w)
  | .asleep => none
  | .exited => none

/-- The next piece of work: a notification, or the move of the first worker that
can go on. -/
def nextWork? (ends : α → Option Outcome) (pool : Pool α) : Option (Move α) :=
  if pool.notifies = 0 then
    pool.workers.zipIdx.findSome? fun (worker, w) => workOf ends w worker
  else some (.notifyOne (pool.workers.findIdx? Worker.isAsleep))

theorem isWork_of_workOf {ends : α → Option Outcome} {w : Nat} {worker : Worker α}
    {move : Move α} (h : workOf ends w worker = some move) : isWork move = true := by
  cases worker with
  | ready => obtain rfl := Option.some.inj h; rfl
  | asleep => simp [workOf] at h
  | running job =>
      obtain ⟨outcome, -, rfl⟩ := Option.map_eq_some_iff.1 h
      rfl
  | reporting job outcome => obtain rfl := Option.some.inj h; rfl
  | exited => simp [workOf] at h

theorem isWork_of_nextWork? {ends : α → Option Outcome} {pool : Pool α} {move : Move α}
    (h : nextWork? ends pool = some move) : isWork move = true := by
  unfold nextWork? at h
  split at h
  · obtain ⟨⟨worker, w⟩, -, hmove⟩ := List.exists_of_findSome?_eq_some h
    exact isWork_of_workOf hmove
  · obtain rfl := Option.some.inj h
    rfl

/-- Lets the workers go on until none of them can. -/
def settle (ends : α → Option Outcome) (pool : Pool α) : Pool α :=
  match _hnext : nextWork? ends pool with
  | none => pool
  | some move =>
    match _hmove : pool.step? move with
    | none => pool
    | some after => settle ends after
termination_by pool.workLeft
decreasing_by exact workLeft_step? (isWork_of_nextWork? _hnext) _hmove

/-- Makes a move, if it can be made, and lets the workers go on. -/
def proceed (ends : α → Option Outcome) (pool : Pool α) (move : Move α) : Pool α :=
  ((pool.step? move).getD pool).settle ends

/-- Hands a task in and lets the workers go on. -/
def enqueue (ends : α → Option Outcome) (pool : Pool α) (task : α) :
    Except PoolError (Pool α) :=
  (pool.submit task).map (settle ends)

/-- A whole shutdown, during which every task ends. -/
def shutdown (ends : α → Outcome) (pool : Pool α) : Pool α :=
  [Move.flag, .notifyAll, .join].foldl (proceed (some ∘ ends)) pool

/-- Settling leads to a reachable state. -/
theorem Reachable.settle {size : Nat} {pool : Pool α} (ends : α → Option Outcome)
    (h : Reachable size pool) : Reachable size (pool.settle ends) := by
  fun_induction Pool.settle ends pool with
  | case1 => exact h
  | case2 => exact h
  | case3 pool move _ after hmove ih => exact ih (h.step? hmove)

end SiteServer.Workers.Pool
