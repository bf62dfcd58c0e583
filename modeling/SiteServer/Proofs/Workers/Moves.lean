import SiteServer.Workers.Pool

/-!
# What a move can do

The moves of a pool as a relation, with one case for each way in which a move can
turn out: what it asks for, and the state that it leads to.  It holds exactly of
the moves that can be made (`step?_eq_some_iff`), so whatever is to be kept by
all of them is shown case by case here and nowhere through the step function.

`Reachable.induction` is the induction over runs, once and for all.
-/

namespace SiteServer.Workers.Pool

variable {α : Type}

/-- The task as it joins the queue. -/
def newJob (pool : Pool α) (task : α) : Job α := ⟨pool.accepted.length, task⟩

/-- The pool with one more task in its queue. -/
def accept (pool : Pool α) (task : α) : Pool α :=
  { pool with
    queue := pool.queue ++ [pool.newJob task]
    notifies := pool.notifies + 1
    mail := pool.mail ++ [.fresh]
    accepted := pool.accepted ++ [pool.newJob task] }

/-- One move, what it asks for, and what it does. -/
inductive Step (pool : Pool α) : Move α → Pool α → Prop where
  | accepted (task : α) (running : pool.stop = false) :
      Step pool (.submit task) (pool.accept task)
  | refused (task : α) (stopping : pool.stop = true) : Step pool (.submit task) pool
  /-- A notification that finds nobody asleep. -/
  | unheard (owed : pool.notifies ≠ 0) (awake : ∀ worker ∈ pool.workers, worker ≠ .asleep) :
      Step pool (.notifyOne none) { pool with notifies := pool.notifies - 1 }
  | roused {w : Nat} (owed : pool.notifies ≠ 0) (asleep : pool.workers[w]? = some .asleep) :
      Step pool (.notifyOne (some w))
        { pool.setWorker w .ready with notifies := pool.notifies - 1 }
  | took {w : Nat} {job : Job α} {rest : List (Job α)} (ready : pool.workers[w]? = some .ready)
      (first : pool.queue = job :: rest) :
      Step pool (.poll w)
        { pool with
          queue := rest
          workers := pool.workers.set w (.running job)
          taken := pool.taken ++ [(w, job)] }
  | fellAsleep {w : Nat} (ready : pool.workers[w]? = some .ready) (empty : pool.queue = [])
      (running : pool.stop = false) : Step pool (.poll w) (pool.setWorker w .asleep)
  | left {w : Nat} (ready : pool.workers[w]? = some .ready) (empty : pool.queue = [])
      (stopping : pool.stop = true) : Step pool (.poll w) (pool.setWorker w .exited)
  | stirred {w : Nat} (asleep : pool.workers[w]? = some .asleep) :
      Step pool (.stir w) (pool.setWorker w .ready)
  | finished {w : Nat} {job : Job α} {outcome : Outcome}
      (running : pool.workers[w]? = some (.running job)) :
      Step pool (.finish w outcome)
        { pool.setWorker w (.reporting job outcome) with
          ended := pool.ended ++ [(w, job, outcome)] }
  | told {w : Nat} {job : Job α} {outcome : Outcome}
      (reporting : pool.workers[w]? = some (.reporting job outcome)) :
      Step pool (.tell w) ((pool.setWorker w .ready).updateMail job.ticket (Mailbox.tell outcome))
  | discarded {ticket : Nat} (known : ticket < pool.mail.length) :
      Step pool (.discard ticket) (pool.updateMail ticket Mailbox.discard)
  | flagged (closing : pool.closing = .notAsked ∨ pool.closing = .joined) :
      Step pool .flag { pool with stop := true, closing := .flagged }
  | wokeAll (closing : pool.closing = .flagged) :
      Step pool .notifyAll
        { pool with workers := pool.workers.map Worker.woken, closing := .joining }
  | joined (closing : pool.closing = .joining)
      (exited : ∀ worker ∈ pool.workers, worker = .exited) :
      Step pool .join { pool with closing := .joined }
  | dropped (closing : pool.closing = .joined) :
      Step pool .drop
        { pool with
          queue := []
          mail := pool.queue.foldl (fun mail job => mail.modify job.ticket Mailbox.abandon)
            pool.mail
          closing := .dropped }

theorem any_isAsleep_eq_false_iff {workers : List (Worker α)} :
    workers.any Worker.isAsleep = false ↔ ∀ worker ∈ workers, worker ≠ .asleep := by
  rw [List.any_eq_false]
  constructor
  · intro h worker hmem heq
    subst heq
    exact h _ hmem rfl
  · intro h worker hmem
    have hne := h worker hmem
    cases worker <;> simp_all [Worker.isAsleep]

theorem all_isExited_iff {workers : List (Worker α)} :
    workers.all Worker.isExited = true ↔ ∀ worker ∈ workers, worker = .exited := by
  rw [List.all_eq_true]
  constructor
  · intro h worker hmem
    have hexited := h worker hmem
    cases worker <;> simp_all [Worker.isExited]
  · intro h worker hmem
    rw [h worker hmem]
    rfl

theorem submit_of_running {pool : Pool α} (h : pool.stop = false) (task : α) :
    pool.submit task = .ok (pool.accept task) := by
  rw [submit, if_neg (by simp [h])]
  rfl

theorem submit_of_stopping {pool : Pool α} (h : pool.stop = true) (task : α) :
    pool.submit task = .error .stopped := by
  rw [submit, if_pos h]

/-- Each case of the relation is a move that can be made. -/
theorem Step.step? {pool after : Pool α} {move : Move α} (h : Step pool move after) :
    pool.step? move = some after := by
  cases h with
  | accepted task running => simp [Pool.step?, submit_of_running running]
  | refused task stopping => simp [Pool.step?, submit_of_stopping stopping]
  | unheard owed awake => simp [Pool.step?, owed, any_isAsleep_eq_false_iff.2 awake]
  | roused owed asleep => simp [Pool.step?, asleep, owed]
  | took ready first => simp [Pool.step?, ready, poll, first]
  | fellAsleep ready empty running => simp [Pool.step?, ready, poll, empty, running]
  | left ready empty stopping => simp [Pool.step?, ready, poll, empty, stopping]
  | stirred asleep => simp [Pool.step?, asleep]
  | finished running => simp [Pool.step?, running]
  | told reporting => simp [Pool.step?, reporting]
  | discarded known => simp [Pool.step?, known]
  | flagged closing => rcases closing with h | h <;> simp [Pool.step?, h]
  | wokeAll closing => simp [Pool.step?, closing]
  | joined closing exited => simp [Pool.step?, closing, all_isExited_iff.2 exited]
  | dropped closing => simp [Pool.step?, closing]

/-- A move that can be made is one of the cases of the relation. -/
theorem step_of_step? {pool after : Pool α} {move : Move α} (h : pool.step? move = some after) :
    Step pool move after := by
  cases move with
  | submit task =>
      cases hstop : pool.stop with
      | false =>
          simp only [Pool.step?, submit_of_running hstop, Option.some.injEq] at h
          exact h ▸ .accepted task hstop
      | true =>
          simp only [Pool.step?, submit_of_stopping hstop, Option.some.injEq] at h
          exact h ▸ .refused task hstop
  | notifyOne sleeper =>
      cases sleeper with
      | none =>
          simp only [Pool.step?, Option.ite_none_left_eq_some, not_or, Bool.not_eq_true,
            any_isAsleep_eq_false_iff, Option.some.injEq] at h
          exact h.2 ▸ .unheard h.1.1 h.1.2
      | some w =>
          simp only [Pool.step?] at h
          split at h
          · rename_i hw
            simp only [Option.ite_none_left_eq_some, Option.some.injEq] at h
            exact h.2 ▸ .roused h.1 hw
          · contradiction
  | poll w =>
      simp only [Pool.step?] at h
      split at h
      · rename_i hw
        cases hqueue : pool.queue with
        | cons job rest =>
            simp only [poll, hqueue, Option.some.injEq] at h
            exact h ▸ .took hw hqueue
        | nil =>
            cases hstop : pool.stop with
            | false =>
                simp only [poll, hqueue, hstop, Bool.false_eq_true, if_false,
                  Option.some.injEq] at h
                exact h ▸ .fellAsleep hw hqueue hstop
            | true =>
                simp only [poll, hqueue, hstop, if_true, Option.some.injEq] at h
                exact h ▸ .left hw hqueue hstop
      · contradiction
  | stir w =>
      simp only [Pool.step?] at h
      split at h
      · rename_i hw
        exact Option.some.inj h ▸ .stirred hw
      · contradiction
  | finish w outcome =>
      simp only [Pool.step?] at h
      split at h
      · rename_i job hw
        exact Option.some.inj h ▸ .finished hw
      · contradiction
  | tell w =>
      simp only [Pool.step?] at h
      split at h
      · rename_i job outcome hw
        exact Option.some.inj h ▸ .told hw
      · contradiction
  | discard ticket =>
      simp only [Pool.step?, Option.ite_none_right_eq_some, Option.some.injEq] at h
      exact h.2 ▸ .discarded h.1
  | flag =>
      simp only [Pool.step?] at h
      split at h
      · rename_i hclosing
        exact Option.some.inj h ▸ .flagged (.inl hclosing)
      · rename_i hclosing
        exact Option.some.inj h ▸ .flagged (.inr hclosing)
      · contradiction
  | notifyAll =>
      simp only [Pool.step?] at h
      split at h
      · rename_i hclosing
        exact Option.some.inj h ▸ .wokeAll hclosing
      · contradiction
  | join =>
      simp only [Pool.step?] at h
      split at h
      · rename_i hclosing
        simp only [Option.ite_none_right_eq_some, Option.some.injEq, all_isExited_iff] at h
        exact h.2 ▸ .joined hclosing h.1
      · contradiction
  | drop =>
      simp only [Pool.step?] at h
      split at h
      · rename_i hclosing
        exact Option.some.inj h ▸ .dropped hclosing
      · contradiction

/-- The relation holds exactly of the moves that can be made. -/
theorem step?_eq_some_iff {pool after : Pool α} {move : Move α} :
    pool.step? move = some after ↔ Step pool move after :=
  ⟨step_of_step?, Step.step?⟩

/-! ## Runs -/

/-- What every move keeps, a run keeps. -/
theorem invariant_of_steps? (Holds : Pool α → Prop)
    (kept : ∀ {pool after : Pool α} {move : Move α}, Step pool move after → Holds pool →
      Holds after)
    {pool after : Pool α} {moves : List (Move α)} (h : pool.steps? moves = some after)
    (first : Holds pool) : Holds after := by
  induction moves generalizing pool with
  | nil => exact Option.some.inj h ▸ first
  | cons move moves ih =>
      obtain ⟨next, hnext, hrest⟩ := Option.bind_eq_some_iff.1 h
      have hmove : Step pool move next := step_of_step? hnext
      exact ih hrest (kept hmove first)

/-- The induction over runs of a pool. -/
theorem Reachable.induction {size : Nat} {pool : Pool α} (h : Reachable size pool)
    (Holds : Pool α → Prop) (first : Holds (start size))
    (kept : ∀ {pool after : Pool α} {move : Move α}, Step pool move after → Holds pool →
      Holds after) : Holds pool := by
  rcases h with ⟨moves, hmoves⟩
  exact invariant_of_steps? Holds kept hmoves first

end SiteServer.Workers.Pool
