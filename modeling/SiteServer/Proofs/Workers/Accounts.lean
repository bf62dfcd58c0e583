import SiteServer.Proofs.Workers.Books

/-!
# What becomes of the tasks

A task is accepted once, taken once and run once, however the calls, the workers
and a shutdown race with each other.  That much is in the books of the pool.  Here
it is put next to what is known of the workers: when they leave (`Step.exits`),
that nothing happens after them (`Over.frozen`), and in which order one of them
alone ends the tasks (`Step.in_turn`).
-/

namespace SiteServer.Workers.Pool

open scoped List

variable {α : Type}

/-! ## The way out -/

/-- A worker leaves by looking at an empty queue after the flag was raised. -/
theorem Step.exits {pool after : Pool α} {move : Move α} (h : Step pool move after) {w : Nat}
    (hbefore : pool.workers[w]? ≠ some .exited) (hafter : after.workers[w]? = some .exited) :
    move = .poll w ∧ pool.queue = [] ∧ pool.stop = true := by
  have hset : ∀ {v : Nat} {new : Worker α}, (pool.workers.set v new)[w]? = some .exited →
      v = w ∧ new = .exited := by
    intro v new hat
    rw [List.getElem?_set] at hat
    split at hat
    · rename_i heq
      split at hat
      · exact ⟨heq, Option.some.inj hat⟩
      · contradiction
    · exact absurd hat hbefore
  cases h with
  | left ready empty stopping =>
      obtain ⟨rfl, -⟩ := hset hafter
      exact ⟨rfl, empty, stopping⟩
  | wokeAll =>
      rw [List.getElem?_map, Option.map_eq_some_iff] at hafter
      rcases hafter with ⟨worker, hat, hwoken⟩
      cases worker with
      | exited => exact absurd hat hbefore
      | _ => contradiction
  | roused => exact absurd (hset hafter).2 (by simp)
  | took => exact absurd (hset hafter).2 (by simp)
  | fellAsleep => exact absurd (hset hafter).2 (by simp)
  | stirred => exact absurd (hset hafter).2 (by simp)
  | finished => exact absurd (hset hafter).2 (by simp)
  | told => exact absurd (hset hafter).2 (by simp)
  | _ => exact absurd hafter hbefore

/-- Nobody is left, nothing waits and nothing is accepted any more. -/
structure Over (pool : Pool α) : Prop where
  exited : ∀ worker ∈ pool.workers, worker = .exited
  empty : pool.queue = []
  stopped : pool.stop = true

theorem Over.getElem? {pool : Pool α} (h : Over pool) {w : Nat} {worker : Worker α}
    (hw : pool.workers[w]? = some worker) : worker = .exited :=
  h.exited worker (List.mem_of_getElem? hw)

theorem Over.map_woken {pool : Pool α} (h : Over pool) :
    pool.workers.map Worker.woken = pool.workers := by
  have hsame : ∀ worker ∈ pool.workers, worker.woken = id worker := by
    intro worker hmem
    rw [h.exited worker hmem]
    rfl
  rw [List.map_congr_left hsame, List.map_id]

/-- Once all is over, moves change notifications and channels at most, and how
far a shutdown has come. -/
theorem Step.frozen {pool after : Pool α} {move : Move α} (h : Step pool move after)
    (quiet : Over pool) :
    after = { pool with
      notifies := after.notifies, mail := after.mail, closing := after.closing } := by
  cases h with
  | accepted task running => exact absurd quiet.stopped (by simp [running])
  | refused | unheard | discarded | joined => rfl
  | roused owed asleep => exact absurd (quiet.getElem? asleep) (by simp)
  | took ready => exact absurd (quiet.getElem? ready) (by simp)
  | fellAsleep ready => exact absurd (quiet.getElem? ready) (by simp)
  | left ready => exact absurd (quiet.getElem? ready) (by simp)
  | stirred asleep => exact absurd (quiet.getElem? asleep) (by simp)
  | finished running => exact absurd (quiet.getElem? running) (by simp)
  | told reporting => exact absurd (quiet.getElem? reporting) (by simp)
  | flagged => simp [quiet.stopped]
  | wokeAll => simp [quiet.map_woken]
  | dropped => simp [quiet.empty]

/-- The same for any number of moves. -/
theorem Over.frozen {pool after : Pool α} {moves : List (Move α)} (quiet : Over pool)
    (h : pool.steps? moves = some after) :
    after = { pool with
      notifies := after.notifies, mail := after.mail, closing := after.closing } := by
  refine invariant_of_steps? (fun now => now = { pool with
    notifies := now.notifies, mail := now.mail, closing := now.closing }) ?_ h rfl
  intro now next move hstep hnow
  have hover : Over now := by
    rw [hnow]
    exact ⟨quiet.exited, quiet.empty, quiet.stopped⟩
  rw [hstep.frozen hover, hnow]

theorem Over.shutdown_again {pool : Pool α} (quiet : Over pool) (hjoined : pool.closing = .joined) :
    pool.steps? [.flag, .notifyAll, .join] = some pool := by
  have hexited : ∀ worker ∈ pool.workers, worker.isExited = true :=
    List.all_eq_true.1 (all_isExited_iff.2 quiet.exited)
  have hwoken := quiet.map_woken
  have hstop := quiet.stopped
  -- The fields have to be values, as the state itself is what the moves lead back to.
  cases pool
  simp only at hjoined hstop hexited hwoken
  subst hjoined hstop
  simpa [steps?, step?, hwoken] using hexited

/-! ## One worker -/

theorem eq_singleton_of_getElem? {workers : List (Worker α)} {w : Nat} {worker : Worker α}
    (hone : workers.length = 1) (hw : workers[w]? = some worker) : w = 0 ∧ workers = [worker] := by
  obtain ⟨hlt, hat⟩ := List.getElem?_eq_some_iff.1 hw
  have hzero : w = 0 := by omega
  subst hzero
  obtain ⟨only, honly⟩ := List.length_eq_one_iff.1 hone
  subst honly
  exact ⟨rfl, by rw [← hat]; rfl⟩

theorem inHand_singleton (worker : Worker α) :
    inHand [worker] = worker.job?.toList.map fun job => (0, job) := by
  cases worker <;> rfl

/-- A worker that is alone runs the tasks as it takes them. -/
theorem Step.in_turn {pool after : Pool α} {move : Move α} (h : Step pool move after)
    (hone : pool.workers.length = 1) (before : pool.runs = pool.taken) :
    after.runs = after.taken := by
  cases h with
  | took ready first =>
      obtain ⟨rfl, halone⟩ := eq_singleton_of_getElem? hone ready
      rw [runs, halone, inHand_singleton] at before
      show _ ++ inHand (pool.workers.set 0 (.running _)) = pool.taken ++ _
      rw [halone, List.set_cons_zero, inHand_singleton, ← before]
      simp [Worker.job?]
  | finished running =>
      obtain ⟨rfl, halone⟩ := eq_singleton_of_getElem? hone running
      rw [runs, halone, inHand_singleton] at before
      show List.map _ (pool.ended ++ _) ++ inHand (pool.workers.set 0 (.reporting _ _)) =
        pool.taken
      rw [halone, List.set_cons_zero, inHand_singleton, ← before]
      simp [Worker.job?]
  | roused owed asleep => exact (runs_setWorker_of_idle asleep rfl rfl).trans before
  | fellAsleep ready => exact (runs_setWorker_of_idle ready rfl rfl).trans before
  | left ready => exact (runs_setWorker_of_idle ready rfl rfl).trans before
  | stirred asleep => exact (runs_setWorker_of_idle asleep rfl rfl).trans before
  | told reporting => exact (runs_setWorker_of_idle reporting rfl rfl).trans before
  | wokeAll =>
      rw [← before, runs, runs, inHand_map_woken]
  | _ => exact before

theorem Reachable.in_turn {pool : Pool α} (h : Reachable 1 pool) : pool.runs = pool.taken := by
  have hboth : Balanced 1 pool ∧ pool.runs = pool.taken := by
    refine h.induction (fun pool => Balanced 1 pool ∧ pool.runs = pool.taken)
      ⟨balanced_start 1, rfl⟩ ?_
    intro pool after move hstep before
    exact ⟨hstep.balanced (Nat.le_refl 1) before.1, hstep.in_turn before.1.crew before.2⟩
  exact hboth.2

/-! ## The account -/

/-- What a pool of `size` workers can be held to in whatever state it is. -/
structure Accounts (size : Nat) (pool : Pool α) : Prop where
  /-- Tasks are taken in the order in which they were accepted. -/
  order : pool.accepted = pool.taken.map Prod.snd ++ pool.queue
  /-- What was taken is what runs or has ended, each with the worker that took it. -/
  ran : pool.runs ~ pool.taken
  /-- No task is run twice. -/
  once : (pool.runs.map Prod.snd).Nodup
  /-- Every task that was taken is run, by one worker. -/
  runner : ∀ job ∈ pool.taken.map Prod.snd, ∃! w, (w, job) ∈ pool.runs
  accepts : pool.stop = false → ∀ task,
    pool.submit task = .ok (pool.accept task) ∧
      pool.step? (.submit task) = some (pool.accept task)
  /-- A task that is refused changes nothing. -/
  refuses : pool.stop = true → ∀ task,
    pool.submit task = .error .stopped ∧ pool.step? (.submit task) = some pool
  /-- Nobody leaves before the flag is raised and the queue is empty. -/
  leaves : ∀ (move : Move α) (after : Pool α) (w : Nat), pool.step? move = some after →
    pool.workers[w]? ≠ some .exited → after.workers[w]? = some .exited →
    pool.queue = [] ∧ pool.stop = true
  exited : ∀ w : Nat, pool.workers[w]? = some .exited → pool.queue = [] ∧ pool.stop = true
  /-- A shutdown that is over has seen every task end. -/
  shut : pool.closing = .joined →
    (∀ worker ∈ pool.workers, worker = .exited) ∧ pool.queue = [] ∧
      (pool.ended.map fun run => run.2.1) ~ pool.accepted ∧ pool.accepted.Nodup
  again : pool.closing = .joined → pool.steps? [.flag, .notifyAll, .join] = some pool
  /-- The same with calls of others in between. -/
  frozen : pool.closing = .joined → ∀ moves after, pool.steps? moves = some after →
    after = { pool with
      notifies := after.notifies, mail := after.mail, closing := after.closing }
  /-- One worker also ends the tasks in the order in which they were accepted. -/
  inTurn : size = 1 → (pool.ended.map fun run => run.2.1) <+: pool.accepted

theorem ended_prefix_of_in_turn {pool : Pool α}
    (order : pool.accepted = pool.taken.map Prod.snd ++ pool.queue)
    (h : pool.runs = pool.taken) : (pool.ended.map fun run => run.2.1) <+: pool.accepted := by
  rw [order, ← h, runs, List.map_append, List.map_map, List.append_assoc]
  exact List.prefix_append _ _

/-- Whatever the order of calls, looks at the queue, ends of tasks and shutdowns,
no task is lost, run twice or left behind. -/
theorem accounts_of_reachable {size : Nat} {pool : Pool α} (hsize : 1 ≤ size)
    (h : Reachable size pool) : Accounts size pool := by
  have hbooks : Balanced size pool := h.balanced hsize
  have hover : pool.closing = .joined → Over pool := by
    intro hjoined
    have hexited := hbooks.closed (.inl hjoined)
    have hdone := hbooks.done hsize hexited
    exact ⟨hexited, hdone.2, hdone.1⟩
  refine
    { order := hbooks.order
      ran := hbooks.ran
      once := hbooks.runs_nodup
      runner := ?runner
      accepts := ?accepts
      refuses := ?refuses
      leaves := ?leaves
      exited := ?exited
      shut := ?shut
      again := fun hjoined => (hover hjoined).shutdown_again hjoined
      frozen := fun hjoined moves after hmoves => (hover hjoined).frozen hmoves
      inTurn := ?inTurn }
  case runner =>
    intro job hjob
    obtain ⟨⟨w, found⟩, hmem, rfl⟩ := List.mem_map.1 hjob
    refine ⟨w, hbooks.ran.mem_iff.2 hmem, ?_⟩
    intro other hother
    have hsame := List.inj_on_of_nodup_map hbooks.runs_nodup hother (hbooks.ran.mem_iff.2 hmem) rfl
    exact congrArg Prod.fst hsame
  case accepts =>
    intro running task
    exact ⟨submit_of_running running task, (Step.accepted task running).step?⟩
  case refuses =>
    intro stopping task
    exact ⟨submit_of_stopping stopping task, (Step.refused task stopping).step?⟩
  case leaves =>
    intro move after w hmove hbefore hafter
    exact ((step_of_step? hmove).exits hbefore hafter).2
  case exited =>
    intro w hw
    have hdone := hbooks.exited (List.mem_of_getElem? hw)
    exact ⟨hdone.2, hdone.1⟩
  case shut =>
    intro hjoined
    have hexited := (hover hjoined).exited
    exact ⟨hexited, (hover hjoined).empty, hbooks.all_ended hsize hexited,
      hbooks.accepted_nodup⟩
  case inTurn =>
    intro hone
    subst hone
    exact ended_prefix_of_in_turn hbooks.order h.in_turn

/-- Two workers, three tasks of which one panics, and a fourth that comes while
the pool shuts down. -/
def race : List (Move Nat) :=
  [.submit 10, .submit 20, .notifyOne none, .poll 0, .submit 30, .poll 1, .notifyOne none,
    .finish 1 .panicked, .flag, .submit 40, .tell 1, .poll 1, .finish 0 .returned, .notifyAll,
    .notifyOne none, .finish 1 .returned, .tell 0, .poll 0, .tell 1, .poll 1, .join]

theorem accounts_after_race :
    1 ≤ 2 ∧ ∃ pool : Pool Nat, Reachable 2 pool ∧ pool.closing = .joined ∧
      pool.ended.map (fun run => (run.1, run.2.1.task, run.2.2)) =
        [(1, 20, .panicked), (0, 10, .returned), (1, 30, .returned)] ∧
      Accounts 2 pool :=
  ⟨by decide, _, ⟨race, rfl⟩, rfl, rfl, accounts_of_reachable (by decide) ⟨race, rfl⟩⟩

end SiteServer.Workers.Pool
