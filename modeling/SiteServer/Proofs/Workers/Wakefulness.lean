import SiteServer.Proofs.Workers.Books
import Mathlib.Data.List.Basic

/-!
# Nobody sleeps through a task

A notification is issued after the lock was released, so it may come late, find
nobody asleep, or rouse a sleeper for a task that somebody else has taken in the
meantime.  None of this loses a task: as long as anybody sleeps, there is a
notification still to come, or a worker on its way to the queue, for each task
that waits (`Heard`).  A worker falls asleep only when no task waits, and a
notification that is spent on a sleeper puts that sleeper on its way.

A shutdown wakes everybody after the flag was raised, and with the flag up nobody
falls asleep any more.  Hence whatever is waited for, there is always somebody who
goes on (`wakeful_of_reachable`).
-/

namespace SiteServer.Workers.Pool

variable {α : Type}

/-! ## Counting workers -/

/-- A change of one worker changes a count by what that worker adds to it. -/
theorem countP_set (p : Worker α → Bool) {workers : List (Worker α)} {w : Nat} {old : Worker α}
    (h : workers[w]? = some old) (new : Worker α) :
    (workers.set w new).countP p + (p old).toNat = workers.countP p + (p new).toNat := by
  induction workers generalizing w with
  | nil => simp at h
  | cons worker workers ih =>
      cases w with
      | zero =>
          obtain rfl : worker = old := by simpa using h
          simp only [List.set_cons_zero, List.countP_cons]
          cases p worker <;> cases p new <;> simp
      | succ w =>
          have hrest := ih (by simpa using h)
          simp only [List.set_cons_succ, List.countP_cons]
          omega

/-- Nobody is asleep. -/
def AllAwake (workers : List (Worker α)) : Prop := ∀ worker ∈ workers, worker ≠ .asleep

theorem AllAwake.set {workers : List (Worker α)} (h : AllAwake workers) (w : Nat)
    {new : Worker α} (hnew : new ≠ .asleep) : AllAwake (workers.set w new) := by
  intro worker hmem
  cases List.mem_or_eq_of_mem_set hmem with
  | inl hbefore => exact h worker hbefore
  | inr heq => exact heq ▸ hnew

theorem AllAwake.not_asleep {workers : List (Worker α)} (h : AllAwake workers) {w : Nat}
    (hw : workers[w]? = some .asleep) : False :=
  h .asleep (List.mem_of_getElem? hw) rfl

theorem allAwake_map_woken (workers : List (Worker α)) :
    AllAwake (workers.map Worker.woken) := by
  intro worker hmem
  obtain ⟨before, -, rfl⟩ := List.mem_map.1 hmem
  cases before <;> simp [Worker.woken]

/-! ## Tasks and those who come for them -/

/-- The workers that are on their way to the queue: just started, woken, or done
with a task. -/
def coming (pool : Pool α) : Nat := pool.workers.countP Worker.isReady

/-- Either nobody is asleep, or for each task that waits there is a notification
still to come or a worker on its way. -/
def Heard (pool : Pool α) : Prop :=
  AllAwake pool.workers ∨ pool.queue.length ≤ pool.notifies + pool.coming

theorem heard_of_empty {pool : Pool α} (h : pool.queue = []) : Heard pool := by
  apply Or.inr
  simp [h]

/-- A worker that was not on its way, and does not fall asleep, takes nobody away. -/
theorem Heard.setWorker {pool : Pool α} (h : Heard pool) {w : Nat} {old new : Worker α}
    (hw : pool.workers[w]? = some old) (hold : old.isReady = false) (hnew : new ≠ .asleep) :
    Heard (pool.setWorker w new) := by
  cases h with
  | inl awake => exact .inl (awake.set w hnew)
  | inr enough =>
      apply Or.inr
      have hcount := countP_set Worker.isReady hw new
      rw [hold, Bool.toNat_false] at hcount
      show pool.queue.length ≤ pool.notifies + (pool.workers.set w new).countP Worker.isReady
      unfold coming at enough
      omega

/-- A notification that rouses a sleeper puts it on its way in its own place. -/
theorem Heard.rouse {pool : Pool α} (h : Heard pool) {w : Nat}
    (asleep : pool.workers[w]? = some .asleep) :
    Heard { pool.setWorker w .ready with notifies := pool.notifies - 1 } := by
  cases h with
  | inl awake => exact (awake.not_asleep asleep).elim
  | inr enough =>
      apply Or.inr
      have hcount := countP_set Worker.isReady asleep .ready
      simp only [Worker.isReady, Bool.toNat_false, Bool.toNat_true] at hcount
      show pool.queue.length ≤
        pool.notifies - 1 + (pool.workers.set w .ready).countP Worker.isReady
      unfold coming at enough
      omega

/-- A task leaves the queue with the worker that came for it. -/
theorem Heard.take {pool : Pool α} (h : Heard pool) {w : Nat} {job : Job α} {rest : List (Job α)}
    (ready : pool.workers[w]? = some .ready) (first : pool.queue = job :: rest) :
    Heard
      { pool with
        queue := rest
        workers := pool.workers.set w (.running job)
        taken := pool.taken ++ [(w, job)] } := by
  cases h with
  | inl awake => exact .inl (awake.set w (by simp))
  | inr enough =>
      apply Or.inr
      have hcount := countP_set Worker.isReady ready (.running job)
      simp only [Worker.isReady, Bool.toNat_false, Bool.toNat_true] at hcount
      rw [first, List.length_cons] at enough
      show rest.length ≤ pool.notifies + (pool.workers.set w (.running job)).countP Worker.isReady
      unfold coming at enough
      omega

/-- Every move leaves somebody to come for each task. -/
theorem Step.heard {pool after : Pool α} {move : Move α} (h : Step pool move after)
    (before : Heard pool) : Heard after := by
  cases h with
  | accepted task =>
      cases before with
      | inl awake => exact .inl awake
      | inr enough =>
          apply Or.inr
          show (pool.queue ++ [pool.newJob task]).length ≤ pool.notifies + 1 + pool.coming
          rw [List.length_append, List.length_singleton]
          omega
  | refused => exact before
  | unheard owed awake => exact .inl awake
  | roused owed asleep => exact before.rouse asleep
  | took ready first => exact before.take ready first
  | fellAsleep ready empty => exact heard_of_empty empty
  | left ready empty => exact heard_of_empty empty
  | stirred asleep => exact before.setWorker asleep rfl (by simp)
  | finished running => exact before.setWorker running rfl (by simp)
  | told reporting => exact before.setWorker reporting rfl (by simp)
  | discarded => exact before
  | flagged => exact before
  | wokeAll => exact .inl (allAwake_map_woken pool.workers)
  | joined => exact before
  | dropped => exact heard_of_empty rfl

theorem Reachable.heard {size : Nat} {pool : Pool α} (h : Reachable size pool) : Heard pool :=
  h.induction Heard (heard_of_empty rfl) Step.heard

/-! ## With the flag up -/

/-- The flag is up and nobody is asleep. -/
def Roused (pool : Pool α) : Prop := pool.stop = true ∧ AllAwake pool.workers

/-- With the flag up nobody falls asleep. -/
theorem Step.roused_kept {pool after : Pool α} {move : Move α} (h : Step pool move after)
    (before : Roused pool) : Roused after := by
  rcases before with ⟨stopping, awake⟩
  cases h with
  | accepted task running => exact absurd stopping (by simp [running])
  | fellAsleep ready empty running => exact absurd stopping (by simp [running])
  | roused => exact ⟨stopping, awake.set _ (by simp)⟩
  | took => exact ⟨stopping, awake.set _ (by simp)⟩
  | left => exact ⟨stopping, awake.set _ (by simp)⟩
  | stirred => exact ⟨stopping, awake.set _ (by simp)⟩
  | finished => exact ⟨stopping, awake.set _ (by simp)⟩
  | told => exact ⟨stopping, awake.set _ (by simp)⟩
  | flagged => exact ⟨rfl, awake⟩
  | wokeAll => exact ⟨stopping, allAwake_map_woken pool.workers⟩
  | refused | unheard | discarded | joined | dropped => exact ⟨stopping, awake⟩

/-- A shutdown that wakes everybody has raised the flag. -/
theorem Balanced.roused_of_notifyAll {size : Nat} {pool woken : Pool α} (h : Balanced size pool)
    (hmove : pool.step? .notifyAll = some woken) : Roused woken := by
  cases step_of_step? hmove with
  | wokeAll closing => exact ⟨h.asked (by simp [closing]), allAwake_map_woken pool.workers⟩

/-- Whoever waits for the workers has woken them. -/
theorem Reachable.roused_of_joining {size : Nat} {pool : Pool α} (hsize : 1 ≤ size)
    (h : Reachable size pool) : pool.closing = .joining → Roused pool := by
  have hboth : Balanced size pool ∧ (pool.closing = .joining → Roused pool) := by
    refine h.induction (fun pool => Balanced size pool ∧ (pool.closing = .joining → Roused pool))
      ⟨balanced_start size, by simp [start]⟩ ?_
    intro pool after move hstep before
    refine ⟨hstep.balanced hsize before.1, fun hjoining => ?_⟩
    by_cases hwas : pool.closing = .joining
    · exact hstep.roused_kept (before.2 hwas)
    · -- No other move makes a shutdown wait.
      cases hstep with
      | wokeAll closing =>
          exact before.1.roused_of_notifyAll (Step.wokeAll closing).step?
      | flagged | joined | dropped => contradiction
      | _ => exact absurd hjoining hwas
  exact hboth.2

/-! ## Somebody goes on -/

/-- A task waits to be run, or a shutdown waits for a worker. -/
def Awaited (pool : Pool α) : Prop :=
  pool.queue ≠ [] ∨ (pool.closing = .joining ∧ ∃ worker ∈ pool.workers, worker ≠ .exited)

/-- Somebody is waited for, but all who are still there are asleep and no
notification is to come. -/
structure Stuck (pool : Pool α) : Prop where
  awaited : Awaited pool
  asleep : ∀ worker ∈ pool.workers, worker ≠ .exited → worker = .asleep
  unnotified : pool.notifies = 0
  uncalled : pool.closing ≠ .flagged

/-- What is done by the pool itself: a worker goes on, or a notification is issued. -/
def isInner : Move α → Bool
  | .notifyOne _ | .poll _ | .finish .. | .tell _ | .notifyAll => true
  | _ => false

/-- A worker that is neither asleep nor gone can go on. -/
theorem exists_step_of_awake {pool : Pool α} {worker : Worker α} (hmem : worker ∈ pool.workers)
    (hthere : worker ≠ .exited) (hawake : worker ≠ .asleep) :
    ∃ move after, isInner move = true ∧ pool.step? move = some after := by
  obtain ⟨w, hw⟩ := List.mem_iff_getElem?.1 hmem
  cases worker with
  | ready => exact ⟨.poll w, pool.poll w, rfl, by simp [step?, hw]⟩
  | running job => exact ⟨.finish w .returned, _, rfl, (Step.finished hw).step?⟩
  | reporting job outcome => exact ⟨.tell w, _, rfl, (Step.told hw).step?⟩
  | asleep => contradiction
  | exited => contradiction

/-- A notification that is owed can be issued. -/
theorem exists_step_of_notifies {pool : Pool α} (owed : pool.notifies ≠ 0) :
    ∃ move after, isInner move = true ∧ pool.step? move = some after := by
  by_cases awake : AllAwake pool.workers
  · exact ⟨.notifyOne none, _, rfl, (Step.unheard owed awake).step?⟩
  · obtain ⟨worker, hmem, hasleep⟩ : ∃ worker ∈ pool.workers, worker = .asleep := by
      simpa [AllAwake] using awake
    obtain ⟨w, hw⟩ := List.mem_iff_getElem?.1 hmem
    exact ⟨.notifyOne (some w), _, rfl, (Step.roused owed (hasleep ▸ hw)).step?⟩

/-- A pool that is waited for and not stuck goes on by itself. -/
theorem exists_step_of_not_stuck {pool : Pool α} (awaited : Awaited pool) (h : ¬ Stuck pool) :
    ∃ move after, isInner move = true ∧ pool.step? move = some after := by
  by_cases owed : pool.notifies = 0
  · by_cases called : pool.closing = .flagged
    · exact ⟨.notifyAll, _, rfl, (Step.wokeAll called).step?⟩
    · obtain ⟨worker, hmem, hthere, hawake⟩ :
          ∃ worker ∈ pool.workers, worker ≠ .exited ∧ worker ≠ .asleep := by
        by_contra hnone
        push Not at hnone
        exact h ⟨awaited, hnone, owed, called⟩
      exact exists_step_of_awake hmem hthere hawake
  · exact exists_step_of_notifies owed

/-- A pool that has workers is never stuck: a task that waits has somebody to come for
it, and a shutdown that waits has woken everybody. -/
theorem Reachable.not_stuck {size : Nat} {pool : Pool α} (hsize : 1 ≤ size)
    (h : Reachable size pool) : ¬ Stuck pool := by
  intro stuck
  have hbooks : Balanced size pool := h.balanced hsize
  cases stuck.awaited with
  | inl waiting =>
      have hthere : ∀ worker ∈ pool.workers, worker ≠ .exited := by
        intro worker hmem hexited
        exact waiting (hbooks.exited (hexited ▸ hmem)).2
      have hasleep : ∀ worker ∈ pool.workers, worker = .asleep := fun worker hmem =>
        stuck.asleep worker hmem (hthere worker hmem)
      have hcoming : pool.coming = 0 := by
        rw [coming, List.countP_eq_zero]
        intro worker hmem
        rw [hasleep worker hmem]
        simp [Worker.isReady]
      have hsomebody : 0 < pool.workers.length := by
        rw [hbooks.crew]
        omega
      have hfirst : pool.workers[0] ∈ pool.workers := List.getElem_mem hsomebody
      cases h.heard with
      | inl awake => exact awake _ hfirst (hasleep _ hfirst)
      | inr enough =>
          have hlength : 0 < pool.queue.length := List.length_pos_iff.2 waiting
          have hnone := stuck.unnotified
          omega
  | inr waiting =>
      rcases waiting with ⟨hjoining, worker, hmem, hthere⟩
      exact (h.roused_of_joining hsize hjoining).2 worker hmem (stuck.asleep worker hmem hthere)

/-- What can be said of the sleepers of a pool in whatever state it is. -/
structure Wakeful (pool : Pool α) : Prop where
  /-- As long as anybody sleeps, somebody is to come for each task that waits.
  Workers that have yet to tell how their task ended are not even counted. -/
  heard : AllAwake pool.workers ∨ pool.queue.length ≤ pool.notifies + pool.coming
  /-- Once a shutdown has woken everybody, nobody is asleep any more. -/
  roused : ∀ woken moves after, pool.step? .notifyAll = some woken →
    woken.steps? moves = some after → after.stop = true ∧ AllAwake after.workers
  notStuck : ¬ Stuck pool
  /-- Whatever is waited for, the pool goes on by itself. -/
  goesOn : Awaited pool → ∃ move after, isInner move = true ∧ pool.step? move = some after

/-- No wake-up is lost: in whatever order tasks are handed in, notifications are
issued, workers go on or stir without reason, and shutdowns come, nobody sleeps
while there is something to do that nobody else is about to do. -/
theorem wakeful_of_reachable {size : Nat} {pool : Pool α} (hsize : 1 ≤ size)
    (h : Reachable size pool) : Wakeful pool where
  heard := h.heard
  roused := by
    intro woken moves after hmove hmoves
    have hfirst : Roused woken := (h.balanced hsize).roused_of_notifyAll hmove
    exact invariant_of_steps? Roused Step.roused_kept hmoves hfirst
  notStuck := h.not_stuck hsize
  goesOn := fun awaited => exists_step_of_not_stuck awaited (h.not_stuck hsize)

/-- Two sleepers, two tasks, and a shutdown that begins when one of the sleepers
was notified and the other is still to be. -/
def halfNotified : List (Move Nat) :=
  [.poll 0, .poll 1, .submit 10, .submit 20, .notifyOne (some 0), .poll 0, .flag]

theorem wakeful_when_half_notified :
    1 ≤ 2 ∧ ∃ pool : Pool Nat, Reachable 2 pool ∧ pool.workers[1]? = some .asleep ∧
      pool.queue.map Job.task = [20] ∧ pool.notifies = 1 ∧ pool.coming = 0 ∧
      pool.closing = .flagged ∧ Wakeful pool :=
  ⟨by decide, _, ⟨halfNotified, rfl⟩, rfl, rfl, rfl, rfl, rfl,
    @wakeful_of_reachable Nat 2 _ (by decide) ⟨halfNotified, rfl⟩⟩

end SiteServer.Workers.Pool
