import SiteServer.Proofs.Workers.Channels

/-!
# Tasks and handles keep apart

How a task ends is the business of whoever waits for it.  Two pools that differ in how
certain tasks ended, and in certain channels, can make the same moves and go on to
differ in nothing else (`Alike.steps?`): no move looks at an outcome, except the one
that tells of it, and none looks at a channel at all.  So a panic ends its own task and
changes nothing for the others, and neither does a handle that is dropped.

Together with what is known of the channels this is all that can be asked of handles
(`sheltered_of_reachable`): whenever somebody waits, the answer comes after the end of
the task, says how the task ended, and stays the same.
-/

namespace SiteServer.Workers

variable {α : Type}

/-! ## Outcomes that are not looked at -/

/-- What is seen of a worker by somebody who does not know how certain tasks ended. -/
def Worker.hide (tickets : List Nat) : Worker α → Worker α
  | reporting job outcome => reporting job (if job.ticket ∈ tickets then .returned else outcome)
  | worker => worker

/-- What is seen of the end of a task. -/
def hideEnd (tickets : List Nat) (run : Nat × Job α × Outcome) : Nat × Job α × Outcome :=
  (run.1, run.2.1, if run.2.1.ticket ∈ tickets then .returned else run.2.2)

theorem Worker.hide_nil : Worker.hide [] = (id : Worker α → Worker α) := by
  funext worker
  cases worker <;> simp [hide]

theorem hideEnd_nil : hideEnd [] = (id : Nat × Job α × Outcome → Nat × Job α × Outcome) := by
  funext run
  simp [hideEnd]

theorem Worker.hide_woken (tickets : List Nat) (worker : Worker α) :
    worker.woken.hide tickets = (worker.hide tickets).woken := by
  cases worker <;> rfl

/-- A worker that tells of nothing is seen as it is. -/
theorem Worker.eq_of_hide {tickets : List Nat} {worker other : Worker α}
    (h : other.hide tickets = worker.hide tickets)
    (plain : ∀ job outcome, worker ≠ reporting job outcome) : other = worker := by
  cases worker with
  | reporting job outcome => exact absurd rfl (plain job outcome)
  | _ => cases other <;> simp_all [hide]

/-- A worker that tells of a task is seen as one that tells of it somehow. -/
theorem Worker.exists_of_hide_reporting {tickets : List Nat} {other : Worker α} {job : Job α}
    {outcome : Outcome} (h : other.hide tickets = (reporting job outcome).hide tickets) :
    ∃ outcome', other = reporting job outcome' ∧ (job.ticket ∉ tickets → outcome' = outcome) := by
  cases other with
  | reporting job' outcome' =>
      obtain ⟨rfl, houtcome⟩ := reporting.inj h
      refine ⟨outcome', rfl, fun hnot => ?_⟩
      simpa [hnot] using houtcome
  | _ => simp [hide] at h

/-- Two crews that are seen alike. -/
def SameCrew (tickets : List Nat) (workers others : List (Worker α)) : Prop :=
  others.map (Worker.hide tickets) = workers.map (Worker.hide tickets)

namespace SameCrew

variable {tickets : List Nat} {workers others : List (Worker α)}

theorem getElem? (h : SameCrew tickets workers others) {w : Nat} {worker : Worker α}
    (hw : workers[w]? = some worker) :
    ∃ other, others[w]? = some other ∧ other.hide tickets = worker.hide tickets := by
  have hat : (others.map (Worker.hide tickets))[w]? = some (worker.hide tickets) := by
    rw [h, List.getElem?_map, hw]
    rfl
  rw [List.getElem?_map] at hat
  exact Option.map_eq_some_iff.1 hat

/-- Workers that tell of nothing are the same in both. -/
theorem getElem?_of_plain (h : SameCrew tickets workers others) {w : Nat} {worker : Worker α}
    (hw : workers[w]? = some worker) (plain : ∀ job outcome, worker ≠ .reporting job outcome) :
    others[w]? = some worker := by
  obtain ⟨other, hother, hhide⟩ := h.getElem? hw
  rw [hother, Worker.eq_of_hide hhide plain]

theorem set (h : SameCrew tickets workers others) (w : Nat) {new new' : Worker α}
    (hnew : new'.hide tickets = new.hide tickets) :
    SameCrew tickets (workers.set w new) (others.set w new') := by
  show (others.set w new').map _ = (workers.set w new).map _
  rw [List.map_set, List.map_set, h, hnew]

theorem woken (h : SameCrew tickets workers others) :
    SameCrew tickets (workers.map Worker.woken) (others.map Worker.woken) := by
  have hcomm : ∀ crew : List (Worker α), (crew.map Worker.woken).map (Worker.hide tickets) =
      (crew.map (Worker.hide tickets)).map Worker.woken := by
    intro crew
    simp [Worker.hide_woken]
  show (others.map Worker.woken).map _ = (workers.map Worker.woken).map _
  rw [hcomm, hcomm, h]

theorem forall_mem (h : SameCrew tickets workers others) {p : Worker α → Prop}
    (hide : ∀ worker, p (worker.hide tickets) ↔ p worker) (hall : ∀ worker ∈ workers, p worker) :
    ∀ other ∈ others, p other := by
  intro other hmem
  have hseen : other.hide tickets ∈ workers.map (Worker.hide tickets) :=
    h ▸ List.mem_map_of_mem hmem
  obtain ⟨worker, hworker, heq⟩ := List.mem_map.1 hseen
  rw [← hide, ← heq, hide]
  exact hall worker hworker

end SameCrew

/-! ## Channels that are not looked at -/

/-- The same channels, certain ones aside. -/
structure SameMail (tickets : List Nat) (mail other : List Mailbox) : Prop where
  count : other.length = mail.length
  boxes : ∀ ticket, ticket ∉ tickets → other[ticket]? = mail[ticket]?

namespace SameMail

variable {tickets : List Nat} {mail other : List Mailbox}

theorem append (h : SameMail tickets mail other) (box : Mailbox) :
    SameMail tickets (mail ++ [box]) (other ++ [box]) where
  count := by rw [List.length_append, List.length_append, h.count]
  boxes := by
    intro ticket hticket
    rw [List.getElem?_append, List.getElem?_append, h.count, h.boxes ticket hticket]

theorem modify (h : SameMail tickets mail other) {changed : Nat} {f f' : Mailbox → Mailbox}
    (hf : changed ∉ tickets → f' = f) :
    SameMail tickets (mail.modify changed f) (other.modify changed f') where
  count := by rw [List.length_modify, List.length_modify, h.count]
  boxes := by
    intro ticket hticket
    rw [List.getElem?_modify, List.getElem?_modify, h.boxes ticket hticket]
    by_cases heq : changed = ticket
    · rw [hf (heq ▸ hticket)]
    · simp [heq]

theorem abandon (h : SameMail tickets mail other) (queue : List (Job α)) :
    SameMail tickets (queue.foldl (fun mail job => mail.modify job.ticket Mailbox.abandon) mail)
      (queue.foldl (fun mail job => mail.modify job.ticket Mailbox.abandon) other) := by
  induction queue generalizing mail other with
  | nil => exact h
  | cons job queue ih => exact ih (h.modify fun _ => rfl)

/-- A channel that is not looked at may change on one side only. -/
theorem modify_left (h : SameMail tickets mail other) {changed : Nat} (f : Mailbox → Mailbox)
    (hchanged : changed ∈ tickets) : SameMail tickets (mail.modify changed f) other where
  count := by rw [List.length_modify, h.count]
  boxes := by
    intro ticket hticket
    have hne : changed ≠ ticket := fun heq => hticket (heq ▸ hchanged)
    rw [List.getElem?_modify, h.boxes ticket hticket]
    simp [hne]

end SameMail

namespace Pool

/-! ## Pools that go on alike -/

/-- Two pools that differ in how certain tasks ended, in certain channels, and in nothing
else. -/
structure Alike (ends words : List Nat) (pool other : Pool α) : Prop where
  rest : other =
    { pool with workers := other.workers, ended := other.ended, mail := other.mail }
  crew : SameCrew ends pool.workers other.workers
  ended : other.ended.map (hideEnd ends) = pool.ended.map (hideEnd ends)
  mail : SameMail words pool.mail other.mail

namespace Alike

variable {ends words : List Nat} {pool other : Pool α}

theorem symm (h : Alike ends words pool other) : Alike ends words other pool where
  rest := by
    rw [h.rest]
  crew := Eq.symm h.crew
  ended := h.ended.symm
  mail := ⟨h.mail.count.symm, fun ticket hticket => (h.mail.boxes ticket hticket).symm⟩

/-- Pools that differ in channels only. -/
theorem of_mail {mail : List Mailbox} (h : SameMail words pool.mail mail) :
    Alike ends words pool { pool with mail := mail } :=
  ⟨rfl, rfl, rfl, h⟩

/-- Where every outcome is known, the pools differ in channels only. -/
theorem eq_of_nil (h : Alike [] words pool other) : other = { pool with mail := other.mail } := by
  have hcrew : other.workers = pool.workers := by
    simpa [SameCrew, Worker.hide_nil] using h.crew
  have hended : other.ended = pool.ended := by
    simpa [hideEnd_nil] using h.ended
  rw [h.rest]
  simp only [hcrew, hended]

/-- A waiter for another task cannot tell which of the two pools it is. -/
theorem result? (h : Alike ends words pool other) {ticket : Nat} (hticket : ticket ∉ words) :
    other.result? ticket = pool.result? ticket := by
  simp only [Pool.result?, h.mail.boxes ticket hticket]

end Alike

/-- What one of two such pools can do, the other can do as well, and they stay alike. -/
theorem Step.alike {ends words : List Nat} (known : ends ⊆ words) {pool after other : Pool α}
    {move : Move α} (h : Step pool move after) (alike : Alike ends words pool other) :
    ∃ after', Step other move after' ∧ Alike ends words after after' := by
  obtain ⟨hrest, crew, hended, mail⟩ := alike
  generalize other.workers = workers at hrest crew
  generalize other.ended = ended at hrest hended
  generalize other.mail = boxes at hrest mail
  subst hrest
  have same : ∀ {w : Nat} {worker : Worker α}, pool.workers[w]? = some worker →
      (∀ job outcome, worker ≠ .reporting job outcome) → workers[w]? = some worker :=
    fun hw plain => crew.getElem?_of_plain hw plain
  cases h with
  | accepted task running => exact ⟨_, .accepted task running, rfl, crew, hended, mail.append _⟩
  | refused task stopping => exact ⟨_, .refused task stopping, rfl, crew, hended, mail⟩
  | unheard owed awake =>
      have hawake : ∀ worker ∈ workers, worker ≠ .asleep := by
        refine crew.forall_mem (fun worker => ?_) awake
        cases worker <;> simp [Worker.hide]
      exact ⟨_, .unheard owed hawake, rfl, crew, hended, mail⟩
  | roused owed asleep =>
      exact ⟨_, .roused owed (same asleep (by simp)), rfl, crew.set _ rfl, hended, mail⟩
  | took ready first =>
      exact ⟨_, .took (same ready (by simp)) first, rfl, crew.set _ rfl, hended, mail⟩
  | fellAsleep ready empty running =>
      exact ⟨_, .fellAsleep (same ready (by simp)) empty running, rfl, crew.set _ rfl, hended, mail⟩
  | left ready empty stopping =>
      exact ⟨_, .left (same ready (by simp)) empty stopping, rfl, crew.set _ rfl, hended, mail⟩
  | stirred asleep => exact ⟨_, .stirred (same asleep (by simp)), rfl, crew.set _ rfl, hended, mail⟩
  | finished running =>
      refine ⟨_, .finished (same running (by simp)), rfl, crew.set _ rfl, ?_, mail⟩
      show (ended ++ _).map _ = (pool.ended ++ _).map _
      rw [List.map_append, List.map_append, hended]
  | @told w job outcome reporting =>
      obtain ⟨other, hother, hhide⟩ := crew.getElem? reporting
      obtain ⟨outcome', rfl, hsame⟩ := Worker.exists_of_hide_reporting hhide
      refine ⟨_, .told hother, rfl, crew.set _ rfl, hended, mail.modify fun hticket => ?_⟩
      rw [hsame fun hend => hticket (known hend)]
  | discarded hknown =>
      exact ⟨_, .discarded (mail.count ▸ hknown), rfl, crew, hended, mail.modify fun _ => rfl⟩
  | flagged closing => exact ⟨_, .flagged closing, rfl, crew, hended, mail⟩
  | wokeAll closing => exact ⟨_, .wokeAll closing, rfl, crew.woken, hended, mail⟩
  | joined closing exited =>
      have hexited : ∀ worker ∈ workers, worker = .exited := by
        refine crew.forall_mem (fun worker => ?_) exited
        cases worker <;> simp [Worker.hide]
      exact ⟨_, .joined closing hexited, rfl, crew, hended, mail⟩
  | dropped closing => exact ⟨_, .dropped closing, rfl, crew, hended, mail.abandon _⟩

theorem Alike.steps? {ends words : List Nat} (known : ends ⊆ words) {pool other after : Pool α}
    (alike : Alike ends words pool other) {moves : List (Move α)}
    (h : pool.steps? moves = some after) :
    ∃ after', other.steps? moves = some after' ∧ Alike ends words after after' := by
  induction moves generalizing pool other with
  | nil => exact ⟨other, rfl, Option.some.inj h ▸ alike⟩
  | cons move moves ih =>
      obtain ⟨next, hnext, hrest⟩ := Option.bind_eq_some_iff.1 h
      obtain ⟨next', hstep, hnext'⟩ := (step_of_step? hnext).alike known alike
      obtain ⟨after', hafter, halike⟩ := ih hnext' hrest
      refine ⟨after', ?_, halike⟩
      rw [Pool.steps?, hstep.step?]
      exact hafter

/-- Two pools that can make the same moves from now on, and stay alike. -/
def Inseparable (ends words : List Nat) (pool other : Pool α) : Prop :=
  ∀ moves,
    (∀ after, pool.steps? moves = some after →
      ∃ after', other.steps? moves = some after' ∧ Alike ends words after after') ∧
    ∀ after', other.steps? moves = some after' →
      ∃ after, pool.steps? moves = some after ∧ Alike ends words after after'

theorem Alike.inseparable {ends words : List Nat} (known : ends ⊆ words) {pool other : Pool α}
    (h : Alike ends words pool other) : Inseparable ends words pool other := by
  intro moves
  refine ⟨fun after hafter => h.steps? known hafter, fun after' hafter' => ?_⟩
  obtain ⟨after, hafter, halike⟩ := h.symm.steps? known hafter'
  exact ⟨after, hafter, halike.symm⟩

/-! ### Panics -/

/-- Whether a task returns or panics makes a difference to its own end and channel only. -/
theorem alike_of_finish {pool returned panicked : Pool α} {w : Nat}
    (hreturned : pool.step? (.finish w .returned) = some returned)
    (hpanicked : pool.step? (.finish w .panicked) = some panicked) :
    ∃ job, pool.workers[w]? = some (.running job) ∧
      Alike [job.ticket] [job.ticket] returned panicked := by
  cases step_of_step? hreturned with
  | @finished _ job _ running =>
      cases step_of_step? hpanicked with
      | @finished _ job' _ running' =>
          have hsame := Option.some.inj (running.symm.trans running')
          obtain rfl : job = job' := Worker.running.inj hsame
          refine ⟨job, running, rfl, ?_, ?_, ⟨rfl, fun _ _ => rfl⟩⟩
          · refine SameCrew.set rfl w ?_
            simp [Worker.hide]
          · simp [hideEnd]

/-! ### Handles that are dropped -/

/-- Whether a move is anything but the drop of one of certain handles. -/
def keeps (tickets : List Nat) : Move α → Bool
  | .discard ticket => ticket ∉ tickets
  | _ => true

/-- A handle that is dropped makes a difference to its own channel only. -/
theorem alike_of_discard {pool dropped : Pool α} {ticket : Nat}
    (h : pool.step? (.discard ticket) = some dropped) : Alike [] [ticket] dropped pool := by
  cases step_of_step? h with
  | discarded known =>
      have hsame : SameMail [ticket] pool.mail pool.mail := ⟨rfl, fun _ _ => rfl⟩
      have hchanged := hsame.modify_left Mailbox.discard (List.mem_singleton_self ticket)
      exact ⟨rfl, rfl, rfl, hchanged⟩

/-- What is done while certain handles are dropped can be done without dropping them. -/
theorem Alike.steps?_keeps {tickets : List Nat} {pool other after : Pool α}
    (alike : Alike [] tickets pool other) {moves : List (Move α)}
    (h : pool.steps? moves = some after) :
    ∃ after', other.steps? (moves.filter (keeps tickets)) = some after' ∧
      Alike [] tickets after after' := by
  induction moves generalizing pool other with
  | nil => exact ⟨other, rfl, Option.some.inj h ▸ alike⟩
  | cons move moves ih =>
      obtain ⟨next, hnext, hrest⟩ := Option.bind_eq_some_iff.1 h
      by_cases hkeeps : keeps tickets move = true
      · obtain ⟨next', hstep, hnext'⟩ := (step_of_step? hnext).alike (List.nil_subset _) alike
        obtain ⟨after', hafter, halike⟩ := ih hnext' hrest
        refine ⟨after', ?_, halike⟩
        rw [List.filter_cons_of_pos hkeeps, Pool.steps?, hstep.step?]
        exact hafter
      · rw [List.filter_cons_of_neg hkeeps]
        refine ih ?_ hrest
        cases move with
        | discard ticket =>
            have hticket : ticket ∈ tickets := by simpa [keeps] using hkeeps
            cases step_of_step? hnext with
            | discarded known =>
                exact ⟨alike.rest, alike.crew, alike.ended, alike.mail.modify_left _ hticket⟩
        | _ => exact absurd rfl hkeeps

/-! ## What handles can be held to -/

/-- The answer to whoever waits for a task: none before the task has ended, and then how it
ended. -/
structure Answers (pool : Pool α) (ticket : Nat) (job : Job α) : Prop where
  afterwards : ∀ r, pool.result? ticket = some r → ∃ outcome, pool.Ended job outcome
  returned : ∀ r, pool.result? ticket = some r → (r = .ok () ↔ pool.Ended job .returned)
  panicked : ∀ r, pool.result? ticket = some r →
    (r = .error .taskPanicked ↔ pool.Ended job .panicked)

/-- A task has ended, and whoever holds its handle is told how. -/
def Settled (pool : Pool α) (ticket : Nat) (job : Job α) : Prop :=
  ∃ outcome, pool.Ended job outcome ∧
    (Held pool ticket → pool.result? ticket = some outcome.answer)

/-- What tasks and their handles can be held to in whatever state a pool of `size` workers
is. -/
structure Sheltered (size : Nat) (pool : Pool α) : Prop where
  /-- Until a shutdown is asked for, all workers are there. -/
  crew : pool.stop = false →
    pool.workers.length = size ∧ ∀ worker ∈ pool.workers, worker ≠ .exited
  /-- A worker whose task has ended, however it did, goes on. -/
  goesOn : ∀ w job outcome, pool.workers[w]? = some (.reporting job outcome) →
    ∃ after, pool.step? (.tell w) = some after ∧ after.workers[w]? = some .ready
  /-- A panic ends its own task: had the task returned, everything else would be the same,
  then and ever after. -/
  apart : ∀ w returned panicked, pool.step? (.finish w .returned) = some returned →
    pool.step? (.finish w .panicked) = some panicked →
    ∃ job, pool.workers[w]? = some (.running job) ∧
      Inseparable [job.ticket] [job.ticket] returned panicked
  /-- Whatever the workers do, and however the tasks end, there is an end to it, and then
  every task has ended and its end is known. -/
  finishes : ∀ moves after, (∀ move ∈ moves, isWork move = true) →
    pool.steps? moves = some after → moves.length ≤ pool.workLeft ∧
      (AtRest after → ∀ ticket job, after.accepted[ticket]? = some job →
        Settled after ticket job)
  /-- The same is true once the pool was shut down. -/
  shut : pool.closing = .joined ∨ pool.closing = .dropped →
    ∀ ticket job, pool.accepted[ticket]? = some job → Settled pool ticket job
  /-- Whoever waits now gets the right answer, whenever it comes. -/
  waits : ∀ ticket job, pool.accepted[ticket]? = some job → Held pool ticket →
    ∀ moves after, pool.steps? moves = some after → .discard ticket ∉ moves →
      Answers after ticket job
  /-- Who waits later gets the same answer. -/
  lasts : ∀ ticket, Held pool ticket → ∀ r, pool.result? ticket = some r →
    ∀ moves after, pool.steps? moves = some after → .discard ticket ∉ moves →
      after.result? ticket = some r
  /-- Handles that were dropped on the way might as well have been kept. -/
  kept : ∀ tickets moves after, pool.steps? moves = some after →
    ∃ after', pool.steps? (moves.filter (keeps tickets)) = some after' ∧
      after' = { after with mail := after'.mail } ∧
      ∀ ticket, ticket ∉ tickets → after'.result? ticket = after.result? ticket
  /-- A handle can be dropped at any time, and nothing else changes by it. -/
  dropped : ∀ ticket < pool.accepted.length, ∃ dropped,
    pool.step? (.discard ticket) = some dropped ∧ Inseparable [] [ticket] dropped pool

theorem Mailed.answers {size : Nat} {pool : Pool α} (h : Mailed pool) (books : Balanced size pool)
    {ticket : Nat} {job : Job α} (hjob : pool.accepted[ticket]? = some job)
    (held : Held pool ticket) : Answers pool ticket job := by
  have hanswer := fun r hresult => h.ended_of_result? (r := r) hjob held hresult
  refine ⟨fun r hresult => ?_, fun r hresult => ?_, fun r hresult => ?_⟩
  · obtain ⟨outcome, hended, -⟩ := hanswer r hresult
    exact ⟨outcome, hended⟩
  · obtain ⟨outcome, hended, rfl⟩ := hanswer r hresult
    rw [Outcome.answer_eq_ok_iff]
    exact ⟨fun heq => heq ▸ hended, fun hother => books.ended_unique hended hother⟩
  · obtain ⟨outcome, hended, rfl⟩ := hanswer r hresult
    rw [Outcome.answer_eq_error_iff]
    exact ⟨fun heq => heq ▸ hended, fun hother => books.ended_unique hended hother⟩

/-- However calls, looks at the queue, ends of tasks, drops of handles and shutdowns come, a
panic is the business of its own task alone, and a handle that is held tells how its task
ended and nothing else. -/
theorem sheltered_of_reachable {size : Nat} {pool : Pool α} (hsize : 1 ≤ size)
    (h : Reachable size pool) : Sheltered size pool := by
  have hbooks : Balanced size pool := h.balanced hsize
  have hmailed : Mailed pool := h.mailed hsize
  refine
    { crew := ?crew
      goesOn := ?goesOn
      apart := ?apart
      finishes := ?finishes
      shut := fun closed ticket job hjob => h.told_of_closed hsize closed hjob
      waits := ?waits
      lasts := ?lasts
      kept := ?kept
      dropped := ?dropped }
  case crew =>
    intro running
    refine ⟨hbooks.crew, fun worker hmem hexited => ?_⟩
    have hstop := (hbooks.exited (hexited ▸ hmem)).1
    rw [running] at hstop
    contradiction
  case goesOn =>
    intro w job outcome hw
    exact ⟨_, (Step.told hw).step?, List.getElem?_set_self (List.getElem?_eq_some_iff.1 hw).1⟩
  case apart =>
    intro w returned panicked hreturned hpanicked
    obtain ⟨job, hrunning, halike⟩ := alike_of_finish hreturned hpanicked
    exact ⟨job, hrunning, halike.inseparable (List.Subset.refl _)⟩
  case finishes =>
    intro moves after hwork hmoves
    refine ⟨length_le_workLeft hwork hmoves, fun rest ticket job hjob => ?_⟩
    exact (h.steps? hmoves).told_of_atRest hsize rest hjob
  case waits =>
    intro ticket job hjob held moves after hmoves hkept
    have hafter : Reachable size after := h.steps? hmoves
    exact (hafter.mailed hsize).answers (hafter.balanced hsize) (accepted_kept hmoves hjob)
      (held.kept hmoves hkept)
  case lasts =>
    intro ticket held r hresult moves after hmoves hkept
    exact h.result?_kept hsize held hresult hmoves hkept
  case kept =>
    intro tickets moves after hmoves
    have hsame : Alike [] tickets pool pool := .of_mail ⟨rfl, fun _ _ => rfl⟩
    obtain ⟨after', hafter, halike⟩ := hsame.steps?_keeps hmoves
    exact ⟨after', hafter, halike.eq_of_nil, fun ticket hticket => halike.result? hticket⟩
  case dropped =>
    intro ticket hticket
    have hstep := (Step.discarded (hmailed.count ▸ hticket)).step?
    exact ⟨_, hstep, (alike_of_discard hstep).inseparable (List.nil_subset _)⟩

/-- Two workers and three tasks.  The second task has panicked, the handle of the first was
dropped before its end was told, and the third runs on the worker that caught the panic. -/
def caught : List (Move Nat) :=
  [.submit 10, .submit 20, .notifyOne none, .poll 0, .submit 30, .poll 1, .notifyOne none,
    .finish 1 .panicked, .discard 0, .tell 1, .poll 1, .finish 0 .returned]

theorem sheltered_when_caught :
    1 ≤ 2 ∧ ∃ pool : Pool Nat, Reachable 2 pool ∧
      pool.workers = [.reporting ⟨0, 10⟩ .returned, .running ⟨2, 30⟩] ∧
      pool.result? 1 = some (.error .taskPanicked) ∧ pool.result? 2 = none ∧ Held pool 2 ∧
      Sheltered 2 pool :=
  ⟨by decide, _, ⟨caught, rfl⟩, rfl, rfl, rfl, ⟨_, rfl, rfl⟩,
    sheltered_of_reachable (by decide) ⟨caught, rfl⟩⟩

end Pool

end SiteServer.Workers
