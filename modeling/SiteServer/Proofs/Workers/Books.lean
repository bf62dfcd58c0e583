import SiteServer.Proofs.Workers.Moves
import Mathlib.Data.List.Perm.Basic
import Mathlib.Data.List.Nodup

/-!
# The books of a pool

What was accepted is what was taken, in order, and then what still waits; and what
was taken is what has ended together with what runs now.  Every move keeps these
books balanced (`Step.balanced`), and with them what is needed to close them:
nobody leaves before the flag is raised and the queue is empty, and from then on
nothing joins the queue.
-/

namespace SiteServer.Workers.Pool

open scoped List

variable {α : Type}

/-! ## Tasks in hand -/

/-- The task that a worker runs, next to the worker's number. -/
def held (place : Worker α × Nat) : Option (Nat × Job α) :=
  place.1.job?.map fun job => (place.2, job)

/-- The tasks that run now, each with the number of its worker. -/
def inHand (workers : List (Worker α)) : List (Nat × Job α) :=
  workers.zipIdx.filterMap held

/-- The runs so far: those that have ended, and those under way. -/
def runs (pool : Pool α) : List (Nat × Job α) :=
  pool.ended.map (fun run => (run.1, run.2.1)) ++ inHand pool.workers

theorem job?_eq_some_iff {worker : Worker α} {job : Job α} :
    worker.job? = some job ↔ worker = .running job := by
  cases worker <;> simp [Worker.job?]

theorem mem_inHand_iff {workers : List (Worker α)} {w : Nat} {job : Job α} :
    (w, job) ∈ inHand workers ↔ workers[w]? = some (.running job) := by
  rw [inHand, List.mem_filterMap]
  constructor
  · intro h
    rcases h with ⟨⟨worker, i⟩, hmem, hheld⟩
    obtain ⟨found, hjob, heq⟩ := Option.map_eq_some_iff.1 hheld
    have hworker : worker = .running found := job?_eq_some_iff.1 hjob
    have hat : workers[i]? = some worker := List.mk_mem_zipIdx_iff_getElem?.1 hmem
    cases heq
    rw [hat, hworker]
  · intro h
    exact ⟨(.running job, w), List.mk_mem_zipIdx_iff_getElem?.2 h, rfl⟩

theorem inHand_replicate_ready (size : Nat) :
    inHand (List.replicate size (.ready : Worker α)) = [] := by
  rw [List.eq_nil_iff_forall_not_mem]
  intro ⟨w, job⟩ hmem
  have hworker : .running job ∈ List.replicate size Worker.ready :=
    List.mem_of_getElem? (mem_inHand_iff.1 hmem)
  exact absurd (List.eq_of_mem_replicate hworker) (by simp)

/-- A change of one worker changes one entry. -/
theorem exists_inHand_set {workers : List (Worker α)} {w : Nat} {old : Worker α}
    (h : workers[w]? = some old) :
    ∃ before after, inHand workers = before ++ (held (old, w)).toList ++ after ∧
      ∀ new, inHand (workers.set w new) = before ++ (held (new, w)).toList ++ after := by
  obtain ⟨hw, hold⟩ := List.getElem?_eq_some_iff.1 h
  have hset : ∀ new, inHand (workers.set w new) =
      (workers.take w).zipIdx.filterMap held ++ (held (new, w)).toList ++
        ((workers.drop (w + 1)).zipIdx (w + 1)).filterMap held := by
    intro new
    have hlength : (workers.take w).length = w := List.length_take_of_le (Nat.le_of_lt hw)
    rw [inHand, List.set_eq_take_append_cons_drop, if_pos hw, List.zipIdx_append,
      List.filterMap_append, List.zipIdx_cons, hlength, Nat.zero_add]
    cases hnew : held (new, w) <;> simp [hnew]
  refine ⟨_, _, ?_, hset⟩
  rw [← hset old, ← hold, List.set_getElem_self]

/-- A worker that runs nothing before and after leaves the tasks in hand alone. -/
theorem inHand_set_of_idle {workers : List (Worker α)} {w : Nat} {old new : Worker α}
    (h : workers[w]? = some old) (hold : old.job? = none) (hnew : new.job? = none) :
    inHand (workers.set w new) = inHand workers := by
  obtain ⟨before, after, hbefore, hafter⟩ := exists_inHand_set h
  rw [hafter new, hbefore, held, held, hold, hnew]

theorem inHand_set_running {workers : List (Worker α)} {w : Nat} {old : Worker α} (job : Job α)
    (h : workers[w]? = some old) (hold : old.job? = none) :
    inHand (workers.set w (.running job)) ~ (w, job) :: inHand workers := by
  obtain ⟨before, after, hbefore, hafter⟩ := exists_inHand_set h
  rw [hafter, hbefore, held, held, hold]
  simp [Worker.job?]

theorem inHand_of_running {workers : List (Worker α)} {w : Nat} {job : Job α} {new : Worker α}
    (h : workers[w]? = some (.running job)) (hnew : new.job? = none) :
    inHand workers ~ (w, job) :: inHand (workers.set w new) := by
  obtain ⟨before, after, hbefore, hafter⟩ := exists_inHand_set h
  rw [hafter, hbefore, held, held, hnew]
  simp [Worker.job?]

theorem runs_setWorker_of_idle {pool : Pool α} {w : Nat} {old new : Worker α}
    (h : pool.workers[w]? = some old) (hold : old.job? = none) (hnew : new.job? = none) :
    (pool.setWorker w new).runs = pool.runs := by
  rw [runs, runs, setWorker, inHand_set_of_idle h hold hnew]

theorem inHand_map_woken (workers : List (Worker α)) :
    inHand (workers.map Worker.woken) = inHand workers := by
  rw [inHand, List.zipIdx_map, List.filterMap_map]
  congr 1
  funext place
  cases h : place.1 <;> simp [held, h, Worker.woken, Worker.job?]

/-! ## The books -/

/-- What holds after every move of a pool of `size` workers. -/
structure Balanced (size : Nat) (pool : Pool α) : Prop where
  crew : pool.workers.length = size
  order : pool.accepted = pool.taken.map Prod.snd ++ pool.queue
  tickets : pool.accepted.map Job.ticket = List.range pool.accepted.length
  ran : pool.runs ~ pool.taken
  exited : .exited ∈ pool.workers → pool.stop = true ∧ pool.queue = []
  asked : pool.closing ≠ .notAsked → pool.stop = true
  closed : pool.closing = .joined ∨ pool.closing = .dropped →
    ∀ worker ∈ pool.workers, worker = .exited

theorem balanced_start (size : Nat) : Balanced size (start size : Pool α) where
  crew := List.length_replicate
  order := rfl
  tickets := rfl
  ran := by simp [runs, start, inHand_replicate_ready]
  exited := by simp [start]
  asked := by simp [start]
  closed := by simp [start]

/-- Whoever has left after a change of worker `w` had left before, unless it is
`w` itself. -/
theorem exited_mem_of_set {workers : List (Worker α)} {w : Nat} {new : Worker α}
    (hnew : new ≠ .exited) (h : .exited ∈ workers.set w new) : .exited ∈ workers := by
  cases List.mem_or_eq_of_mem_set h with
  | inl hmem => exact hmem
  | inr heq => exact absurd heq.symm hnew

theorem exited_mem_map_woken {workers : List (Worker α)} :
    .exited ∈ workers.map Worker.woken ↔ .exited ∈ workers := by
  rw [List.mem_map]
  constructor
  · intro h
    rcases h with ⟨worker, hmem, heq⟩
    cases worker with
    | exited => exact hmem
    | _ => contradiction
  · intro hmem
    exact ⟨.exited, hmem, rfl⟩

/-- A pool with a worker that has not left is not closed. -/
theorem Balanced.not_closed {size : Nat} {pool : Pool α} (h : Balanced size pool) {w : Nat}
    {worker : Worker α} (hw : pool.workers[w]? = some worker) (hworker : worker ≠ .exited) :
    ¬(pool.closing = .joined ∨ pool.closing = .dropped) := by
  intro hclosed
  exact hworker (h.closed hclosed worker (List.mem_of_getElem? hw))

/-- A move of one worker that neither takes nor ends a task. -/
theorem Balanced.setWorker {size : Nat} {pool : Pool α} (h : Balanced size pool) {w : Nat}
    {old new : Worker α} (hw : pool.workers[w]? = some old) (hold : old.job? = none)
    (hthere : old ≠ .exited) (hnew : new.job? = none)
    (hleaves : new = .exited → pool.stop = true ∧ pool.queue = []) :
    Balanced size (pool.setWorker w new) where
  crew := by simpa [Pool.setWorker] using h.crew
  order := h.order
  tickets := h.tickets
  ran := by
    rw [runs_setWorker_of_idle hw hold hnew]
    exact h.ran
  exited := by
    intro hmem
    cases List.mem_or_eq_of_mem_set hmem with
    | inl hbefore => exact h.exited hbefore
    | inr heq => exact hleaves heq.symm
  asked := h.asked
  closed := fun hclosed => absurd hclosed (h.not_closed hw hthere)

/-- The books do not mention notifications and channels. -/
theorem Balanced.elsewhere {size : Nat} {pool : Pool α} (h : Balanced size pool) (notifies : Nat)
    (mail : List Mailbox) :
    Balanced size { pool with notifies := notifies, mail := mail } :=
  ⟨h.crew, h.order, h.tickets, h.ran, h.exited, h.asked, h.closed⟩

theorem Balanced.accept {size : Nat} {pool : Pool α} (h : Balanced size pool)
    (running : pool.stop = false) (task : α) : Balanced size (pool.accept task) where
  crew := h.crew
  order := by
    show pool.accepted ++ [pool.newJob task] =
      pool.taken.map Prod.snd ++ (pool.queue ++ [pool.newJob task])
    rw [h.order, List.append_assoc]
  tickets := by
    show (pool.accepted ++ [pool.newJob task]).map Job.ticket =
      List.range (pool.accepted ++ [pool.newJob task]).length
    rw [List.map_append, h.tickets, List.length_append, List.length_singleton, List.range_succ]
    rfl
  ran := h.ran
  exited := by
    intro hmem
    have hstop := (h.exited hmem).1
    rw [running] at hstop
    contradiction
  asked := h.asked
  closed := h.closed

theorem Balanced.take {size : Nat} {pool : Pool α} (h : Balanced size pool) {w : Nat}
    {job : Job α} {rest : List (Job α)} (ready : pool.workers[w]? = some .ready)
    (first : pool.queue = job :: rest) :
    Balanced size
      { pool with
        queue := rest
        workers := pool.workers.set w (.running job)
        taken := pool.taken ++ [(w, job)] } where
  crew := by simpa using h.crew
  order := by
    show pool.accepted = (pool.taken ++ [(w, job)]).map Prod.snd ++ rest
    rw [h.order, first, List.map_append, List.append_assoc]
    rfl
  tickets := h.tickets
  ran := by
    have hone : inHand (pool.workers.set w (.running job)) ~ (w, job) :: inHand pool.workers :=
      inHand_set_running job ready rfl
    calc
      pool.ended.map (fun run => (run.1, run.2.1)) ++ inHand (pool.workers.set w (.running job))
        ~ pool.ended.map (fun run => (run.1, run.2.1)) ++ (w, job) :: inHand pool.workers :=
          hone.append_left _
      _ ~ (w, job) :: pool.runs := List.perm_middle
      _ ~ (w, job) :: pool.taken := h.ran.cons _
      _ ~ pool.taken ++ [(w, job)] := (List.perm_append_singleton _ _).symm
  exited := by
    intro hmem
    have hqueue := (h.exited (exited_mem_of_set (by simp) hmem)).2
    rw [first] at hqueue
    contradiction
  asked := h.asked
  closed := fun hclosed => absurd hclosed (h.not_closed ready (by simp))

theorem Balanced.finish {size : Nat} {pool : Pool α} (h : Balanced size pool) {w : Nat}
    {job : Job α} (running : pool.workers[w]? = some (.running job)) (outcome : Outcome) :
    Balanced size
      { pool.setWorker w (.reporting job outcome) with
        ended := pool.ended ++ [(w, job, outcome)] } where
  crew := by simpa [Pool.setWorker] using h.crew
  order := h.order
  tickets := h.tickets
  ran := by
    have hone : inHand pool.workers ~
        (w, job) :: inHand (pool.workers.set w (.reporting job outcome)) :=
      inHand_of_running running rfl
    show (pool.ended ++ [(w, job, outcome)]).map (fun run => (run.1, run.2.1)) ++
      inHand (pool.workers.set w (.reporting job outcome)) ~ pool.taken
    rw [List.map_append, List.append_assoc]
    exact (hone.symm.append_left _).trans h.ran
  exited := fun hmem => h.exited (exited_mem_of_set (by simp) hmem)
  asked := h.asked
  closed := fun hclosed => absurd hclosed (h.not_closed running (by simp))

theorem Balanced.wake {size : Nat} {pool : Pool α} (h : Balanced size pool)
    (closing : pool.closing = .flagged) :
    Balanced size { pool with workers := pool.workers.map Worker.woken, closing := .joining } where
  crew := by simpa using h.crew
  order := h.order
  tickets := h.tickets
  ran := by
    show _ ++ inHand (pool.workers.map Worker.woken) ~ pool.taken
    rw [inHand_map_woken]
    exact h.ran
  exited := fun hmem => h.exited (exited_mem_map_woken.1 hmem)
  asked := fun _ => h.asked (by simp [closing])
  closed := by simp

/-- Once everybody has left there is nothing to do, as somebody was there. -/
theorem Balanced.done {size : Nat} {pool : Pool α} (h : Balanced size pool) (hsize : 1 ≤ size)
    (hexited : ∀ worker ∈ pool.workers, worker = .exited) :
    pool.stop = true ∧ pool.queue = [] := by
  have hcrew : 0 < pool.workers.length := by
    rw [h.crew]
    omega
  have hmem : pool.workers[0] ∈ pool.workers := List.getElem_mem hcrew
  exact h.exited (hexited _ hmem ▸ hmem)

/-- Every move keeps the books of a pool with workers balanced. -/
theorem Step.balanced {size : Nat} {pool after : Pool α} {move : Move α} (hsize : 1 ≤ size)
    (h : Step pool move after) (before : Balanced size pool) : Balanced size after := by
  cases h with
  | accepted task running => exact before.accept running task
  | refused => exact before
  | unheard => exact before.elsewhere _ _
  | roused owed asleep =>
      exact (before.setWorker asleep rfl (by simp) rfl (by simp)).elsewhere _ _
  | took ready first => exact before.take ready first
  | fellAsleep ready => exact before.setWorker ready rfl (by simp) rfl (by simp)
  | left ready empty stopping =>
      exact before.setWorker ready rfl (by simp) rfl fun _ => ⟨stopping, empty⟩
  | stirred asleep => exact before.setWorker asleep rfl (by simp) rfl (by simp)
  | finished running => exact before.finish running _
  | told reporting =>
      exact (before.setWorker reporting rfl (by simp) rfl (by simp)).elsewhere _ _
  | discarded => exact before.elsewhere _ _
  | flagged =>
      exact { before with
        exited := fun hmem => ⟨rfl, (before.exited hmem).2⟩
        asked := fun _ => rfl
        closed := by simp }
  | wokeAll closing => exact before.wake closing
  | joined closing exited =>
      exact { before with
        asked := fun _ => before.asked (by simp [closing])
        closed := fun _ => exited }
  | dropped closing =>
      have hexited := before.closed (.inl closing)
      exact { before with
        order := by rw [before.order, (before.done hsize hexited).2]
        exited := fun hmem => ⟨(before.exited hmem).1, rfl⟩
        asked := fun _ => before.asked (by simp [closing])
        closed := fun _ => hexited }

theorem Reachable.balanced {size : Nat} {pool : Pool α} (hsize : 1 ≤ size)
    (h : Reachable size pool) : Balanced size pool :=
  h.induction (Balanced size) (balanced_start size) (Step.balanced hsize)

theorem Balanced.accepted_nodup {size : Nat} {pool : Pool α} (h : Balanced size pool) :
    pool.accepted.Nodup := by
  apply List.Nodup.of_map Job.ticket
  rw [h.tickets]
  exact List.nodup_range

theorem Balanced.runs_nodup {size : Nat} {pool : Pool α} (h : Balanced size pool) :
    (pool.runs.map Prod.snd).Nodup := by
  rw [(h.ran.map Prod.snd).nodup_iff]
  have haccepted : (pool.taken.map Prod.snd ++ pool.queue).Nodup := h.order ▸ h.accepted_nodup
  exact haccepted.of_append_left

/-- Once everybody has left, all that was accepted has ended. -/
theorem Balanced.all_ended {size : Nat} {pool : Pool α} (h : Balanced size pool)
    (hsize : 1 ≤ size) (hexited : ∀ worker ∈ pool.workers, worker = .exited) :
    (pool.ended.map fun run => run.2.1) ~ pool.accepted := by
  have hidle : inHand pool.workers = [] := by
    rw [List.eq_nil_iff_forall_not_mem]
    intro ⟨w, job⟩ hmem
    have hworker := hexited _ (List.mem_of_getElem? (mem_inHand_iff.1 hmem))
    contradiction
  have hran := h.ran.map Prod.snd
  rw [runs, hidle, List.append_nil, List.map_map] at hran
  rw [h.order, (h.done hsize hexited).2, List.append_nil]
  exact hran

end SiteServer.Workers.Pool
