import SiteServer.Proofs.Workers.Rest

/-!
# Where the word of a task is

The sending end of a task's channel waits in the queue with its task, is held by the
worker that has the task, and is let go of when that worker tells how the task ended:
it is never dropped in silence, whatever the workers, a panic or a shutdown do
(`Posted`).  So whoever still holds the handle learns nothing before the task has
ended, and then how it ended and nothing else (`Mailed.ended_of_result?`), and learns the
same whenever it asks again (`Reachable.result?_kept`).

Word comes.  A pool that has no work left to do has ended all tasks it ever accepted
and told of each (`Reachable.told_of_atRest`), and it gets there by a number of moves
that is known beforehand, unless it is given more to do on the way.
-/

namespace SiteServer.Workers

variable {α : Type}

/-- The task that a worker has, from when it takes it until it has told of its end. -/
def Worker.task? : Worker α → Option (Job α)
  | running job => some job
  | reporting job _ => some job
  | _ => none

@[simp] theorem Worker.task?_woken (worker : Worker α) : worker.woken.task? = worker.task? := by
  cases worker <;> rfl

/-- The sending end is held, and nothing was sent. -/
def Mailbox.Silent (box : Mailbox) : Prop := box.sender = true ∧ box.word = none

theorem Mailbox.Silent.not_due {box : Mailbox} (h : box.Silent) : box.isDue = false := by
  simp [isDue, h.1, h.2]

/-- What a waiter is told of a task that has ended. -/
def Outcome.answer : Outcome → Except PoolError Unit
  | returned => .ok ()
  | panicked => .error .taskPanicked

theorem Outcome.answer_eq_ok_iff {outcome : Outcome} :
    outcome.answer = .ok () ↔ outcome = .returned := by
  cases outcome <;> simp [answer]

theorem Outcome.answer_eq_error_iff {outcome : Outcome} :
    outcome.answer = .error .taskPanicked ↔ outcome = .panicked := by
  cases outcome <;> simp [answer]

namespace Pool

/-- A task has ended in a certain way. -/
def Ended (pool : Pool α) (job : Job α) (outcome : Outcome) : Prop :=
  ∃ w, (w, job, outcome) ∈ pool.ended

/-! ## The sending end -/

/-- Where the sending end of a task's channel is: with the task in the queue, with the
worker that has the task, or gone with the word of how the task ended. -/
inductive Posted (pool : Pool α) (job : Job α) (box : Mailbox) : Prop
  | waiting (queued : job ∈ pool.queue) (silent : box.Silent)
  | carried {w : Nat} {worker : Worker α} (carrier : pool.workers[w]? = some worker)
      (task : worker.task? = some job) (silent : box.Silent)
  | told {outcome : Outcome} (ended : pool.Ended job outcome) (gone : box.sender = false)
      (word : box.receiver = true → box.word = some outcome)

/-- Every task that was accepted has its channel, whose sending end is where it should
be. -/
structure Mailed (pool : Pool α) : Prop where
  count : pool.mail.length = pool.accepted.length
  /-- A worker tells of a task only after the task has ended. -/
  reported : ∀ {w : Nat} {job : Job α} {outcome : Outcome},
    pool.workers[w]? = some (.reporting job outcome) → pool.Ended job outcome
  posted : ∀ {ticket : Nat} {job : Job α} {box : Mailbox}, pool.accepted[ticket]? = some job →
    pool.mail[ticket]? = some box → Posted pool job box

theorem mailed_start (size : Nat) : Mailed (start size : Pool α) where
  count := rfl
  reported := by
    intro w job outcome hw
    have hready := List.eq_of_mem_replicate (List.mem_of_getElem? hw)
    contradiction
  posted := by
    intro ticket job box hjob
    simp [start] at hjob

/-! ### Tickets -/

section Tickets

variable {size : Nat} {pool : Pool α} {job : Job α}

/-- A task's ticket is its place in the order of acceptance. -/
theorem Balanced.ticket_eq (h : Balanced size pool) {ticket : Nat}
    (hjob : pool.accepted[ticket]? = some job) : job.ticket = ticket := by
  have hlt := (List.getElem?_eq_some_iff.1 hjob).1
  have hticket : (pool.accepted.map Job.ticket)[ticket]? = some job.ticket := by
    rw [List.getElem?_map, hjob]
    rfl
  rw [h.tickets, List.getElem?_range hlt] at hticket
  exact (Option.some.inj hticket).symm

theorem Balanced.getElem?_ticket (h : Balanced size pool) (hjob : job ∈ pool.accepted) :
    pool.accepted[job.ticket]? = some job := by
  obtain ⟨ticket, hat⟩ := List.mem_iff_getElem?.1 hjob
  rw [h.ticket_eq hat, hat]

/-- What has ended was accepted. -/
theorem Balanced.mem_accepted (h : Balanced size pool) {outcome : Outcome}
    (hended : pool.Ended job outcome) : job ∈ pool.accepted := by
  obtain ⟨w, hmem⟩ := hended
  have hrun : (w, job) ∈ pool.runs :=
    List.mem_append_left _ (List.mem_map.2 ⟨_, hmem, rfl⟩)
  rw [h.order]
  exact List.mem_append_left _ (List.mem_map.2 ⟨_, h.ran.mem_iff.1 hrun, rfl⟩)

end Tickets

/-! ### One move -/

/-- A changed channel was there before. -/
theorem getElem?_updateMail {pool : Pool α} {ticket changed : Nat} {f : Mailbox → Mailbox}
    {box : Mailbox} (h : (pool.updateMail changed f).mail[ticket]? = some box) :
    ∃ before, pool.mail[ticket]? = some before ∧
      (if ticket = changed then f before else before) = box := by
  have hmodify : (pool.mail.modify changed f)[ticket]? = some box := h
  rw [List.getElem?_modify] at hmodify
  obtain ⟨before, hbefore, hchanged⟩ := Option.map_eq_some_iff.1 hmodify
  simp only [eq_comm (a := changed)] at hchanged
  exact ⟨before, hbefore, hchanged⟩

/-- A worker of a changed crew, if it is not the one that was changed, was there before. -/
theorem getElem?_set_cases {workers : List (Worker α)} {w v : Nat} {new worker : Worker α}
    (h : (workers.set w new)[v]? = some worker) :
    (v = w ∧ worker = new) ∨ (v ≠ w ∧ workers[v]? = some worker) := by
  rw [List.getElem?_set] at h
  split at h
  · rename_i heq
    split at h
    · exact .inl ⟨heq.symm, (Option.some.inj h).symm⟩
    · contradiction
  · rename_i hne
    exact .inr ⟨Ne.symm hne, h⟩

/-- A sending end stays where it is while one worker goes on, unless that worker lets go
of it. -/
theorem Posted.setWorker {pool : Pool α} {job : Job α} {box : Mailbox} (h : Posted pool job box)
    {w : Nat} {old new : Worker α} (hw : pool.workers[w]? = some old)
    (keeps : old.task? = some job → new.task? = some job) :
    Posted (pool.setWorker w new) job box := by
  cases h with
  | waiting queued silent => exact .waiting queued silent
  | @carried v worker carrier task silent =>
      by_cases hv : v = w
      · subst hv
        obtain rfl : old = worker := Option.some.inj (hw.symm.trans carrier)
        have hlt := (List.getElem?_eq_some_iff.1 carrier).1
        exact .carried (List.getElem?_set_self hlt) (keeps task) silent
      · refine .carried (w := v) ?_ task silent
        exact (List.getElem?_set_ne (Ne.symm hv)).trans carrier
  | told ended gone word => exact .told ended gone word

namespace Mailed

variable {pool : Pool α}

/-- A move of one worker that neither takes a task nor lets one go. -/
theorem setWorker (h : Mailed pool) {w : Nat} {old new : Worker α}
    (hw : pool.workers[w]? = some old) (hold : old.task? = none) (hnew : new.task? = none) :
    Mailed (pool.setWorker w new) where
  count := h.count
  reported := by
    intro v job outcome hv
    rcases getElem?_set_cases hv with ⟨-, rfl⟩ | ⟨-, hbefore⟩
    · contradiction
    · exact h.reported hbefore
  posted := by
    intro ticket job box hjob hbox
    refine (h.posted hjob hbox).setWorker hw fun htask => ?_
    rw [hold] at htask
    contradiction

/-- Channels do not mention notifications, nor how far a shutdown has come. -/
theorem elsewhere (h : Mailed pool) (notifies : Nat) (stop : Bool) (closing : Closing) :
    Mailed { pool with notifies := notifies, stop := stop, closing := closing } where
  count := h.count
  reported := h.reported
  posted := by
    intro ticket job box hjob hbox
    cases h.posted hjob hbox with
    | waiting queued silent => exact .waiting queued silent
    | carried carrier task silent => exact .carried carrier task silent
    | told ended gone word => exact .told ended gone word

theorem accept (h : Mailed pool) (task : α) : Mailed (pool.accept task) where
  count := by
    show (pool.mail ++ [Mailbox.fresh]).length = (pool.accepted ++ [pool.newJob task]).length
    rw [List.length_append, List.length_append, h.count]
    rfl
  reported := h.reported
  posted := by
    intro ticket job box hjob hbox
    have hjob : (pool.accepted ++ [pool.newJob task])[ticket]? = some job := hjob
    have hbox : (pool.mail ++ [Mailbox.fresh])[ticket]? = some box := hbox
    by_cases hold : ticket < pool.accepted.length
    · rw [List.getElem?_append_left hold] at hjob
      rw [List.getElem?_append_left (h.count ▸ hold)] at hbox
      cases h.posted hjob hbox with
      | waiting queued silent => exact .waiting (List.mem_append_left _ queued) silent
      | carried carrier task silent => exact .carried carrier task silent
      | told ended gone word => exact .told ended gone word
    · have hnew : pool.accepted.length ≤ ticket := Nat.le_of_not_lt hold
      rw [List.getElem?_append_right hnew, List.getElem?_singleton,
        Option.ite_none_right_eq_some] at hjob
      rw [List.getElem?_append_right (h.count ▸ hnew), List.getElem?_singleton,
        Option.ite_none_right_eq_some] at hbox
      obtain rfl := Option.some.inj hjob.2
      obtain rfl := Option.some.inj hbox.2
      exact .waiting (List.mem_append_right _ (List.mem_singleton_self _)) ⟨rfl, rfl⟩

/-- The sending end leaves the queue with its task, for the worker that takes it. -/
theorem take (h : Mailed pool) {w : Nat} {job : Job α} {rest : List (Job α)}
    (ready : pool.workers[w]? = some .ready) (first : pool.queue = job :: rest) :
    Mailed
      { pool with
        queue := rest
        workers := pool.workers.set w (.running job)
        taken := pool.taken ++ [(w, job)] } where
  count := h.count
  reported := by
    intro v found outcome hv
    rcases getElem?_set_cases hv with ⟨-, heq⟩ | ⟨-, hbefore⟩
    · contradiction
    · exact h.reported hbefore
  posted := by
    intro ticket found box hjob hbox
    have hw := (List.getElem?_eq_some_iff.1 ready).1
    cases h.posted hjob hbox with
    | waiting queued silent =>
        rw [first] at queued
        rcases List.mem_cons.1 queued with rfl | hrest
        · exact .carried (List.getElem?_set_self hw) rfl silent
        · exact .waiting hrest silent
    | @carried v worker carrier task silent =>
        have hv : v ≠ w := by
          rintro rfl
          obtain rfl := Option.some.inj (ready.symm.trans carrier)
          contradiction
        exact .carried ((List.getElem?_set_ne (Ne.symm hv)).trans carrier) task silent
    | told ended gone word => exact .told ended gone word

theorem finish (h : Mailed pool) {w : Nat} {job : Job α}
    (running : pool.workers[w]? = some (.running job)) (outcome : Outcome) :
    Mailed
      { pool.setWorker w (.reporting job outcome) with
        ended := pool.ended ++ [(w, job, outcome)] } where
  count := h.count
  reported := by
    intro v found other hv
    rcases getElem?_set_cases hv with ⟨-, heq⟩ | ⟨-, hbefore⟩
    · obtain ⟨rfl, rfl⟩ := Worker.reporting.inj heq
      exact ⟨w, List.mem_append_right _ (List.mem_singleton_self _)⟩
    · obtain ⟨u, hmem⟩ := h.reported hbefore
      exact ⟨u, List.mem_append_left _ hmem⟩
  posted := by
    intro ticket found box hjob hbox
    have hkept : Posted (pool.setWorker w (.reporting job outcome)) found box :=
      (h.posted hjob hbox).setWorker running fun htask => htask
    cases hkept with
    | waiting queued silent => exact .waiting queued silent
    | carried carrier task silent => exact .carried carrier task silent
    | told ended gone word =>
        obtain ⟨u, hmem⟩ := ended
        exact .told ⟨u, List.mem_append_left _ hmem⟩ gone word

/-- The sending end is let go of with the word of how the task ended. -/
theorem tell {size : Nat} (h : Mailed pool) (books : Balanced size pool) {w : Nat} {job : Job α}
    {outcome : Outcome} (reporting : pool.workers[w]? = some (.reporting job outcome)) :
    Mailed ((pool.setWorker w .ready).updateMail job.ticket (Mailbox.tell outcome)) where
  count := by simpa [updateMail, Pool.setWorker] using h.count
  reported := by
    intro v found other hv
    rcases getElem?_set_cases hv with ⟨-, heq⟩ | ⟨-, hbefore⟩
    · contradiction
    · exact h.reported hbefore
  posted := by
    intro ticket found box hjob hbox
    obtain ⟨before, hbefore, rfl⟩ := getElem?_updateMail hbox
    have hjob : pool.accepted[ticket]? = some found := hjob
    by_cases hticket : ticket = job.ticket
    · have hown := books.getElem?_ticket (books.mem_accepted (h.reported reporting))
      obtain rfl : job = found := by
        rw [hticket, hown] at hjob
        exact Option.some.inj hjob
      rw [if_pos hticket]
      refine .told (h.reported reporting) rfl fun held => ?_
      have hheld : before.receiver = true := held
      show (if before.receiver then some outcome else before.word) = some outcome
      rw [if_pos hheld]
    · have hother : job ≠ found := by
        rintro rfl
        exact hticket (books.ticket_eq hjob).symm
      have hkept : Posted (pool.setWorker w .ready) found before :=
        (h.posted hjob hbefore).setWorker reporting
          fun htask => absurd (Option.some.inj htask) hother
      rw [if_neg hticket]
      cases hkept with
      | waiting queued silent => exact .waiting queued silent
      | carried carrier task silent => exact .carried carrier task silent
      | told ended gone word => exact .told ended gone word

/-- A handle that is let go of leaves the sending end where it is. -/
theorem discard (h : Mailed pool) (dropped : Nat) :
    Mailed (pool.updateMail dropped Mailbox.discard) where
  count := by simpa [updateMail] using h.count
  reported := h.reported
  posted := by
    intro ticket job box hjob hbox
    obtain ⟨before, hbefore, rfl⟩ := getElem?_updateMail hbox
    have hsender :
        (if ticket = dropped then before.discard else before).sender = before.sender := by
      split <;> rfl
    have hword : (if ticket = dropped then before.discard else before).word = before.word := by
      split <;> rfl
    cases h.posted hjob hbefore with
    | waiting queued silent => exact .waiting queued ⟨hsender.trans silent.1, hword.trans silent.2⟩
    | carried carrier task silent =>
        exact .carried carrier task ⟨hsender.trans silent.1, hword.trans silent.2⟩
    | told ended gone word =>
        refine .told ended (hsender.trans gone) fun held => hword.trans (word ?_)
        split at held
        · contradiction
        · exact held

theorem wake (h : Mailed pool) (closing : Closing) :
    Mailed { pool with workers := pool.workers.map Worker.woken, closing := closing } where
  count := h.count
  reported := by
    intro w job outcome hw
    obtain ⟨worker, hbefore, hwoken⟩ := Option.map_eq_some_iff.1 (List.getElem?_map.symm.trans hw)
    cases worker with
    | reporting => exact h.reported (hbefore.trans (congrArg some hwoken))
    | _ => contradiction
  posted := by
    intro ticket job box hjob hbox
    cases h.posted hjob hbox with
    | waiting queued silent => exact .waiting queued silent
    | @carried w worker carrier task silent =>
        have hwoken : (pool.workers.map Worker.woken)[w]? = some worker.woken := by
          rw [List.getElem?_map, carrier]
          rfl
        exact .carried hwoken ((Worker.task?_woken worker).trans task) silent
    | told ended gone word => exact .told ended gone word

end Mailed

/-- Every move keeps the sending ends where they should be. -/
theorem Step.mailed {size : Nat} {pool after : Pool α} {move : Move α} (hsize : 1 ≤ size)
    (h : Step pool move after) (books : Balanced size pool) (before : Mailed pool) :
    Mailed after := by
  cases h with
  | accepted task => exact before.accept task
  | refused => exact before
  | unheard => exact before.elsewhere _ _ _
  | roused owed asleep => exact (before.setWorker asleep rfl rfl).elsewhere _ _ _
  | took ready first => exact before.take ready first
  | fellAsleep ready => exact before.setWorker ready rfl rfl
  | left ready => exact before.setWorker ready rfl rfl
  | stirred asleep => exact before.setWorker asleep rfl rfl
  | finished running => exact before.finish running _
  | told reporting => exact before.tell books reporting
  | discarded => exact before.discard _
  | flagged => exact before.elsewhere _ _ _
  | wokeAll => exact before.wake _
  | joined => exact before.elsewhere _ _ _
  | dropped closing =>
      -- nothing is left in the queue for the pool to take with it
      have hempty := (books.done hsize (books.closed (.inl closing))).2
      have hsame : { pool with
          queue := []
          mail := pool.queue.foldl (fun mail job => mail.modify job.ticket Mailbox.abandon)
            pool.mail
          closing := .dropped } = { pool with closing := .dropped } := by
        rw [hempty]
        rfl
      rw [hsame]
      exact before.elsewhere _ _ _

theorem Reachable.mailed {size : Nat} {pool : Pool α} (hsize : 1 ≤ size)
    (h : Reachable size pool) : Mailed pool := by
  have hboth : Balanced size pool ∧ Mailed pool := by
    refine h.induction (fun pool => Balanced size pool ∧ Mailed pool)
      ⟨balanced_start size, mailed_start size⟩ ?_
    intro pool after move hstep before
    exact ⟨hstep.balanced hsize before.1, hstep.mailed hsize before.1 before.2⟩
  exact hboth.2

/-! ## What a waiter learns -/

/-- There is a channel under a ticket, and it is as stated. -/
def HasBox (mail : List Mailbox) (ticket : Nat) (p : Mailbox → Prop) : Prop :=
  ∃ box, mail[ticket]? = some box ∧ p box

/-- The handle of a task is still held. -/
def Held (pool : Pool α) (ticket : Nat) : Prop := HasBox pool.mail ticket (·.receiver = true)

/-- A task ends once. -/
theorem Balanced.ended_unique {size : Nat} {pool : Pool α} (h : Balanced size pool) {job : Job α}
    {outcome other : Outcome} (hended : pool.Ended job outcome) (hother : pool.Ended job other) :
    outcome = other := by
  obtain ⟨w, hmem⟩ := hended
  obtain ⟨v, hmem'⟩ := hother
  have hnodup : (pool.ended.map fun run => run.2.1).Nodup := by
    have hruns := h.runs_nodup
    rw [runs, List.map_append, List.map_map] at hruns
    exact hruns.of_append_left
  have hsame := List.inj_on_of_nodup_map hnodup hmem hmem' rfl
  exact (Prod.mk.inj (Prod.mk.inj hsame).2).2

/-- There is an answer only once the sending end is gone. -/
theorem Mailed.told_of_result? {pool : Pool α} (h : Mailed pool) {ticket : Nat} {job : Job α}
    {box : Mailbox} (hjob : pool.accepted[ticket]? = some job)
    (hbox : pool.mail[ticket]? = some box) {r : Except PoolError Unit}
    (hresult : pool.result? ticket = some r) :
    r = box.result ∧ box.sender = false ∧
      ∃ outcome, pool.Ended job outcome ∧ (box.receiver = true → box.word = some outcome) := by
  simp only [result?, hbox, Option.ite_none_right_eq_some, Option.some.injEq] at hresult
  obtain ⟨due, rfl⟩ := hresult
  have hsilent : ¬ box.Silent := by
    intro silent
    rw [silent.not_due] at due
    contradiction
  cases h.posted hjob hbox with
  | waiting _ silent => exact absurd silent hsilent
  | carried _ _ silent => exact absurd silent hsilent
  | told ended gone word => exact ⟨rfl, gone, _, ended, word⟩

/-- Who holds the handle of a task learns nothing before the task has ended, and then how it
ended. -/
theorem Mailed.ended_of_result? {pool : Pool α} (h : Mailed pool) {ticket : Nat} {job : Job α}
    (hjob : pool.accepted[ticket]? = some job) (held : Held pool ticket)
    {r : Except PoolError Unit} (hresult : pool.result? ticket = some r) :
    ∃ outcome, pool.Ended job outcome ∧ r = outcome.answer := by
  obtain ⟨box, hbox, hheld⟩ := held
  obtain ⟨rfl, -, outcome, hended, hword⟩ := h.told_of_result? hjob hbox hresult
  refine ⟨outcome, hended, ?_⟩
  rw [Mailbox.result, hword hheld]
  cases outcome <;> rfl

/-- Where nothing waits and nobody has a task, every task that was accepted has ended, and
whoever holds its handle is told how. -/
theorem Mailed.told_of_idle {pool : Pool α} (h : Mailed pool) (empty : pool.queue = [])
    (idle : ∀ worker ∈ pool.workers, worker.task? = none) {ticket : Nat} {job : Job α}
    (hjob : pool.accepted[ticket]? = some job) :
    ∃ outcome, pool.Ended job outcome ∧
      (Held pool ticket → pool.result? ticket = some outcome.answer) := by
  have hlt : ticket < pool.mail.length := h.count ▸ (List.getElem?_eq_some_iff.1 hjob).1
  have hbox : pool.mail[ticket]? = some pool.mail[ticket] := List.getElem?_eq_getElem hlt
  cases h.posted hjob hbox with
  | waiting queued =>
      rw [empty] at queued
      exact absurd queued List.not_mem_nil
  | carried carrier task =>
      rw [idle _ (List.mem_of_getElem? carrier)] at task
      contradiction
  | @told outcome ended gone word =>
      refine ⟨outcome, ended, fun held => ?_⟩
      obtain ⟨box, hheld, hreceiver⟩ := held
      obtain rfl := Option.some.inj (hbox.symm.trans hheld)
      simp only [result?, hbox, Mailbox.isDue, gone, Bool.not_false, Bool.or_true, if_true,
        Mailbox.result, word hreceiver]
      cases outcome <;> rfl

/-! ## What stays -/

/-- Moves lead from a reachable state to a reachable one. -/
theorem Reachable.steps? {size : Nat} {pool after : Pool α} {moves : List (Move α)}
    (h : Reachable size pool) (hmoves : pool.steps? moves = some after) : Reachable size after := by
  obtain ⟨before, hbefore⟩ := h
  exact ⟨before ++ moves, by rw [steps?_append, hbefore]; exact hmoves⟩

/-- What was accepted keeps its place. -/
theorem accepted_kept {pool after : Pool α} {moves : List (Move α)}
    (h : pool.steps? moves = some after) {ticket : Nat} {job : Job α}
    (hjob : pool.accepted[ticket]? = some job) : after.accepted[ticket]? = some job := by
  refine invariant_of_steps? (fun now => now.accepted[ticket]? = some job) ?_ h hjob
  intro now next move hstep hnow
  cases hstep with
  | accepted task =>
      show (now.accepted ++ _)[ticket]? = some job
      rw [List.getElem?_append_left (List.getElem?_eq_some_iff.1 hnow).1, hnow]
  | _ => exact hnow

/-- What has ended has ended for good. -/
theorem Ended.kept {pool after : Pool α} {job : Job α} {outcome : Outcome}
    (hended : pool.Ended job outcome) {moves : List (Move α)}
    (h : pool.steps? moves = some after) : after.Ended job outcome := by
  refine invariant_of_steps? (fun now => now.Ended job outcome) ?_ h hended
  intro now next move hstep hnow
  cases hstep with
  | finished running =>
      obtain ⟨w, hmem⟩ := hnow
      exact ⟨w, List.mem_append_left _ hmem⟩
  | _ => exact hnow

section Channel

variable {ticket : Nat} {mail : List Mailbox}

theorem HasBox.modify {p : Mailbox → Prop} (h : HasBox mail ticket p) {changed : Nat}
    {f : Mailbox → Mailbox} (hf : changed = ticket → ∀ box, p box → p (f box)) :
    HasBox (mail.modify changed f) ticket p := by
  obtain ⟨box, hbox, hp⟩ := h
  refine ⟨if changed = ticket then f box else box, ?_, ?_⟩
  · rw [List.getElem?_modify, hbox]
    rfl
  · split
    · rename_i heq
      exact hf heq box hp
    · exact hp

/-- What is true of a channel stays true, if it stays so when word is sent, when the sending
end is dropped, and when the handle is dropped in case that is what is done. -/
theorem Step.hasBox {p : Mailbox → Prop} (tell : ∀ outcome box, p box → p (box.tell outcome))
    (abandon : ∀ box, p box → p box.abandon) {pool after : Pool α} {move : Move α}
    (h : Step pool move after) (discard : move = .discard ticket → ∀ box, p box → p box.discard)
    (before : HasBox pool.mail ticket p) : HasBox after.mail ticket p := by
  cases h with
  | accepted task =>
      obtain ⟨box, hbox, hp⟩ := before
      refine ⟨box, ?_, hp⟩
      show (pool.mail ++ _)[ticket]? = some box
      rw [List.getElem?_append_left (List.getElem?_eq_some_iff.1 hbox).1, hbox]
  | told reporting => exact before.modify fun _ => tell _
  | discarded known => exact before.modify fun heq => discard (congrArg Move.discard heq)
  | dropped closing =>
      show HasBox (pool.queue.foldl _ pool.mail) ticket p
      generalize pool.mail = mail at before
      induction pool.queue generalizing mail with
      | nil => exact before
      | cons job queue ih => exact ih _ (before.modify fun _ => abandon)
  | _ => exact before

/-- A handle is held until it is dropped. -/
theorem Held.kept {pool after : Pool α} (held : Held pool ticket) {moves : List (Move α)}
    (h : pool.steps? moves = some after) (hkept : .discard ticket ∉ moves) :
    Held after ticket := by
  induction moves generalizing pool with
  | nil => exact Option.some.inj h ▸ held
  | cons move moves ih =>
      obtain ⟨next, hnext, hrest⟩ := Option.bind_eq_some_iff.1 h
      obtain ⟨hmove, hothers⟩ := List.ne_and_not_mem_of_not_mem_cons hkept
      refine ih ?_ hrest hothers
      exact (step_of_step? hnext).hasBox (fun _ _ hheld => hheld) (fun _ hheld => hheld)
        (fun heq => absurd heq.symm hmove) held

/-- A sending end that is gone does not come back. -/
theorem gone_kept {pool after : Pool α} {moves : List (Move α)}
    (h : pool.steps? moves = some after) (gone : HasBox pool.mail ticket (·.sender = false)) :
    HasBox after.mail ticket (·.sender = false) := by
  refine invariant_of_steps? (fun now => HasBox now.mail ticket (·.sender = false)) ?_ h gone
  intro now next move hstep hnow
  exact hstep.hasBox (fun _ _ _ => rfl) (fun _ _ => rfl) (fun _ _ hgone => hgone) hnow

end Channel

/-- An answer that has come is the answer from then on. -/
theorem Reachable.result?_kept {size : Nat} {pool after : Pool α} (hsize : 1 ≤ size)
    (h : Reachable size pool) {ticket : Nat} (held : Held pool ticket)
    {r : Except PoolError Unit} (hresult : pool.result? ticket = some r)
    {moves : List (Move α)} (hmoves : pool.steps? moves = some after)
    (hkept : .discard ticket ∉ moves) : after.result? ticket = some r := by
  have hmailed : Mailed pool := h.mailed hsize
  have hafter : Reachable size after := h.steps? hmoves
  obtain ⟨box, hbox, hheld⟩ := held
  have hlt : ticket < pool.accepted.length :=
    hmailed.count ▸ (List.getElem?_eq_some_iff.1 hbox).1
  have hjob : pool.accepted[ticket]? = some pool.accepted[ticket] := List.getElem?_eq_getElem hlt
  obtain ⟨outcome, hended, rfl⟩ := hmailed.ended_of_result? hjob ⟨box, hbox, hheld⟩ hresult
  have hgone : box.sender = false := (hmailed.told_of_result? hjob hbox hresult).2.1
  obtain ⟨box', hbox', hgone'⟩ := gone_kept hmoves ⟨box, hbox, hgone⟩
  have hdue : after.result? ticket = some box'.result := by
    simp only [result?, hbox', Mailbox.isDue, hgone', Bool.not_false, Bool.or_true, if_true]
  obtain ⟨other, hother, hanswer⟩ := (hafter.mailed hsize).ended_of_result?
    (accepted_kept hmoves hjob) (Held.kept ⟨box, hbox, hheld⟩ hmoves hkept) hdue
  rw [hdue, hanswer, (hafter.balanced hsize).ended_unique (hended.kept hmoves) hother]

/-! ## Word comes -/

/-- Nothing is left that the workers could do. -/
def AtRest (pool : Pool α) : Prop := ∀ move, isWork move = true → pool.step? move = none

theorem AtRest.not_step {pool after : Pool α} {move : Move α} (h : AtRest pool)
    (hwork : isWork move = true) : ¬ Step pool move after := by
  intro hstep
  have hnone := h move hwork
  rw [hstep.step?] at hnone
  contradiction

/-- At rest everybody is asleep or gone. -/
theorem AtRest.resting {pool : Pool α} (h : AtRest pool) :
    ∀ worker ∈ pool.workers, worker = .asleep ∨ worker = .exited := by
  intro worker hmem
  obtain ⟨w, hw⟩ := List.mem_iff_getElem?.1 hmem
  cases worker with
  | asleep => exact .inl rfl
  | exited => exact .inr rfl
  | ready =>
      have hnone := h (.poll w) rfl
      simp [step?, hw] at hnone
  | running job =>
      have hstep : Step pool (.finish w .returned) _ := .finished hw
      exact (h.not_step rfl hstep).elim
  | reporting job outcome => exact (h.not_step rfl (Step.told hw)).elim

/-- At rest no notification is to come. -/
theorem AtRest.notifies {pool : Pool α} (h : AtRest pool) : pool.notifies = 0 := by
  by_contra owed
  by_cases awake : AllAwake pool.workers
  · exact h.not_step rfl (Step.unheard owed awake)
  · obtain ⟨worker, hmem, rfl⟩ : ∃ worker ∈ pool.workers, worker = .asleep := by
      simpa [AllAwake] using awake
    obtain ⟨w, hw⟩ := List.mem_iff_getElem?.1 hmem
    exact h.not_step rfl (Step.roused owed hw)

/-- A pool at rest has emptied its queue. -/
theorem Reachable.empty_of_atRest {size : Nat} {pool : Pool α} (hsize : 1 ≤ size)
    (h : Reachable size pool) (rest : AtRest pool) : pool.queue = [] := by
  cases h.heard with
  | inl awake =>
      have hexited : ∀ worker ∈ pool.workers, worker = .exited := fun worker hmem =>
        (rest.resting worker hmem).resolve_left (awake worker hmem)
      exact ((h.balanced hsize).done hsize hexited).2
  | inr enough =>
      have hcoming : pool.coming = 0 := by
        rw [coming, List.countP_eq_zero]
        intro worker hmem
        rcases rest.resting worker hmem with rfl | rfl <;> simp [Worker.isReady]
      rw [rest.notifies, hcoming] at enough
      exact List.length_eq_zero_iff.1 (Nat.le_zero.1 enough)

/-- A pool at rest has ended all that it accepted, and told of it. -/
theorem Reachable.told_of_atRest {size : Nat} {pool : Pool α} (hsize : 1 ≤ size)
    (h : Reachable size pool) (rest : AtRest pool) {ticket : Nat} {job : Job α}
    (hjob : pool.accepted[ticket]? = some job) :
    ∃ outcome, pool.Ended job outcome ∧
      (Held pool ticket → pool.result? ticket = some outcome.answer) := by
  refine (h.mailed hsize).told_of_idle (h.empty_of_atRest hsize rest) ?_ hjob
  intro worker hmem
  rcases rest.resting worker hmem with rfl | rfl <;> rfl

/-- So has a pool that was shut down. -/
theorem Reachable.told_of_closed {size : Nat} {pool : Pool α} (hsize : 1 ≤ size)
    (h : Reachable size pool) (closed : pool.closing = .joined ∨ pool.closing = .dropped)
    {ticket : Nat} {job : Job α} (hjob : pool.accepted[ticket]? = some job) :
    ∃ outcome, pool.Ended job outcome ∧
      (Held pool ticket → pool.result? ticket = some outcome.answer) := by
  have hexited := (h.balanced hsize).closed closed
  refine (h.mailed hsize).told_of_idle ((h.balanced hsize).done hsize hexited).2 ?_ hjob
  intro worker hmem
  rw [hexited worker hmem]
  rfl

/-- Work alone comes to an end. -/
theorem length_le_workLeft {pool after : Pool α} {moves : List (Move α)}
    (hwork : ∀ move ∈ moves, isWork move = true) (h : pool.steps? moves = some after) :
    moves.length ≤ pool.workLeft := by
  induction moves generalizing pool with
  | nil => exact Nat.zero_le _
  | cons move moves ih =>
      obtain ⟨next, hnext, hrest⟩ := Option.bind_eq_some_iff.1 h
      have hless := workLeft_step? (hwork move (List.mem_cons_self ..)) hnext
      have hothers := ih (fun m hm => hwork m (List.mem_cons_of_mem _ hm)) hrest
      rw [List.length_cons]
      omega

end Pool

end SiteServer.Workers
