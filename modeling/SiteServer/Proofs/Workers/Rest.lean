import SiteServer.Proofs.Workers.Wakefulness
import SiteServer.Workers.Schedule

/-!
# A pool comes to rest

Settling picks one order for the moves of a pool, and it stops only where there is
nothing left to pick (`nextWork?_settle`).  If every task ends, whoever is still
there is then asleep.

A shutdown needs no more than that: once it has woken everybody nobody sleeps, so
the pool at rest is a pool that all workers have left (`shutdown_joins`).
-/

namespace SiteServer.Workers.Pool

variable {α : Type}

/-! ## What is picked can be done -/

theorem exists_step?_of_workOf {ends : α → Option Outcome} {pool : Pool α} {w : Nat}
    {worker : Worker α} {move : Move α} (hw : pool.workers[w]? = some worker)
    (h : workOf ends w worker = some move) : ∃ after, pool.step? move = some after := by
  cases worker with
  | ready =>
      obtain rfl := Option.some.inj h
      exact ⟨pool.poll w, by simp [step?, hw]⟩
  | running job =>
      obtain ⟨outcome, -, rfl⟩ := Option.map_eq_some_iff.1 h
      exact ⟨_, (Step.finished hw).step?⟩
  | reporting job outcome =>
      obtain rfl := Option.some.inj h
      exact ⟨_, (Step.told hw).step?⟩
  | asleep => contradiction
  | exited => contradiction

theorem exists_step?_of_nextWork? {ends : α → Option Outcome} {pool : Pool α} {move : Move α}
    (h : nextWork? ends pool = some move) : ∃ after, pool.step? move = some after := by
  unfold nextWork? at h
  split at h
  · obtain ⟨⟨worker, w⟩, hmem, hmove⟩ := List.exists_of_findSome?_eq_some h
    exact exists_step?_of_workOf (List.mem_zipIdx_iff_getElem?.1 hmem) hmove
  · rename_i owed
    obtain rfl := Option.some.inj h
    cases hfound : pool.workers.findIdx? Worker.isAsleep with
    | none =>
        have hawake : pool.workers.any Worker.isAsleep = false := by
          rw [List.any_eq_false]
          intro worker hmem
          simpa using List.findIdx?_eq_none_iff.1 hfound worker hmem
        exact ⟨_, (Step.unheard owed (any_isAsleep_eq_false_iff.1 hawake)).step?⟩
    | some w =>
        obtain ⟨hlt, hasleep, -⟩ := List.findIdx?_eq_some_iff_getElem.1 hfound
        have hw : pool.workers[w]? = some .asleep := by
          rw [List.getElem?_eq_getElem hlt]
          cases hworker : pool.workers[w] with
          | asleep => rfl
          | _ => simp [hworker, Worker.isAsleep] at hasleep
        exact ⟨_, (Step.roused owed hw).step?⟩

/-! ## Settled pools -/

/-- Settling goes on until there is nothing left to pick. -/
theorem nextWork?_settle (ends : α → Option Outcome) (pool : Pool α) :
    nextWork? ends (pool.settle ends) = none := by
  fun_induction Pool.settle ends pool with
  | case1 pool hnext => exact hnext
  | case2 pool move hnext hmove =>
      obtain ⟨after, hafter⟩ := exists_step?_of_nextWork? hnext
      rw [hmove] at hafter
      contradiction
  | case3 pool move _ after _ ih => exact ih

/-- What work keeps, settling keeps. -/
theorem invariant_settle (Holds : Pool α → Prop)
    (kept : ∀ {pool after : Pool α} {move : Move α}, isWork move = true →
      Step pool move after → Holds pool → Holds after)
    (ends : α → Option Outcome) {pool : Pool α} (h : Holds pool) :
    Holds (pool.settle ends) := by
  fun_induction Pool.settle ends pool with
  | case1 => exact h
  | case2 => exact h
  | case3 pool move hnext after hmove ih =>
      exact ih (kept (isWork_of_nextWork? hnext) (step_of_step? hmove) h)

/-- Work does not bring a shutdown forward. -/
theorem closing_settle (ends : α → Option Outcome) (pool : Pool α) :
    (pool.settle ends).closing = pool.closing := by
  refine invariant_settle (fun after => after.closing = pool.closing) ?_ ends rfl
  intro before after move hwork hstep hclosing
  cases hstep with
  | flagged | wokeAll | joined | dropped => contradiction
  | _ => exact hclosing

/-- Where every task ends, nobody is at work in a settled pool. -/
theorem resting_settle (ends : α → Outcome) (pool : Pool α) :
    ∀ worker ∈ (pool.settle (some ∘ ends)).workers, worker = .asleep ∨ worker = .exited := by
  intro worker hmem
  have hnone := nextWork?_settle (some ∘ ends) pool
  unfold nextWork? at hnone
  split at hnone
  · obtain ⟨w, hw⟩ := List.mem_iff_getElem?.1 hmem
    have hidle := List.findSome?_eq_none_iff.1 hnone (worker, w)
      (List.mem_zipIdx_iff_getElem?.2 hw)
    cases worker with
    | asleep => exact .inl rfl
    | exited => exact .inr rfl
    | ready | running | reporting => simp [workOf] at hidle
  · contradiction

/-! ## Shutdowns -/

/-- A move that is followed by settling, in a state that can be reached. -/
theorem Reachable.proceed {size : Nat} {pool after : Pool α} {move : Move α}
    (h : Reachable size pool) (ends : α → Option Outcome) (hmove : pool.step? move = some after) :
    Reachable size (pool.proceed ends move) ∧
      (pool.proceed ends move).closing = after.closing := by
  rw [Pool.proceed, hmove, Option.getD_some]
  exact ⟨(h.step? hmove).settle ends, closing_settle ends after⟩

/-- A shutdown during which every task ends comes to its own end. -/
theorem shutdown_joins {size : Nat} {pool : Pool α} (hsize : 1 ≤ size)
    (h : Reachable size pool) (unasked : pool.closing = .notAsked) (ends : α → Outcome) :
    (pool.shutdown ends).closing = .joined := by
  obtain ⟨hreach, hflagged⟩ := h.proceed (some ∘ ends) (Step.flagged (.inl unasked)).step?
  obtain ⟨hreach', hjoining⟩ := hreach.proceed (some ∘ ends) (Step.wokeAll hflagged).step?
  -- at rest everybody is asleep or gone, and nobody sleeps any more
  have hawake := (hreach'.roused_of_joining hsize hjoining).2
  have hexited : ∀ worker ∈
      ((pool.proceed (some ∘ ends) .flag).proceed (some ∘ ends) .notifyAll).workers,
      worker = .exited := by
    intro worker hmem
    exact (resting_settle ends _ worker hmem).resolve_left (hawake worker hmem)
  exact (hreach'.proceed (some ∘ ends) (Step.joined hjoining hexited).step?).2

end SiteServer.Workers.Pool
