import SiteServer.Proofs.Server.Conclusion
import SiteServer.Proofs.Workers.Rest
import SiteServer.Server.Course

/-!
# A course is a run

A course picks one order of the moves, and makes none that could not be made: all that
it goes through, moves lead to (`Leads`).  It also goes to the end.  Once the loop is
over, the pool is shut down by moves that can all be made, and the server stops.  What
is known of every run that ends is thus known of every course that does (`run_stops`).
-/

namespace SiteServer.Server

open Workers (Outcome Pool)

variable {γ : Type}

/-- Some moves lead from one state to another. -/
def Leads (server after : Server γ) : Prop := ∃ moves, server.steps? moves = some after

namespace Leads

variable {server between after : Server γ}

theorem refl (server : Server γ) : Leads server server := ⟨[], rfl⟩

theorem trans (first : Leads server between) (next : Leads between after) :
    Leads server after := by
  rcases first with ⟨moves, hmoves⟩
  rcases next with ⟨more, hmore⟩
  exact ⟨moves ++ more, by rw [steps?_append, hmoves]; exact hmore⟩

theorem reachable (h : Leads server after) {address : String} {workers : Nat}
    (first : Reachable address workers server) : Reachable address workers after :=
  trans first h

theorem of_step? {move : Move γ} {after : Logged (Server γ)} (h : server.step? move = some after) :
    Leads server after.value :=
  ⟨[move], by rw [steps?, h]; rfl⟩

theorem attempt (server : Server γ) (move : Move γ) : Leads server (server.attempt move).value := by
  unfold Server.attempt
  cases hmove : server.step? move with
  | none => exact refl server
  | some after => exact of_step? hmove

/-! ## The pool -/

theorem work {pool after : Pool γ} {move : Workers.Move γ} (crew : server.pool = some pool)
    (permitted : permits server.stage move = true) (h : pool.step? move = some after) :
    Leads server { server with pool := some after } := by
  have hstep : server.step? (.pool move) =
      some (return { server with pool := some after }) := by
    simp only [Server.step?, crew, permitted, if_true, h, Option.map_some]
  exact of_step? hstep

/-- A pool may settle at any time. -/
theorem settle (ends : γ → Option Outcome) {pool : Pool γ} (crew : server.pool = some pool) :
    Leads server { server with pool := some (pool.settle ends) } := by
  fun_induction Pool.settle ends pool generalizing server with
  | case1 => exact crew ▸ refl server
  | case2 => exact crew ▸ refl server
  | case3 pool move hnext after hmove ih =>
      have hwork := Pool.isWork_of_nextWork? hnext
      -- work is permitted at every stage
      have hpermitted : permits server.stage move = true := by
        cases move with
        | submit | stir | discard | flag | notifyAll | join | drop => contradiction
        | _ => rfl
      exact (work crew hpermitted hmove).trans (@ih { server with pool := some after } rfl)

theorem proceed (ends : γ → Option Outcome) {pool : Pool γ} {move : Workers.Move γ}
    (crew : server.pool = some pool) (permitted : permits server.stage move = true) :
    Leads server { server with pool := some (pool.proceed ends move) } := by
  unfold Pool.proceed
  cases hmove : pool.step? move with
  | none => exact settle ends crew
  | some after =>
      exact (work crew permitted hmove).trans
        (@settle _ { server with pool := some after } ends _ rfl)

theorem proceeds (ends : γ → Option Outcome) {moves : List (Workers.Move γ)} {pool : Pool γ}
    (crew : server.pool = some pool)
    (permitted : ∀ move ∈ moves, permits server.stage move = true) :
    Leads server { server with pool := some (moves.foldl (Pool.proceed ends) pool) } := by
  induction moves generalizing server pool with
  | nil => exact crew ▸ refl server
  | cons move moves ih =>
      have hfirst := proceed ends crew (permitted move (List.mem_cons_self ..))
      have hothers : ∀ move ∈ moves, permits server.stage move = true :=
        fun move hmem => permitted move (List.mem_cons_of_mem _ hmem)
      exact hfirst.trans (ih rfl hothers)

/-- Once the loop is left the pool may be shut down. -/
theorem shutdown (ends : γ → Outcome) {pool : Pool γ} {result : Except ServerError Unit}
    (crew : server.pool = some pool) (draining : server.stage = .draining result) :
    Leads server { server with pool := some (pool.shutdown ends) } := by
  apply proceeds (some ∘ ends) crew
  rw [draining]
  simp [permits]

theorem settlePool (ends : γ → Option Outcome) (server : Server γ) :
    Leads server (server.settlePool (Pool.settle ends)) := by
  cases crew : server.pool with
  | none =>
      have hsame : server.settlePool (Pool.settle ends) = server := by
        rw [Server.settlePool, crew, Option.map_none, ← crew]
      exact hsame.symm ▸ refl server
  | some pool =>
      rw [Server.settlePool, crew]
      exact settle ends crew

/-! ## The loop -/

theorem onward (ends : γ → Outcome) (server : Server γ) :
    Leads server (server.onward ends).value := by
  unfold Server.onward
  split
  · exact attempt server .check
  · exact (attempt server .hand).trans (settlePool _ _)
  · exact refl server

theorem advance (ends : γ → Outcome) (server : Server γ) :
    Leads server (server.advance ends).value :=
  (onward ends server).trans (onward ends _)

theorem meet (ends : γ → Outcome) (server : Server γ) (happening : Happening γ) :
    Leads server (server.meet ends happening).value := by
  cases happening with
  | request => exact attempt server .request
  | arrival peer connection =>
      exact (attempt server (.accept peer connection)).trans (advance ends _)
  | fault why => exact (attempt server (.acceptFault why)).trans (advance ends _)

theorem follow (ends : γ → Outcome) (server : Server γ) (course : List (Happening γ)) :
    Leads server (server.follow ends course).value := by
  induction course generalizing server with
  | nil => exact refl server
  | cons happening rest ih =>
      unfold Server.follow
      split
      · exact refl server
      · exact (meet ends server happening).trans (ih _)

end Leads

/-! ## The end -/

/-- A server that is out of its loop stops, and the pool is shut down before. -/
theorem conclude_stops {server : Server γ} (h : Orderly server)
    {result : Except ServerError Unit} (leaving : server.stage = .leaving result)
    (ends : γ → Outcome) :
    ∃ last stopped, Leads server last ∧ last.stage = .draining result ∧
      last.step? .stop = some stopped ∧ (server.conclude ends).value = stopped.value := by
  obtain ⟨pool, crew⟩ := Option.ne_none_iff_exists'.1 (h.pool_ne_none (by simp [leaving]))
  have hmanned : Manned server pool := h.manned pool crew
  have hunasked : pool.closing = .notAsked :=
    hmanned.unasked (by simp [leaving]) (by simp [leaving])
  have hjoined := Pool.shutdown_joins hmanned.crew hmanned.reachable hunasked ends
  have hleave : server.step? .leave = some (server.leave result) := by
    simp only [step?, leaving]
  generalize haway : (server.leave result).value = away
  have hcrew : away.pool = some pool := by
    rw [← haway, leave]
    split <;> exact crew
  have hdraining : away.stage = .draining result := by
    rw [← haway, leave]
    split <;> rfl
  obtain ⟨stopped, hstop⟩ : ∃ stopped,
      { away with pool := some (pool.shutdown ends) }.step? .stop = some stopped := by
    simp only [step?, hdraining, hjoined, if_true, Option.some.injEq, exists_eq']
  refine ⟨{ away with pool := some (pool.shutdown ends) }, stopped, ?leads, hdraining, hstop,
    ?value⟩
  case leads => exact (haway ▸ Leads.of_step? hleave).trans (Leads.shutdown ends hcrew hdraining)
  case value =>
    simp only [conclude, attempt, hleave, Option.getD_some, Logged.value_bind, haway, settlePool,
      hcrew, Option.map_some, hstop]

/-- A course that comes to its end is a run: either the call fails before the loop, or
moves that can all be made lead through the loop and out of it, until the server can
stop and does. -/
theorem run_stops {address : String} {workers : Nat} {server after : Server γ}
    {result : Except ServerError Unit} {ends : γ → Outcome} {outcome : BindOutcome}
    {spawnFault? : Nat → Option String} {course : List (Happening γ)}
    (h : Reachable address workers server) (idle : server.stage = .idle)
    (hrun : (server.run ends outcome spawnFault? course).value = (after, some result)) :
    (∃ e, result = .error e ∧ (server.enter outcome spawnFault?).value = (after, .error e)) ∨
      ∃ last stopped, Reachable address workers last ∧ last.stage = .draining result ∧
        last.step? .stop = some stopped ∧ after = stopped.value := by
  unfold run at hrun
  simp only [Logged.value_bind] at hrun
  have hentered : Leads server (server.enter outcome spawnFault?).value.1 := by
    have hstep : server.step? (.enter outcome spawnFault?) =
        some (Prod.fst <$> server.enter outcome spawnFault?) := by
      simp only [step?, idle]
    exact Leads.of_step? hstep
  generalize hcall : (server.enter outcome spawnFault?).value = answer at hrun hentered ⊢
  obtain ⟨entered, response⟩ := answer
  cases response with
  | error e =>
      obtain ⟨rfl, hresult⟩ := Prod.mk.inj hrun
      exact .inl ⟨e, (Option.some.inj hresult).symm, rfl⟩
  | ok =>
      simp only [Logged.value_bind] at hrun
      have hloop : Leads server (((entered.advance ends).value.follow ends course).value) :=
        (hentered.trans (Leads.advance ends entered)).trans (Leads.follow ends _ course)
      generalize ((entered.advance ends).value.follow ends course).value = looped at hrun hloop
      split at hrun
      · rename_i found leaving
        obtain ⟨rfl, hresult⟩ := Prod.mk.inj hrun
        obtain rfl := Option.some.inj hresult
        have hover : Reachable address workers looped := hloop.reachable h
        have horderly : Orderly looped := by
          rcases hover with ⟨moves, hmoves⟩
          exact orderly_of_steps? hmoves
        obtain ⟨last, stopped, hlast, hdraining, hstop, hvalue⟩ :=
          conclude_stops horderly leaving ends
        exact .inr ⟨last, stopped, hlast.reachable hover, hdraining, hstop, hvalue⟩
      · cases hrun

end SiteServer.Server
