import SiteServer.Server.Lifecycle
import SiteServer.Proofs.Workers.Moves
import Mathlib.Data.List.Induction

/-!
# What happens to a server

The moves around a server as a relation, with one case for each way in which a
move can turn out.  The calls come first, as they have the most ways to end:
opening the socket (`Binds`), entering the loop of a server that listens
(`Enters`), and a run, which may have to do both (`Runs`).  Every move that can be
made is one of the cases (`step_of_step?`), so what they all keep is shown case by
case.

`history_induction` is the induction over runs.  It keeps the moves that were
made next to the server, for what is to be said of the history of a run.
-/

namespace SiteServer.Server

open Workers (Pool)

variable {γ : Type}

/-! ## Calls -/

/-- How opening the socket ends, and what it leaves behind. -/
inductive Binds (server : Server γ) :
    BindOutcome → Server γ → Except ServerError Endpoint → Prop where
  | invalid {outcome : BindOutcome} (state : server.state ≠ .created) :
      Binds server outcome server (.error (.invalidState server.state))
  | refused {why : String} (state : server.state = .created) :
      Binds server (.refused why) server (.error (.bind server.address why))
  | nameless {why : String} (state : server.state = .created) :
      Binds server (.nameless why) { server with state := .bound, socket := .closed }
        (.error (.bind server.address why))
  | opened {endpoint : Endpoint} (state : server.state = .created) :
      Binds server (.opened endpoint)
        { server with
          state := .listening
          socket := .owned
          localAddress := some endpoint }
        (.ok endpoint)

theorem binds (server : Server γ) (outcome : BindOutcome) :
    Binds server outcome (server.bind outcome).value.1 (server.bind outcome).value.2 := by
  by_cases hstate : server.state = .created
  · have hfits : ¬ server.state ≠ .created := fun h => h hstate
    unfold bind
    rw [if_neg hfits]
    cases outcome with
    | refused why => exact .refused hstate
    | nameless why => exact .nameless hstate
    | opened endpoint => exact .opened hstate
  · unfold bind
    rw [if_pos hstate]
    exact .invalid hstate

/-- How a server that may listen enters its loop, and what that leaves behind. -/
inductive Enters (server : Server γ) (spawnFault? : Nat → Option String) :
    Server γ → Except ServerError Unit → Prop where
  | invalid (state : server.state ≠ .listening ∨ server.socket ≠ .owned) :
      Enters server spawnFault? server (.error (.invalidState server.state))
  | poolless {e : Workers.PoolError} (state : server.state = .listening)
      (socket : server.socket = .owned)
      (fault : (Pool.create server.workers spawnFault? : Except _ (Pool γ)) = .error e) :
      Enters server spawnFault? { server with socket := .closed } (.error (.pool e))
  | started {pool : Pool γ} (state : server.state = .listening) (socket : server.socket = .owned)
      (opened : Pool.create server.workers spawnFault? = .ok pool) :
      Enters server spawnFault?
        { server with
          state := .running
          socket := .lent
          stage := .checking
          pool := some pool }
        (.ok ())

theorem enters (server : Server γ) (spawnFault? : Nat → Option String) :
    Enters server spawnFault? (server.enterListening spawnFault?).value.1
      (server.enterListening spawnFault?).value.2 := by
  by_cases hfits : server.state = .listening ∧ server.socket = .owned
  · have hvalid : ¬ (server.state ≠ .listening ∨ server.socket ≠ .owned) := by
      rw [not_or, not_not, not_not]
      exact hfits
    rcases hfits with ⟨hstate, hsocket⟩
    unfold enterListening
    rw [if_neg hvalid]
    cases hpool : (Pool.create server.workers spawnFault? : Except _ (Pool γ)) with
    | error e => exact .poolless hstate hsocket hpool
    | ok pool => exact .started hstate hsocket hpool
  · have hinvalid : server.state ≠ .listening ∨ server.socket ≠ .owned :=
      not_and_or.1 hfits
    unfold enterListening
    rw [if_pos hinvalid]
    exact .invalid hinvalid

/-- A pool that opens has workers, which have just started. -/
theorem create_eq_ok {size : Nat} {spawnFault? : Nat → Option String} {pool : Pool γ}
    (h : Pool.create size spawnFault? = .ok pool) : 1 ≤ size ∧ pool = Pool.start size := by
  unfold Pool.create at h
  split at h
  · cases h
  · rename_i hsize
    split at h
    · cases h
    · have heq := Except.ok.inj h
      exact ⟨Nat.one_le_iff_ne_zero.2 hsize, heq.symm⟩

/-- How a run begins, with the socket opened first where it was not. -/
inductive Runs (server : Server γ) (outcome : BindOutcome) (spawnFault? : Nat → Option String) :
    Server γ → Except ServerError Unit → Prop where
  | unbound {after : Server γ} {e : ServerError} (state : server.state = .created)
      (call : Binds server outcome after (.error e)) :
      Runs server outcome spawnFault? after (.error e)
  | boundFirst {listening after : Server γ} {endpoint : Endpoint}
      {result : Except ServerError Unit} (first : Binds server outcome listening (.ok endpoint))
      (call : Enters listening spawnFault? after result) :
      Runs server outcome spawnFault? after result
  | entered {after : Server γ} {result : Except ServerError Unit}
      (state : server.state ≠ .created) (call : Enters server spawnFault? after result) :
      Runs server outcome spawnFault? after result

theorem runs (server : Server γ) (outcome : BindOutcome) (spawnFault? : Nat → Option String) :
    Runs server outcome spawnFault? (server.enter outcome spawnFault?).value.1
      (server.enter outcome spawnFault?).value.2 := by
  unfold enter
  by_cases hstate : server.state = .created
  · rw [if_pos hstate]
    have hcall := binds server outcome
    simp only [Logged.value_bind]
    generalize (server.bind outcome).value = answer at hcall ⊢
    obtain ⟨bound, result⟩ := answer
    cases result with
    | error e => exact .unbound hstate hcall
    | ok endpoint => exact .boundFirst hcall (enters bound spawnFault?)
  · rw [if_neg hstate]
    exact .entered hstate (enters server spawnFault?)

/-! ## Moves -/

/-- One move around a server, what it asks for, and what it does. -/
inductive Step (server : Server γ) : Move γ → Server γ → Prop where
  | bound {outcome : BindOutcome} {after : Server γ} {result : Except ServerError Endpoint}
      (idle : server.stage = .idle) (call : Binds server outcome after result) :
      Step server (.bind outcome) after
  | entered {outcome : BindOutcome} {spawnFault? : Nat → Option String} {after : Server γ}
      {result : Except ServerError Unit} (idle : server.stage = .idle)
      (call : Runs server outcome spawnFault? after result) :
      Step server (.enter outcome spawnFault?) after
  | requested : Step server .request server.request
  | checkedOut (checking : server.stage = .checking) (asked : server.requested = true) :
      Step server .check { server with stage := .leaving (.ok ()) }
  | checkedOn (checking : server.stage = .checking) (unasked : server.requested = false) :
      Step server .check { server with stage := .accepting }
  | accepted {peer : String} {connection : γ} (accepting : server.stage = .accepting) :
      Step server (.accept peer connection)
        { server with
          stage := .handing connection
          accepted := server.accepted ++ [connection] }
  | faulted {why : String} (accepting : server.stage = .accepting) :
      Step server (.acceptFault why) { server with stage := .leaving (.error (.accept why)) }
  | handed {connection : γ} {pool : Pool γ} (handing : server.stage = .handing connection)
      (crew : server.pool = some pool) (running : pool.stop = false) :
      Step server .hand
        { server with pool := some (pool.accept connection), stage := .checking }
  | unhanded {connection : γ} {pool : Pool γ} (handing : server.stage = .handing connection)
      (crew : server.pool = some pool) (stopping : pool.stop = true) :
      Step server .hand { server with stage := .leaving (.error (.pool .stopped)) }
  | left {result : Except ServerError Unit} (leaving : server.stage = .leaving result) :
      Step server .leave
        { server with
          state := if server.requested then .shutdownRequested else server.state
          socket := .closed
          stage := .draining result }
  | worked {move : Workers.Move γ} {pool after : Pool γ} (crew : server.pool = some pool)
      (permitted : permits server.stage move = true) (step : Pool.Step pool move after) :
      Step server (.pool move) { server with pool := some after }
  | stopped {result : Except ServerError Unit} {pool : Pool γ}
      (draining : server.stage = .draining result) (crew : server.pool = some pool)
      (joined : pool.closing = .joined) :
      Step server .stop { server with state := .stopped, stage := .idle }

theorem step_hand {server : Server γ} {connection : γ} {pool : Pool γ}
    (handing : server.stage = .handing connection) (crew : server.pool = some pool) :
    Step server .hand (server.hand pool connection).value := by
  unfold hand
  cases hstop : pool.stop with
  | false =>
      rw [Pool.submit_of_running hstop]
      exact .handed handing crew hstop
  | true =>
      rw [Pool.submit_of_stopping hstop]
      exact .unhanded handing crew hstop

theorem step_leave {server : Server γ} {result : Except ServerError Unit}
    (leaving : server.stage = .leaving result) :
    Step server .leave (server.leave result).value := by
  have hstep := Step.left leaving
  unfold leave
  split
  · rename_i hasked
    rw [if_pos hasked] at hstep
    exact hstep
  · rename_i hasked
    rw [if_neg hasked] at hstep
    exact hstep

/-- A move that can be made is one of the cases of the relation. -/
theorem step_of_step? {server : Server γ} {move : Move γ} {after : Logged (Server γ)}
    (h : server.step? move = some after) : Step server move after.value := by
  cases move with
  | bind outcome =>
      simp only [step?] at h
      split at h
      · rename_i idle
        exact Option.some.inj h ▸ .bound idle (binds server outcome)
      · contradiction
  | enter outcome spawnFault? =>
      simp only [step?] at h
      split at h
      · rename_i idle
        exact Option.some.inj h ▸ .entered idle (runs server outcome spawnFault?)
      · contradiction
  | request => exact Option.some.inj h ▸ .requested
  | check =>
      simp only [step?] at h
      split at h
      · rename_i checking
        obtain rfl := Option.some.inj h
        by_cases hasked : server.requested = true
        · rw [if_pos hasked]
          exact .checkedOut checking hasked
        · rw [if_neg hasked]
          exact .checkedOn checking (by simpa using hasked)
      · contradiction
  | accept peer connection =>
      simp only [step?] at h
      split at h
      · rename_i accepting
        exact Option.some.inj h ▸ .accepted accepting
      · contradiction
  | acceptFault why =>
      simp only [step?] at h
      split at h
      · rename_i accepting
        exact Option.some.inj h ▸ .faulted accepting
      · contradiction
  | hand =>
      simp only [step?] at h
      split at h
      · rename_i handing crew
        exact Option.some.inj h ▸ step_hand handing crew
      · contradiction
  | leave =>
      simp only [step?] at h
      split at h
      · rename_i leaving
        exact Option.some.inj h ▸ step_leave leaving
      · contradiction
  | pool move =>
      simp only [step?] at h
      split at h
      · rename_i crew
        simp only [Option.ite_none_right_eq_some, Option.map_eq_some_iff] at h
        obtain ⟨permitted, next, hnext, rfl⟩ := h
        exact .worked crew permitted (Pool.step_of_step? hnext)
      · contradiction
  | stop =>
      simp only [step?] at h
      split at h
      · rename_i draining crew
        simp only [Option.ite_none_right_eq_some, Option.some.injEq] at h
        obtain ⟨joined, rfl⟩ := h
        exact .stopped draining crew joined
      · contradiction

/-! ## Runs -/

/-- What every move keeps, a run keeps. -/
theorem invariant_of_steps? (Holds : Server γ → Prop)
    (kept : ∀ {server after : Server γ} {move : Move γ}, Step server move after → Holds server →
      Holds after)
    {server after : Server γ} {moves : List (Move γ)} (h : server.steps? moves = some after)
    (first : Holds server) : Holds after := by
  induction moves generalizing server with
  | nil => exact Option.some.inj h ▸ first
  | cons move moves ih =>
      obtain ⟨next, hnext, hrest⟩ := Option.bind_eq_some_iff.1 h
      exact ih hrest (kept (step_of_step? hnext) first)

/-- The induction over runs, with the moves that were made so far. -/
theorem history_induction {address : String} {workers : Nat}
    (Holds : List (Move γ) → Server γ → Prop) (first : Holds [] (create address workers))
    (kept : ∀ {moves : List (Move γ)} {server after : Server γ} {move : Move γ},
      Step server move after → Holds moves server → Holds (moves ++ [move]) after)
    {moves : List (Move γ)} {server : Server γ}
    (h : (create address workers).steps? moves = some server) : Holds moves server := by
  induction moves using List.reverseRecOn generalizing server with
  | nil => exact Option.some.inj h ▸ first
  | append_singleton moves move ih =>
      rw [steps?_append] at h
      obtain ⟨before, hbefore, hlast⟩ := Option.bind_eq_some_iff.1 h
      obtain ⟨after, hafter, heq⟩ := Option.bind_eq_some_iff.1 hlast
      exact Option.some.inj heq ▸ kept (step_of_step? hafter) (ih hbefore)

end SiteServer.Server
