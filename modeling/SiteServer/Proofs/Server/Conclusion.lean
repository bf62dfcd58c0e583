import SiteServer.Proofs.Server.Moves
import SiteServer.Proofs.Workers.Books

/-!
# How a run ends

A run ends because a shutdown was asked for, or because a connection could not be
accepted.  Either way the server is left as nothing had happened to it but its
work: each connection that came in was handed to the pool, which took it, ran it
once and saw it end, before the server stopped.

Three things carry this.  While connections come in, nobody shuts the pool down,
so it refuses none of them (`Orderly`).  What is known of the past of a server is
read off the moves that were made (`Chronicle`).  And the flag is looked at
between two connections, so once it is up at most the one that is waited for still
comes (`answers_le`).
-/

namespace SiteServer

open scoped List

open Workers (Pool Job)

/-! ## The pool of a run -/

namespace Workers.Pool

variable {α : Type}

/-- The flag is raised by a shutdown and by nobody else. -/
theorem Reachable.running_of_notAsked {size : Nat} {pool : Pool α} (h : Reachable size pool) :
    pool.closing = .notAsked → pool.stop = false := by
  refine h.induction (fun pool => pool.closing = .notAsked → pool.stop = false) (fun _ => rfl) ?_
  intro pool after move hstep before
  cases hstep with
  | flagged | wokeAll | joined | dropped => intro hclosing; contradiction
  | _ => exact before

end Workers.Pool

namespace Server

variable {γ : Type}

/-- Of the moves of a pool only the handing in of tasks adds to what it accepted. -/
theorem accepted_of_permits {stage : Stage γ} {move : Workers.Move γ} {pool after : Pool γ}
    (permitted : permits stage move = true) (h : Pool.Step pool move after) :
    after.accepted = pool.accepted := by
  cases h with
  | accepted | refused => simp [permits] at permitted
  | _ => rfl

/-- Before the loop is left a pool is not shut down. -/
theorem closing_of_permits {stage : Stage γ} {move : Workers.Move γ} {pool after : Pool γ}
    (permitted : permits stage move = true) (h : Pool.Step pool move after)
    (before : ∀ result, stage ≠ .draining result) : after.closing = pool.closing := by
  have hnever : ∀ result, stage = .draining result → False := before
  cases h with
  | flagged | wokeAll | joined | dropped =>
      cases stage with
      | draining result => exact (hnever result rfl).elim
      | _ => simp [permits] at permitted
  | _ => rfl

/-! ## What a server is held to -/

namespace Stage

/-- The connection that was accepted and is not handed in yet. -/
def inHand : Stage γ → List γ
  | handing connection => [connection]
  | _ => []

/-- What the run is to give, once it is known. -/
def result? : Stage γ → Option (Except ServerError Unit)
  | leaving result => some result
  | draining result => some result
  | _ => none

/-- The failure to accept that ended the loop. -/
def faults : Stage γ → List String
  | leaving (.error (.accept why)) => [why]
  | draining (.error (.accept why)) => [why]
  | _ => []

/-- How many connections can still come although a shutdown was asked for. -/
def room : Stage γ → Nat
  | accepting => 1
  | _ => 0

end Stage

/-- What the pool of a run is held to. -/
structure Manned (server : Server γ) (pool : Pool γ) : Prop where
  crew : 1 ≤ server.workers
  reachable : Pool.Reachable server.workers pool
  /-- Every connection was handed in, the one that is about to be aside. -/
  handed : pool.accepted.map Job.task ++ server.stage.inHand = server.accepted
  /-- Nobody shuts the pool down as long as the socket is open. -/
  unasked : (∀ result, server.stage ≠ .draining result) → server.stage ≠ .idle →
    pool.closing = .notAsked
  /-- There is one run only. -/
  once : server.stage = .idle → server.state = .stopped

/-- What holds after every move around a server. -/
structure Orderly (server : Server γ) : Prop where
  fresh : server.pool = none → server.stage = .idle ∧ server.accepted = []
  manned : ∀ pool, server.pool = some pool → Manned server pool
  closed : ∀ result, server.stage = .draining result → server.socket = .closed
  result : ∀ result, server.stage.result? = some result →
    (result = .ok () ∧ server.requested = true) ∨ ∃ why, result = .error (.accept why)

theorem orderly_create (address : String) (workers : Nat) :
    Orderly (create address workers : Server γ) where
  fresh := fun _ => ⟨rfl, rfl⟩
  manned := by simp [create]
  closed := by simp [create]
  result := by simp [create, Stage.result?]

/-- Between two calls only a server that has stopped has a pool. -/
theorem Orderly.pool_eq_none {server : Server γ} (h : Orderly server)
    (idle : server.stage = .idle) (hstate : server.state ≠ .stopped) : server.pool = none := by
  cases hpool : server.pool with
  | none => rfl
  | some pool => exact absurd ((h.manned pool hpool).once idle) hstate

/-- A server that is at something has a pool. -/
theorem Orderly.pool_ne_none {server : Server γ} (h : Orderly server)
    (busy : server.stage ≠ .idle) : server.pool ≠ none :=
  fun hnone => busy (h.fresh hnone).1

/-- A server that has not run yet is not held to much. -/
theorem Orderly.of_fresh {server : Server γ} (idle : server.stage = .idle)
    (pool : server.pool = none) (accepted : server.accepted = []) : Orderly server where
  fresh := fun _ => ⟨idle, accepted⟩
  manned := by simp [pool]
  closed := by simp [idle]
  result := by simp [idle, Stage.result?]

/-! ### Calls -/

/-- What a call leaves alone, and how far it can get. -/
structure Called (server after : Server γ) : Prop where
  requested : after.requested = server.requested
  accepted : after.accepted = server.accepted
  stage : (after.stage = .idle ∧ after.pool = server.pool) ∨
    (after.stage = .checking ∧ server.state ≠ .stopped)

theorem Binds.called {server after : Server γ} {outcome : BindOutcome}
    {result : Except ServerError Endpoint} (h : Binds server outcome after result)
    (idle : server.stage = .idle) : Called server after := by
  cases h <;> exact ⟨rfl, rfl, .inl ⟨idle, rfl⟩⟩

theorem Enters.called {server after : Server γ} {spawnFault? : Nat → Option String}
    {result : Except ServerError Unit} (h : Enters server spawnFault? after result)
    (idle : server.stage = .idle) : Called server after := by
  cases h with
  | invalid => exact ⟨rfl, rfl, .inl ⟨idle, rfl⟩⟩
  | poolless => exact ⟨rfl, rfl, .inl ⟨idle, rfl⟩⟩
  | started state => exact ⟨rfl, rfl, .inr ⟨rfl, by simp [state]⟩⟩

/-- Only a new server opens its socket. -/
theorem Binds.created_of_ok {server after : Server γ} {outcome : BindOutcome}
    {endpoint : Endpoint} (h : Binds server outcome after (.ok endpoint)) :
    server.state = .created ∧ after.stage = server.stage ∧ after.pool = server.pool := by
  cases h with
  | opened state => exact ⟨state, rfl, rfl⟩

theorem Runs.called {server after : Server γ} {outcome : BindOutcome}
    {spawnFault? : Nat → Option String} {result : Except ServerError Unit}
    (h : Runs server outcome spawnFault? after result) (idle : server.stage = .idle) :
    Called server after := by
  cases h with
  | unbound state call => exact call.called idle
  | entered state call => exact call.called idle
  | boundFirst first call =>
      obtain ⟨hstate, hstage, hpool⟩ := first.created_of_ok
      have hfirst := first.called idle
      have hcall := call.called (hstage.trans idle)
      refine ⟨hcall.requested.trans hfirst.requested, hcall.accepted.trans hfirst.accepted, ?_⟩
      rcases hcall.stage with ⟨hidle, hsame⟩ | ⟨hchecking, -⟩
      · exact .inl ⟨hidle, hsame.trans hpool⟩
      · exact .inr ⟨hchecking, by simp [hstate]⟩

theorem Binds.orderly {server after : Server γ} {outcome : BindOutcome}
    {result : Except ServerError Endpoint} (h : Binds server outcome after result)
    (idle : server.stage = .idle) (before : Orderly server) : Orderly after := by
  have hfresh : ∀ now : Server γ, server.state = .created → now.stage = .idle →
      now.pool = server.pool → now.accepted = server.accepted → Orderly now := by
    intro now hstate hidle hpool haccepted
    have hnone : server.pool = none := before.pool_eq_none idle (by simp [hstate])
    exact .of_fresh hidle (hpool.trans hnone) (haccepted.trans (before.fresh hnone).2)
  cases h with
  | invalid => exact before
  | refused => exact before
  | nameless state => exact hfresh _ state idle rfl rfl
  | opened state => exact hfresh _ state idle rfl rfl

theorem Enters.orderly {server after : Server γ} {spawnFault? : Nat → Option String}
    {result : Except ServerError Unit} (h : Enters server spawnFault? after result)
    (idle : server.stage = .idle) (before : Orderly server) : Orderly after := by
  cases h with
  | invalid => exact before
  | poolless state =>
      have hpool : server.pool = none := before.pool_eq_none idle (by simp [state])
      exact .of_fresh idle hpool (before.fresh hpool).2
  | started state socket opened =>
      have hpool : server.pool = none := before.pool_eq_none idle (by simp [state])
      have haccepted : server.accepted = [] := (before.fresh hpool).2
      rcases create_eq_ok opened with ⟨hcrew, rfl⟩
      refine ⟨by simp, ?_, by simp, by simp [Stage.result?]⟩
      intro pool heq
      obtain rfl := Option.some.inj heq
      exact
        { crew := hcrew
          reachable := Pool.reachable_start server.workers
          handed := haccepted.symm
          unasked := fun _ _ => rfl
          once := by simp }

theorem Runs.orderly {server after : Server γ} {outcome : BindOutcome}
    {spawnFault? : Nat → Option String} {result : Except ServerError Unit}
    (h : Runs server outcome spawnFault? after result) (idle : server.stage = .idle)
    (before : Orderly server) : Orderly after := by
  cases h with
  | unbound state call => exact call.orderly idle before
  | entered state call => exact call.orderly idle before
  | boundFirst first call =>
      exact call.orderly (first.created_of_ok.2.1.trans idle) (first.orderly idle before)

/-! ### Moves -/

theorem Orderly.accept {server : Server γ} (h : Orderly server)
    (accepting : server.stage = .accepting) (connection : γ) :
    Orderly { server with
      stage := .handing connection, accepted := server.accepted ++ [connection] } where
  fresh := fun hpool => absurd hpool (h.pool_ne_none (by simp [accepting]))
  manned := by
    intro pool hpool
    have hmanned := h.manned pool hpool
    have hempty : server.stage.inHand = [] := by rw [accepting]; rfl
    have hhanded := hmanned.handed
    rw [hempty, List.append_nil] at hhanded
    exact
      { crew := hmanned.crew
        reachable := hmanned.reachable
        handed := by
          show _ ++ [connection] = server.accepted ++ [connection]
          rw [hhanded]
        unasked := fun _ _ => hmanned.unasked (by simp [accepting]) (by simp [accepting])
        once := by simp }
  closed := by simp
  result := by simp [Stage.result?]

/-- The server goes on to another stage of the loop, with nothing in its hand. -/
theorem Orderly.goOn {server : Server γ} (h : Orderly server) {stage : Stage γ}
    (before : server.stage ≠ .idle ∧ server.stage.inHand = [] ∧
      ∀ result, server.stage ≠ .draining result)
    (after : stage ≠ .idle ∧ stage.inHand = [] ∧ ∀ result, stage ≠ .draining result)
    (result : ∀ result, stage.result? = some result →
      (result = .ok () ∧ server.requested = true) ∨ ∃ why, result = .error (.accept why)) :
    Orderly { server with stage := stage } where
  fresh := fun hpool => absurd hpool (h.pool_ne_none before.1)
  manned := by
    intro pool hpool
    have hmanned := h.manned pool hpool
    have hhanded := hmanned.handed
    rw [before.2.1] at hhanded
    exact
      { crew := hmanned.crew
        reachable := hmanned.reachable
        handed := by
          show _ ++ stage.inHand = server.accepted
          rw [after.2.1, hhanded]
        unasked := fun _ _ => hmanned.unasked before.2.2 before.1
        once := fun hidle => absurd hidle after.1 }
  closed := fun found hdraining => absurd hdraining (after.2.2 found)
  result := result

/-- The pool takes the connection that the loop has in its hand. -/
theorem Orderly.hand {server : Server γ} (h : Orderly server) {connection : γ} {pool : Pool γ}
    (handing : server.stage = .handing connection) (crew : server.pool = some pool)
    (running : pool.stop = false) :
    Orderly { server with pool := some (pool.accept connection), stage := .checking } where
  fresh := by simp
  manned := by
    intro after heq
    obtain rfl := Option.some.inj heq
    have hmanned := h.manned pool crew
    have hhanded := hmanned.handed
    rw [handing, Stage.inHand] at hhanded
    exact
      { crew := hmanned.crew
        reachable := hmanned.reachable.step? (Pool.Step.accepted connection running).step?
        handed := by
          show (pool.accepted ++ [pool.newJob connection]).map Job.task ++ [] = server.accepted
          rw [List.append_nil, List.map_append, ← hhanded]
          rfl
        unasked := fun _ _ => hmanned.unasked (by simp [handing]) (by simp [handing])
        once := by simp }
  closed := by simp
  result := by simp [Stage.result?]

/-- While connections are handed in, the pool refuses none. -/
theorem Orderly.running {server : Server γ} (h : Orderly server) {connection : γ} {pool : Pool γ}
    (handing : server.stage = .handing connection) (crew : server.pool = some pool) :
    pool.stop = false := by
  have hmanned := h.manned pool crew
  apply hmanned.reachable.running_of_notAsked
  exact hmanned.unasked (by simp [handing]) (by simp [handing])

theorem Orderly.leave {server : Server γ} (h : Orderly server)
    {result : Except ServerError Unit} (leaving : server.stage = .leaving result) (state : State) :
    Orderly { server with state := state, socket := .closed, stage := .draining result } where
  fresh := fun hpool => absurd hpool (h.pool_ne_none (by simp [leaving]))
  manned := by
    intro pool hpool
    have hmanned := h.manned pool hpool
    have hhanded := hmanned.handed
    rw [leaving] at hhanded
    exact
      { crew := hmanned.crew
        reachable := hmanned.reachable
        handed := hhanded
        unasked := fun hnever => absurd rfl (hnever result)
        once := by simp }
  closed := fun _ _ => rfl
  result := by
    intro found hfound
    apply h.result found
    rw [leaving]
    exact hfound

theorem Orderly.work {server : Server γ} (h : Orderly server) {move : Workers.Move γ}
    {pool after : Pool γ} (crew : server.pool = some pool)
    (permitted : permits server.stage move = true) (step : Pool.Step pool move after) :
    Orderly { server with pool := some after } where
  fresh := by simp
  manned := by
    intro found heq
    obtain rfl := Option.some.inj heq
    have hmanned := h.manned pool crew
    exact
      { crew := hmanned.crew
        reachable := hmanned.reachable.step? step.step?
        handed := by
          rw [accepted_of_permits permitted step]
          exact hmanned.handed
        unasked := fun hopen hbusy =>
          (closing_of_permits permitted step hopen).trans (hmanned.unasked hopen hbusy)
        once := hmanned.once }
  closed := h.closed
  result := h.result

theorem Orderly.stop {server : Server γ} (h : Orderly server) {result : Except ServerError Unit}
    (draining : server.stage = .draining result) :
    Orderly { server with state := .stopped, stage := .idle } where
  fresh := fun hpool => absurd hpool (h.pool_ne_none (by simp [draining]))
  manned := by
    intro pool hpool
    have hmanned := h.manned pool hpool
    have hhanded := hmanned.handed
    rw [draining] at hhanded
    exact
      { crew := hmanned.crew
        reachable := hmanned.reachable
        handed := hhanded
        unasked := fun _ hbusy => absurd rfl hbusy
        once := fun _ => rfl }
  closed := by simp
  result := by simp [Stage.result?]

/-- Every move around a server leaves it orderly. -/
theorem Step.orderly {server after : Server γ} {move : Move γ} (h : Step server move after)
    (before : Orderly server) : Orderly after := by
  cases h with
  | bound idle call => exact call.orderly idle before
  | entered idle call => exact call.orderly idle before
  | requested =>
      exact
        { fresh := before.fresh
          manned := fun pool hpool =>
            let hmanned := before.manned pool hpool
            ⟨hmanned.crew, hmanned.reachable, hmanned.handed, hmanned.unasked, hmanned.once⟩
          closed := before.closed
          result := fun result hresult =>
            (before.result result hresult).imp_left fun hok => ⟨hok.1, rfl⟩ }
  | checkedOut checking asked =>
      exact before.goOn (by simp [checking, Stage.inHand]) (by simp [Stage.inHand])
        (by simp [Stage.result?, asked])
  | checkedOn checking unasked =>
      exact before.goOn (by simp [checking, Stage.inHand]) (by simp [Stage.inHand])
        (by simp [Stage.result?])
  | accepted accepting => exact before.accept accepting _
  | faulted accepting =>
      exact before.goOn (by simp [accepting, Stage.inHand]) (by simp [Stage.inHand])
        (by simp [Stage.result?])
  | handed handing crew running => exact before.hand handing crew running
  | unhanded handing crew stopping =>
      have hrunning := before.running handing crew
      rw [stopping] at hrunning
      contradiction
  | left leaving => exact before.leave leaving _
  | worked crew permitted step => exact before.work crew permitted step
  | stopped draining => exact before.stop draining

theorem orderly_of_steps? {address : String} {workers : Nat} {moves : List (Move γ)}
    {server : Server γ} (h : (create address workers).steps? moves = some server) :
    Orderly server :=
  invariant_of_steps? Orderly Step.orderly h (orderly_create address workers)

/-! ## What is known of the past -/

/-- The connection that a move brings. -/
def Move.connection? : Move γ → Option γ
  | accept _ connection => some connection
  | _ => none

/-- The failure to accept that a move reports. -/
def Move.fault? : Move γ → Option String
  | acceptFault why => some why
  | _ => none

/-- Whether a move answers the loop that waits for a connection. -/
def Move.isAnswer : Move γ → Bool
  | accept .. | acceptFault _ => true
  | _ => false

/-- The connections that came in, in order. -/
def connections (moves : List (Move γ)) : List γ := moves.filterMap Move.connection?

/-- The failures to accept. -/
def faults (moves : List (Move γ)) : List String := moves.filterMap Move.fault?

/-- How many times a wait for a connection came to an end. -/
def answers (moves : List (Move γ)) : Nat := moves.countP Move.isAnswer

theorem mem_faults_iff {moves : List (Move γ)} {why : String} :
    why ∈ faults moves ↔ .acceptFault why ∈ moves := by
  rw [faults, List.mem_filterMap]
  constructor
  · intro h
    rcases h with ⟨move, hmem, hfault⟩
    cases move with
    | acceptFault found =>
        obtain rfl := Option.some.inj hfault
        exact hmem
    | _ => contradiction
  · intro hmem
    exact ⟨.acceptFault why, hmem, rfl⟩

theorem Step.accepted_eq {server after : Server γ} {move : Move γ} (h : Step server move after) :
    after.accepted = server.accepted ++ move.connection?.toList := by
  have hnone : ∀ {now : List γ}, now = server.accepted → now = server.accepted ++ [] := by
    intro now heq
    rw [heq, List.append_nil]
  cases h with
  | bound idle call => exact hnone (call.called idle).accepted
  | entered idle call => exact hnone (call.called idle).accepted
  | accepted => rfl
  | _ => exact hnone rfl

/-- A shutdown that was asked for stays asked for, and nothing else asks for one. -/
theorem Step.requested_iff {server after : Server γ} {move : Move γ}
    (h : Step server move after) :
    after.requested = true ↔ server.requested = true ∨ move = .request := by
  have hkept : ∀ {now : Bool}, now = server.requested → move ≠ .request →
      (now = true ↔ server.requested = true ∨ move = .request) := by
    intro now heq hmove
    simp [heq, hmove]
  cases h with
  | bound idle call => exact hkept (call.called idle).requested (by simp)
  | entered idle call => exact hkept (call.called idle).requested (by simp)
  | requested => simp [request]
  | _ => exact hkept rfl (by simp)

/-- The failures that were reported, as far as the stage tells of them. -/
theorem Step.faults_eq {server after : Server γ} {move : Move γ} (h : Step server move after)
    (before : Orderly server) (fresh : after.stage = .idle → after.pool = none) :
    after.stage.faults = server.stage.faults ++ move.fault?.toList ∧
      (server.stage = .idle → server.pool = none) := by
  have hcalled : server.stage = .idle → Called server after →
      after.stage.faults = server.stage.faults ++ [] ∧
        (server.stage = .idle → server.pool = none) := by
    intro idle called
    rw [idle]
    rcases called.stage with ⟨hstage, hpool⟩ | ⟨hstage, hstate⟩
    · exact ⟨by rw [hstage]; rfl, fun _ => hpool.symm.trans (fresh hstage)⟩
    · exact ⟨by rw [hstage]; rfl, fun _ => before.pool_eq_none idle hstate⟩
  cases h with
  | bound idle call => exact hcalled idle (call.called idle)
  | entered idle call => exact hcalled idle (call.called idle)
  | requested => exact ⟨by simp [request, Move.fault?], fresh⟩
  | checkedOut checking => simp [checking, Stage.faults, Move.fault?]
  | checkedOn checking => simp [checking, Stage.faults, Move.fault?]
  | accepted accepting => simp [accepting, Stage.faults, Move.fault?]
  | faulted accepting => simp [accepting, Stage.faults, Move.fault?]
  | handed handing => simp [handing, Stage.faults, Move.fault?]
  | unhanded handing => simp [handing, Stage.faults, Move.fault?]
  | @left result leaving =>
      rw [leaving]
      refine ⟨?_, by simp⟩
      cases result with
      | ok => rfl
      | error e => cases e <;> rfl
  | worked crew =>
      refine ⟨by simp [Move.fault?], fun hidle => ?_⟩
      have hnone := fresh hidle
      contradiction
  | stopped draining crew =>
      have hnone := fresh rfl
      rw [crew] at hnone
      contradiction

/-- What the moves that were made say of a server. -/
structure Chronicle (moves : List (Move γ)) (server : Server γ) : Prop where
  orderly : Orderly server
  accepted : server.accepted = connections moves
  requested : server.requested = true ↔ .request ∈ moves
  /-- Until a run is over, its failure to accept is the only one there was. -/
  faults : (server.stage = .idle → server.pool = none) → server.stage.faults = faults moves

theorem Chronicle.step {moves : List (Move γ)} {server after : Server γ} {move : Move γ}
    (h : Chronicle moves server) (step : Step server move after) :
    Chronicle (moves ++ [move]) after where
  orderly := step.orderly h.orderly
  accepted := by
    rw [step.accepted_eq, h.accepted, connections, connections, List.filterMap_append]
    cases move <;> rfl
  requested := by
    rw [step.requested_iff, h.requested, List.mem_append, List.mem_singleton]
    exact or_congr_right eq_comm
  faults := by
    intro fresh
    obtain ⟨hfaults, hfresh⟩ := step.faults_eq h.orderly fresh
    rw [hfaults, h.faults hfresh, Server.faults, Server.faults, List.filterMap_append]
    cases move <;> rfl

theorem chronicle_of_steps? {address : String} {workers : Nat} {moves : List (Move γ)}
    {server : Server γ} (h : (create address workers).steps? moves = some server) :
    Chronicle moves server := by
  refine history_induction Chronicle ?_ (fun step before => before.step step) h
  exact
    { orderly := orderly_create address workers
      accepted := rfl
      requested := by simp [create]
      faults := fun _ => rfl }

/-! ## After a shutdown was asked for -/

/-- With the flag up, only a connection that is already waited for can come. -/
theorem Step.answers_le {server after : Server γ} {move : Move γ} (h : Step server move after)
    (asked : server.requested = true) :
    move.isAnswer.toNat + after.stage.room ≤ server.stage.room := by
  have hcalled : server.stage = .idle → Called server after →
      (false : Bool).toNat + after.stage.room ≤ server.stage.room := by
    intro idle called
    rcases called.stage with ⟨hstage, -⟩ | ⟨hstage, -⟩
    · rw [hstage, idle]
      exact Nat.le_refl _
    · rw [hstage]
      exact Nat.zero_le _
  cases h with
  | bound idle call => exact hcalled idle (call.called idle)
  | entered idle call => exact hcalled idle (call.called idle)
  | checkedOn checking unasked =>
      rw [asked] at unasked
      contradiction
  | accepted accepting => simp [accepting, Move.isAnswer, Stage.room]
  | faulted accepting => simp [accepting, Move.isAnswer, Stage.room]
  | requested | checkedOut | handed | unhanded | left | worked | stopped =>
      simp [Move.isAnswer, Stage.room, request]

theorem answers_le {server after : Server γ} {moves : List (Move γ)}
    (asked : server.requested = true) (h : server.steps? moves = some after) :
    answers moves ≤ server.stage.room := by
  induction moves generalizing server with
  | nil => exact Nat.zero_le _
  | cons move moves ih =>
      obtain ⟨next, hnext, hrest⟩ := Option.bind_eq_some_iff.1 h
      have hstep : Step server move next.value := step_of_step? hnext
      have hfirst := hstep.answers_le asked
      have hothers := ih (hstep.requested_iff.2 (.inl asked)) hrest
      have hcount : answers (move :: moves) = answers moves + move.isAnswer.toNat := by
        rw [answers, answers, List.countP_cons]
        cases move.isAnswer <;> rfl
      omega

/-- A run can be cut at any of its moves. -/
theorem exists_steps?_of_append {server after : Server γ} {before rest : List (Move γ)}
    {move : Move γ} (h : server.steps? (before ++ move :: rest) = some after) :
    ∃ mid next, server.steps? before = some mid ∧ Step mid move next ∧
      next.steps? rest = some after := by
  rw [steps?_append] at h
  obtain ⟨mid, hmid, htail⟩ := Option.bind_eq_some_iff.1 h
  obtain ⟨next, hnext, hrest⟩ := Option.bind_eq_some_iff.1 htail
  exact ⟨mid, next.value, hmid, step_of_step? hnext, hrest⟩

theorem answers_le_one_of_request {server after : Server γ} {before rest : List (Move γ)}
    (h : server.steps? (before ++ .request :: rest) = some after) : answers rest ≤ 1 := by
  obtain ⟨mid, next, -, hstep, hrest⟩ := exists_steps?_of_append h
  have hasked : next.requested = true := hstep.requested_iff.2 (.inr rfl)
  have hroom : next.stage.room ≤ 1 := by
    cases next.stage <;> simp [Stage.room]
  exact Nat.le_trans (answers_le hasked hrest) hroom

theorem answers_eq_zero_of_enter {address : String} {workers : Nat} {after : Server γ}
    {before rest : List (Move γ)} {outcome : BindOutcome} {spawnFault? : Nat → Option String}
    (h : (create address workers).steps? (before ++ .enter outcome spawnFault? :: rest) =
      some after) (asked : .request ∈ before) : answers rest = 0 := by
  obtain ⟨mid, next, hmid, hstep, hrest⟩ := exists_steps?_of_append h
  have hasked : mid.requested = true := (chronicle_of_steps? hmid).requested.2 asked
  have hidle : mid.stage = .idle := by
    cases hstep with
    | entered idle => exact idle
  have hroom := hstep.answers_le hasked
  rw [hidle] at hroom
  have hnext := answers_le (hstep.requested_iff.2 (.inl hasked)) hrest
  have hzero : (Stage.idle : Stage γ).room = 0 := rfl
  omega

/-! ## The end of a run -/

/-- What a run of a server leaves behind: `moves` are those that were made before
the server stopped, and `result` is what the run gives. -/
structure Concluded (address : String) (workers : Nat) (moves : List (Move γ))
    (result : Except ServerError Unit) (server : Server γ) : Prop where
  stopped : server.state = .stopped
  closed : server.socket = .closed
  /-- Each connection that was accepted was handed in once, in order, and each was
  taken once, in order too, by a worker that has seen it end. -/
  served : ∃ pool, server.pool = some pool ∧
    pool.accepted.map Job.task = connections moves ∧ pool.accepted.Nodup ∧
    pool.taken.map Prod.snd = pool.accepted ∧
    (pool.ended.map fun run => run.2.1) ~ pool.accepted ∧
    pool.queue = [] ∧ ∀ worker ∈ pool.workers, worker = .exited
  /-- The pool never refused a connection. -/
  admitted : ∀ before, before <+: moves → ∀ mid connection pool,
    (create address workers).steps? before = some mid → mid.stage = .handing connection →
    mid.pool = some pool → ∃ after, pool.submit connection = .ok after
  failed : ∀ why, result = .error (.accept why) ↔ .acceptFault why ∈ moves
  succeeded : (∀ why, .acceptFault why ∉ moves) → result = .ok () ∧ server.requested = true
  /-- At most one wait for a connection ends after a shutdown was asked for. -/
  late : ∀ before after, moves = before ++ .request :: after → answers after ≤ 1
  /-- None does if that was before the run. -/
  never : ∀ before outcome spawnFault? after,
    moves = before ++ .enter outcome spawnFault? :: after → .request ∈ before → answers after = 0

/-- The result of a run is known from the moves. -/
theorem Chronicle.result_of_draining {moves : List (Move γ)} {server : Server γ}
    (h : Chronicle moves server) {result : Except ServerError Unit}
    (draining : server.stage = .draining result) :
    (∀ why, result = .error (.accept why) ↔ .acceptFault why ∈ moves) ∧
      ((∀ why, .acceptFault why ∉ moves) → result = .ok () ∧ server.requested = true) := by
  have hfaults := h.faults (by simp [draining])
  rw [draining] at hfaults
  have hresult := h.orderly.result result (by rw [draining]; rfl)
  simp only [← mem_faults_iff, ← hfaults]
  rcases hresult with ⟨rfl, hasked⟩ | ⟨found, rfl⟩
  · exact ⟨by simp [Stage.faults], fun _ => ⟨rfl, hasked⟩⟩
  · refine ⟨fun why => ?_, fun hnone => absurd (List.mem_singleton.2 rfl) (hnone found)⟩
    simp only [Stage.faults, List.mem_singleton, Except.error.injEq, ServerError.accept.injEq]
    exact eq_comm

/-- However connections, failures, requests to shut down, panics and the moves of the
workers come about, a run that ends has served all that it accepted, and its result
says why it ended. -/
theorem run_concludes {address : String} {workers : Nat} {moves : List (Move γ)}
    {server : Server γ} {result : Except ServerError Unit} {after : Logged (Server γ)}
    (h : (create address workers).steps? moves = some server)
    (draining : server.stage = .draining result) (hstop : server.step? .stop = some after) :
    Concluded address workers moves result after.value := by
  have hchronicle : Chronicle moves server := chronicle_of_steps? h
  have horderly : Orderly server := hchronicle.orderly
  generalize hafter : after.value = last
  have hstep : Step server .stop last := hafter ▸ step_of_step? hstop
  cases hstep with
  | @stopped _ pool draining' crew joined =>
      have hmanned : Manned server pool := horderly.manned pool crew
      have hbooks := hmanned.reachable.balanced hmanned.crew
      have hexited := hbooks.closed (.inl joined)
      have hempty : server.stage.inHand = [] := by rw [draining]; rfl
      have hhanded := hmanned.handed
      rw [hempty, List.append_nil] at hhanded
      have hnothing : pool.queue = [] := (hbooks.done hmanned.crew hexited).2
      have htaken : pool.taken.map Prod.snd = pool.accepted := by
        rw [hbooks.order, hnothing, List.append_nil]
      have hresult := hchronicle.result_of_draining draining
      refine
        { stopped := rfl
          closed := horderly.closed result draining
          served := ⟨pool, crew, hhanded.trans hchronicle.accepted, hbooks.accepted_nodup,
            htaken, hbooks.all_ended hmanned.crew hexited, hnothing, hexited⟩
          admitted := ?admitted
          failed := hresult.1
          succeeded := hresult.2
          late := ?late
          never := ?never }
      case admitted =>
        intro before _ mid connection taker hmid handing hcrew
        have hrunning := (orderly_of_steps? hmid).running handing hcrew
        exact ⟨_, Pool.submit_of_running hrunning connection⟩
      case late =>
        rintro before rest rfl
        exact answers_le_one_of_request h
      case never =>
        rintro before outcome spawnFault? rest rfl asked
        exact answers_eq_zero_of_enter h asked

/-- Two connections, the second of which is waited for when a shutdown is asked for;
the task of the first panics while the server leaves its loop. -/
def lateConnection : List (Move Nat) :=
  [.bind (.opened ⟨"127.0.0.1", 8080⟩), .enter (.refused "in use") fun _ => none,
    .pool (.poll 1), .check, .accept "a" 10, .hand, .pool (.poll 0), .check, .request,
    .accept "b" 20, .hand, .pool (.notifyOne (some 1)), .check, .pool (.finish 0 .panicked),
    .leave, .pool .flag, .pool (.poll 1), .pool .notifyAll, .pool (.finish 1 .returned),
    .pool (.tell 0), .pool (.poll 0), .pool (.tell 1), .pool (.poll 1), .pool .join]

theorem late_connection_concludes :
    ∃ server : Server Nat, ∃ after : Logged (Server Nat),
      (create "127.0.0.1:8080" 2).steps? lateConnection = some server ∧
      server.stage = .draining (.ok ()) ∧ server.step? .stop = some after ∧
      connections lateConnection = [10, 20] ∧
      Concluded "127.0.0.1:8080" 2 lateConnection (.ok ()) after.value :=
  ⟨_, _, rfl, rfl, rfl, rfl, run_concludes rfl rfl rfl⟩

end Server

end SiteServer
