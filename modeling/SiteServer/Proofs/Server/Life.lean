import SiteServer.Proofs.Server.Conclusion
import SiteServer.Proofs.Server.Startup

/-!
# The life of a server

A server grows older and never younger.  Its state goes on in one direction, the
address of its socket stays once it is known, and so does the request to shut down.
Along all the calls that are made of it, whatever the system answers, the socket is
opened once at most and the loop is entered once at most (`Lived`).

What a move adds to this is said once, for each case of the relation (`Step.ages`):
the addresses at which the socket was opened are the one that the server has, and the
runs that entered the loop are the ones that gave it its pool.  A server with a pool
is not idle, or it has stopped, and a server that has stopped fits no call.
-/

namespace SiteServer.Server

variable {γ : Type}

/-! ## What moves bring about -/

/-- The address at which a move opens the socket, if it does.  A run opens it if the
server has none yet. -/
def opening? (server : Server γ) : Move γ → Option Endpoint
  | .bind outcome => (server.bind outcome).value.2.toOption
  | .enter outcome _ =>
    if server.state = .created then (server.bind outcome).value.2.toOption else none
  | _ => none

/-- Whether a move is a run that enters the loop. -/
def entered? (server : Server γ) : Move γ → Option Unit
  | .enter outcome spawnFault? => (server.enter outcome spawnFault?).value.2.toOption
  | _ => none

/-- Gathers what there is to say of each move, at the server that it is made at. -/
def gather {β : Type} (say? : Server γ → Move γ → Option β) (server : Server γ) :
    List (Move γ) → List β
  | [] => []
  | move :: moves =>
    (say? server move).toList ++
      match server.step? move with
      | some after => gather say? after.value moves
      | none => []

/-- The addresses at which moves open the socket. -/
def openings (server : Server γ) (moves : List (Move γ)) : List Endpoint :=
  gather opening? server moves

/-- How many runs enter the loop. -/
def entries (server : Server γ) (moves : List (Move γ)) : Nat :=
  (gather entered? server moves).length

theorem gather_cons {β : Type} (say? : Server γ → Move γ → Option β) {server : Server γ}
    {move : Move γ} {after : Logged (Server γ)} (h : server.step? move = some after)
    (moves : List (Move γ)) :
    gather say? server (move :: moves) =
      (say? server move).toList ++ gather say? after.value moves := by
  rw [gather, h]

/-- How a run returns, and the server that it leaves: with an error before it enters the
loop, or once the pool is shut down. -/
inductive Returns (server : Server γ) : Server γ → Except ServerError Unit → Prop where
  | early {outcome : BindOutcome} {spawnFault? : Nat → Option String} {after : Server γ}
      {e : ServerError} (idle : server.stage = .idle)
      (call : (server.enter outcome spawnFault?).value = (after, .error e)) :
      Returns server after (.error e)
  | late {result : Except ServerError Unit} {after : Logged (Server γ)}
      (draining : server.stage = .draining result) (stops : server.step? .stop = some after) :
      Returns server after.value result

/-! ## Growing older -/

/-- The states that a server can be in while its thread is at something. -/
def Stage.states : Stage γ → List State
  | idle => [.created, .bound, .listening, .stopped]
  | draining _ => [.running, .shutdownRequested]
  | _ => [.running]

/-- An orderly server, whose state fits what it is at, and which has no address before
its socket was opened. -/
structure Sound (server : Server γ) : Prop where
  orderly : Orderly server
  state : server.state ∈ server.stage.states
  unnamed : server.state = .created → server.localAddress = none

/-- What becomes of a server while its socket is opened at some addresses, and some runs
enter the loop. -/
structure Ages (server after : Server γ) (opened : List Endpoint) (entered : Nat) : Prop where
  sound : Sound after
  state : server.state.rank ≤ after.state.rank
  address : after.localAddress.toList = server.localAddress.toList ++ opened
  pool : after.pool.toList.length = server.pool.toList.length + entered

namespace Ages

variable {server mid after : Server γ} {opened later : List Endpoint} {entered next : Nat}

theorem trans (h : Ages server mid opened entered) (h' : Ages mid after later next) :
    Ages server after (opened ++ later) (entered + next) where
  sound := h'.sound
  state := Nat.le_trans h.state h'.state
  address := by rw [h'.address, h.address, List.append_assoc]
  pool := by rw [h'.pool, h.pool, Nat.add_assoc]

/-- A server whose state, address and pool stay. -/
theorem of_same (before : Sound server) (orderly : Orderly after)
    (state : after.state = server.state) (stage : server.state ∈ after.stage.states)
    (address : after.localAddress = server.localAddress)
    (pool : after.pool.toList.length = server.pool.toList.length) : Ages server after [] 0 where
  sound := ⟨orderly, state ▸ stage, fun h => address.trans (before.unnamed (state.symm.trans h))⟩
  state := Nat.le_of_eq (congrArg State.rank state.symm)
  address := by rw [address, List.append_nil]
  pool := pool

theorem refl (before : Sound server) : Ages server server [] 0 :=
  of_same before before.orderly rfl before.state rfl rfl

end Ages

section Calls

variable {server after : Server γ} {outcome : BindOutcome} {spawnFault? : Nat → Option String}

theorem Binds.ages {result : Except ServerError Endpoint} (h : Binds server outcome after result)
    (idle : server.stage = .idle) (before : Sound server) :
    Ages server after result.toOption.toList 0 := by
  have orderly : Orderly after := h.orderly idle before.orderly
  cases h with
  | invalid => exact .refl before
  | refused => exact .refl before
  | nameless state =>
      exact
        { sound := ⟨orderly, by simp [idle, Stage.states], by simp⟩
          state := by simp [state, State.rank]
          address := (List.append_nil _).symm
          pool := rfl }
  | opened state =>
      exact
        { sound := ⟨orderly, by simp [idle, Stage.states], by simp⟩
          state := by simp [state, State.rank]
          address := by rw [before.unnamed state]; rfl
          pool := rfl }

theorem Enters.ages {result : Except ServerError Unit}
    (h : Enters server spawnFault? after result) (idle : server.stage = .idle)
    (before : Sound server) : Ages server after [] result.toOption.toList.length := by
  have orderly : Orderly after := h.orderly idle before.orderly
  cases h with
  | invalid => exact .refl before
  | poolless => exact .of_same before orderly rfl before.state rfl rfl
  | started state =>
      -- Of idle servers only one that has stopped has a pool, and this one listens.
      have hpool : server.pool = none :=
        before.orderly.pool_eq_none idle (by simp [state])
      exact
        { sound := ⟨orderly, by simp [Stage.states], by simp⟩
          state := by simp [state, State.rank]
          address := (List.append_nil _).symm
          pool := by rw [hpool]; rfl }

theorem Runs.ages {result : Except ServerError Unit}
    (h : Runs server outcome spawnFault? after result) (idle : server.stage = .idle)
    (before : Sound server) :
    Ages server after (server.opening? (.enter outcome spawnFault?)).toList
      result.toOption.toList.length := by
  cases h with
  | unbound state call =>
      rw [opening?, if_pos state, call.eq]
      exact call.ages idle before
  | boundFirst first call =>
      obtain ⟨state, stage, -⟩ := first.created_of_ok
      rw [opening?, if_pos state, first.eq]
      have hfirst := first.ages idle before
      simpa using hfirst.trans (call.ages (stage.trans idle) hfirst.sound)
  | entered state call =>
      rw [opening?, if_neg state]
      exact call.ages idle before

end Calls

/-- What one move adds. -/
theorem Step.ages {server after : Server γ} {move : Move γ} (h : Step server move after)
    (before : Sound server) :
    Ages server after (server.opening? move).toList (server.entered? move).toList.length := by
  have orderly : Orderly after := h.orderly before.orderly
  have hstate := before.state
  cases h with
  | bound idle call =>
      rw [opening?, call.eq]
      exact call.ages idle before
  | entered idle call =>
      rw [entered?, call.eq]
      exact call.ages idle before
  | requested => exact .of_same before orderly rfl hstate rfl rfl
  | worked crew => exact .of_same before orderly rfl hstate rfl (by simp [crew])
  | handed stage crew =>
      rw [stage] at hstate
      exact .of_same before orderly rfl hstate rfl (by simp [crew])
  | checkedOut stage | checkedOn stage | accepted stage | faulted stage | unhanded stage =>
      rw [stage] at hstate
      exact .of_same before orderly rfl hstate rfl rfl
  | left stage =>
      -- The flag decides whether the state changes, and either way it does not go back.
      rw [stage] at hstate
      have hrunning : server.state = .running := List.mem_singleton.1 hstate
      exact
        { sound := ⟨orderly, by split <;> simp [hrunning, Stage.states],
            by split <;> simp [hrunning]⟩
          state := by split <;> simp [hrunning, State.rank]
          address := (List.append_nil _).symm
          pool := rfl }
  | stopped stage =>
      exact
        { sound := ⟨orderly, by simp [Stage.states], by simp⟩
          state := by cases server.state <;> simp [State.rank]
          address := (List.append_nil _).symm
          pool := rfl }

/-- What moves add one after another. -/
theorem ages_of_steps? {server after : Server γ} {moves : List (Move γ)}
    (h : server.steps? moves = some after) (before : Sound server) :
    Ages server after (openings server moves) (entries server moves) := by
  induction moves generalizing server with
  | nil => exact Option.some.inj h ▸ .refl before
  | cons move moves ih =>
      obtain ⟨next, hnext, hrest⟩ := Option.bind_eq_some_iff.1 h
      have hfirst := (step_of_step? hnext).ages before
      have hothers := ih hrest hfirst.sound
      rw [openings, entries, gather_cons _ hnext, gather_cons _ hnext, List.length_append]
      exact hfirst.trans hothers

theorem sound_create (address : String) (workers : Nat) :
    Sound (create address workers : Server γ) where
  orderly := orderly_create address workers
  state := by simp [create, Stage.states]
  unnamed := fun _ => rfl

/-- A server that has a pool, and is between two calls, has stopped. -/
theorem Sound.stopped {server : Server γ} (h : Sound server) (idle : server.stage = .idle)
    (pool : 0 < server.pool.toList.length) : server.state = .stopped := by
  by_contra hstate
  rw [h.orderly.pool_eq_none idle hstate] at pool
  exact absurd pool (by simp)

/-- No call fits a server that has stopped, and none changes it. -/
theorem start_of_stopped {server : Server γ} (state : server.state = .stopped) (call : Start) :
    server.start call = (server, .error (.invalidState .stopped)) := by
  have hpast : server.state ≠ .created := by simp [state]
  have hunfit : server.state ≠ .listening ∨ server.socket ≠ .owned := .inl (by simp [state])
  rw [← state]
  cases call with
  | bind outcome => simp only [start, (Binds.invalid hpast).eq, Except.map]
  | run outcome spawnFault? => exact (Runs.entered hpast (.invalid hunfit)).eq

/-- A run that returns without an error was asked to shut down, and has stopped. -/
theorem Sound.of_returns_ok {server after : Server γ} (h : Sound server)
    (returns : Returns server after (.ok ())) :
    after.requested = true ∧ after.state = .stopped := by
  cases returns with
  | @late _ after draining stops =>
      have hasked : server.requested = true := by
        rcases h.orderly.result (.ok ()) (by rw [draining]; rfl) with ⟨-, hasked⟩ | ⟨why, herror⟩
        · exact hasked
        · contradiction
      have hstep : Step server .stop after.value := step_of_step? stops
      refine ⟨hstep.requested_iff.2 (.inl hasked), ?_⟩
      generalize after.value = last at hstep
      cases hstep with
      | stopped => rfl

/-! ## A whole life -/

/-- What a server keeps for ever. -/
structure Keeps (server later : Server γ) : Prop where
  /-- The state does not go back. -/
  state : server.state.rank ≤ later.state.rank
  address : ∀ endpoint, server.localAddress = some endpoint → later.localAddress = some endpoint
  requested : server.requested = true → later.requested = true

/-- What holds of a server after any moves since it was new. -/
structure Lived (address : String) (workers : Nat) (moves : List (Move γ))
    (server : Server γ) : Prop where
  openedOnce : (openings (create address workers) moves).length ≤ 1
  enteredOnce : entries (create address workers) moves ≤ 1
  /-- The address is that at which the socket was opened. -/
  named : server.localAddress = (openings (create address workers) moves).head?
  /-- Once a run that entered the loop is over, every call is refused and changes nothing. -/
  spent : 0 < entries (create address workers) moves → server.stage = .idle →
    ∀ call, server.start call = (server, .error (.invalidState .stopped))
  /-- Asking for a shutdown changes nothing but the flag. -/
  request : server.step? .request = some (return { server with requested := true })
  /-- Nothing else raises the flag, and nothing clears it. -/
  requested : server.requested = true ↔ .request ∈ moves
  succeeded : ∀ after, Returns server after (.ok ()) →
    after.requested = true ∧ after.state = .stopped
  onward : ∀ more later, server.steps? more = some later → Keeps server later

theorem keeps_of_steps? {server later : Server γ} {moves : List (Move γ)} (sound : Sound server)
    (h : server.steps? moves = some later) : Keeps server later := by
  have hages := ages_of_steps? h sound
  refine ⟨hages.state, fun endpoint hnamed => ?_, fun hasked => ?_⟩
  · have haddress := hages.address
    rw [hnamed] at haddress
    rw [← Option.head?_toList (o := later.localAddress), haddress]
    rfl
  · have hkept : ∀ {before after : Server γ} {move : Move γ}, Step before move after →
        before.requested = true → after.requested = true :=
      fun step asked => step.requested_iff.2 (.inl asked)
    exact invariant_of_steps? (·.requested = true) hkept h hasked

/-- However a server is called and whatever the system answers, it opens its socket once
at most and runs once at most, and its life goes in one direction. -/
theorem server_lives_once {address : String} {workers : Nat} {moves : List (Move γ)}
    {server : Server γ} (h : (create address workers).steps? moves = some server) :
    Lived address workers moves server := by
  have hages := ages_of_steps? h (sound_create address workers)
  have hopened : openings (create address workers) moves = server.localAddress.toList :=
    hages.address.symm
  have hentered : entries (create address workers) moves = server.pool.toList.length := by
    rw [hages.pool]
    exact (Nat.zero_add _).symm
  exact
    { openedOnce := by
        rw [hopened]
        exact Option.length_toList_le
      enteredOnce := by
        rw [hentered]
        exact Option.length_toList_le
      named := by rw [hopened, Option.head?_toList]
      spent := fun entered idle =>
        start_of_stopped (hages.sound.stopped idle (hentered ▸ entered))
      request := rfl
      requested := (chronicle_of_steps? h).requested
      succeeded := fun _ => hages.sound.of_returns_ok
      onward := fun _ _ => keeps_of_steps? hages.sound }

/-- A server that is called again after its run is over. -/
def secondLife : List (Move Nat) :=
  .bind (.refused "in use") :: lateConnection ++
    [.stop, .enter (.opened ⟨"::1", 9090⟩) fun _ => none]

theorem second_life_is_refused :
    ∃ server : Server Nat, (create "127.0.0.1:8080" 2).steps? secondLife = some server ∧
      server.localAddress = some ⟨"127.0.0.1", 8080⟩ ∧ server.state = .stopped ∧
      0 < entries (create "127.0.0.1:8080" 2) secondLife ∧
      Lived "127.0.0.1:8080" 2 secondLife server :=
  ⟨_, rfl, rfl, rfl, by decide, server_lives_once rfl⟩

end SiteServer.Server
