import SiteServer.Proofs.Server.Moves

/-!
# Starts that fail

Opening the socket and entering a run can fail at several points.  A start that
fails because the system refuses the socket does no harm: the server is as it was,
and the call can be made again.

A start that fails later does.  If the address of the socket cannot be learned, the
server stays `bound` to a socket that is closed; if there is no pool, it stays
`listening` although the run has taken the socket with it.  No call helps such a
server any more, since each of them finds a state that it does not fit
(`Stranded`).

So the state tells whether the server has an open socket as long as no run was left
without a pool, and no longer (`Moored.listening_iff_owned_iff`); and a start that
fails can be made again exactly if it was the socket that was refused
(`unharmed_iff_refused`).
-/

namespace SiteServer.Server

open Workers (Pool)

variable {γ : Type}

/-! ## Calls -/

/-- A call that starts a server, with what the system answers to it. -/
inductive Start where
  | bind (outcome : BindOutcome)
  | run (outcome : BindOutcome) (spawnFault? : Nat → Option String)

namespace Start

/-- What the system answers if it is asked for a socket. -/
def outcome : Start → BindOutcome
  | bind outcome => outcome
  | run outcome _ => outcome

/-- The same call, whatever the system answers when it is made again. -/
def Again : Start → Start → Prop
  | bind _, bind _ => True
  | run _ _, run _ _ => True
  | _, _ => False

end Start

/-- Makes a call: the server that it leaves, and how it ends. -/
def start (server : Server γ) : Start → Server γ × Except ServerError Unit
  | .bind outcome =>
    let answer := (server.bind outcome).value
    (answer.1, answer.2.map fun _ => ())
  | .run outcome spawnFault? => (server.enter outcome spawnFault?).value

/-! ### A call has one ending -/

theorem Binds.eq {server after : Server γ} {outcome : BindOutcome}
    {result : Except ServerError Endpoint} (h : Binds server outcome after result) :
    (server.bind outcome).value = (after, result) := by
  unfold bind
  cases h with
  | invalid state =>
      rw [if_pos state]
      rfl
  | refused state | nameless state | opened state =>
      have hfits : ¬ server.state ≠ .created := fun h => h state
      rw [if_neg hfits]
      rfl

theorem Enters.eq {server after : Server γ} {spawnFault? : Nat → Option String}
    {result : Except ServerError Unit} (h : Enters server spawnFault? after result) :
    (server.enterListening spawnFault?).value = (after, result) := by
  cases h with
  | invalid state =>
      rw [enterListening, if_pos state]
      rfl
  | poolless state socket fault =>
      have hvalid : ¬ (server.state ≠ .listening ∨ server.socket ≠ .owned) := by
        simp [state, socket]
      rw [enterListening, if_neg hvalid, fault]
      rfl
  | started state socket opened =>
      have hvalid : ¬ (server.state ≠ .listening ∨ server.socket ≠ .owned) := by
        simp [state, socket]
      rw [enterListening, if_neg hvalid, opened]
      rfl

theorem Runs.eq {server after : Server γ} {outcome : BindOutcome}
    {spawnFault? : Nat → Option String} {result : Except ServerError Unit}
    (h : Runs server outcome spawnFault? after result) :
    (server.enter outcome spawnFault?).value = (after, result) := by
  cases h with
  | unbound state call =>
      rw [enter, if_pos state, Logged.value_bind, call.eq]
      rfl
  | boundFirst first call =>
      have state : server.state = .created := by
        cases first with
        | opened state => exact state
      rw [enter, if_pos state, Logged.value_bind, first.eq]
      exact call.eq
  | entered state call =>
      rw [enter, if_neg state]
      exact call.eq

/-! ## The state and the socket -/

/-- A move by which a run takes the socket and finds no pool. -/
def Deserts (server : Server γ) : Move γ → Prop
  | .enter outcome spawnFault? =>
    ∃ e, (server.enter outcome spawnFault?).value.2 = .error (.pool e)
  | _ => False

/-- One of the moves of a history was of that kind. -/
def Deserted (address : String) (workers : Nat) (moves : List (Move γ)) : Prop :=
  ∃ before move rest server, moves = before ++ move :: rest ∧
    (create address workers).steps? before = some server ∧ server.Deserts move

/-- How the state goes with the socket, of a server of which it is known whether a
run was left without a pool. -/
structure Moored (server : Server γ) (deserted : Prop) : Prop where
  owned : server.socket = .owned → server.state = .listening ∧ ¬ deserted
  listening : server.state = .listening → server.socket = .owned ∨ deserted
  deserted : deserted → server.state = .listening
  busy : server.stage ≠ .idle → server.state ≠ .listening

/-- The state tells whether the server has an open socket, unless a run was left
without a pool. -/
theorem Moored.listening_iff_owned_iff {server : Server γ} {deserted : Prop}
    (h : Moored server deserted) :
    (server.state = .listening ↔ server.socket = .owned) ↔ ¬ deserted := by
  constructor
  · intro hiff hdeserted
    exact (h.owned (hiff.1 (h.deserted hdeserted))).2 hdeserted
  · intro hkept
    constructor
    · intro hlistening
      exact (h.listening hlistening).resolve_right hkept
    · intro howned
      exact (h.owned howned).1

/-- A server that does not listen, and has no open socket either. -/
theorem Moored.of_elsewhere {server : Server γ} {deserted : Prop}
    (socket : server.socket ≠ .owned) (state : server.state ≠ .listening)
    (kept : ¬ deserted) : Moored server deserted where
  owned := fun h => absurd h socket
  listening := fun h => absurd h state
  deserted := fun h => absurd h kept
  busy := fun _ => state

theorem moored_create (address : String) (workers : Nat) :
    Moored (create address workers : Server γ) False :=
  .of_elsewhere (by simp [create]) (by simp [create]) id

theorem Binds.moored {server after : Server γ} {outcome : BindOutcome}
    {result : Except ServerError Endpoint} (h : Binds server outcome after result)
    (idle : server.stage = .idle) {deserted : Prop} (before : Moored server deserted) :
    Moored after deserted := by
  have hkept : server.state = .created → ¬ deserted := by
    intro state hdeserted
    rw [before.deserted hdeserted] at state
    contradiction
  cases h with
  | invalid => exact before
  | refused => exact before
  | nameless state => exact .of_elsewhere (by simp) (by simp) (hkept state)
  | opened state =>
      exact
        { owned := fun _ => ⟨rfl, hkept state⟩
          listening := fun _ => .inl rfl
          deserted := fun _ => rfl
          busy := fun hbusy => absurd idle hbusy }

theorem Enters.moored {server after : Server γ} {spawnFault? : Nat → Option String}
    {result : Except ServerError Unit} (h : Enters server spawnFault? after result)
    {deserted : Prop} (before : Moored server deserted) :
    Moored after (deserted ∨ ∃ e, result = .error (.pool e)) := by
  cases h with
  | invalid => simpa using before
  | poolless state socket fault =>
      exact
        { owned := by simp
          listening := fun _ => .inr (.inr ⟨_, rfl⟩)
          deserted := fun _ => state
          busy := before.busy }
  | started state socket opened =>
      have hkept := (before.owned socket).2
      exact .of_elsewhere (by simp) (by simp) (by simpa using hkept)

/-- A run changes what is known of the server only if it is left without a pool. -/
theorem Runs.moored {server after : Server γ} {outcome : BindOutcome}
    {spawnFault? : Nat → Option String} {result : Except ServerError Unit}
    (h : Runs server outcome spawnFault? after result) (idle : server.stage = .idle)
    {deserted : Prop} (before : Moored server deserted) :
    Moored after (deserted ∨ ∃ e, result = .error (.pool e)) := by
  cases h with
  | unbound state call =>
      have hmoored := call.moored idle before
      cases call with
      | invalid | refused | nameless => simpa using hmoored
  | boundFirst first call => exact call.moored (first.moored idle before)
  | entered state call => exact call.moored before

/-- A server that keeps its state and its socket, and is at something only if it was
before. -/
theorem Moored.of_same {server after : Server γ} {deserted : Prop}
    (h : Moored server deserted) (state : after.state = server.state)
    (socket : after.socket = server.socket)
    (busy : after.stage ≠ .idle → server.stage ≠ .idle) : Moored after deserted where
  owned := by
    rw [state, socket]
    exact h.owned
  listening := by
    rw [state, socket]
    exact h.listening
  deserted := by
    rw [state]
    exact h.deserted
  busy := by
    intro hbusy
    rw [state]
    exact h.busy (busy hbusy)

/-- A move that is no run changes nothing of what is known of the server. -/
theorem Step.moored_of_ne_enter {server after : Server γ} {move : Move γ}
    (h : Step server move after) (calm : ∀ outcome spawnFault?, move ≠ .enter outcome spawnFault?)
    {deserted : Prop} (before : Moored server deserted) : Moored after deserted := by
  have hkept : server.stage ≠ .idle → ¬ deserted := fun hbusy hdeserted =>
    before.busy hbusy (before.deserted hdeserted)
  cases h with
  | entered => exact absurd rfl (calm _ _)
  | bound idle call => exact call.moored idle before
  | requested => exact before.of_same rfl rfl id
  | worked => exact before.of_same rfl rfl id
  | checkedOut stage | checkedOn stage | accepted stage | faulted stage | handed stage
  | unhanded stage => exact before.of_same rfl rfl (fun _ => by simp [stage])
  | left leaving =>
      have hbusy : server.stage ≠ .idle := by simp [leaving]
      refine .of_elsewhere (by simp) ?_ (hkept hbusy)
      show (if server.requested then State.shutdownRequested else server.state) ≠ .listening
      split
      · simp
      · exact before.busy hbusy
  | stopped draining =>
      have hbusy : server.stage ≠ .idle := by simp [draining]
      have hsocket : server.socket ≠ .owned := fun h => before.busy hbusy (before.owned h).1
      exact .of_elsewhere hsocket (by simp) (hkept hbusy)

/-- What is known of a server after any move around it. -/
theorem Step.moored {server after : Server γ} {move : Move γ} (h : Step server move after)
    {deserted : Prop} (before : Moored server deserted) :
    Moored after (deserted ∨ server.Deserts move) := by
  by_cases hrun : ∃ outcome spawnFault?, move = .enter outcome spawnFault?
  · obtain ⟨outcome, spawnFault?, rfl⟩ := hrun
    cases h with
    | entered idle call =>
        have hmoored := call.moored idle before
        simpa [Deserts, call.eq] using hmoored
  · have hcalm : ¬ server.Deserts move := by
      cases move with
      | enter outcome spawnFault? => exact absurd ⟨_, _, rfl⟩ hrun
      | _ => exact id
    rw [or_iff_left hcalm]
    exact h.moored_of_ne_enter (fun _ _ heq => hrun ⟨_, _, heq⟩) before

theorem deserted_append_singleton {address : String} {workers : Nat} {moves : List (Move γ)}
    {server : Server γ} (h : (create address workers).steps? moves = some server)
    (move : Move γ) :
    Deserted address workers (moves ++ [move]) ↔
      Deserted address workers moves ∨ server.Deserts move := by
  constructor
  · rintro ⟨before, last, rest, mid, hsplit, hmid, hdeserts⟩
    rcases List.eq_nil_or_concat rest with rfl | ⟨rest, final, rfl⟩
    · obtain ⟨rfl, hlast⟩ := List.append_inj' hsplit rfl
      obtain rfl : move = last := by simpa using hlast
      obtain rfl : server = mid := Option.some.inj (h.symm.trans hmid)
      exact .inr hdeserts
    · rw [List.concat_eq_append, ← List.cons_append, ← List.append_assoc] at hsplit
      exact .inl ⟨before, last, rest, mid, (List.append_inj' hsplit rfl).1, hmid, hdeserts⟩
  · rintro (⟨before, last, rest, mid, rfl, hmid, hdeserts⟩ | hdeserts)
    · exact ⟨before, last, rest ++ [move], mid, by simp, hmid, hdeserts⟩
    · exact ⟨moves, move, [], server, rfl, h, hdeserts⟩

theorem moored_of_steps? {address : String} {workers : Nat} {moves : List (Move γ)}
    {server : Server γ} (h : (create address workers).steps? moves = some server) :
    Moored server (Deserted address workers moves) := by
  induction moves using List.reverseRecOn generalizing server with
  | nil =>
      have hnever : ¬ Deserted address workers ([] : List (Move γ)) := by
        rintro ⟨before, move, rest, mid, hsplit, -⟩
        simp at hsplit
      rw [eq_false hnever]
      exact Option.some.inj h ▸ moored_create address workers
  | append_singleton moves move ih =>
      rw [steps?_append] at h
      obtain ⟨before, hbefore, hlast⟩ := Option.bind_eq_some_iff.1 h
      obtain ⟨after, hafter, heq⟩ := Option.bind_eq_some_iff.1 hlast
      rw [deserted_append_singleton hbefore, ← Option.some.inj heq]
      exact (step_of_step? hafter).moored (ih hbefore)

/-! ## Calls that fail -/

/-- A new server asks for its socket, and the system refuses it. -/
def Refused (server : Server γ) (outcome : BindOutcome) : Prop :=
  server.state = .created ∧ ∃ why, outcome = .refused why

/-- What a call that fails should leave behind: the server as it was, or as opening
its socket alone would have left it, and ready for the same call. -/
structure Unharmed (server after : Server γ) (call : Start) : Prop where
  restored : after = server ∨
    ∃ endpoint, (server.bind call.outcome).value = (after, .ok endpoint)
  ready : ∀ again, call.Again again → ∀ state, (after.start again).2 ≠ .error (.invalidState state)

/-- A server without a socket that no call helps any more. -/
structure Stranded (server : Server γ) : Prop where
  closed : server.socket = .closed
  helpless : ∀ call, server.start call = (server, .error (.invalidState server.state))

/-- A server that is past its creation, and whose socket is closed, fits no call. -/
theorem stranded_of_closed {server : Server γ} (closed : server.socket = .closed)
    (state : server.state ≠ .created) : Stranded server where
  closed := closed
  helpless := by
    intro call
    have hunfit : server.state ≠ .listening ∨ server.socket ≠ .owned := .inr (by simp [closed])
    cases call with
    | bind outcome => simp only [start, (Binds.invalid state).eq, Except.map]
    | run outcome spawnFault? => exact (Runs.entered state (.invalid hunfit)).eq

section Failures

variable {server after : Server γ} {outcome : BindOutcome} {spawnFault? : Nat → Option String}
  {e : ServerError}

theorem Binds.fails (h : Binds server outcome after (.error e))
    (fits : ∀ state, e ≠ .invalidState state) :
    (Refused server outcome ∧ after = server) ∨ (¬ Refused server outcome ∧ Stranded after) := by
  cases h with
  | invalid => exact absurd rfl (fits server.state)
  | refused state => exact .inl ⟨⟨state, _, rfl⟩, rfl⟩
  | nameless state => exact .inr ⟨by simp [Refused], stranded_of_closed rfl (by simp)⟩

theorem Enters.fails (h : Enters server spawnFault? after (.error e))
    (fits : ∀ state, e ≠ .invalidState state) : Stranded after := by
  cases h with
  | invalid => exact absurd rfl (fits server.state)
  | poolless state => exact stranded_of_closed rfl (by simp [state])

theorem Runs.fails (h : Runs server outcome spawnFault? after (.error e))
    (fits : ∀ state, e ≠ .invalidState state) :
    (Refused server outcome ∧ after = server) ∨ (¬ Refused server outcome ∧ Stranded after) := by
  cases h with
  | unbound state call => exact call.fails fits
  | boundFirst first call =>
      cases first with
      | opened => exact .inr ⟨by simp [Refused], call.fails fits⟩
  | entered state call => exact .inr ⟨fun hrefused => state hrefused.1, call.fails fits⟩

/-- A new server fits both calls. -/
theorem Binds.fits (h : Binds server outcome after (.error e)) (state : server.state = .created)
    (found : State) : e ≠ .invalidState found := by
  cases h with
  | invalid other => exact absurd state other
  | refused | nameless => simp

theorem Runs.fits (h : Runs server outcome spawnFault? after (.error e))
    (state : server.state = .created) (found : State) : e ≠ .invalidState found := by
  cases h with
  | unbound _ call => exact call.fits state found
  | boundFirst first call =>
      cases first with
      | opened =>
          cases call with
          | invalid other => simp at other
          | poolless => simp
  | entered other => exact absurd state other

end Failures

/-- A call that fails ends in one of the ways in which opening a socket or a run ends. -/
theorem binds_or_runs_of_start {server : Server γ} {call : Start} {e : ServerError}
    (failed : (server.start call).2 = .error e) :
    Binds server call.outcome (server.start call).1 (.error e) ∨
      ∃ spawnFault?, Runs server call.outcome spawnFault? (server.start call).1 (.error e) := by
  cases call with
  | bind outcome =>
      have hcall := binds server outcome
      have herror : (server.bind outcome).value.2 = .error e := by
        replace failed : (server.bind outcome).value.2.map (fun _ => ()) = .error e := failed
        cases hresult : (server.bind outcome).value.2 with
        | ok endpoint =>
            rw [hresult] at failed
            cases failed
        | error found =>
            rw [hresult] at failed
            exact congrArg Except.error (Except.error.inj failed)
      rw [herror] at hcall
      exact .inl hcall
  | run outcome spawnFault? =>
      have hcall := runs server outcome spawnFault?
      rw [show (server.enter outcome spawnFault?).value.2 = .error e from failed] at hcall
      exact .inr ⟨spawnFault?, hcall⟩

/-- How a call ends that fails although the server fits it: with the server as it
was, if the system refused the socket, and stranded otherwise. -/
theorem start_fails {server : Server γ} {call : Start} {e : ServerError}
    (failed : (server.start call).2 = .error e) (fits : ∀ state, e ≠ .invalidState state) :
    (Refused server call.outcome ∧ (server.start call).1 = server) ∨
      (¬ Refused server call.outcome ∧ Stranded (server.start call).1) := by
  rcases binds_or_runs_of_start failed with hcall | ⟨_, hcall⟩
  · exact hcall.fails fits
  · exact hcall.fails fits

/-- A new server is ready for any call. -/
theorem start_ne_invalidState {server : Server γ} (state : server.state = .created)
    (call : Start) (found : State) : (server.start call).2 ≠ .error (.invalidState found) := by
  intro failed
  rcases binds_or_runs_of_start failed with hcall | ⟨_, hcall⟩
  · exact hcall.fits state found rfl
  · exact hcall.fits state found rfl

theorem Start.again_self (call : Start) : call.Again call := by
  cases call <;> trivial

theorem Stranded.not_unharmed {server after : Server γ} {call : Start} (h : Stranded after) :
    ¬ Unharmed server after call := by
  intro hunharmed
  apply hunharmed.ready call call.again_self after.state
  rw [h.helpless]

/-- A failed call does no harm exactly if it was the socket that was refused. -/
theorem unharmed_iff_refused {server : Server γ} {call : Start} {e : ServerError}
    (failed : (server.start call).2 = .error e) (fits : ∀ state, e ≠ .invalidState state) :
    Unharmed server (server.start call).1 call ↔ Refused server call.outcome := by
  rcases start_fails failed fits with ⟨hrefused, hsame⟩ | ⟨hrefused, hstranded⟩
  · refine iff_of_true ⟨.inl hsame, ?_⟩ hrefused
    intro again _ state
    rw [hsame]
    exact start_ne_invalidState hrefused.1 again state
  · exact iff_of_false hstranded.not_unharmed hrefused

/-! ## What is left of the promise -/

/-- Whatever calls were made, the state tells whether the server has an open socket
exactly as long as no run was left without a pool.  A start that fails leaves the
server unharmed exactly if the system refused the socket; any later failure strands
it. -/
theorem start_harmless_iff_refused {address : String} {workers : Nat} {moves : List (Move γ)}
    {server : Server γ} (h : (create address workers).steps? moves = some server) :
    ((server.state = .listening ↔ server.socket = .owned) ↔ ¬ Deserted address workers moves) ∧
      ∀ call e, (server.start call).2 = .error e → (∀ state, e ≠ .invalidState state) →
        (Unharmed server (server.start call).1 call ↔ Refused server call.outcome) ∧
          (¬ Refused server call.outcome → Stranded (server.start call).1) := by
  refine ⟨(moored_of_steps? h).listening_iff_owned_iff, ?_⟩
  intro call e failed fits
  refine ⟨unharmed_iff_refused failed fits, ?_⟩
  intro hlate
  rcases start_fails failed fits with ⟨hrefused, -⟩ | ⟨-, hstranded⟩
  · exact absurd hrefused hlate
  · exact hstranded

/-- A server that was refused its socket at first, and got it then. -/
def secondTry : List (Move Nat) :=
  [.bind (.refused "in use"), .bind (.opened ⟨"127.0.0.1", 8080⟩), .request]

/-- Without workers, its run is left without a pool, and strands it. -/
theorem second_try_strands :
    ∃ server : Server Nat, ∃ call,
      (create "127.0.0.1:8080" 0).steps? secondTry = some server ∧
      (server.start call).2 = .error (.pool .invalidSize) ∧
      ((server.state = .listening ↔ server.socket = .owned) ↔
        ¬ Deserted "127.0.0.1:8080" 0 secondTry) ∧
      (Unharmed server (server.start call).1 call ↔ Refused server call.outcome) ∧
      (¬ Refused server call.outcome → Stranded (server.start call).1) :=
  have harmless := @start_harmless_iff_refused _ "127.0.0.1:8080" 0 secondTry _ rfl
  ⟨_, .run (.refused "in use") fun _ => none, rfl, rfl, harmless.1,
    harmless.2 _ (.pool .invalidSize) rfl (by simp)⟩

/-- A run without workers leaves its server `listening` with its socket closed, and no
second run fits that, whatever the system would answer to it. -/
theorem poolless_run_strands :
    ∃ server : Server Nat,
      (create "127.0.0.1:8080" 0).steps? [.bind (.opened ⟨"127.0.0.1", 8080⟩),
        .enter (.refused "in use") fun _ => none] = some server ∧
      server.state = .listening ∧ server.socket ≠ .owned ∧
      ∀ outcome spawnFault?,
        (server.start (.run outcome spawnFault?)).2 = .error (.invalidState .listening) :=
  ⟨_, rfl, rfl, by decide, fun _ _ => rfl⟩

end SiteServer.Server
