/-!
# Log events

What the server has to say about its work is part of its result: a computation
that logs is a value together with the events it emitted, in order.  No event is
lost or repeated, because the only way to combine two such computations is to
put the events of the second after those of the first.

Whether an event is written anywhere is decided later, by a filter and the
sinks that are open.
-/

namespace SiteServer

namespace Log

/-- The severity of an event, from the least to the most severe. -/
inductive Level where
  | trace | debug | info | warn | error
deriving DecidableEq, Repr, Inhabited

namespace Level

/-- The name of a level as it stands in a line of the log. -/
def label : Level → String
  | trace => "TRACE"
  | debug => "DEBUG"
  | info => "INFO"
  | warn => "WARN"
  | error => "ERROR"

/-- Position in the order of severity. -/
def severity : Level → Nat
  | trace => 0
  | debug => 1
  | info => 2
  | warn => 3
  | error => 4

end Level

/-- One event: a message, and the data that belong to it under their names. -/
structure Event where
  level : Level
  message : String
  fields : List (String × String)
deriving DecidableEq, Repr, Inhabited

/-- An event of critical severity: an error that carries a mark. -/
def Event.critical (message : String) (fields : List (String × String)) : Event :=
  ⟨.error, message, ("critical", "true") :: fields⟩

/-- Whether the event reports a failure. -/
def Event.isAlarm (e : Event) : Bool :=
  e.level = .warn || e.level = .error

end Log

universe u v

/-- A value and the events that were emitted on the way to it. -/
structure Logged (α : Type u) where
  value : α
  events : List Log.Event

namespace Logged

variable {α : Type u} {β : Type u}

/-- A value without events. -/
protected def pure (a : α) : Logged α := ⟨a, []⟩

/-- Continues with the value; the later events follow the earlier ones. -/
protected def bind (x : Logged α) (f : α → Logged β) : Logged β :=
  let y := f x.value
  ⟨y.value, x.events ++ y.events⟩

instance : Monad Logged where
  pure := Logged.pure
  bind := Logged.bind

/-- Emits one event. -/
def emit (e : Log.Event) : Logged Unit := ⟨(), [e]⟩

@[simp] theorem value_pure (a : α) : (pure a : Logged α).value = a := rfl

@[simp] theorem events_pure (a : α) : (pure a : Logged α).events = [] := rfl

@[simp] theorem value_bind (x : Logged α) (f : α → Logged β) :
    (x >>= f).value = (f x.value).value := rfl

@[simp] theorem events_bind (x : Logged α) (f : α → Logged β) :
    (x >>= f).events = x.events ++ (f x.value).events := rfl

@[simp] theorem value_map (f : α → β) (x : Logged α) : (f <$> x).value = f x.value := rfl

@[simp] theorem events_map (f : α → β) (x : Logged α) : (f <$> x).events = x.events := by
  show x.events ++ [] = x.events
  simp

@[ext] theorem ext {x y : Logged α} (hv : x.value = y.value) (he : x.events = y.events) :
    x = y := by
  cases x; cases y; simp_all

/-- Two computations with the same events go on alike if they do so from their values. -/
theorem bind_congr {x y : Logged α} {f g : α → Logged β} (events : x.events = y.events)
    (next : f x.value = g y.value) : x >>= f = y >>= g := by
  apply ext
  · rw [value_bind, value_bind, next]
  · rw [events_bind, events_bind, events, next]

end Logged

end SiteServer
