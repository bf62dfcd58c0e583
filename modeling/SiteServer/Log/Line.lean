import SiteServer.Log.Event
import SiteServer.Text.Cut
import SiteServer.Text.Numeral

/-!
# Lines of a log

An event is written as a head and its text.  The head holds the time, the level,
the name of the thread and, in a file, the target; the text is the message with the
fields after it.  A message with line feeds makes more lines, which have no head.

A log is read back line by line.  A line is known for the beginning of an event by
its time, also when that stands right behind the rest of an unfinished line; what is
not the beginning of an event is taken as it is.  Lines may end in a carriage return
and a line feed, or in a line feed alone.
-/

namespace SiteServer.Log

/-! ## Writing -/

/-- A character as it is written to a log: those that a terminal acts on are
written as escapes. -/
def visible (c : Char) : List Char :=
  let n := c.toNat
  if n = 0x1B || n = 0x07 || n = 0x08 || n = 0x0C || n = 0x7F then
    ['\\', 'x', Text.hexDigit (n / 16), Text.hexDigit (n % 16)]
  else if 0x80 ≤ n && n ≤ 0x9F then
    ['\\', 'u', '\x7b', Text.hexDigit (n / 16), Text.hexDigit (n % 16), '\x7d']
  else [c]

/-- The text of an event: its message, and its fields after it. -/
def Event.text (e : Event) : List Char :=
  e.message.toList.flatMap visible ++
    e.fields.flatMap fun (name, value) => ' ' :: name.toList ++ '=' :: value.toList

/-- What every event of a log begins with. -/
structure Heading where
  time : String
  thread : String
  /-- Whether targets are written. -/
  targeted : Bool

/-- The width that the names of levels are filled up to. -/
def levelWidth : Nat := 5

/-- The head of an event. -/
def Heading.text (h : Heading) (level : Level) (target : String) : List Char :=
  h.time.toList ++ ' ' :: List.replicate (levelWidth - level.label.length) ' ' ++
    level.label.toList ++ ' ' :: h.thread.toList ++ ' ' ::
    (if h.targeted then target.toList ++ [':', ' '] else [])

/-- An event as it is written, with its target. -/
def Heading.write (h : Heading) (target : String) (e : Event) : List Char :=
  h.text e.level target ++ e.text ++ ['\n']

/-! ## Reading -/

/-- A line of a log.  Only the first line of an event has a level. -/
structure Line where
  level : Option Level
  text : String
deriving DecidableEq, Repr

/-- The form of a time, with zeros for all digits. -/
def timeForm : List Char := "0000-00-00T00:00:00.000000Z".toList

/-- Whether a word ends in a time. -/
def endsInTime (word : List Char) : Bool :=
  timeForm.isSuffixOf (word.map fun c => if c.isDigit then '0' else c)

/-- The level with a name. -/
def Level.ofLabel? (word : List Char) : Option Level :=
  [Level.trace, .debug, .info, .warn, .error].find? (·.label.toList = word)

/-- The text after a target. -/
def afterTarget? : List Char → Option (List Char)
  | [] => none
  | ':' :: ' ' :: rest => some rest
  | _ :: rest => afterTarget? rest

/-- Reads the beginning of an event: its level, and its text on the first line. -/
def beginning? (targeted : Bool) (line : List Char) : Option (Level × List Char) := do
  let (time, rest) ← Text.cutAtFirst ' ' line
  let (label, rest) ← Text.cutAtFirst ' ' (rest.dropWhile (· = ' '))
  let (_, rest) ← Text.cutAtFirst ' ' rest
  let level ← Level.ofLabel? label
  if endsInTime time then
    return (level, ← if targeted then afterTarget? rest else some rest)
  else none

/-- Reads a line. -/
def Line.read (targeted : Bool) (line : List Char) : Line :=
  match beginning? targeted line with
  | some (level, text) => ⟨some level, String.ofList text⟩
  | none => ⟨none, String.ofList line⟩

/-- The lines of a text.  The last one may lack its end. -/
def rawLines (text : List Char) : List (List Char) :=
  let all := Text.pieces (· = '\n') text
  all.dropLast.map (Text.dropTrailing '\r') ++
    (all.getLast?.toList.filter fun line => !line.isEmpty)

/-- Reads a log. -/
def readLines (targeted : Bool) (text : List Char) : List Line :=
  (rawLines text).map (Line.read targeted)

end SiteServer.Log
