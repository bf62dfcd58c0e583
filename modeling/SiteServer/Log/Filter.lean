import SiteServer.Log.Event
import SiteServer.Log.Pattern
import SiteServer.Text.Utf8

/-!
# Filters

A filter decides which events are written.  It is a list of directives, each of
which sets the least severity for the events whose target starts with a given
text, and optionally only for events with certain fields.  Of the directives
that apply to an event the most specific one decides: the one with the longest
target, then the one with more fields, then the one whose fields have the later
names.  An event to which none applies is not written.

Directives are written with commas between them, each as a level, as a target or
as `target=level`; a target may be followed by a span in brackets, which can
name fields in braces.  Directives about spans never decide about an event that
is outside all spans, and the server has none.
-/

namespace SiteServer.Log

/-- The least severity that is let through; `none` lets nothing through. -/
abbrev Threshold := Option Level

namespace Threshold

/-- Whether a level is severe enough. -/
def allows : Threshold → Level → Bool
  | none, _ => false
  | some least, level => least.severity ≤ level.severity

/-- The threshold that a number stands for. -/
def ofNumber? : Nat → Option Threshold
  | 0 => some none
  | 1 => some (some .error)
  | 2 => some (some .warn)
  | 3 => some (some .info)
  | 4 => some (some .debug)
  | 5 => some (some .trace)
  | _ => none

/-- The thresholds by name. -/
def names : List (String × Threshold) :=
  [("off", none), ("error", some .error), ("warn", some .warn), ("info", some .info),
   ("debug", some .debug), ("trace", some .trace)]

/-- Reads a threshold: a number, or a name in any case. -/
def parse? (text : List Char) : Option Threshold :=
  match (Text.natural? text).bind ofNumber? with
  | some t => some t
  | none => (names.find? fun (name, _) => name.toList = Text.fold text).map (·.2)

end Threshold

/-- One directive of a filter. -/
structure Directive where
  target : Option String := none
  /-- The span that the directive is about. -/
  span : Option String := none
  /-- The fields that must be there, and whether a value is demanded of them. -/
  fields : List (String × Bool) := []
  threshold : Threshold := some .trace
deriving Repr

namespace Directive

/-- Whether the directive can decide about events outside all spans. -/
def isStatic (d : Directive) : Bool :=
  d.span.isNone && d.fields.all (!·.2)

/-- Whether the directive has something to say about spans. -/
def isDynamic (d : Directive) : Bool :=
  d.span.isSome || !d.fields.isEmpty

/-- Characters that a target can start with: letters and numbers of any script,
hyphens, colons and underscores. -/
def startsTarget (c : Char) : Bool :=
  Text.isLetter c || Text.isNumber c || c = '-' || c = ':' || c = '_'

/-- A directive that is being read.  The blanks around it are left out to find
where its parts begin and end, but the places are then taken in the text with
them; so a part is only what it seems to be where there are no blanks before it,
and none at the end of the last one. -/
structure Source where
  whole : List Char
  /-- The text without the blanks around it. -/
  inner : List Char

namespace Source

/-- The place at which some text begins that ends what is being read. -/
def place (s : Source) (rest : List Char) : Nat :=
  (Text.Utf8.encode s.inner).length - (Text.Utf8.encode rest).length

/-- The part from one place to another, if it is text. -/
def between? (s : Source) (first last : List Char) : Option (List Char) :=
  Text.Utf8.decode? (((Text.Utf8.encode s.whole).take (s.place last)).drop (s.place first))

/-- The part from a place to the end, if it is text. -/
def tail? (s : Source) (first : List Char) : Option (List Char) :=
  Text.Utf8.decode? ((Text.Utf8.encode s.whole).drop (s.place first))

end Source

/-- Reads a field: its name, and what is demanded of its value, up to a second
equals sign. -/
def field? (text : List Char) : Option (String × Bool) :=
  match Text.pieces (· = '=') text with
  | name :: demand :: _ =>
    if Pattern.isDemand demand then some (String.ofList name, true) else none
  | _ => some (String.ofList text, false)

/-- Completes a directive by what follows its target and span: nothing, or an
equals sign and a level.  An empty level lets everything through. -/
def withLevel? (d : Directive) (s : Source) : List Char → Option Directive
  | [] => some d
  | '=' :: level => do
    match ← s.tail? level with
    | [] => some { d with threshold := some .trace }
    | text => (Threshold.parse? text).map fun threshold => { d with threshold }
  | _ => none

/-- Completes a directive by a span, after the opening bracket. -/
def withSpan? (d : Directive) (s : Source) (text : List Char) : Option Directive :=
  let name := text.takeWhile fun c => c != ']' && c != '\x7b'
  let rest := text.drop name.length
  match rest with
  | ']' :: more => do
    withLevel? { d with span := some (String.ofList (← s.between? text rest)) } s more
  | '\x7b' :: more => do
    let span ← s.between? text rest
    let d := if span = [] then d else { d with span := some (String.ofList span) }
    let field := more.takeWhile (· != '\x7d')
    match field, more.drop field.length with
    | [], _ => none
    | _, '\x7d' :: ']' :: rest =>
      let field ← field? (← s.between? more ('\x7d' :: ']' :: rest))
      withLevel? { d with fields := [field] } s rest
    | _, _ => none
  | _ => none

/-- Reads a directive. -/
def parse? (text : List Char) : Option Directive :=
  let inner := Text.trim text
  let s : Source := ⟨text, inner⟩
  match inner with
  | [] => none
  | '[' :: rest => withSpan? {} s rest
  | c :: _ =>
    if !startsTarget c then none
    else
      let rest := inner.dropWhile fun c => c != '=' && c != '['
      match rest with
      | [] =>
        match Threshold.parse? text with
        | some threshold => some { threshold }
        | none => some { target := some (String.ofList text) }
      | '[' :: more => do
        withSpan? { target := some (String.ofList (← s.between? inner rest)) } s more
      | _ => do
        withLevel? { target := some (String.ofList (← s.between? inner rest)) } s rest

/-- Whether a directive is about an event with this target. -/
def appliesTo (d : Directive) (target : String) (e : Event) : Bool :=
  (match d.target with
    | none => true
    | some start => start.toList.isPrefixOf target.toList) &&
  d.fields.all fun (name, _) => name = "message" || e.fields.any (·.1 = name)

/-- How specific a directive is: the length of its target, if it has one, then
the number of its fields. -/
def rank (d : Directive) : Nat × Nat :=
  (match d.target with
    | none => 0
    | some t => t.utf8ByteSize + 1,
   d.fields.length)

/-- Whether the first directive gives way to the second, which is given later. -/
def yieldsTo (d later : Directive) : Bool :=
  d.rank.1 < later.rank.1 || (d.rank.1 = later.rank.1 &&
    (d.rank.2 < later.rank.2 || (d.rank.2 = later.rank.2 &&
      !decide (later.fields.map (·.1) < d.fields.map (·.1)))))

end Directive

/-- A filter: the directives that decide about events. -/
structure Filter where
  directives : List Directive

namespace Filter

/-- The filter of some directives. -/
def ofDirectives (ds : List Directive) : Filter :=
  ⟨ds.filter (!·.isDynamic) ++ ds.filter fun d => d.isDynamic && d.isStatic⟩

/-- Reads a filter; empty parts between commas are passed over. -/
def parse? (text : List Char) : Option Filter :=
  (((Text.pieces (· = ',') text).filter (!·.isEmpty)).mapM Directive.parse?).map ofDirectives

/-- The directive that decides about an event. -/
def deciding? (f : Filter) (target : String) (e : Event) : Option Directive :=
  (f.directives.filter (·.appliesTo target e)).foldl
    (fun best d =>
      match best with
      | none => some d
      | some b => if b.yieldsTo d then some d else some b)
    none

/-- Whether an event is let through. -/
def enables (f : Filter) (target : String) (e : Event) : Bool :=
  match f.deciding? target e with
  | some d => d.threshold.allows e.level
  | none => false

end Filter

end SiteServer.Log
