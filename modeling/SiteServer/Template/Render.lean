import SiteServer.Json.Value
import SiteServer.Template.Placeholder

/-!
# Rendering

A template is rendered with a JSON value: the segments of each key lead down
from the value to what stands for the placeholder.  Strings are written as they
are, null as nothing, and everything else as compact JSON.  All placeholders are
filled at once, so what a value contains is never read as a template.

The first placeholder without a value makes the whole rendering fail.
-/

namespace SiteServer.Template

/-- The text that a value stands for in a page. -/
def textOf : Json → List Char
  | .string s => s.toList
  | .null => []
  | value => value.write

/-- What a key stands for. -/
def resolve? (data : Json) (key : List Char) : Option (List Char) :=
  (data.descend? (segments key)).map textOf

/-- Fills the placeholders; the error is the key of the first that has no
value. -/
def fill (data : Json) : List Part → Except (List Char) (List Char)
  | [] => .ok []
  | .char c :: rest => (fill data rest).map (c :: ·)
  | .hole key :: rest =>
    match resolve? data key with
    | some text => (fill data rest).map (text ++ ·)
    | none => .error key

/-- Renders a template. -/
def render (source : List Char) (data : Json) : Except (List Char) (List Char) :=
  fill data (parts source)

end SiteServer.Template
