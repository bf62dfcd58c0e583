import SiteServer.Log.Pattern.Class
import SiteServer.Text.Alphabet
import SiteServer.Text.Case

/-!
# Patterns

A filter may demand that the value of a field be a number or match a pattern,
which is a regular expression; and a filter with a pattern that cannot be used is
no filter at all.  Values are only looked at inside spans, of which the server has
none, so this module says which patterns can be used and not what they match.

A pattern is read from left to right.  A group ends the reach of the flags that
are set inside it, and a repetition needs something to repeat.  The parts of a
pattern may be nested `depthLimit` levels deep; parts that follow one another,
alternatives, groups, repetitions and classes all count.  Counted
repetitions, named properties and numbers in braces all need a closing brace, and
such a brace ends the field that the pattern belongs to; so here they are never
complete.
-/

namespace SiteServer.Log.Pattern

/-- How deep a pattern may be. -/
def depthLimit : Nat := 250

/-- A part of a pattern. -/
inductive Part where
  /-- Flags that are set from here on. -/
  | flags
  /-- Something that can be repeated. -/
  | item (depth : Nat)
deriving DecidableEq, Repr

/-- The depth of a part. -/
def Part.depth : Part → Nat
  | flags => 0
  | item depth => depth

/-- The content of a group, or of the whole pattern, so far. -/
structure Content where
  /-- The depths of the alternatives that are complete. -/
  alternatives : List Nat := []
  /-- The parts of the alternative that is being read, the last first. -/
  parts : List Part := []
deriving DecidableEq, Repr

namespace Content

/-- The content with one more part. -/
def add (content : Content) (part : Part) : Content :=
  { content with parts := part :: content.parts }

/-- The depth of the alternative that is being read. -/
def lastDepth (content : Content) : Nat :=
  sideBySide (content.parts.map Part.depth)

/-- The content with its last alternative complete. -/
def alternate (content : Content) : Content :=
  ⟨content.lastDepth :: content.alternatives, []⟩

/-- The depth of the content. -/
def depth (content : Content) : Nat :=
  sideBySide (content.lastDepth :: content.alternatives)

/-- The content with its last part repeated. -/
def repeat? (content : Content) : Option Content :=
  match content.parts with
  | .item depth :: parts => some { content with parts := .item (depth + 1) :: parts }
  | _ => none

end Content

/-- What was read of a pattern. -/
structure Reader where
  mode : Mode := {}
  content : Content := {}
  /-- The modes and contents outside the groups that are open, the innermost
  first. -/
  groups : List (Mode × Content) := []
  /-- The names of groups so far. -/
  names : List (List Char) := []

/-- Whether a name can be given to a group. -/
def isGroupName : List Char → Bool
  | [] => false
  | c :: rest => (c = '_' || Text.isLetter c) && rest.all fun c =>
    c = '_' || c = '.' || c = '[' || c = ']' || Text.isLetter c || Text.isNumber c

namespace Reader

/-- Opens a group with a mode of its own. -/
def enter (r : Reader) (mode : Mode) : Reader :=
  { r with mode, content := {}, groups := (r.mode, r.content) :: r.groups }

/-- Adds a part. -/
def add (r : Reader) (part : Part) : Reader :=
  { r with content := r.content.add part }

/-- Opens a group with a name, which no other group may have. -/
def named? (r : Reader) (text : List Char) : Option (Reader × List Char) :=
  let name := text.takeWhile (· != '>')
  match text.dropWhile (· != '>') with
  | '>' :: rest =>
    if isGroupName name && !r.names.contains name then
      some ({ r.enter r.mode with names := name :: r.names }, rest)
    else none
  | _ => none

/-- Sets flags, for a group that they open or for the rest of the group that they
stand in. -/
def flagged? (r : Reader) (text : List Char) : Option (Reader × List Char) :=
  let items := text.takeWhile fun c => c != ':' && c != ')'
  match text.dropWhile fun c => c != ':' && c != ')' with
  | ':' :: rest =>
    if areFlags items then some (r.enter (r.mode.after items), rest) else none
  | ')' :: rest =>
    if areFlags items && !items.isEmpty then
      some ({ r.add .flags with mode := r.mode.after items }, rest)
    else none
  | _ => none

/-- Takes what follows an opening parenthesis. -/
def openGroup? (r : Reader) (text : List Char) : Option (Reader × List Char) :=
  match r.mode.skip text with
  | '?' :: 'P' :: '<' :: rest => r.named? rest
  | '?' :: '<' :: rest => r.named? rest
  | '?' :: rest => r.flagged? rest
  | rest => some (r.enter r.mode, rest)

/-- Repeats the last part.  A question mark right behind the sign of a repetition
belongs to it. -/
def repeat? (r : Reader) (rest : List Char) : Option (Reader × List Char) :=
  r.content.repeat?.map fun content =>
    ({ r with content }, if rest.head? = some '?' then rest.drop 1 else rest)

/-- Takes one part of a pattern, with what it needs of the text after it. -/
def step (r : Reader) (c : Char) (rest : List Char) : Option (Reader × List Char) :=
  if c = '(' then r.openGroup? rest
  else if c = ')' then
    match r.groups with
    | [] => none
    | (mode, content) :: groups =>
      some ({ r with mode, content := content.add (.item (r.content.depth + 1)), groups }, rest)
  else if c = '|' then some ({ r with content := r.content.alternate }, rest)
  else if c = '[' then
    (class? r.mode rest).map fun (depth, rest) => (r.add (.item depth), rest)
  else if c = '*' ∨ c = '+' ∨ c = '?' then r.repeat? rest
  else if c = '\x7b' then none
  else if c = '\\' then
    (escape? r.mode rest).bind fun part =>
      if part.1.fits r.mode then some (r.add (.item 0), part.2) else none
  else if c = '.' then if r.mode.unicode then some (r.add (.item 0), rest) else none
  else some (r.add (.item 0), rest)

theorem length_named? {r after : Reader} {text rest : List Char}
    (h : r.named? text = some (after, rest)) : rest.length ≤ text.length := by
  have hdrop := (List.dropWhile_sublist (l := text) (· != '>')).length_le
  unfold named? at h
  split at h
  · next more hmore =>
      rw [hmore, List.length_cons] at hdrop
      dsimp only at h
      split at h
      · obtain ⟨-, rfl⟩ := Prod.mk.inj (Option.some.inj h)
        omega
      · simp at h
  · simp at h

theorem length_flagged? {r after : Reader} {text rest : List Char}
    (h : r.flagged? text = some (after, rest)) : rest.length ≤ text.length := by
  have hdrop :=
    (List.dropWhile_sublist (l := text) fun c => c != ':' && c != ')').length_le
  unfold flagged? at h
  split at h
  · next more hmore =>
      rw [hmore, List.length_cons] at hdrop
      dsimp only at h
      split at h
      · obtain ⟨-, rfl⟩ := Prod.mk.inj (Option.some.inj h)
        omega
      · simp at h
  · next more hmore =>
      rw [hmore, List.length_cons] at hdrop
      dsimp only at h
      split at h
      · obtain ⟨-, rfl⟩ := Prod.mk.inj (Option.some.inj h)
        omega
      · simp at h
  · simp at h

theorem length_openGroup? {r after : Reader} {text rest : List Char}
    (h : r.openGroup? text = some (after, rest)) : rest.length ≤ text.length := by
  have hskip := length_skip r.mode text
  unfold openGroup? at h
  split at h
  · next more hmore =>
      have := length_named? h
      simp only [hmore, List.length_cons] at hskip
      omega
  · next more hmore =>
      have := length_named? h
      simp only [hmore, List.length_cons] at hskip
      omega
  · next more _ _ hmore =>
      have := length_flagged? h
      simp only [hmore, List.length_cons] at hskip
      omega
  · obtain ⟨-, rfl⟩ := Prod.mk.inj (Option.some.inj h)
    exact hskip

theorem length_repeat? {r after : Reader} {text rest : List Char}
    (h : r.repeat? text = some (after, rest)) : rest.length ≤ text.length := by
  obtain ⟨content, -, hrest⟩ := Option.map_eq_some_iff.1 h
  obtain ⟨-, rfl⟩ := Prod.mk.inj hrest
  split
  · simp
  · exact Nat.le_refl _

theorem length_step {r after : Reader} {c : Char} {text rest : List Char}
    (h : r.step c text = some (after, rest)) : rest.length ≤ text.length := by
  have hkept : ∀ {b : Reader}, some (b, text) = some (after, rest) →
      rest.length ≤ text.length :=
    fun hb => Nat.le_of_eq (congrArg _ (Prod.mk.inj (Option.some.inj hb)).2.symm)
  simp only [step] at h
  repeat' split at h
  · exact length_openGroup? h
  · simp at h
  · exact hkept h
  · exact hkept h
  · obtain ⟨⟨depth, more⟩, hmore, hrest⟩ := Option.map_eq_some_iff.1 h
    obtain ⟨-, rfl⟩ := Prod.mk.inj hrest
    exact length_class? hmore
  · exact length_repeat? h
  · simp at h
  · obtain ⟨⟨a, more⟩, hmore, hrest⟩ := Option.bind_eq_some_iff.1 h
    have hlen := length_escape? hmore
    split at hrest
    · obtain ⟨-, rfl⟩ := Prod.mk.inj (Option.some.inj hrest)
      exact Nat.le_of_lt hlen
    · simp at hrest
  · exact hkept h
  · simp at h
  · exact hkept h

/-- Whether the rest of a pattern completes what was read of it. -/
def accepts (r : Reader) (text : List Char) : Bool :=
  match _hskip : r.mode.skip text with
  | [] => r.groups.isEmpty && r.content.depth ≤ depthLimit
  | c :: rest =>
    match _hstep : r.step c rest with
    | none => false
    | some (after, rest) => after.accepts rest
termination_by text.length
decreasing_by
  have := length_skip r.mode text
  have := length_step _hstep
  simp only [_hskip, List.length_cons] at *
  omega

end Reader

/-- Whether a pattern can be used. -/
def isUsable (text : List Char) : Bool :=
  ({} : Reader).accepts text

/-! ## Numbers -/

/-- Whether a text is nothing or an exponent. -/
def isExponent : List Char → Bool
  | [] => true
  | c :: rest => (c = 'e' || c = 'E') && (Text.integer? rest).isSome

/-- Whether a text is a number without a sign: digits, around which there may be a
point, and an exponent; or the name of a number that has no digits. -/
def isMagnitude (text : List Char) : Bool :=
  let whole := text.takeWhile Char.isDigit
  let rest := text.dropWhile Char.isDigit
  let (fraction, rest) :=
    match rest with
    | '.' :: rest => (rest.takeWhile Char.isDigit, rest.dropWhile Char.isDigit)
    | rest => ([], rest)
  (!(whole.isEmpty && fraction.isEmpty) && isExponent rest) ||
    ["inf", "infinity", "nan"].contains (String.ofList (Text.fold text))

/-- Whether a demand on a value can be used.  A number with a plus sign is the only
one that is no pattern. -/
def isDemand (text : List Char) : Bool :=
  match text with
  | '+' :: rest => isMagnitude rest
  | text => isUsable text

end SiteServer.Log.Pattern
