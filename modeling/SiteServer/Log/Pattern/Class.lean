import SiteServer.Log.Pattern.Atom

/-!
# Classes in patterns

A class stands between brackets.  Its members are characters, ranges, named sets
and further classes; a caret in front excludes them, and two of the same sign
between them combine what is on either side.  A closing bracket or hyphens right
at the beginning are members, and so is a hyphen that makes no range.

A class about bytes holds ASCII, so it excludes nothing.  What a class is read for
besides its end is its depth: each bracket is a level, and so is each operator, and
the union of several members.
-/

namespace SiteServer.Log.Pattern

/-- The names of the classes of ASCII. -/
def asciiClasses : List String :=
  ["alnum", "alpha", "ascii", "blank", "cntrl", "digit", "graph", "lower", "print", "punct",
   "space", "upper", "word", "xdigit"]

/-- Reads the name of a class of ASCII, up to its closing bracket. -/
def asciiName? (text : List Char) : Option (List Char) :=
  match text.dropWhile (· != ':') with
  | ':' :: ']' :: rest =>
    if asciiClasses.contains (String.ofList (text.takeWhile (· != ':'))) then some rest else none
  | _ => none

/-- Reads a class of ASCII after its bracket: whether it excludes what it names,
and what follows it. -/
def asciiClass? : List Char → Option (Bool × List Char)
  | ':' :: '^' :: text => (asciiName? text).map (true, ·)
  | ':' :: text => (asciiName? text).map (false, ·)
  | _ => none

/-- A class that is open: the depths of its members since the last operator, and
the depth of all that the operator is applied to. -/
structure Partial where
  members : List Nat := []
  left : Option Nat := none
deriving DecidableEq, Repr

namespace Partial

/-- The depth of what was read of a class. -/
def depth (p : Partial) : Nat :=
  match p.left with
  | none => sideBySide p.members
  | some left => max left (sideBySide p.members) + 1

/-- A class with one more member. -/
def add (p : Partial) (depth : Nat) : Partial :=
  { p with members := depth :: p.members }

/-- A class after an operator. -/
def operated (p : Partial) : Partial := ⟨[], some p.depth⟩

end Partial

/-- Takes the hyphens that a text starts with as members. -/
def Mode.hyphens (m : Mode) (p : Partial) : List Char → Partial × List Char
  | '-' :: rest => m.hyphens (p.add 0) (m.skip rest)
  | text => (p, text)
termination_by text => text.length
decreasing_by exact Nat.lt_succ_of_le (length_skip ..)

/-- Reads the beginning of a class, after its bracket: a closing bracket or hyphens
that come first are members of the class. -/
def openClass? (m : Mode) (text : List Char) : Option (Partial × List Char) :=
  match m.skip text with
  | '^' :: rest => if m.unicode then some (members (m.skip rest)) else none
  | text => some (members text)
where
  members : List Char → Partial × List Char
    | ']' :: rest => (({} : Partial).add 0, rest)
    | text => m.hyphens {} text

/-- Reads one end of a range, or a member of a class. -/
def item? (m : Mode) (c : Char) (rest : List Char) : Option (Atom × List Char) :=
  if c = '\\' then escape? m rest else some (.char c false, rest)

/-- Looks for the character that decides whether a hyphen makes a range.  The blanks
after the hyphen and the sign of one comment are passed over, but not what the
comment says. -/
def Mode.peek (m : Mode) (text : List Char) : Option Char :=
  if !m.spaced then text.head?
  else
    match text.dropWhile Text.isBlank with
    | '#' :: comment => (comment.dropWhile Text.isBlank).head?
    | rest => rest.head?

/-- Reads a member of a class or a range.  A hyphen in front of another one, or of
the closing bracket, makes no range. -/
def member? (m : Mode) (c : Char) (rest : List Char) : Option (List Char) :=
  (item? m c rest).bind fun (first, rest) =>
    let alone := if first.fitsClass m then some rest else none
    match m.skip rest with
    | '-' :: more =>
      if m.peek more = some ']' ∨ m.peek more = some '-' then alone
      else
        match m.skip more with
        | [] => none
        | d :: more =>
          (item? m d more).bind fun (last, rest) =>
            if first.isRange m last then some rest else none
    | _ => alone

/-- Whether a character, written twice, combines two sets. -/
def isOperator (c : Char) : Bool :=
  c = '&' || c = '-' || c = '~'

/-- Where a reader of a class stands. -/
inductive Progress where
  /-- Inside a class, which others are around, the innermost first. -/
  | inside (p : Partial) (around : List Partial)
  | closed (depth : Nat)
deriving DecidableEq, Repr

/-- The effect of a closing bracket. -/
def Progress.close (p : Partial) : List Partial → Progress
  | [] => .closed (p.depth + 1)
  | outer :: around => .inside (outer.add (p.depth + 1)) around

/-- One step inside a class, and what is left of the text. -/
def classStep (m : Mode) (p : Partial) (around : List Partial) (c : Char)
    (rest : List Char) : Option (Progress × List Char) :=
  if c = '[' then
    match asciiClass? rest with
    | some (negated, rest) =>
      if negated && !m.unicode then none else some (.inside (p.add 0) around, rest)
    | none => (openClass? m rest).map fun (inner, rest) => (.inside inner (p :: around), rest)
  else if c = ']' then some (.close p around, rest)
  else if isOperator c && rest.head? = some c then
    some (.inside p.operated around, rest.drop 1)
  else (member? m c rest).map fun rest => (.inside (p.add 0) around, rest)

theorem length_hyphens (m : Mode) (p : Partial) (text : List Char) :
    (m.hyphens p text).2.length ≤ text.length := by
  fun_induction Mode.hyphens m p text with
  | case1 p rest ih =>
      have := length_skip m rest
      simp only [List.length_cons]
      omega
  | case2 => exact Nat.le_refl _

theorem length_asciiName? {text rest : List Char} (h : asciiName? text = some rest) :
    rest.length ≤ text.length := by
  have hdrop := (List.dropWhile_sublist (l := text) (· != ':')).length_le
  unfold asciiName? at h
  split at h
  · next more hmore =>
      rw [hmore] at hdrop
      split at h
      · obtain rfl := Option.some.inj h
        simp only [List.length_cons] at hdrop
        omega
      · simp at h
  · simp at h

theorem length_asciiClass? {text rest : List Char} {negated : Bool}
    (h : asciiClass? text = some (negated, rest)) : rest.length ≤ text.length := by
  unfold asciiClass? at h
  split at h
  · obtain ⟨more, hmore, hrest⟩ := Option.map_eq_some_iff.1 h
    obtain ⟨-, rfl⟩ := Prod.mk.inj hrest
    have := length_asciiName? hmore
    simp only [List.length_cons]
    omega
  · obtain ⟨more, hmore, hrest⟩ := Option.map_eq_some_iff.1 h
    obtain ⟨-, rfl⟩ := Prod.mk.inj hrest
    have := length_asciiName? hmore
    simp only [List.length_cons]
    omega
  · simp at h

theorem length_members (m : Mode) (text : List Char) :
    (openClass?.members m text).2.length ≤ text.length := by
  unfold openClass?.members
  split
  · simp
  · exact length_hyphens ..

theorem length_openClass? {m : Mode} {text rest : List Char} {p : Partial}
    (h : openClass? m text = some (p, rest)) : rest.length ≤ text.length := by
  have hskip := length_skip m text
  unfold openClass? at h
  split at h
  · next more hmore =>
      split at h
      · have hmem := length_members m (m.skip more)
        have := length_skip m more
        rw [Option.some.inj h] at hmem
        rw [hmore, List.length_cons] at hskip
        dsimp only at hmem
        omega
      · simp at h
  · have hmem := length_members m (m.skip text)
    rw [Option.some.inj h] at hmem
    exact Nat.le_trans hmem hskip

theorem length_item? {m : Mode} {c : Char} {text rest : List Char} {a : Atom}
    (h : item? m c text = some (a, rest)) : rest.length ≤ text.length := by
  unfold item? at h
  split at h
  · exact Nat.le_of_lt (length_escape? h)
  · obtain ⟨-, rfl⟩ := Prod.mk.inj (Option.some.inj h)
    exact Nat.le_refl _

theorem length_member? {m : Mode} {c : Char} {text rest : List Char}
    (h : member? m c text = some rest) : rest.length ≤ text.length := by
  obtain ⟨⟨first, more⟩, hfirst, h⟩ := Option.bind_eq_some_iff.1 h
  have hitem := length_item? hfirst
  have hskip := length_skip m more
  have halone : ∀ {r}, (if first.fitsClass m then some more else none) = some r →
      r.length ≤ text.length := by
    intro r hr
    split at hr
    · obtain rfl := Option.some.inj hr
      exact hitem
    · simp at hr
  dsimp only at h
  split at h
  · next after hafter =>
      have hskip' := length_skip m after
      rw [hafter, List.length_cons] at hskip
      split at h
      · exact halone h
      · split at h
        · simp at h
        · next d after' hd =>
            rw [hd, List.length_cons] at hskip'
            obtain ⟨⟨last, more'⟩, hlast, h⟩ := Option.bind_eq_some_iff.1 h
            have := length_item? hlast
            dsimp only at h
            split at h
            · obtain rfl := Option.some.inj h
              omega
            · simp at h
  · exact halone h

theorem length_classStep {m : Mode} {p : Partial} {around : List Partial} {c : Char}
    {text rest : List Char} {after : Progress}
    (h : classStep m p around c text = some (after, rest)) : rest.length ≤ text.length := by
  unfold classStep at h
  split at h
  · split at h
    · next hclass =>
        split at h
        · simp at h
        · obtain ⟨-, rfl⟩ := Prod.mk.inj (Option.some.inj h)
          exact length_asciiClass? hclass
    · obtain ⟨⟨inner, more⟩, hmore, hrest⟩ := Option.map_eq_some_iff.1 h
      obtain ⟨-, rfl⟩ := Prod.mk.inj hrest
      exact length_openClass? hmore
  · split at h
    · obtain ⟨-, rfl⟩ := Prod.mk.inj (Option.some.inj h)
      exact Nat.le_refl _
    · split at h
      · obtain ⟨-, rfl⟩ := Prod.mk.inj (Option.some.inj h)
        simp
      · obtain ⟨more, hmore, hrest⟩ := Option.map_eq_some_iff.1 h
        obtain ⟨-, rfl⟩ := Prod.mk.inj hrest
        exact length_member? hmore

/-- Reads the rest of a class: its depth, and what follows it. -/
def classFrom? (m : Mode) (p : Partial) (around : List Partial) (text : List Char) :
    Option (Nat × List Char) :=
  match _hskip : m.skip text with
  | [] => none
  | c :: rest =>
    match _hstep : classStep m p around c rest with
    | none => none
    | some (.closed depth, rest) => some (depth, rest)
    | some (.inside p around, rest) => classFrom? m p around rest
termination_by text.length
decreasing_by
  have := length_skip m text
  have := length_classStep _hstep
  simp only [_hskip, List.length_cons] at *
  omega

/-- Reads a class after its bracket. -/
def class? (m : Mode) (text : List Char) : Option (Nat × List Char) :=
  (openClass? m text).bind fun (p, rest) => classFrom? m p [] rest

theorem length_classFrom? {m : Mode} {p : Partial} {around : List Partial}
    {text rest : List Char} {depth : Nat} (h : classFrom? m p around text = some (depth, rest)) :
    rest.length ≤ text.length := by
  fun_induction classFrom? m p around text with
  | case1 => simp at h
  | case2 => simp at h
  | case3 p around text c more hskip final more' hstep =>
      obtain ⟨-, rfl⟩ := Prod.mk.inj (Option.some.inj h)
      have := length_skip m text
      have := length_classStep hstep
      simp only [hskip, List.length_cons] at *
      omega
  | case4 p around text c more hskip p' around' more' hstep ih =>
      have := length_skip m text
      have := length_classStep hstep
      have := ih h
      simp only [hskip, List.length_cons] at *
      omega

theorem length_class? {m : Mode} {text rest : List Char} {depth : Nat}
    (h : class? m text = some (depth, rest)) : rest.length ≤ text.length := by
  obtain ⟨⟨p, more⟩, hmore, hrest⟩ := Option.bind_eq_some_iff.1 h
  exact Nat.le_trans (length_classFrom? hrest) (length_openClass? hmore)

end SiteServer.Log.Pattern
