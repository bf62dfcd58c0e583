import SiteServer.Text.Blank
import SiteServer.Text.Numeral

/-!
# The parts of patterns

The smallest parts of a pattern are characters, as they are or escaped, sets of
characters with a name, and places.  Where a part may stand depends on two flags:
whether blanks and comments are passed over, and whether the pattern is about
characters or about bytes.  A pattern about bytes must match nothing but text, so
it may only name ASCII; and the edges of words are known for ASCII alone.

Reading a part always takes something of the text (`length_escape?`), which is
what ends the loops of the readers above this one.
-/

namespace SiteServer.Log.Pattern

/-! ## Flags and blanks -/

/-- How a stretch of a pattern is read. -/
structure Mode where
  /-- Blanks and comments are passed over. -/
  spaced : Bool := false
  /-- Characters are meant, and not bytes. -/
  unicode : Bool := true
deriving DecidableEq, Repr

/-- The text without the blanks and comments that it starts with, if these are to
be passed over. -/
def Mode.skip (m : Mode) : List Char → List Char
  | [] => []
  | c :: rest =>
    if !m.spaced then c :: rest
    else if Text.isBlank c then m.skip rest
    else if c = '#' then m.skip (rest.dropWhile (· != '\n'))
    else c :: rest
termination_by text => text.length
decreasing_by
  · simp
  · exact Nat.lt_succ_of_le (List.dropWhile_sublist _).length_le

theorem length_skip (m : Mode) (text : List Char) : (m.skip text).length ≤ text.length := by
  fun_induction Mode.skip m text with
  | case1 => simp
  | case2 => simp
  | case3 c rest _ _ ih => simp only [List.length_cons]; omega
  | case4 rest _ _ ih =>
      have := (List.dropWhile_sublist (l := rest) (· != '\n')).length_le
      simp only [List.length_cons]
      omega
  | case5 => simp

/-- The letters of flags, and the hyphen before those that are cleared. -/
def flagLetters : List Char := ['i', 'm', 's', 'U', 'u', 'R', 'x', '-']

/-- Whether some characters name flags: each at most once, and with a flag after
the hyphen. -/
def areFlags (items : List Char) : Bool :=
  items.all flagLetters.contains && decide items.Nodup && items.getLast? != some '-'

/-- A flag after some items were read. -/
def setting (items : List Char) (flag : Char) (before : Bool) : Bool :=
  if (items.takeWhile (· != '-')).contains flag then true
  else if items.contains flag then false
  else before

/-- The mode after some flags. -/
def Mode.after (m : Mode) (items : List Char) : Mode where
  spaced := setting items 'x' m.spaced
  unicode := setting items 'u' m.unicode

/-! ## Depth -/

/-- The depth of parts that stand side by side, from their depths: a part alone is
as deep as it is, and several make one level more. -/
def sideBySide : List Nat → Nat
  | [] => 0
  | [depth] => depth
  | depths => depths.foldl max 0 + 1

/-! ## Atoms -/

/-- The smallest parts of a pattern. -/
inductive Atom where
  /-- A character, and whether it is written as the number of a byte. -/
  | char (c : Char) (byte : Bool)
  /-- A set of characters, and whether it is one of ASCII among bytes. -/
  | set (ascii : Bool)
  /-- The beginning or the end of the text. -/
  | edge
  /-- The beginning or the end of a word, or a place inside one. -/
  | wordEdge
deriving DecidableEq, Repr

/-- Whether an atom can stand by itself. -/
def Atom.fits (m : Mode) : Atom → Bool
  | char c byte => m.unicode || !byte || c.toNat < 0x80
  | set ascii => m.unicode || ascii
  | edge => true
  | wordEdge => !m.unicode

/-- Whether an atom can stand in a class. -/
def Atom.fitsClass (m : Mode) : Atom → Bool
  | char c _ => m.unicode || c.toNat < 0x80
  | set ascii => m.unicode || ascii
  | _ => false

/-- Whether two atoms are the ends of a range. -/
def Atom.isRange (m : Mode) (first last : Atom) : Bool :=
  match first, last with
  | char a _, char b _ => a ≤ b && first.fitsClass m && last.fitsClass m
  | _, _ => false

/-- Reads the digits of a number in hexadecimal. -/
def hexadecimal? (m : Mode) : (owed value : Nat) → List Char → Option (Nat × List Char)
  | 0, value, text => some (value, text)
  | owed + 1, value, text =>
    match m.skip text with
    | [] => none
    | c :: rest => (Text.hexValue? c).bind fun d => hexadecimal? m owed (value * 16 + d) rest

/-- Reads a character that is written as a number. -/
def numbered? (m : Mode) (count : Nat) (text : List Char) : Option (Atom × List Char) :=
  (hexadecimal? m count 0 text).bind fun (n, rest) =>
    if n.isValidChar then some (.char (Char.ofNat n) (count = 2), rest) else none

/-- The letters that name a general category. -/
def categories : List Char := ['c', 'l', 'm', 'n', 'p', 's', 'z']

/-- Reads the letter of a general category. -/
def category? (m : Mode) (text : List Char) : Option (Atom × List Char) :=
  match m.skip text with
  | [] => none
  | c :: rest => if categories.contains c.toLower then some (.set false, rest) else none

/-- The letters that stand for control characters. -/
def controls : List (Char × Char) :=
  [('a', '\x07'), ('f', '\x0c'), ('t', '\t'), ('n', '\n'), ('r', '\r'), ('v', '\x0b')]

/-- Reads what follows a backslash.  Every character of ASCII but a letter or a
digit may be escaped. -/
def escape? (m : Mode) : List Char → Option (Atom × List Char)
  | [] => none
  | c :: rest =>
    if c = 'x' then numbered? m 2 rest
    else if c = 'u' then numbered? m 4 rest
    else if c = 'U' then numbered? m 8 rest
    else if c = 'p' ∨ c = 'P' then category? m rest
    else if c = 'd' ∨ c = 's' ∨ c = 'w' then some (.set true, rest)
    else if c = 'D' ∨ c = 'S' ∨ c = 'W' then some (.set false, rest)
    else if c = 'A' ∨ c = 'z' then some (.edge, rest)
    else if c = 'b' ∨ c = 'B' ∨ c = '<' ∨ c = '>' then some (.wordEdge, rest)
    else if c.toNat < 0x80 && !c.isAlphanum then some (.char c false, rest)
    else (controls.lookup c).map fun control => (.char control false, rest)

theorem length_hexadecimal? {m : Mode} {owed value n : Nat} {text rest : List Char}
    (h : hexadecimal? m owed value text = some (n, rest)) : rest.length ≤ text.length := by
  induction owed generalizing value text with
  | zero =>
      obtain ⟨-, rfl⟩ : value = n ∧ text = rest := by simpa [hexadecimal?] using h
      exact Nat.le_refl _
  | succ owed ih =>
      simp only [hexadecimal?] at h
      have hskip := length_skip m text
      split at h
      · simp at h
      · next c more hc =>
          rw [hc, List.length_cons] at hskip
          obtain ⟨d, -, hd⟩ := Option.bind_eq_some_iff.1 h
          have := ih hd
          omega

theorem length_numbered? {m : Mode} {count : Nat} {text rest : List Char} {a : Atom}
    (h : numbered? m count text = some (a, rest)) : rest.length ≤ text.length := by
  obtain ⟨⟨n, more⟩, hn, hrest⟩ := Option.bind_eq_some_iff.1 h
  dsimp only at hrest
  split at hrest
  · obtain ⟨-, rfl⟩ := Prod.mk.inj (Option.some.inj hrest)
    exact length_hexadecimal? hn
  · simp at hrest

theorem length_category? {m : Mode} {text rest : List Char} {a : Atom}
    (h : category? m text = some (a, rest)) : rest.length ≤ text.length := by
  have hskip := length_skip m text
  unfold category? at h
  split at h
  · simp at h
  · next c more hc =>
      rw [hc, List.length_cons] at hskip
      split at h
      · obtain ⟨-, rfl⟩ := Prod.mk.inj (Option.some.inj h)
        omega
      · simp at h

theorem length_escape? {m : Mode} {text rest : List Char} {a : Atom}
    (h : escape? m text = some (a, rest)) : rest.length < text.length := by
  cases text with
  | nil => simp [escape?] at h
  | cons c more =>
      refine Nat.lt_succ_of_le ?_
      have hkept : ∀ {b : Atom}, some (b, more) = some (a, rest) → rest.length ≤ more.length :=
        fun hb => Nat.le_of_eq (congrArg _ (Prod.mk.inj (Option.some.inj hb)).2.symm)
      simp only [escape?] at h
      repeat' split at h
      · exact length_numbered? h
      · exact length_numbered? h
      · exact length_numbered? h
      · exact length_category? h
      · exact hkept h
      · exact hkept h
      · exact hkept h
      · exact hkept h
      · exact hkept h
      · obtain ⟨control, -, hcontrol⟩ := Option.map_eq_some_iff.1 h
        exact hkept (congrArg some hcontrol)

end SiteServer.Log.Pattern
