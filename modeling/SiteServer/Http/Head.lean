import SiteServer.Text.Utf8

/-!
# Head and body

A message is a head, an empty line and a body.  The head ends where the bytes
CR LF CR LF stand for the first time; a buffer without them is all head.

The place of the terminator does not move when more bytes arrive after it
(`findTerminator_append`), which is what lets a reader look for it again after
every read.
-/

namespace SiteServer.Http

/-- The bytes that end a head: the end of its last line and an empty line. -/
def terminator : Bytes := [13, 10, 13, 10]

/-- The position of the first terminator. -/
def findTerminator : Bytes → Option Nat
  | [] => none
  | b :: rest =>
    if terminator.isPrefixOf (b :: rest) then some 0
    else (findTerminator rest).map (· + 1)

/-- The bytes before the first terminator and the bytes after it; without a
terminator everything is head. -/
def splitHead (buffer : Bytes) : Bytes × Bytes :=
  match findTerminator buffer with
  | some i => (buffer.take i, buffer.drop (i + terminator.length))
  | none => (buffer, [])

/-- The terminator stands where it was found. -/
theorem terminator_prefix_drop {buffer : Bytes} {i : Nat} (h : findTerminator buffer = some i) :
    terminator <+: buffer.drop i := by
  induction buffer generalizing i with
  | nil => simp [findTerminator] at h
  | cons b rest ih =>
      simp only [findTerminator] at h
      split at h
      · next hp =>
          obtain rfl : 0 = i := by simpa using h
          simpa using List.isPrefixOf_iff_prefix.1 hp
      · obtain ⟨j, hj, rfl⟩ := Option.map_eq_some_iff.1 h
        simpa using ih hj

/-- Cutting at the terminator loses nothing but the terminator. -/
theorem splitHead_append {buffer : Bytes} {i : Nat} (h : findTerminator buffer = some i) :
    (splitHead buffer).1 ++ terminator ++ (splitHead buffer).2 = buffer := by
  obtain ⟨rest, hrest⟩ := terminator_prefix_drop h
  have hdrop : buffer.drop (i + terminator.length) = rest := by
    rw [← List.drop_drop, ← hrest, List.drop_left]
  simp only [splitHead, h, hdrop, List.append_assoc, hrest, List.take_append_drop]

/-- A terminator that was found stays where it is when bytes are appended. -/
theorem findTerminator_append {buffer : Bytes} {i : Nat} (h : findTerminator buffer = some i)
    (more : Bytes) : findTerminator (buffer ++ more) = some i := by
  induction buffer generalizing i with
  | nil => simp [findTerminator] at h
  | cons b rest ih =>
      simp only [findTerminator] at h
      split at h
      · next hp =>
          have hp' : terminator.isPrefixOf (b :: rest ++ more) = true :=
            List.isPrefixOf_iff_prefix.2
              ((List.isPrefixOf_iff_prefix.1 hp).trans (List.prefix_append _ _))
          simp only [List.cons_append] at hp'
          simpa [findTerminator, hp'] using h
      · next hp =>
          obtain ⟨j, hj, rfl⟩ := Option.map_eq_some_iff.1 h
          have hlong : terminator.length ≤ (b :: rest).length := by
            have := (terminator_prefix_drop hj).length_le
            simp only [List.length_drop, List.length_cons] at this ⊢
            omega
          have hp' : terminator.isPrefixOf (b :: rest ++ more) = false := by
            rw [Bool.eq_false_iff]
            intro hpre
            apply hp
            rw [List.isPrefixOf_iff_prefix] at hpre ⊢
            exact List.prefix_of_prefix_length_le hpre (List.prefix_append _ _) hlong
          simp only [List.cons_append] at hp'
          simp [findTerminator, hp', ih hj]

end SiteServer.Http
