import SiteServer.Text.Cut
import SiteServer.Text.Utf8

/-!
# Cutting before decoding

An ASCII byte stands for itself wherever it comes in a text.  No character of
several bytes contains one, and a sequence that one interrupts is replaced
before the byte is read.  A text can therefore be cut at such a byte first and
decoded piece by piece, or decoded first and cut at the character: the pieces
are the same (`breakAt_decodeLossy`), also where they are not valid UTF-8.

NUL is left out, because it is the character that stands for no number.
-/

namespace SiteServer.Text

namespace Utf8

/-! ## Characters that are owed -/

/-- What is known of a character that is not complete: its next byte is no ASCII
byte, and the whole of it will be no ASCII character. -/
def Pending.Sound (p : Pending) : Prop :=
  0x80 ≤ p.low.toNat ∧ (2 ≤ p.value ∨ 2 ≤ p.owed ∧ (1 ≤ p.value ∨ 0x90 ≤ p.low.toNat))

instance (p : Pending) : Decidable p.Sound :=
  inferInstanceAs (Decidable (_ ∧ _))

/-- What is known of the effect of a byte that may be the first of a character. -/
def Step.Leads (b : UInt8) : Step → Prop
  | .char c => b.toNat < 0x80 ∧ c = Char.ofNat b.toNat
  | .more p => 0x80 ≤ b.toNat ∧ p.Sound
  | .refused => 0x80 ≤ b.toNat

instance (b : UInt8) : (step : Step) → Decidable (step.Leads b)
  | .char c => inferInstanceAs (Decidable (b.toNat < 0x80 ∧ c = Char.ofNat b.toNat))
  | .more p => inferInstanceAs (Decidable (0x80 ≤ b.toNat ∧ p.Sound))
  | .refused => inferInstanceAs (Decidable (0x80 ≤ b.toNat))

theorem start_leads (b : UInt8) : (start b).Leads b := by
  have h : ∀ n : Fin 256, (start (UInt8.ofFin n)).Leads (UInt8.ofFin n) := by decide +kernel
  exact h b.toFin

/-- A byte that leaves a character unfinished is in the range that was waited for, pays one
of several that are owed, and leaves the next one free. -/
theorem Pending.next_eq_more {p q : Pending} {b : UInt8} (h : p.next b = .more q) :
    p.low ≤ b ∧ b ≤ p.high ∧ 1 < p.owed ∧
      q = ⟨p.value * 64 + (b.toNat - 0x80), p.owed - 1, 0x80, 0xBF⟩ := by
  unfold Pending.next at h
  dsimp only at h
  split at h
  · next hrange =>
      split at h
      · contradiction
      · next howed =>
          exact ⟨hrange.1, hrange.2, Nat.lt_of_not_le howed, (Step.more.inj h).symm⟩
  · contradiction

/-- A byte that completes a character is in the range that was waited for. -/
theorem Pending.next_eq_char {p : Pending} {b : UInt8} {c : Char} (h : p.next b = .char c) :
    p.low ≤ b ∧ b ≤ p.high ∧ p.owed ≤ 1 ∧
      c = Char.ofNat (p.value * 64 + (b.toNat - 0x80)) := by
  unfold Pending.next at h
  dsimp only at h
  split at h
  · next hrange =>
      split at h
      · next howed => exact ⟨hrange.1, hrange.2, howed, (Step.char.inj h).symm⟩
      · contradiction
  · contradiction

/-- A byte inside a character is no ASCII byte, and keeps the character sound. -/
theorem Pending.Sound.next_more {p q : Pending} {b : UInt8} (h : p.Sound)
    (hnext : p.next b = .more q) : 0x80 ≤ b.toNat ∧ q.Sound := by
  obtain ⟨hle, -, howed, rfl⟩ := Pending.next_eq_more hnext
  have hlow : p.low.toNat ≤ b.toNat := UInt8.le_iff_toNat_le.1 hle
  have hge := h.1
  have hfree : 0x80 ≤ (0x80 : UInt8).toNat := by decide
  refine ⟨by omega, hfree, .inl ?_⟩
  show 2 ≤ p.value * 64 + (b.toNat - 0x80)
  have hlarge := h.2
  omega

/-- A character of several bytes is no ASCII character. -/
theorem Pending.Sound.next_char {p : Pending} {b : UInt8} {c : Char} (h : p.Sound)
    (hnext : p.next b = .char c) : 0x80 ≤ b.toNat ∧ ∃ n, 0x80 ≤ n ∧ c = Char.ofNat n := by
  obtain ⟨hle, -, howed, hchar⟩ := Pending.next_eq_char hnext
  have hlow : p.low.toNat ≤ b.toNat := UInt8.le_iff_toNat_le.1 hle
  have hge := h.1
  refine ⟨by omega, p.value * 64 + (b.toNat - 0x80), ?_, hchar⟩
  have hlarge := h.2
  omega

/-! ## One byte -/

/-- A state between two bytes, with what is known of it. -/
def SoundState : Option Pending → Prop
  | none => True
  | some p => p.Sound

theorem decodeLossyFrom_cons (state : Option Pending) (b : UInt8) (rest : Bytes) :
    decodeLossyFrom state (b :: rest) =
      (feed state b).1 ++ decodeLossyFrom (feed state b).2 rest := by
  cases state <;> rfl

theorem toNat_ofNat (n : Nat) : (Char.ofNat n).toNat = if n.isValidChar then n else 0 := by
  by_cases h : n.isValidChar
  · rw [Char.ofNat, dif_pos h, if_pos h]
    rfl
  · rw [Char.ofNat, dif_neg h, if_neg h]
    rfl

theorem toNat_ofNat_ascii {n : Nat} (h : n < 0x80) : (Char.ofNat n).toNat = n := by
  rw [toNat_ofNat, if_pos (.inl (by omega))]

/-- Only the number of an ASCII character stands for it. -/
theorem ofNat_ne_ascii {n k : Nat} (hpos : 0 < k) (hascii : k < 0x80) (hne : n ≠ k) :
    Char.ofNat n ≠ Char.ofNat k := by
  intro h
  have hnat := congrArg Char.toNat h
  rw [toNat_ofNat_ascii hascii, toNat_ofNat] at hnat
  split at hnat <;> omega

theorem replacement_ne_ascii {k : Nat} (hascii : k < 0x80) : replacement ≠ Char.ofNat k := by
  intro h
  have hnat := congrArg Char.toNat h
  rw [toNat_ofNat_ascii hascii, show replacement.toNat = 0xFFFD by decide] at hnat
  omega

/-- An ASCII byte ends what was owed, and stands for itself. -/
theorem feed_ascii {state : Option Pending} (hstate : SoundState state) {b : UInt8}
    (hascii : b.toNat < 0x80) :
    feed state b = (decodeLossyFrom state [] ++ [Char.ofNat b.toNat], none) := by
  have hstart : start b = .char (Char.ofNat b.toNat) := by
    have hleads := start_leads b
    cases hs : start b with
    | char c => rw [hs] at hleads; rw [hleads.2]
    | more p => rw [hs] at hleads; exact absurd hleads.1 (by omega)
    | refused => rw [hs] at hleads; exact absurd (show 0x80 ≤ b.toNat from hleads) (by omega)
  cases state with
  | none => simp [feed, feed.fresh, hstart, decodeLossyFrom]
  | some p =>
      have hnext : p.next b = .refused := by
        cases hn : p.next b with
        | char c => exact absurd (Pending.Sound.next_char hstate hn).1 (by omega)
        | more q => exact absurd (Pending.Sound.next_more hstate hn).1 (by omega)
        | refused => rfl
      simp [feed, feed.fresh, hstart, hnext, decodeLossyFrom]

/-- A byte read at the start of a character leaves a sound state. -/
theorem soundState_fresh (b : UInt8) : SoundState (feed.fresh b).2 := by
  have hleads := start_leads b
  unfold feed.fresh
  cases hs : start b with
  | char c => trivial
  | more p => rw [hs] at hleads; exact hleads.2
  | refused => trivial

/-- Any byte leaves a sound state. -/
theorem soundState_feed {state : Option Pending} (hstate : SoundState state) (b : UInt8) :
    SoundState (feed state b).2 := by
  cases state with
  | none => exact soundState_fresh b
  | some p =>
      cases hn : p.next b with
      | char c => simp [feed, hn, SoundState]
      | more q =>
          simpa [feed, hn, SoundState] using (Pending.Sound.next_more hstate hn).2
      | refused => simpa [feed, hn] using soundState_fresh b

/-- An ASCII character is added by its own byte only. -/
theorem not_mem_feed {state : Option Pending} (hstate : SoundState state) {b : UInt8} {k : Nat}
    (hpos : 0 < k) (hascii : k < 0x80) (hne : b.toNat ≠ k) :
    Char.ofNat k ∉ (feed state b).1 := by
  have hfresh : Char.ofNat k ∉ (feed.fresh b).1 := by
    have hleads := start_leads b
    unfold feed.fresh
    cases hs : start b with
    | char c =>
        rw [hs] at hleads
        simpa [hleads.2] using (ofNat_ne_ascii hpos hascii hne).symm
    | more p => simp
    | refused => simpa using (replacement_ne_ascii hascii).symm
  cases state with
  | none => exact hfresh
  | some p =>
      cases hn : p.next b with
      | char c =>
          obtain ⟨-, n, hn80, rfl⟩ := Pending.Sound.next_char hstate hn
          simpa [feed, hn] using (ofNat_ne_ascii hpos hascii (by omega)).symm
      | more q => simp [feed, hn]
      | refused =>
          simpa [feed, hn] using ⟨(replacement_ne_ascii hascii).symm, hfresh⟩

theorem not_mem_pending (state : Option Pending) {k : Nat} (hascii : k < 0x80) :
    Char.ofNat k ∉ decodeLossyFrom state [] := by
  cases state with
  | none => simp [decodeLossyFrom]
  | some p => simpa [decodeLossyFrom] using (replacement_ne_ascii hascii).symm

/-! ## Whole texts -/

/-- Cutting at an ASCII byte, from any state: what is owed goes with the first piece. -/
theorem breakAt_decodeLossyFrom {sep : UInt8} (hpos : 0 < sep.toNat) (hascii : sep.toNat < 0x80)
    {state : Option Pending} (hstate : SoundState state) (bytes : Bytes) :
    breakAt (· = Char.ofNat sep.toNat) (decodeLossyFrom state bytes) =
      (decodeLossyFrom state (breakAt (· = sep) bytes).1,
        (breakAt (· = sep) bytes).2.map decodeLossy) := by
  induction bytes generalizing state with
  | nil => exact breakAt_of_not_mem (not_mem_pending state hascii)
  | cons b rest ih =>
      rw [decodeLossyFrom_cons]
      by_cases hb : b = sep
      · subst hb
        have hrest := @ih none trivial
        rw [feed_ascii hstate hascii, List.append_assoc,
          breakAt_append (not_mem_pending state hascii), List.singleton_append,
          breakAt_cons_self, breakAt_cons_self, pieces, hrest]
        simp [pieces, decodeLossy]
      · have hpiece := not_mem_feed hstate hpos hascii fun e => hb (UInt8.toNat_inj.1 e)
        rw [breakAt_append hpiece, ih (soundState_feed hstate b)]
        simp [breakAt, hb, decodeLossyFrom_cons]

/-- A text may be cut at an ASCII byte before it is decoded. -/
theorem breakAt_decodeLossy {sep : UInt8} (hpos : 0 < sep.toNat) (hascii : sep.toNat < 0x80)
    (bytes : Bytes) :
    breakAt (· = Char.ofNat sep.toNat) (decodeLossy bytes) =
      (decodeLossy (breakAt (· = sep) bytes).1,
        (breakAt (· = sep) bytes).2.map decodeLossy) :=
  have hnone : SoundState none := trivial
  breakAt_decodeLossyFrom hpos hascii hnone bytes

end Utf8

end SiteServer.Text
