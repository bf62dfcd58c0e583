import SiteServer.Proofs.Text.Encoded

/-!
# Texts that are not complete

The reader lets through exactly the bytes that can still become those of a text
(`isPartial_iff`).  Two facts make this more than a statement about the reader.

What it reads as a character is written with the very bytes that it read
(`utf8EncodeChar_of_yields`).  This is where the ranges of the second byte count: without
them a character could be read from more bytes than it is written with, or a number that
belongs to no character.

A character that is begun can always be completed (`exists_yields`), so the reader refuses
a sequence at the first byte that no character has there, and not later.
-/

namespace SiteServer.Text.Utf8

/-! ## Characters by the bits of their bytes -/

section Bits

variable {n k l m : Nat}

theorem val_ofNat {v : Nat} (hv : v.isValidChar) : (Char.ofNat v).val.toNat = v :=
  (toNat_ofNat v).trans (if_pos hv)

theorem utf8EncodeChar_one (hn : n < 0x80) :
    String.utf8EncodeChar (Char.ofNat n) = [UInt8.ofNat n] := by
  have hval : (Char.ofNat n).val.toNat = n := val_ofNat (.inl (by omega))
  unfold String.utf8EncodeChar
  dsimp only
  rw [hval, if_pos (by omega)]

theorem utf8EncodeChar_two (hlow : 2 ≤ n) (hn : n < 32) (hm : m < 64) :
    String.utf8EncodeChar (Char.ofNat (n * 64 + m)) =
      [UInt8.ofNat (n + 192), UInt8.ofNat (m + 128)] := by
  have hval : (Char.ofNat (n * 64 + m)).val.toNat = n * 64 + m := val_ofNat (.inl (by omega))
  have hfirst : (n * 64 + m) / 64 % 32 = n := by omega
  have hlast : (n * 64 + m) % 64 = m := by omega
  unfold String.utf8EncodeChar
  dsimp only
  rw [hval, if_neg (by omega), if_pos (by omega), hfirst, hlast]

/-- What two bytes can spell is left out, and so are surrogates. -/
theorem utf8EncodeChar_three (hn : n < 16) (hk : k < 64) (hm : m < 64)
    (hlow : n = 0 → 32 ≤ k) (hhigh : n = 13 → k < 32) :
    String.utf8EncodeChar (Char.ofNat ((n * 64 + k) * 64 + m)) =
      [UInt8.ofNat (n + 224), UInt8.ofNat (k + 128), UInt8.ofNat (m + 128)] := by
  generalize hv : (n * 64 + k) * 64 + m = v
  have hvalid : v.isValidChar := by
    unfold Nat.isValidChar
    omega
  have hfirst : v / 4096 % 16 = n := by omega
  have hsecond : v / 64 % 64 = k := by omega
  have hlast : v % 64 = m := by omega
  unfold String.utf8EncodeChar
  dsimp only
  rw [val_ofNat hvalid, if_neg (by omega), if_neg (by omega), if_pos (by omega), hfirst, hsecond,
    hlast]

/-- What three bytes can spell is left out, and so is what is past the last character. -/
theorem utf8EncodeChar_four (hn : n < 5) (hk : k < 64) (hl : l < 64) (hm : m < 64)
    (hlow : n = 0 → 16 ≤ k) (hhigh : n = 4 → k < 16) :
    String.utf8EncodeChar (Char.ofNat (((n * 64 + k) * 64 + l) * 64 + m)) =
      [UInt8.ofNat (n + 240), UInt8.ofNat (k + 128), UInt8.ofNat (l + 128),
        UInt8.ofNat (m + 128)] := by
  generalize hv : ((n * 64 + k) * 64 + l) * 64 + m = v
  have hvalid : v.isValidChar := by
    unfold Nat.isValidChar
    omega
  have hfirst : v / 262144 % 8 = n := by omega
  have hsecond : v / 4096 % 64 = k := by omega
  have hthird : v / 64 % 64 = l := by omega
  have hlast : v % 64 = m := by omega
  unfold String.utf8EncodeChar
  dsimp only
  rw [val_ofNat hvalid, if_neg (by omega), if_neg (by omega), if_neg (by omega), hfirst, hsecond,
    hthird, hlast]

end Bits

/-! ## What a byte leaves open -/

/-- The bytes that can come next are continuation bytes, and there are some. -/
def Pending.Ranged (p : Pending) : Prop :=
  0x80 ≤ p.low.toNat ∧ p.low.toNat ≤ p.high.toNat ∧ p.high.toNat ≤ 0xBF

instance (p : Pending) : Decidable p.Ranged :=
  inferInstanceAs (Decidable (_ ∧ _))

theorem ranged_any (value owed : Nat) : (Pending.mk value owed 0x80 0xBF).Ranged := by
  show 0x80 ≤ (0x80 : UInt8).toNat ∧ (0x80 : UInt8).toNat ≤ (0xBF : UInt8).toNat ∧
    (0xBF : UInt8).toNat ≤ 0xBF
  decide

/-- Continuation bytes begin no character, nor do the bytes that would spell what fewer can,
or what is past the last character. -/
theorem start_eq_refused {b : UInt8}
    (h : 0x80 ≤ b.toNat ∧ b.toNat < 0xC2 ∨ 0xF5 ≤ b.toNat) : start b = .refused := by
  have hall : ∀ i : Fin 256, 0x80 ≤ (UInt8.ofFin i).toNat ∧ (UInt8.ofFin i).toNat < 0xC2 ∨
      0xF5 ≤ (UInt8.ofFin i).toNat → start (UInt8.ofFin i) = .refused := by
    decide +kernel
  exact hall b.toFin h

/-- The bytes that a character can begin with, by how many it has. -/
theorem start_cases (b : UInt8) :
    start b = .refused ∨ (∃ n < 0x80, b = UInt8.ofNat n) ∨
      (∃ n < 32, 2 ≤ n ∧ b = UInt8.ofNat (n + 192)) ∨
      (∃ n < 16, b = UInt8.ofNat (n + 224)) ∨ (∃ n < 5, b = UInt8.ofNat (n + 240)) := by
  have hbyte : ∀ base ≤ b.toNat, b = UInt8.ofNat (b.toNat - base + base) := by
    intro base hbase
    rw [Nat.sub_add_cancel hbase, UInt8.ofNat_toNat]
  by_cases hone : b.toNat < 0x80
  · exact .inr (.inl ⟨b.toNat, hone, hbyte 0 (Nat.zero_le _)⟩)
  by_cases htwo : 0xC2 ≤ b.toNat ∧ b.toNat < 0xE0
  · exact .inr (.inr (.inl ⟨b.toNat - 192, by omega, by omega, hbyte 192 (by omega)⟩))
  by_cases hthree : 0xE0 ≤ b.toNat ∧ b.toNat < 0xF0
  · exact .inr (.inr (.inr (.inl ⟨b.toNat - 224, by omega, hbyte 224 (by omega)⟩)))
  by_cases hfour : 0xF0 ≤ b.toNat ∧ b.toNat < 0xF5
  · exact .inr (.inr (.inr (.inr ⟨b.toNat - 240, by omega, hbyte 240 (by omega)⟩)))
  · exact .inl (start_eq_refused (by omega))

theorem ranged_of_start {b : UInt8} {p : Pending} (h : start b = .more p) : p.Ranged := by
  rcases start_cases b with
    hrefused | ⟨n, hn, rfl⟩ | ⟨n, hn, hlow, rfl⟩ | ⟨n, hn, rfl⟩ | ⟨n, hn, rfl⟩
  · rw [hrefused] at h
    contradiction
  · rw [start_of_one hn] at h
    contradiction
  · rw [start_of_two hlow hn] at h
    obtain rfl := Step.more.inj h
    exact ranged_any n 1
  · rw [start_of_three hn] at h
    obtain rfl := Step.more.inj h
    have hall : ∀ n < 16, (Pending.mk n 2 (if n = 0 then 0xA0 else 0x80)
        (if n = 13 then 0x9F else 0xBF)).Ranged := by decide
    exact hall n hn
  · rw [start_of_four hn] at h
    obtain rfl := Step.more.inj h
    have hall : ∀ n < 5, (Pending.mk n 3 (if n = 0 then 0x90 else 0x80)
        (if n = 4 then 0x8F else 0xBF)).Ranged := by decide
    exact hall n hn

theorem ranged_of_next {p q : Pending} {b : UInt8} (h : p.next b = .more q) : q.Ranged := by
  obtain ⟨-, -, -, rfl⟩ := Pending.next_eq_more h
  exact ranged_any _ _

theorem ranged_of_effect {state : Option Pending} {b : UInt8} {p : Pending}
    (h : effect state b = .more p) : p.Ranged := by
  cases state with
  | none => exact ranged_of_start h
  | some q => exact ranged_of_next h

/-! ## What completes a character -/

/-- A byte that is read inside a character adds six bits to it. -/
theorem Step.Yields.exists_next {p : Pending} {bytes : Bytes} {c : Char}
    (h : (Step.more p).Yields bytes c) (hp : p.Ranged) :
    ∃ n < 64, ∃ rest, bytes = UInt8.ofNat (n + 128) :: rest ∧
      p.low.toNat ≤ n + 128 ∧ n + 128 ≤ p.high.toNat ∧
      (if p.owed ≤ 1 then Step.char (Char.ofNat (p.value * 64 + n))
        else .more ⟨p.value * 64 + n, p.owed - 1, 0x80, 0xBF⟩).Yields rest c := by
  obtain ⟨hleast, -, hmost⟩ := hp
  cases bytes with
  | nil => exact h.elim
  | cons b rest =>
      have hnext : (p.next b).Yields rest c := h
      have hrange : p.low ≤ b ∧ b ≤ p.high := by
        refine Decidable.byContradiction fun hout => ?_
        rw [Pending.next, if_neg hout] at hnext
        exact not_yields_refused hnext
      rw [UInt8.le_iff_toNat_le, UInt8.le_iff_toNat_le] at hrange
      have hbyte : UInt8.ofNat (b.toNat - 128 + 128) = b := by
        rw [Nat.sub_add_cancel (by omega), UInt8.ofNat_toNat]
      have hlow : p.low.toNat ≤ b.toNat - 128 + 128 := by omega
      have hhigh : b.toNat - 128 + 128 ≤ p.high.toNat := by omega
      have hsix : b.toNat - 128 < 64 := by omega
      rw [← hbyte, next_of_range hsix hlow hhigh] at hnext
      exact ⟨_, hsix, rest, by rw [hbyte], hlow, hhigh, hnext⟩

/-- What completes a character are its own bytes. -/
theorem utf8EncodeChar_of_yields {b : UInt8} {rest : Bytes} {c : Char}
    (h : (start b).Yields rest c) : String.utf8EncodeChar c = b :: rest := by
  rcases start_cases b with
    hrefused | ⟨n, hn, rfl⟩ | ⟨n, hn, hlow, rfl⟩ | ⟨n, hn, rfl⟩ | ⟨n, hn, rfl⟩
  · rw [hrefused] at h
    exact absurd h not_yields_refused
  · rw [start_of_one hn] at h
    obtain ⟨rfl, rfl⟩ := h.char_eq
    exact utf8EncodeChar_one hn
  · rw [start_of_two hlow hn] at h
    obtain ⟨m, hm, rest, rfl, -, -, hlast⟩ := h.exists_next (ranged_any _ _)
    obtain ⟨rfl, rfl⟩ := Step.Yields.char_eq hlast
    exact utf8EncodeChar_two hlow hn hm
  · have hfirst := start_of_three hn
    rw [hfirst] at h
    obtain ⟨k, hk, rest, rfl, hlow, hhigh, hlater⟩ := h.exists_next (ranged_of_start hfirst)
    obtain ⟨m, hm, rest, rfl, -, -, hlast⟩ := Step.Yields.exists_next hlater (ranged_any _ _)
    obtain ⟨rfl, rfl⟩ := Step.Yields.char_eq hlast
    refine utf8EncodeChar_three hn hk hm ?_ ?_
    · rintro rfl
      have hleast : 0xA0 ≤ k + 128 := hlow
      omega
    · rintro rfl
      have hmost : k + 128 ≤ 0x9F := hhigh
      omega
  · have hfirst := start_of_four hn
    rw [hfirst] at h
    obtain ⟨k, hk, rest, rfl, hlow, hhigh, hlater⟩ := h.exists_next (ranged_of_start hfirst)
    obtain ⟨l, hl, rest, rfl, -, -, hlater⟩ := Step.Yields.exists_next hlater (ranged_any _ _)
    obtain ⟨m, hm, rest, rfl, -, -, hlast⟩ := Step.Yields.exists_next hlater (ranged_any _ _)
    obtain ⟨rfl, rfl⟩ := Step.Yields.char_eq hlast
    refine utf8EncodeChar_four hn hk hl hm ?_ ?_
    · rintro rfl
      have hleast : 0x90 ≤ k + 128 := hlow
      omega
    · rintro rfl
      have hmost : k + 128 ≤ 0x8F := hhigh
      omega

/-- A character that is begun can be completed: by the least byte that can come, each time
that one is owed. -/
theorem exists_yields {p : Pending} (hp : p.Ranged) :
    ∃ bytes c, (Step.more p).Yields bytes c := by
  have hin : p.low ≤ p.low ∧ p.low ≤ p.high := ⟨UInt8.le_refl _, UInt8.le_iff_toNat_le.2 hp.2.1⟩
  cases hnext : p.next p.low with
  | char c => exact ⟨[p.low], c, by rw [Step.Yields, hnext]; rfl⟩
  | more q =>
      have howed : q.owed < p.owed := by
        obtain ⟨-, -, hmany, rfl⟩ := Pending.next_eq_more hnext
        exact Nat.sub_lt (by omega) Nat.one_pos
      obtain ⟨rest, c, hrest⟩ := exists_yields (ranged_of_next hnext)
      exact ⟨p.low :: rest, c, by rw [Step.Yields, hnext]; exact hrest⟩
  | refused =>
      rw [Pending.next, if_pos hin] at hnext
      dsimp only at hnext
      split at hnext <;> contradiction
termination_by p.owed

/-! ## Whole texts -/

/-- What is left of the bytes of a text in a state: the bytes that complete its first
character, if that is begun, and those of the others. -/
def Encodes : Option Pending → Bytes → List Char → Prop
  | none, bytes, text => encode text = bytes
  | some p, bytes, text => ∃ front c later, (Step.more p).Yields front c ∧ text = c :: later ∧
      front ++ encode later = bytes

theorem encodes_cons {state : Option Pending} {b : UInt8} {front : Bytes} {c : Char}
    (h : (effect state b).Yields front c) (later : List Char) :
    Encodes state (b :: (front ++ encode later)) (c :: later) := by
  cases state with
  | none =>
      rw [Encodes, encode_cons, utf8EncodeChar_of_yields h]
      rfl
  | some p => exact ⟨b :: front, c, later, h, rfl, rfl⟩

/-- What is read to its end was written so. -/
theorem encodes_of_decodeFrom {state : Option Pending} {bytes : Bytes} {text : List Char}
    (h : decodeFrom state bytes = some (text, none)) : Encodes state bytes text := by
  induction bytes generalizing state text with
  | nil =>
      obtain ⟨rfl, rfl⟩ := Prod.mk.inj (Option.some.inj h)
      rfl
  | cons b rest ih =>
      rw [decodeFrom_cons] at h
      cases heffect : effect state b with
      | char c =>
          rw [heffect] at h
          obtain ⟨⟨later, last⟩, hlater, hread⟩ := Option.map_eq_some_iff.1 h
          obtain ⟨rfl, rfl⟩ := Prod.mk.inj hread
          have hrest : encode later = rest := ih hlater
          have hyields : (effect state b).Yields [] c := by
            rw [heffect]
            rfl
          have hencodes := encodes_cons hyields later
          rwa [List.nil_append, hrest] at hencodes
      | more p =>
          rw [heffect] at h
          obtain ⟨front, c, later, hfront, rfl, rfl⟩ := ih h
          have hyields : (effect state b).Yields front c := by
            rw [heffect]
            exact hfront
          exact encodes_cons hyields later
      | refused =>
          rw [heffect] at h
          contradiction

/-! ## Texts that can be completed -/

/-- What was read so far, unless it was refused, can be read to an end. -/
theorem exists_decodeFrom_append {state : Option Pending} {bytes : Bytes}
    (hstate : ∀ p ∈ state, p.Ranged) (h : (decodeFrom state bytes).isSome = true) :
    ∃ more text, decodeFrom state (bytes ++ more) = some (text, none) := by
  induction bytes generalizing state with
  | nil =>
      cases state with
      | none => exact ⟨[], [], rfl⟩
      | some p =>
          obtain ⟨more, c, hmore⟩ := exists_yields (hstate p rfl)
          have hread := decodeFrom_of_yields hmore []
          rw [List.append_nil] at hread
          exact ⟨more, [c], hread⟩
  | cons b rest ih =>
      rw [decodeFrom_cons] at h
      cases heffect : effect state b with
      | char c =>
          rw [heffect, Option.isSome_map] at h
          obtain ⟨more, text, hread⟩ := ih (by simp) h
          refine ⟨more, c :: text, ?_⟩
          rw [List.cons_append, decodeFrom_cons, heffect]
          simp only [hread, Option.map_some]
      | more p =>
          rw [heffect] at h
          have hp : ∀ q ∈ some p, q.Ranged := by
            rintro q ⟨⟩
            exact ranged_of_effect heffect
          obtain ⟨more, text, hread⟩ := ih hp h
          refine ⟨more, text, ?_⟩
          rw [List.cons_append, decodeFrom_cons, heffect]
          exact hread
      | refused =>
          rw [heffect] at h
          contradiction

/-- The reader lets through what a text can begin with, wherever that is cut. -/
theorem isPartial_iff {bytes : Bytes} :
    isPartial bytes = true ↔ ∃ text, bytes <+: encode text := by
  constructor
  · intro h
    obtain ⟨more, text, hread⟩ := exists_decodeFrom_append (by simp) h
    have hbytes : encode text = bytes ++ more := encodes_of_decodeFrom hread
    exact ⟨text, hbytes ▸ List.prefix_append bytes more⟩
  · rintro ⟨text, rest, htext⟩
    refine isPartial_of_append (b := rest) ?_
    rw [htext, isPartial, decodeFrom_encode]
    rfl

end SiteServer.Text.Utf8
