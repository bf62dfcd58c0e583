import SiteServer.Proofs.Text.Settled

/-!
# The bytes of a text

A text is found again in its bytes.  Each character is completed by its own bytes
and by no fewer (`yields_utf8EncodeChar`), so reading what was encoded gives the text
back with nothing refused (`decodeFrom_encode`), and nothing to replace
(`decodeLossy_encode`).

The bytes of a character of several bytes are no ASCII bytes.  An ASCII byte can
therefore be looked for in the bytes of a text as its character can in the text
(`not_mem_encode`).
-/

namespace SiteServer.Text

namespace Utf8

/-! ## ASCII bytes -/

/-- Only an ASCII character is written with its byte. -/
theorem not_mem_utf8EncodeChar {c : Char} {b : UInt8} (hascii : b.toNat < 0x80)
    (hne : c.toNat ≠ b.toNat) : b ∉ String.utf8EncodeChar c := by
  have hval : c.val.toNat ≠ b.toNat := hne
  have hbyte : ∀ n, b = UInt8.ofNat n ↔ n % 256 = b.toNat := by
    intro n
    rw [← UInt8.toNat_inj]
    exact eq_comm
  unfold String.utf8EncodeChar
  dsimp only
  -- Characters of several bytes have none of them below 128.
  repeat' split
  all_goals
    simp only [List.mem_cons, List.not_mem_nil, or_false, hbyte]
    omega

theorem not_mem_encode {text : List Char} {c : Char} {b : UInt8} (hascii : b.toNat < 0x80)
    (hchar : c.toNat = b.toNat) (h : c ∉ text) : b ∉ encode text := by
  rw [encode, List.mem_flatMap]
  rintro ⟨d, hd, hb⟩
  refine not_mem_utf8EncodeChar hascii (fun heq => h ?_) hb
  have hsame : d = c := by
    rw [← Char.ofNat_toNat d, ← Char.ofNat_toNat c, heq, hchar]
  exact hsame ▸ hd

end Utf8

theorem not_mem_bytes {s : String} {c : Char} {b : UInt8} (hascii : b.toNat < 0x80)
    (hchar : c.toNat = b.toNat) (h : c ∉ s.toList) : b ∉ bytes s := by
  rw [Utf8.bytes_eq_encode]
  exact Utf8.not_mem_encode hascii hchar h

namespace Utf8

/-! ## What one byte does, by its number -/

theorem start_of_one {n : Nat} (h : n < 0x80) :
    start (UInt8.ofNat n) = .char (Char.ofNat n) := by
  have hbyte : (UInt8.ofNat n).toNat = n := by
    rw [UInt8.toNat_ofNat']
    omega
  have hlt : UInt8.ofNat n < 0x80 := by
    rw [UInt8.lt_iff_toNat_lt, hbyte]
    exact h
  rw [start, if_pos hlt, hbyte]

theorem start_of_two {n : Nat} (hlow : 2 ≤ n) (hhigh : n < 32) :
    start (UInt8.ofNat (n + 192)) = .more ⟨n, 1, 0x80, 0xBF⟩ := by
  have hall : ∀ n < 32, 2 ≤ n → start (UInt8.ofNat (n + 192)) = .more ⟨n, 1, 0x80, 0xBF⟩ := by
    decide
  exact hall n hhigh hlow

theorem start_of_three {n : Nat} (hhigh : n < 16) :
    start (UInt8.ofNat (n + 224)) =
      .more ⟨n, 2, if n = 0 then 0xA0 else 0x80, if n = 13 then 0x9F else 0xBF⟩ := by
  have hall : ∀ n < 16, start (UInt8.ofNat (n + 224)) =
      .more ⟨n, 2, if n = 0 then 0xA0 else 0x80, if n = 13 then 0x9F else 0xBF⟩ := by
    decide
  exact hall n hhigh

theorem start_of_four {n : Nat} (hhigh : n < 5) :
    start (UInt8.ofNat (n + 240)) =
      .more ⟨n, 3, if n = 0 then 0x90 else 0x80, if n = 4 then 0x8F else 0xBF⟩ := by
  have hall : ∀ n < 5, start (UInt8.ofNat (n + 240)) =
      .more ⟨n, 3, if n = 0 then 0x90 else 0x80, if n = 4 then 0x8F else 0xBF⟩ := by
    decide
  exact hall n hhigh

/-- A byte in the range that is waited for adds its six bits. -/
theorem next_of_range {p : Pending} {n : Nat} (hn : n < 64) (hlow : p.low.toNat ≤ n + 128)
    (hhigh : n + 128 ≤ p.high.toNat) :
    p.next (UInt8.ofNat (n + 128)) =
      if p.owed ≤ 1 then .char (Char.ofNat (p.value * 64 + n))
      else .more ⟨p.value * 64 + n, p.owed - 1, 0x80, 0xBF⟩ := by
  have hbyte : (UInt8.ofNat (n + 128)).toNat = n + 128 := by
    rw [UInt8.toNat_ofNat']
    omega
  have hrange : p.low ≤ UInt8.ofNat (n + 128) ∧ UInt8.ofNat (n + 128) ≤ p.high := by
    rw [UInt8.le_iff_toNat_le, UInt8.le_iff_toNat_le, hbyte]
    exact ⟨hlow, hhigh⟩
  rw [Pending.next, if_pos hrange, hbyte, Nat.add_sub_cancel]

/-! ## Whole characters -/

/-- Bytes that complete a character, behind one that has had an effect. -/
def Step.Yields : Step → Bytes → Char → Prop
  | .char d, [], c => d = c
  | .more p, b :: rest, c => (p.next b).Yields rest c
  | _, _, _ => False

section Yields

variable {value n : Nat} {low high : UInt8}

theorem yields_last {v : Nat} (hn : n < 64) (hlow : low.toNat ≤ n + 128)
    (hhigh : n + 128 ≤ high.toNat) (hsum : value * 64 + n = v) :
    (Step.more ⟨value, 1, low, high⟩).Yields [UInt8.ofNat (n + 128)] (Char.ofNat v) := by
  rw [Step.Yields, next_of_range hn hlow hhigh, ← hsum]
  rfl

theorem yields_more {owed : Nat} {rest : Bytes} {c : Char} (hn : n < 64)
    (hlow : low.toNat ≤ n + 128) (hhigh : n + 128 ≤ high.toNat)
    (h : (Step.more ⟨value * 64 + n, owed + 1, 0x80, 0xBF⟩).Yields rest c) :
    (Step.more ⟨value, owed + 2, low, high⟩).Yields (UInt8.ofNat (n + 128) :: rest) c := by
  have howed : ¬ owed + 2 ≤ 1 := by omega
  rw [Step.Yields, next_of_range hn hlow hhigh, if_neg howed]
  exact h

end Yields

/-- A character is completed by its own bytes. -/
theorem yields_utf8EncodeChar (c : Char) :
    ∃ b rest, String.utf8EncodeChar c = b :: rest ∧ (start b).Yields rest c := by
  have hchar : Char.ofNat c.val.toNat = c := Char.ofNat_toNat c
  have hvalid : c.val.toNat < 0xD800 ∨ 0xDFFF < c.val.toNat ∧ c.val.toNat < 0x110000 := c.valid
  have hany : (0x80 : UInt8).toNat = 128 ∧ (0xBF : UInt8).toNat = 191 := ⟨rfl, rfl⟩
  unfold String.utf8EncodeChar
  dsimp only
  generalize c.val.toNat = v at hchar hvalid
  split
  · refine ⟨_, _, rfl, ?_⟩
    rw [start_of_one (by omega), hchar]
    rfl
  split
  · have hhead : v / 64 % 32 = v / 64 := by omega
    refine ⟨_, _, rfl, ?_⟩
    rw [hhead, start_of_two (by omega) (by omega), ← hchar]
    exact yields_last (by omega) (by omega) (by omega) (by omega)
  split
  · have hhead : v / 4096 % 16 = v / 4096 := by omega
    -- Three bytes could also spell what two can, and surrogates.
    have hlow : (if v / 4096 = 0 then 0xA0 else 0x80 : UInt8).toNat ≤ v / 64 % 64 + 128 := by
      split
      · rw [show (0xA0 : UInt8).toNat = 160 from rfl]
        omega
      · omega
    have hhigh : v / 64 % 64 + 128 ≤ (if v / 4096 = 13 then 0x9F else 0xBF : UInt8).toNat := by
      split
      · rw [show (0x9F : UInt8).toNat = 159 from rfl]
        omega
      · omega
    refine ⟨_, _, rfl, ?_⟩
    rw [hhead, start_of_three (by omega), ← hchar]
    refine yields_more (by omega) hlow hhigh ?_
    exact yields_last (by omega) (by omega) (by omega) (by omega)
  · have hhead : v / 262144 % 8 = v / 262144 := by omega
    -- Four bytes could also spell what three can, and what is past the last character.
    have hlow : (if v / 262144 = 0 then 0x90 else 0x80 : UInt8).toNat ≤ v / 4096 % 64 + 128 := by
      split
      · rw [show (0x90 : UInt8).toNat = 144 from rfl]
        omega
      · omega
    have hhigh : v / 4096 % 64 + 128 ≤ (if v / 262144 = 4 then 0x8F else 0xBF : UInt8).toNat := by
      split
      · rw [show (0x8F : UInt8).toNat = 143 from rfl]
        omega
      · omega
    refine ⟨_, _, rfl, ?_⟩
    rw [hhead, start_of_four (by omega), ← hchar]
    refine yields_more (by omega) hlow hhigh ?_
    refine yields_more (by omega) (by omega) (by omega) ?_
    exact yields_last (by omega) (by omega) (by omega) (by omega)

/-! ## Whole texts -/

theorem encode_ne_nil {text : List Char} (h : text ≠ []) : encode text ≠ [] := by
  rcases List.exists_cons_of_ne_nil h with ⟨c, rest, rfl⟩
  obtain ⟨b, more, hbytes, -⟩ := yields_utf8EncodeChar c
  rw [encode_cons, hbytes]
  exact List.cons_ne_nil _ _

/-- What completes a character is that character, and nothing is left over. -/
theorem Step.Yields.char_eq {c d : Char} {rest : Bytes} (h : (Step.char d).Yields rest c) :
    d = c ∧ rest = [] := by
  cases rest with
  | nil => exact ⟨h, rfl⟩
  | cons b rest => exact h.elim

theorem not_yields_refused {rest : Bytes} {c : Char} : ¬ Step.refused.Yields rest c := by
  cases rest with
  | nil => exact id
  | cons b rest => exact id

/-- Reading on inside a character, with the bytes that complete it in front. -/
theorem decodeFrom_of_yields {p : Pending} {bytes : Bytes} {c : Char}
    (h : (Step.more p).Yields bytes c) (more : Bytes) :
    decodeFrom (some p) (bytes ++ more) =
      (decodeFrom none more).map fun (text, last) => (c :: text, last) := by
  induction bytes generalizing p with
  | nil => exact h.elim
  | cons b rest ih =>
      have hstep : (effect (some p) b).Yields rest c := h
      rw [List.cons_append, decodeFrom_cons]
      cases heffect : effect (some p) b with
      | char d =>
          rw [heffect] at hstep
          obtain ⟨rfl, rfl⟩ := hstep.char_eq
          rfl
      | more q =>
          rw [heffect] at hstep
          exact ih hstep
      | refused =>
          rw [heffect] at hstep
          exact absurd hstep not_yields_refused

/-- The bytes of a text are read as the text, with nothing refused and nothing left open. -/
theorem decodeFrom_encode (text : List Char) :
    decodeFrom none (encode text) = some (text, none) := by
  induction text with
  | nil => rfl
  | cons c text ih =>
      obtain ⟨b, rest, hbytes, hyields⟩ := yields_utf8EncodeChar c
      have hstep : (effect none b).Yields rest c := hyields
      rw [encode_cons, hbytes, List.cons_append, decodeFrom_cons]
      cases heffect : effect none b with
      | char d =>
          rw [heffect] at hstep
          obtain ⟨rfl, rfl⟩ := hstep.char_eq
          simp only [List.nil_append, ih, Option.map_some]
      | more p =>
          rw [heffect] at hstep
          simp only [decodeFrom_of_yields hstep, ih, Option.map_some]
      | refused =>
          rw [heffect] at hstep
          exact absurd hstep not_yields_refused

/-- The bytes of a text are read as the text, with nothing replaced. -/
theorem decodeLossy_encode (text : List Char) : decodeLossy (encode text) = text := by
  have hsettle := settle_of_decodeFrom (decodeFrom_encode text)
  rw [decodeLossy, ← List.append_nil (encode text), decodeLossyFrom_append, hsettle]
  exact List.append_nil text

theorem encode_intercalate (sep : List Char) (texts : List (List Char)) :
    encode (sep.intercalate texts) = (encode sep).intercalate (texts.map encode) := by
  induction texts with
  | nil => rfl
  | cons text texts ih =>
      cases texts with
      | nil => simp
      | cons next rest =>
          simp only [List.map_cons] at ih ⊢
          rw [List.intercalate_cons_cons, List.intercalate_cons_cons, encode_append, encode_append, ih]

end Utf8

end SiteServer.Text
