import SiteServer.Proofs.Text.Encoded
import Mathlib.Data.List.Infix

/-!
# ASCII runs

A run of ASCII bytes is decoded to the same run of characters, also between bytes that
are not valid (`decodeLossy_around`), and a text has such a run only where its bytes do
(`asciiText_infix_decodeLossy_iff`).  What is looked for byte by byte is therefore found in
the bytes exactly if it is found in the text.

Bytes that are not valid UTF-8 leave a replacement in their text
(`replacement_mem_decodeLossy`).

NUL is left out, because it is the character that stands for no number.
-/

namespace SiteServer.Text.Utf8

/-- ASCII bytes other than NUL. -/
def IsAscii (run : Bytes) : Prop := ∀ b ∈ run, 0 < b.toNat ∧ b.toNat < 0x80

instance (run : Bytes) : Decidable (IsAscii run) :=
  List.decidableBAll _ run

/-- The characters that ASCII bytes stand for. -/
def asciiText (run : Bytes) : List Char := run.map fun b => Char.ofNat b.toNat

/-! ## Decoding around a run -/

theorem soundState_settle {state : Option Pending} (hstate : SoundState state) (bytes : Bytes) :
    SoundState (settle state bytes).2 := by
  induction bytes generalizing state with
  | nil => exact hstate
  | cons b rest ih => exact ih (soundState_feed hstate b)

/-- What is settled, and a replacement for what is left open. -/
theorem decodeLossyFrom_eq_settle (state : Option Pending) (bytes : Bytes) :
    decodeLossyFrom state bytes =
      (settle state bytes).1 ++ decodeLossyFrom (settle state bytes).2 [] := by
  have happend := decodeLossyFrom_append state bytes []
  rwa [List.append_nil] at happend

/-- A run of ASCII bytes at the start of a character. -/
theorem decodeLossy_run {run : Bytes} (hrun : IsAscii run) (rest : Bytes) :
    decodeLossy (run ++ rest) = asciiText run ++ decodeLossy rest := by
  induction run with
  | nil => rfl
  | cons b run ih =>
      have hb := hrun b (List.mem_cons_self ..)
      have htail := ih fun c hc => hrun c (List.mem_cons_of_mem _ hc)
      have hnone : SoundState none := trivial
      unfold decodeLossy at htail ⊢
      rw [List.cons_append, decodeLossyFrom_cons, feed_ascii hnone hb.2, htail]
      rfl

/-- A run of ASCII bytes ends what was open before it, and stands for itself. -/
theorem decodeLossy_around {run : Bytes} (hne : run ≠ []) (hrun : IsAscii run)
    (before after : Bytes) :
    decodeLossy (before ++ (run ++ after)) =
      decodeLossy before ++ (asciiText run ++ decodeLossy after) := by
  obtain ⟨b, run, rfl⟩ := List.exists_cons_of_ne_nil hne
  have hb := hrun b (List.mem_cons_self ..)
  have htail := decodeLossy_run (fun c hc => hrun c (List.mem_cons_of_mem _ hc)) after
  have hnone : SoundState none := trivial
  have hstate := soundState_settle hnone before
  unfold decodeLossy at htail ⊢
  rw [decodeLossyFrom_append, decodeLossyFrom_eq_settle none before, List.cons_append,
    decodeLossyFrom_cons, feed_ascii hstate hb.2, htail]
  simp [asciiText]

/-! ## Finding a run -/

section Find

variable {k : Nat} (hpos : 0 < k) (hascii : k < 0x80)

include hpos hascii

/-- A character that is owed is no ASCII character. -/
theorem head?_decodeLossyFrom_ne {p : Pending} (hp : p.Sound) (bytes : Bytes) :
    (decodeLossyFrom (some p) bytes).head? ≠ some (Char.ofNat k) := by
  induction bytes generalizing p with
  | nil => simpa [decodeLossyFrom] using replacement_ne_ascii hascii
  | cons b rest ih =>
      rw [decodeLossyFrom_cons]
      cases heffect : effect (some p) b with
      | char c =>
          obtain ⟨-, n, hn, rfl⟩ := hp.next_char heffect
          simpa [feed_of_char heffect] using ofNat_ne_ascii hpos hascii (by omega)
      | more q =>
          rw [feed_of_more heffect]
          exact ih (hp.next_more heffect).2
      | refused =>
          have hrefused : p.next b = .refused := heffect
          simpa [feed, hrefused] using replacement_ne_ascii hascii

/-- A text begins with an ASCII character only if its bytes do. -/
theorem head?_decodeLossy_ne {b : UInt8} (hb : b.toNat ≠ k) (rest : Bytes) :
    (decodeLossy (b :: rest)).head? ≠ some (Char.ofNat k) := by
  have hleads := start_leads b
  unfold decodeLossy
  rw [decodeLossyFrom_cons]
  cases heffect : effect none b with
  | char c =>
      rw [show start b = .char c from heffect] at hleads
      simpa [feed_of_char heffect, hleads.2] using ofNat_ne_ascii hpos hascii hb
  | more p =>
      rw [show start b = .more p from heffect] at hleads
      rw [feed_of_more heffect]
      exact head?_decodeLossyFrom_ne hpos hascii hleads.2 rest
  | refused =>
      have hrefused : start b = .refused := heffect
      simpa [feed, feed.fresh, hrefused] using replacement_ne_ascii hascii

end Find

/-- A text begins with a run only if its bytes do. -/
theorem prefix_of_asciiText_prefix {run : Bytes} (hrun : IsAscii run) {bytes : Bytes}
    (h : asciiText run <+: decodeLossy bytes) : run <+: bytes := by
  induction run generalizing bytes with
  | nil => exact List.nil_prefix
  | cons a run ih =>
      have ha := hrun a (List.mem_cons_self ..)
      have htail : IsAscii run := fun c hc => hrun c (List.mem_cons_of_mem _ hc)
      cases bytes with
      | nil => exact absurd h.length_le (by simp [asciiText, decodeLossy, decodeLossyFrom])
      | cons b rest =>
          have hhead : (decodeLossy (b :: rest)).head? = some (Char.ofNat a.toNat) := by
            obtain ⟨more, hmore⟩ := h
            rw [← hmore]
            rfl
          obtain rfl : b = a := by
            by_contra hne
            have hnat : b.toNat ≠ a.toNat := fun heq => hne (UInt8.toNat_inj.1 heq)
            exact head?_decodeLossy_ne ha.1 ha.2 hnat rest hhead
          have hone : IsAscii [b] := by
            intro c hc
            rw [List.mem_singleton.1 hc]
            exact ha
          have hread : decodeLossy (b :: rest) = Char.ofNat b.toNat :: decodeLossy rest :=
            decodeLossy_run hone rest
          rw [hread, asciiText, List.map_cons, List.cons_prefix_cons] at h
          exact List.cons_prefix_cons.2 ⟨rfl, ih htail h.2⟩

/-- A list that begins with an element lies behind what does not have it. -/
theorem infix_of_infix_append {α : Type} {a : α} {l before after : List α} (hbefore : a ∉ before)
    (h : a :: l <:+: before ++ after) : a :: l <:+: after := by
  induction before with
  | nil => exact h
  | cons b before ih =>
      obtain ⟨hne, htail⟩ := List.ne_and_not_mem_of_not_mem_cons hbefore
      rw [List.cons_append, List.infix_cons_iff] at h
      rcases h with hprefix | hlater
      · exact absurd (List.cons_prefix_cons.1 hprefix).1 hne
      · exact ih htail hlater

theorem infix_of_asciiText_infix {a : UInt8} {run : Bytes} (hrun : IsAscii (a :: run))
    {state : Option Pending} (hstate : SoundState state) {bytes : Bytes}
    (h : asciiText (a :: run) <:+: decodeLossyFrom state bytes) : a :: run <:+: bytes := by
  have ha := hrun a (List.mem_cons_self ..)
  have hcons : asciiText (a :: run) = Char.ofNat a.toNat :: asciiText run := rfl
  have hpending : Char.ofNat a.toNat ∉ decodeLossyFrom state [] := not_mem_pending state ha.2
  induction bytes generalizing state with
  | nil => exact absurd (h.subset (List.mem_cons_self ..)) hpending
  | cons b rest ih =>
      rw [decodeLossyFrom_cons] at h
      by_cases hb : b.toNat = a.toNat
      · -- The run begins with this byte, or behind it.
        have hnone : SoundState none := trivial
        obtain rfl : b = a := UInt8.toNat_inj.1 hb
        have hread : decodeLossy (b :: rest) = Char.ofNat b.toNat :: decodeLossy rest := by
          unfold decodeLossy
          rw [decodeLossyFrom_cons, feed_ascii hnone ha.2]
          rfl
        rw [feed_ascii hstate ha.2, List.append_assoc] at h
        have hhere := infix_of_infix_append hpending h
        rw [List.singleton_append, List.infix_cons_iff] at hhere
        rcases hhere with hprefix | hlater
        · have hbytes := prefix_of_asciiText_prefix hrun (hread ▸ hprefix)
          exact hbytes.isInfix
        · have hbytes := ih hnone hlater (not_mem_pending none ha.2)
          exact hbytes.trans (List.suffix_cons b rest).isInfix
      · have hother := not_mem_feed hstate ha.1 ha.2 hb
        have hlater := infix_of_infix_append hother h
        have hnext := soundState_feed hstate b
        have hbytes := ih hnext hlater (not_mem_pending _ ha.2)
        exact hbytes.trans (List.suffix_cons b rest).isInfix

/-- A run is found in a text exactly if it is found in the bytes. -/
theorem asciiText_infix_decodeLossy_iff {run : Bytes} (hne : run ≠ []) (hrun : IsAscii run)
    {bytes : Bytes} : asciiText run <:+: decodeLossy bytes ↔ run <:+: bytes := by
  constructor
  · intro h
    have hnone : SoundState none := trivial
    obtain ⟨a, run, rfl⟩ := List.exists_cons_of_ne_nil hne
    exact infix_of_asciiText_infix hrun hnone h
  · intro h
    obtain ⟨before, after, rfl⟩ := h
    rw [List.append_assoc, decodeLossy_around hne hrun]
    exact ⟨_, _, List.append_assoc _ _ _⟩

/-! ## Bytes that are not valid -/

/-- Bytes that are not valid leave a replacement. -/
theorem replacement_mem_decodeLossy {bytes : Bytes} (h : decode? bytes = none) :
    replacement ∈ decodeLossy bytes := by
  by_contra hnot
  rw [decodeLossy, decodeLossyFrom_eq_settle, List.mem_append, not_or] at hnot
  have hread := decodeFrom_eq_settle hnot.1
  cases hlast : (settle none bytes).2 with
  | none =>
      have hsettle : settle none bytes = ((settle none bytes).1, none) := Prod.ext rfl hlast
      rw [decode?, hread, hsettle] at h
      contradiction
  | some p =>
      rw [hlast] at hnot
      exact hnot.2 (List.mem_singleton.2 rfl)

/-- The bytes of a text are valid. -/
theorem decode?_encode (text : List Char) : decode? (encode text) = some text := by
  rw [decode?, decodeFrom_encode]

end SiteServer.Text.Utf8
