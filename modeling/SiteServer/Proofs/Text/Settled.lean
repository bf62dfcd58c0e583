import SiteServer.Proofs.Text.LossyCut

/-!
# What is read for certain

The bytes that have come complete some characters, and refuse some sequences, whatever
comes behind them.  That much of the text is settled (`decodeLossyFrom_append`); at most
one character is open.

Only a refusal settles what a strict reading would not: without a replacement the two
readings agree (`decodeFrom_eq_settle`).  An ASCII byte settles its character, and ends what
was open before it (`mem_settle`).
-/

namespace SiteServer.Text.Utf8

/-! ## One byte -/

/-- What one byte does in a state. -/
def effect : Option Pending → UInt8 → Step
  | none, b => start b
  | some p, b => p.next b

theorem decodeFrom_cons (state : Option Pending) (b : UInt8) (rest : Bytes) :
    decodeFrom state (b :: rest) =
      match effect state b with
      | .char c => (decodeFrom none rest).map fun (cs, last) => (c :: cs, last)
      | .more p => decodeFrom (some p) rest
      | .refused => none := by
  cases state <;> rfl

theorem feed_of_char {state : Option Pending} {b : UInt8} {c : Char}
    (h : effect state b = .char c) : feed state b = ([c], none) := by
  cases state with
  | none => simp only [feed, feed.fresh, show start b = .char c from h]
  | some p => simp only [feed, show p.next b = .char c from h]

theorem feed_of_more {state : Option Pending} {b : UInt8} {q : Pending}
    (h : effect state b = .more q) : feed state b = ([], some q) := by
  cases state with
  | none => simp only [feed, feed.fresh, show start b = .more q from h]
  | some p => simp only [feed, show p.next b = .more q from h]

/-- A refusal writes a replacement. -/
theorem mem_feed_of_refused {state : Option Pending} {b : UInt8}
    (h : effect state b = .refused) : replacement ∈ (feed state b).1 := by
  cases state with
  | none => simp [feed, feed.fresh, show start b = .refused from h]
  | some p => simp [feed, show p.next b = .refused from h]

/-! ## Any bytes -/

/-- The characters that bytes settle from a state, and the state that they leave. -/
def settle : Option Pending → Bytes → List Char × Option Pending
  | state, [] => ([], state)
  | state, b :: rest =>
    ((feed state b).1 ++ (settle (feed state b).2 rest).1, (settle (feed state b).2 rest).2)

/-- What is settled is read, whatever follows. -/
theorem decodeLossyFrom_append (state : Option Pending) (bytes more : Bytes) :
    decodeLossyFrom state (bytes ++ more) =
      (settle state bytes).1 ++ decodeLossyFrom (settle state bytes).2 more := by
  induction bytes generalizing state with
  | nil => rfl
  | cons b rest ih => rw [List.cons_append, decodeLossyFrom_cons, ih, settle, List.append_assoc]

/-- What is read without a refusal is settled. -/
theorem settle_of_decodeFrom {state : Option Pending} {bytes : Bytes}
    {read : List Char × Option Pending} (h : decodeFrom state bytes = some read) :
    settle state bytes = read := by
  induction bytes generalizing state read with
  | nil => exact Option.some.inj h
  | cons b rest ih =>
      rw [decodeFrom_cons] at h
      cases heffect : effect state b with
      | char c =>
          rw [heffect] at h
          obtain ⟨later, hlater, rfl⟩ := Option.map_eq_some_iff.1 h
          rw [settle, feed_of_char heffect, ih hlater]
          rfl
      | more p =>
          rw [heffect] at h
          rw [settle, feed_of_more heffect, ih h]
          rfl
      | refused =>
          rw [heffect] at h
          contradiction

/-- Where nothing is replaced, nothing was refused. -/
theorem decodeFrom_eq_settle {state : Option Pending} {bytes : Bytes}
    (h : replacement ∉ (settle state bytes).1) :
    decodeFrom state bytes = some (settle state bytes) := by
  induction bytes generalizing state with
  | nil => rfl
  | cons b rest ih =>
      rw [settle, List.mem_append, not_or] at h
      have hlater := ih h.2
      rw [decodeFrom_cons, settle]
      cases heffect : effect state b with
      | char c =>
          rw [feed_of_char heffect] at hlater ⊢
          simp only [hlater, Option.map_some, List.singleton_append]
      | more p =>
          rw [feed_of_more heffect] at hlater ⊢
          simp only [hlater, List.nil_append]
      | refused => exact absurd (mem_feed_of_refused heffect) h.1

/-- An ASCII byte settles its character. -/
theorem mem_settle {state : Option Pending} (hstate : SoundState state) {bytes : Bytes}
    {b : UInt8} (hascii : b.toNat < 0x80) (h : b ∈ bytes) :
    Char.ofNat b.toNat ∈ (settle state bytes).1 := by
  induction bytes generalizing state with
  | nil => contradiction
  | cons first rest ih =>
      rw [settle, List.mem_append]
      rcases List.mem_cons.1 h with rfl | hlater
      · rw [feed_ascii hstate hascii]
        exact .inl (List.mem_append_right _ (List.mem_singleton.2 rfl))
      · exact .inr (ih (soundState_feed hstate first) hlater)

end SiteServer.Text.Utf8
