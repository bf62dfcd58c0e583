/-!
# UTF-8 between bytes and characters

Requests, templates and files arrive as bytes.  The decoder reads them one byte
at a time: between two bytes it either stands at the start of a character, or
it owes the continuation of one (`Pending`), with the range that its next byte
must lie in.  That range is what rules out overlong forms, surrogates and values
past `U+10FFFF`, and it is checked as soon as the byte arrives, so a sequence is
refused at the first byte that no character can have there.

Three readings use the one automaton.  `decode?` accepts whole texts only.
`isPartial` also accepts a text that was cut inside a character.  `decodeLossy`
accepts everything and writes one `U+FFFD` for each refused sequence, up to but
not including the byte that refused it.
-/

namespace SiteServer

/-- A sequence of bytes, as it is sent, received or stored. -/
abbrev Bytes := List UInt8

namespace Text.Utf8

/-- A character whose first bytes were read: the value so far, how many bytes
are still owed, and the range of the next one. -/
structure Pending where
  value : Nat
  owed : Nat
  low : UInt8
  high : UInt8
deriving DecidableEq, Repr

/-- What one byte does: it completes a character, leaves one unfinished, or
cannot stand here. -/
inductive Step where
  | char (c : Char)
  | more (p : Pending)
  | refused
deriving DecidableEq, Repr

/-- The effect of a byte at the start of a character. -/
def start (b : UInt8) : Step :=
  if b < 0x80 then .char (Char.ofNat b.toNat)
  else if b < 0xC2 then .refused
  else if b < 0xE0 then .more ⟨b.toNat - 0xC0, 1, 0x80, 0xBF⟩
  else if b < 0xF0 then
    .more ⟨b.toNat - 0xE0, 2, if b = 0xE0 then 0xA0 else 0x80, if b = 0xED then 0x9F else 0xBF⟩
  else if b < 0xF5 then
    .more ⟨b.toNat - 0xF0, 3, if b = 0xF0 then 0x90 else 0x80, if b = 0xF4 then 0x8F else 0xBF⟩
  else .refused

/-- The effect of a byte inside a character. -/
def Pending.next (p : Pending) (b : UInt8) : Step :=
  if p.low ≤ b ∧ b ≤ p.high then
    let value := p.value * 64 + (b.toNat - 0x80)
    if p.owed ≤ 1 then .char (Char.ofNat value) else .more ⟨value, p.owed - 1, 0x80, 0xBF⟩
  else .refused

/-! ## Whole and partial texts -/

/-- Reads all bytes from a state; `none` if one of them cannot stand where it
does, else the characters completed and the one that is left unfinished. -/
def decodeFrom : Option Pending → Bytes → Option (List Char × Option Pending)
  | state, [] => some ([], state)
  | state, b :: rest =>
    match (match state with | none => start b | some p => p.next b) with
    | .char c => (decodeFrom none rest).map fun (cs, last) => (c :: cs, last)
    | .more p => decodeFrom (some p) rest
    | .refused => none

/-- The text that the bytes encode, if they are valid UTF-8. -/
def decode? (bytes : Bytes) : Option (List Char) :=
  match decodeFrom none bytes with
  | some (text, none) => some text
  | _ => none

/-- Whether the bytes are valid UTF-8, or valid up to a last character that is
not complete. -/
def isPartial (bytes : Bytes) : Bool :=
  (decodeFrom none bytes).isSome

/-! ## Lossy decoding -/

/-- Stands for each sequence of bytes that is not a character. -/
def replacement : Char := '\uFFFD'

/-- The characters that one byte adds to a lossy reading, and the state after
it.  A byte that cannot continue a character ends it with a replacement and is
then read as the start of the next. -/
def feed (state : Option Pending) (b : UInt8) : List Char × Option Pending :=
  match state with
  | none => fresh
  | some p =>
    match p.next b with
    | .char c => ([c], none)
    | .more q => ([], some q)
    | .refused => (replacement :: fresh.1, fresh.2)
where
  fresh : List Char × Option Pending :=
    match start b with
    | .char c => ([c], none)
    | .more p => ([], some p)
    | .refused => ([replacement], none)

/-- The lossy reading of all bytes from a state. -/
def decodeLossyFrom : Option Pending → Bytes → List Char
  | none, [] => []
  | some _, [] => [replacement]
  | state, b :: rest => (feed state b).1 ++ decodeLossyFrom (feed state b).2 rest

/-- The text of the bytes, with a replacement for each invalid sequence. -/
def decodeLossy (bytes : Bytes) : List Char :=
  decodeLossyFrom none bytes

/-! ## Encoding -/

/-- The bytes of a text. -/
def encode (text : List Char) : Bytes :=
  text.flatMap String.utf8EncodeChar

end Text.Utf8

/-- The UTF-8 bytes of a string. -/
def Text.bytes (s : String) : Bytes :=
  s.toByteArray.data.toList

namespace Text.Utf8

theorem bytes_ofList (text : List Char) : bytes (String.ofList text) = encode text := by
  simp [bytes, encode, List.utf8Encode]

theorem bytes_eq_encode (s : String) : bytes s = encode s.toList := by
  rw [← bytes_ofList, String.ofList_toList]

/-- Strings with the same bytes are the same. -/
theorem bytes_injective {s t : String} (h : bytes s = bytes t) : s = t := by
  have : s.toByteArray = t.toByteArray := by
    apply ByteArray.ext
    exact Array.toList_inj.1 h
  exact String.toByteArray_inj.1 this

@[simp] theorem encode_cons (c : Char) (text : List Char) :
    encode (c :: text) = String.utf8EncodeChar c ++ encode text := rfl

@[simp] theorem encode_append (s t : List Char) : encode (s ++ t) = encode s ++ encode t := by
  simp [encode]

/-! ## The automaton, byte by byte -/

theorem decodeFrom_append (state : Option Pending) (a b : Bytes) :
    decodeFrom state (a ++ b) =
      (decodeFrom state a).bind fun first =>
        (decodeFrom first.2 b).map fun second => (first.1 ++ second.1, second.2) := by
  induction a generalizing state with
  | nil => simp [decodeFrom]
  | cons x a ih =>
      simp only [List.cons_append, decodeFrom]
      split <;> simp [ih, Option.bind_map, Option.map_bind, Function.comp_def]

/-- What is partial stays so when it is cut earlier. -/
theorem isPartial_of_append {a b : Bytes} (h : isPartial (a ++ b) = true) :
    isPartial a = true := by
  unfold isPartial at h ⊢
  rw [decodeFrom_append] at h
  cases hd : decodeFrom none a with
  | none => simp [hd] at h
  | some _ => rfl

end Text.Utf8

end SiteServer
