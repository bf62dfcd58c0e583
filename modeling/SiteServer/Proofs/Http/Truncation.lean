import SiteServer.Proofs.Http.RequestGrammar
import SiteServer.Proofs.Text.CutShort

/-!
# Requests that are cut short

A request may be longer than what is taken in of it.  The part that is there is read
like any other buffer, and this goes wrong in one way only: a header line that was cut
may still be a header line, with another value or under another name.  All lines before
it are whole, and what a request asks for is on the first of them.

The heads of the part and of the whole are compared line by line.  They agree up to one
line, of which one of them has a beginning of what the other has (`Frayed`).  This also
holds where the cut is inside the terminator, and the part is longer than the whole head.

If that line is the first, its three words are there in both: no version begins with
another one (`eq_of_token_prefix`).  If it is a later one, it adds at most one entry to
the map of headers, and all lines before it add the same.
-/

namespace SiteServer.Http

open Text.Utf8 (decodeLossy replacement)

/-! ## Heads that agree up to one line -/

/-- A head whose lines are those of another one up to a line that one of the two
begins as the other does, and that has no header lines behind that. -/
structure Frayed (cut head : Bytes) : Prop where
  parts : ∃ before x xs y ys, Text.pieces (· = 10) cut = before ++ x :: xs ∧
    Text.pieces (· = 10) head = before ++ y :: ys ∧ (x <+: y ∨ y <+: x) ∧
    headerLinesOf (xs.map decodeLossy) = []

theorem frayed_of_prefix {cut head : Bytes} (h : cut <+: head) : Frayed cut head := by
  obtain ⟨more, rfl⟩ := h
  obtain ⟨before, last, hcut, happend⟩ := Text.exists_pieces_append (· = (10 : UInt8)) cut
  exact ⟨before, last, [], _, _, hcut, happend more, .inl (List.prefix_append _ _), rfl⟩

/-- What is left of a terminator puts a CR behind the last line, and lines behind it
that are empty. -/
theorem frayed_append_terminator (head : Bytes) {k : Nat} (hk : k < terminator.length) :
    Frayed (head ++ terminator.take k) head := by
  obtain ⟨before, last, hhead, happend⟩ := Text.exists_pieces_append (· = (10 : UInt8)) head
  have hbehind : ∀ k < 4, headerLinesOf
      ((Text.breakAt (· = (10 : UInt8)) (terminator.take k)).2.map decodeLossy) = [] := by
    decide
  exact ⟨before, _, _, last, [], happend _, hhead, .inr (List.prefix_append _ _), hbehind k hk⟩

/-- A cut inside the terminator leaves the head, and the beginning of the terminator. -/
theorem take_inside_terminator {buffer : Bytes} {i n : Nat} (h : findTerminator buffer = some i)
    (hi : i ≤ n) (hn : n < i + 4) :
    buffer.take n = buffer.take i ++ terminator.take (n - i) := by
  obtain ⟨rest, hrest⟩ := terminator_prefix_drop h
  have hk : n - i ≤ terminator.length := by
    show n - i ≤ 4
    omega
  conv_lhs => rw [show n = i + (n - i) by omega, List.take_add, ← hrest]
  rw [List.take_append_of_le_length hk]

/-- The head of a buffer that was cut is frayed, wherever the cut is. -/
theorem frayed_splitHead (buffer : Bytes) (n : Nat) :
    Frayed (splitHead (buffer.take n)).1 (splitHead buffer).1 := by
  have hpart : buffer.take n <+: buffer := List.take_prefix n buffer
  cases hcut : findTerminator (buffer.take n) with
  | some i =>
      have hwhole := ((findTerminator_prefix_iff hpart).1 hcut).1
      apply frayed_of_prefix
      simp only [splitHead, hcut, hwhole]
      rw [List.take_take]
      exact List.take_prefix_take_left (Nat.min_le_left i n)
  | none =>
      cases hwhole : findTerminator buffer with
      | none =>
          apply frayed_of_prefix
          simpa only [splitHead, hcut, hwhole] using hpart
      | some i =>
          simp only [splitHead, hcut, hwhole]
          by_cases hn : n ≤ i
          · exact frayed_of_prefix (List.take_prefix_take_left hn)
          · have hlate : n < i + 4 := by
              by_contra hfar
              have hend := add_four_le_of_prefix (terminator_prefix_drop hwhole)
              have hlength : i + 4 ≤ (buffer.take n).length := by
                rw [List.length_take]
                omega
              rw [(findTerminator_prefix_iff hpart).2 ⟨hwhole, hlength⟩] at hcut
              contradiction
            rw [take_inside_terminator hwhole (Nat.le_of_not_le hn) hlate]
            apply frayed_append_terminator
            show n - i < 4
            omega

/-! ## The request line -/

/-- A line is read as the three words that it begins with. -/
theorem RequestLine.parse_eq_ok_iff {text : List Char} {line : RequestLine} :
    RequestLine.parse text = .ok line ↔
      (Text.words text)[0]? = some line.method.token.toList ∧
      (Text.words text)[1]? = some line.target.toList ∧
      (Text.words text)[2]? = some line.version.token.toList := by
  unfold RequestLine.parse
  generalize Text.words text = words
  match words with
  | [] | [_] | [_, _] => simp
  | method :: target :: version :: more =>
      constructor
      · intro h
        dsimp only at h
        split at h
        · cases h
        · rename_i m hmethod
          split at h
          · cases h
          · rename_i v hversion
            obtain rfl := Except.ok.inj h
            simp [Method.words.find?_eq_some_iff.1 hmethod,
              Version.words.find?_eq_some_iff.1 hversion]
      · rintro ⟨hmethod, htarget, hversion⟩
        obtain rfl : method = line.method.token.toList := Option.some.inj hmethod
        obtain rfl : target = line.target.toList := Option.some.inj htarget
        obtain rfl : version = line.version.token.toList := Option.some.inj hversion
        simp

/-- No version begins with another one. -/
theorem eq_of_token_prefix {v w : Version} (h : v.token.toList <+: w.token.toList) : v = w := by
  revert h
  cases v <;> cases w <;> decide

/-- If a line is read although it was cut, it is read as the whole line is. -/
theorem RequestLine.parse_of_cutShort {cut full : List Char} (h : Text.CutShort cut full)
    {line whole : RequestLine} (hcut : RequestLine.parse cut = .ok line)
    (hfull : RequestLine.parse full = .ok whole) : line = whole := by
  obtain ⟨hmethod, htarget, hversion⟩ := RequestLine.parse_eq_ok_iff.1 hcut
  obtain ⟨hmethod', htarget', hversion'⟩ := RequestLine.parse_eq_ok_iff.1 hfull
  have hthree : 2 < (Text.words cut).length := (List.getElem?_eq_some_iff.1 hversion).1
  have hplain : replacement ∉ line.version.token.toList := by
    cases line.version <;> decide
  have hsameMethod := ((h.words hmethod).1 (by omega)).symm.trans hmethod'
  have hsameTarget := ((h.words htarget).1 (by omega)).symm.trans htarget'
  obtain ⟨found, hfound, hprefix⟩ := (h.words hversion).2 hplain
  obtain rfl : found = whole.version.token.toList := Option.some.inj (hfound.symm.trans hversion')
  have hwords : line.method = whole.method ∧ line.target = whole.target ∧
      line.version = whole.version :=
    ⟨Method.words.word_injective (String.toList_inj.1 (Option.some.inj hsameMethod)),
      String.toList_inj.1 (Option.some.inj hsameTarget), eq_of_token_prefix hprefix⟩
  cases line
  cases whole
  simpa using hwords

/-- A head that is read, line by line. -/
theorem readHead_eq_ok {head : Bytes} {line : RequestLine} {fields : HeaderFields}
    (h : readHead head = .ok (line, fields)) :
    RequestLine.parse (decodeLossy (rawLines head).1) = .ok line ∧
      ({} : HeaderFields).recordLines (headerLines head) = .ok fields := by
  by_cases htext : HasText head
  · rw [readHead_of_hasText htext] at h
    obtain ⟨found, hline, hrest⟩ := bind_eq_ok_iff.1 h
    cases hfields : ({} : HeaderFields).recordLines (headerLines head) with
    | error e =>
        rw [hfields] at hrest
        cases hrest
    | ok others =>
        rw [hfields] at hrest
        obtain ⟨rfl, rfl⟩ := Prod.mk.inj (Except.ok.inj hrest)
        exact ⟨hline, rfl⟩
  · rw [readHead_of_not_hasText htext] at h
    cases h

theorem Frayed.requestLine {cut head : Bytes} (h : Frayed cut head) {line whole : RequestLine}
    (hcut : RequestLine.parse (decodeLossy (rawLines cut).1) = .ok line)
    (hhead : RequestLine.parse (decodeLossy (rawLines head).1) = .ok whole) : line = whole := by
  obtain ⟨before, x, xs, y, ys, hx, hy, hprefix, -⟩ := h.parts
  cases before with
  | nil =>
      rw [show (rawLines cut).1 = x from (List.cons.inj hx).1] at hcut
      rw [show (rawLines head).1 = y from (List.cons.inj hy).1] at hhead
      rcases hprefix with hprefix | hprefix
      · exact RequestLine.parse_of_cutShort (Text.cutShort_decodeLossy hprefix) hcut hhead
      · exact (RequestLine.parse_of_cutShort (Text.cutShort_decodeLossy hprefix) hhead hcut).symm
  | cons first before =>
      rw [show (rawLines cut).1 = first from (List.cons.inj hx).1] at hcut
      rw [show (rawLines head).1 = first from (List.cons.inj hy).1] at hhead
      exact Except.ok.inj (hcut.symm.trans hhead)

/-! ## The header lines -/

/-- The header lines of raw lines come before those behind them, if these count at all. -/
theorem headerLinesOf_append (raws : List (List Char)) :
    (∀ more, headerLinesOf (raws ++ more) = headerLinesOf raws ++ headerLinesOf more) ∨
      ∀ more, headerLinesOf (raws ++ more) = headerLinesOf raws := by
  by_cases hall : (headerLinesOf raws).length = (raws.map (Text.dropTrailing '\r')).length
  · have hsame : headerLinesOf raws = raws.map (Text.dropTrailing '\r') :=
      (List.takeWhile_prefix _).eq_of_length hall
    left
    intro more
    unfold headerLinesOf at hall hsame ⊢
    rw [List.map_append, List.takeWhile_append, if_pos hall, hsame]
  · right
    intro more
    unfold headerLinesOf at hall ⊢
    rw [List.map_append, List.takeWhile_append, if_neg hall]

/-- If there are no header lines behind a line, it is the only one. -/
theorem length_headerLinesOf_cons {raw : List Char} {raws : List (List Char)}
    (h : headerLinesOf raws = []) : (headerLinesOf (raw :: raws)).length ≤ 1 := by
  unfold headerLinesOf at h ⊢
  rw [List.map_cons, List.takeWhile_cons, h]
  split <;> simp

/-- A frayed head has the header lines that the other one begins with, and one more at
most. -/
theorem Frayed.headerLines {cut head : Bytes} (h : Frayed cut head) :
    ∃ same extra, Http.headerLines cut = same ++ extra ∧ extra.length ≤ 1 ∧
      same <+: Http.headerLines head := by
  obtain ⟨before, x, xs, y, ys, hx, hy, -, hxs⟩ := h.parts
  cases before with
  | nil =>
      refine ⟨[], [], ?_, Nat.zero_le 1, List.nil_prefix⟩
      rw [Http.headerLines, show (rawLines cut).2 = xs from (List.cons.inj hx).2, hxs]
      rfl
  | cons first before =>
      have hcut : (rawLines cut).2 = before ++ x :: xs := (List.cons.inj hx).2
      have hhead : (rawLines head).2 = before ++ y :: ys := (List.cons.inj hy).2
      unfold Http.headerLines
      rw [hcut, hhead, List.map_append, List.map_append]
      rcases headerLinesOf_append (before.map decodeLossy) with happend | happend
      · rw [happend, happend]
        exact ⟨_, _, rfl, length_headerLinesOf_cons hxs, List.prefix_append _ _⟩
      · rw [happend, happend]
        exact ⟨_, [], (List.append_nil _).symm, Nat.zero_le 1, List.prefix_refl _⟩

/-! ## The map of headers -/

variable {fields after : HeaderFields}

/-- A line adds one entry to the map, or none. -/
theorem others_recordLine {line : List Char} (h : fields.recordLine line = .ok after) :
    after.others = fields.others ∨ ∃ name value, fields.others.contains name = false ∧
      after.others = fields.others.insert name value := by
  rw [HeaderFields.recordLine] at h
  split at h
  · obtain rfl := Except.ok.inj h
    exact .inl rfl
  · rename_i name value hline
    rcases name_cases name with rfl | rfl | rfl | ordinary
    · rw [record_host] at h
      obtain rfl := Except.ok.inj h
      exact .inl rfl
    · rw [record_userAgent] at h
      obtain rfl := Except.ok.inj h
      exact .inl rfl
    · rw [record_platform] at h
      split at h
      · obtain rfl := Except.ok.inj h
        exact .inl rfl
      · cases h
    · rw [record_ordinary fields value ordinary] at h
      split at h
      · rename_i others hadd
        obtain ⟨hfree, rfl⟩ := Headers.add_eq_ok_iff.1 hadd
        obtain rfl := Except.ok.inj h
        exact .inr ⟨name, _, hfree, rfl⟩
      · cases h

/-- The entries behind a line are those before it, with one more at most. -/
theorem exists_entries_recordLine {line : List Char} (h : fields.recordLine line = .ok after) :
    ∃ extra, extra.length ≤ 1 ∧
      after.others.entries.Perm (extra ++ fields.others.entries) := by
  rcases others_recordLine h with hsame | ⟨name, value, hfree, hinsert⟩
  · exact ⟨[], Nat.zero_le 1, by rw [hsame]; exact .refl _⟩
  · exact ⟨[(name, value)], Nat.le_refl 1, by
      rw [hinsert]
      exact Dictionary.perm_insert value hfree⟩

/-- Lines take nothing out of the map. -/
theorem entries_subset_of_recordLines {lines : List (List Char)}
    (h : fields.recordLines lines = .ok after) :
    fields.others.entries ⊆ after.others.entries := by
  induction lines generalizing fields with
  | nil =>
      obtain rfl := Except.ok.inj h
      exact List.Subset.refl _
  | cons line lines ih =>
      rw [recordLines_cons] at h
      obtain ⟨next, hline, hrest⟩ := bind_eq_ok_iff.1 h
      obtain ⟨extra, -, hperm⟩ := exists_entries_recordLine hline
      intro entry hentry
      exact ih hrest (hperm.mem_iff.2 (List.mem_append_right extra hentry))

/-- One line at most puts at most one entry into the map. -/
theorem length_filter_of_recordLines {lines : List (List Char)} (hone : lines.length ≤ 1)
    (h : fields.recordLines lines = .ok after) {known : List (String × String)}
    (hknown : fields.others.entries ⊆ known) :
    (after.others.entries.filter (· ∉ known)).length ≤ 1 := by
  have hnone : fields.others.entries.filter (· ∉ known) = [] := by
    rw [List.filter_eq_nil_iff]
    intro entry hentry
    simpa using hknown hentry
  match lines with
  | [] =>
      obtain rfl := Except.ok.inj h
      rw [hnone]
      exact Nat.zero_le 1
  | [line] =>
      rw [recordLines_cons] at h
      obtain ⟨next, hline, hrest⟩ := bind_eq_ok_iff.1 h
      obtain rfl := Except.ok.inj hrest
      obtain ⟨extra, hextra, hperm⟩ := exists_entries_recordLine hline
      rw [(hperm.filter _).length_eq, List.filter_append, hnone, List.append_nil]
      exact Nat.le_trans (List.length_filter_le _ extra) hextra
  | _ :: _ :: _ => simp at hone

/-- What a frayed head says in its headers, the other one does too, one entry at most
aside. -/
theorem Frayed.others {cut head : Bytes} (h : Frayed cut head) {fields whole : HeaderFields}
    (hcut : ({} : HeaderFields).recordLines (Http.headerLines cut) = .ok fields)
    (hhead : ({} : HeaderFields).recordLines (Http.headerLines head) = .ok whole) :
    (fields.others.entries.filter (· ∉ whole.others.entries)).length ≤ 1 := by
  obtain ⟨same, extra, hlines, hone, rest, hrest⟩ := h.headerLines
  rw [hlines, recordLines_append] at hcut
  rw [← hrest, recordLines_append] at hhead
  obtain ⟨seen, hsame, hextra⟩ := bind_eq_ok_iff.1 hcut
  obtain ⟨_, hsame', hbehind⟩ := bind_eq_ok_iff.1 hhead
  obtain rfl := Except.ok.inj (hsame.symm.trans hsame')
  exact length_filter_of_recordLines hone hextra (entries_subset_of_recordLines hbehind)

/-! ## Whole requests -/

/-- A request that is read although it was cut short asks for what the whole one asks
for, if that is one; and of its headers at most one is not among those of the whole
one. -/
theorem truncation_keeps_the_route {buffer : Bytes} {n : Nat} {request : Request}
    (h : (Request.parse (buffer.take n)).value = .ok request) :
    (∃ e, (Request.parse buffer).value = .error e) ∨
      ∃ whole, (Request.parse buffer).value = .ok whole ∧
        request.method = whole.method ∧ request.path = whole.path ∧
        request.version = whole.version ∧
        (request.headers.entries.filter (· ∉ whole.headers.entries)).length ≤ 1 := by
  cases hwhole : (Request.parse buffer).value with
  | error e => exact .inl ⟨e, rfl⟩
  | ok whole =>
      obtain ⟨line, fields, hcut, rfl⟩ := value_parse_eq_ok_iff.1 h
      obtain ⟨line', fields', hhead, rfl⟩ := value_parse_eq_ok_iff.1 hwhole
      obtain ⟨hline, hfields⟩ := readHead_eq_ok hcut
      obtain ⟨hline', hfields'⟩ := readHead_eq_ok hhead
      have hfrayed := frayed_splitHead buffer n
      obtain rfl := hfrayed.requestLine hline hline'
      exact .inr ⟨_, rfl, rfl, rfl, rfl, hfrayed.others hfields hfields'⟩

/-- A request with a header whose value ends with a character of two bytes. -/
def accented : Bytes := Text.bytes "GET /a HTTP/1.1\r\nX-A: 1\r\nX-B: né\r\n\r\nbody"

/-- A cut inside that character leaves a header that the whole request does not have. -/
theorem truncation_tears_a_header :
    ∃ request, (Request.parse (accented.take 32)).value = .ok request ∧
      request.headers.entries = [("X-A", "1"), ("X-B", "n\uFFFD")] ∧
      ((∃ e, (Request.parse accented).value = .error e) ∨
        ∃ whole, (Request.parse accented).value = .ok whole ∧
          request.method = whole.method ∧ request.path = whole.path ∧
          request.version = whole.version ∧
          (request.headers.entries.filter (· ∉ whole.headers.entries)).length ≤ 1) := by
  have hparse : ∃ request, (Request.parse (accented.take 32)).value = .ok request ∧
      request.headers.entries = [("X-A", "1"), ("X-B", "n\uFFFD")] := ⟨_, rfl, by decide⟩
  obtain ⟨request, hrequest, hentries⟩ := hparse
  exact ⟨request, hrequest, hentries, truncation_keeps_the_route hrequest⟩

end SiteServer.Http
