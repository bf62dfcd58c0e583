import SiteServer.Files.Path

/-!
# What lies below a directory

A path lies below a directory if it leads there and then only on to ordinary
names.  Single dots say nothing, so they are left out of the comparison
(`proper`); what is left of a path is a leading slash, if it has one, and what
its segments say (`said`).

Joining two paths puts what the second says behind the first, unless the second
is absolute (`proper_join`).  The path of a request loses its leading slashes
before it is joined to the root of the site, and is refused if it goes up
anywhere, so what it resolves to is always below the root
(`proper_of_resolve?`).
-/

namespace SiteServer.Files.Path

/-! ## What a path says -/

/-- What the segments of a path say. -/
def said (path : List Char) : List Component :=
  (segments path).filterMap Component.ofSegment?

/-- The components of a path, single dots aside. -/
def proper (path : List Char) : List Component :=
  (components path).filter (· ≠ .here)

/-- The ordinary name that a component is, if it is one. -/
def Component.name? : Component → Option (List Char)
  | name segment => some segment
  | _ => none

/-- The ordinary names in a path, in order. -/
def names (path : List Char) : List (List Char) :=
  (components path).filterMap Component.name?

/-- A name that means neither a directory itself nor the one above it. -/
structure Ordinary (segment : List Char) : Prop where
  nonempty : segment ≠ []
  not_here : segment ≠ ['.']
  not_up : segment ≠ ['.', '.']
  whole : '/' ∉ segment

theorem ofSegment?_eq_name {segment found : List Char}
    (h : Component.ofSegment? segment = some (.name found)) :
    found = segment ∧ segment ≠ [] ∧ segment ≠ ['.'] ∧ segment ≠ ['.', '.'] := by
  unfold Component.ofSegment? at h
  split at h
  · contradiction
  · rename_i hsays
    split at h
    · simp at h
    · rename_i hup
      obtain rfl : segment = found := by simpa using h
      exact ⟨rfl, fun hnil => hsays (.inl hnil), fun hdot => hsays (.inr hdot), hup⟩

theorem ofSegment?_ne {segment : List Char} {c : Component}
    (h : Component.ofSegment? segment = some c) : c ≠ .here ∧ c ≠ .root := by
  unfold Component.ofSegment? at h
  split at h
  · contradiction
  · split at h
    · obtain rfl := Option.some.inj h
      simp
    · obtain rfl := Option.some.inj h
      simp

theorem ne_of_mem_said {path : List Char} {c : Component} (h : c ∈ said path) :
    c ≠ .here ∧ c ≠ .root := by
  obtain ⟨segment, -, hsegment⟩ := List.mem_filterMap.1 h
  exact ofSegment?_ne hsegment

/-- What precedes the segments of a path has no names in it. -/
theorem filterMap_name?_lead (path : List Char) : (lead path).filterMap Component.name? = [] := by
  unfold lead
  split
  · rfl
  · split <;> rfl

theorem names_eq (path : List Char) : names path = (said path).filterMap Component.name? := by
  unfold names components
  rw [List.filterMap_append, filterMap_name?_lead]
  rfl

/-- The names in a path are ordinary. -/
theorem ordinary_of_mem_names {path segment : List Char} (h : segment ∈ names path) :
    Ordinary segment := by
  rw [names_eq, List.mem_filterMap] at h
  obtain ⟨c, hmem, hname⟩ := h
  obtain ⟨piece, hpiece, hsays⟩ := List.mem_filterMap.1 hmem
  cases c with
  | name found =>
      obtain rfl : found = segment := by simpa [Component.name?] using hname
      obtain ⟨rfl, hnonempty, hdot, hup⟩ := ofSegment?_eq_name hsays
      refine ⟨hnonempty, hdot, hup, fun hslash => ?_⟩
      have hsep := Text.not_sep_of_mem_pieces hpiece hslash
      simp at hsep
  | _ => contradiction

/-- Single dots aside, a path is a leading slash or none, and what its segments say. -/
theorem proper_eq (path : List Char) :
    proper path = (if isAbsolute path then [.root] else []) ++ said path := by
  have hsaid : (said path).filter (· ≠ .here) = said path := by
    rw [List.filter_eq_self]
    intro c hmem
    simpa using (ne_of_mem_said hmem).1
  unfold proper components
  rw [List.filter_append]
  show _ ++ (said path).filter (· ≠ .here) = _
  rw [hsaid]
  unfold lead
  split
  · rfl
  · split <;> rfl

/-! ## Joined paths -/

theorem said_append_slash (base rest : List Char) :
    said (base ++ '/' :: rest) = said base ++ said rest := by
  unfold said segments
  rw [Text.pieces_append_cons (by simp), List.filterMap_append]

/-- What is joined is said one after the other. -/
theorem said_join (base : List Char) {rest : List Char} (h : isAbsolute rest = false) :
    said (join base rest) = said base ++ said rest := by
  unfold join
  rw [if_neg (by simp [h])]
  by_cases hempty : base = []
  · rw [if_pos (.inl hempty), hempty]
    rfl
  · by_cases hslash : base.getLast? = some '/'
    · rw [if_pos (.inr hslash)]
      obtain ⟨front, rfl⟩ := List.getLast?_eq_some_iff.1 hslash
      have hfront : said (front ++ ['/']) = said front := by
        rw [said_append_slash]
        exact List.append_nil _
      rw [hfront, List.append_assoc, List.singleton_append, said_append_slash]
    · rw [if_neg (not_or.2 ⟨hempty, hslash⟩), said_append_slash]

/-- What is joined starts where the first path does. -/
theorem isAbsolute_join (base : List Char) {rest : List Char} (h : isAbsolute rest = false) :
    isAbsolute (join base rest) = isAbsolute base := by
  unfold join
  rw [if_neg (by simp [h])]
  cases base with
  | nil => exact h
  | cons c base =>
      split
      · rfl
      · rfl

theorem proper_join (base : List Char) {rest : List Char} (h : isAbsolute rest = false) :
    proper (join base rest) = proper base ++ said rest := by
  rw [proper_eq, proper_eq, isAbsolute_join base h, said_join base h, List.append_assoc]

/-! ## The paths of requests -/

/-- Leading slashes say nothing. -/
theorem said_dropWhile (path : List Char) : said (path.dropWhile (· = '/')) = said path := by
  induction path with
  | nil => rfl
  | cons c rest ih =>
      by_cases hc : c = '/'
      · have hempty : said ('/' :: rest) = said rest := said_append_slash [] rest
        rw [List.dropWhile_cons_of_pos (by simp [hc]), ih, hc, hempty]
      · rw [List.dropWhile_cons_of_neg (by simp [hc])]

theorem isAbsolute_dropWhile (path : List Char) :
    isAbsolute (path.dropWhile (· = '/')) = false := by
  unfold isAbsolute
  cases hrest : path.dropWhile (· = '/') with
  | nil => rfl
  | cons c rest =>
      have hhead := List.head?_dropWhile_not (fun c : Char => decide (c = '/')) path
      rw [hrest] at hhead
      simpa using hhead

/-- Where all are names, the names are all there is. -/
theorem eq_map_name {said : List Component} (h : ∀ c ∈ said, ∃ segment, c = .name segment) :
    said = (said.filterMap Component.name?).map .name := by
  induction said with
  | nil => rfl
  | cons c rest ih =>
      obtain ⟨segment, rfl⟩ := h c (List.mem_cons_self ..)
      have hrest := ih fun d hmem => h d (List.mem_cons_of_mem _ hmem)
      simp only [List.filterMap_cons, Component.name?, List.map_cons]
      rw [← hrest]

/-- A path that stays below says nothing but names. -/
theorem said_of_staysBelow {path : List Char}
    (h : (components path).all Component.staysBelow = true) :
    said path = (names path).map .name := by
  rw [names_eq]
  apply eq_map_name
  intro c hmem
  have hbelow := List.all_eq_true.1 h c (List.mem_append_right _ hmem)
  have hne := ne_of_mem_said hmem
  cases c with
  | name segment => exact ⟨segment, rfl⟩
  | here => exact absurd rfl hne.1
  | root => exact absurd rfl hne.2
  | up => simp [Component.staysBelow] at hbelow

/-- A path that leads to a directory and on from there to ordinary names only. -/
def Below (root path : String) : Prop :=
  ∃ segments : List (List Char), (∀ segment ∈ segments, Ordinary segment) ∧
    proper path.toList = proper root.toList ++ segments.map .name

/-- What the path of a request resolves to: the root of the site, and then the names
in the path. -/
theorem proper_of_resolve? {root requested file : String}
    (h : resolve? root requested = some file) :
    proper file.toList = proper root.toList ++ (names requested.toList).map .name := by
  unfold resolve? at h
  dsimp only at h
  split at h
  · rename_i hbelow
    obtain rfl := Option.some.inj h
    have hnames : names (requested.toList.dropWhile (· = '/')) = names requested.toList := by
      rw [names_eq, names_eq, said_dropWhile]
    rw [String.toList_ofList, proper_join _ (isAbsolute_dropWhile _),
      said_of_staysBelow hbelow, hnames]
  · contradiction

theorem below_of_resolve? {root requested file : String}
    (h : resolve? root requested = some file) : Below root file :=
  ⟨names requested.toList, fun _ => ordinary_of_mem_names, proper_of_resolve? h⟩

end SiteServer.Files.Path
