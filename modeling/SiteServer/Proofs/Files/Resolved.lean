import SiteServer.Proofs.Files.Below
import SiteServer.Proofs.Text.Ends
import Mathlib.Data.List.Basic

/-!
# What the path of a request resolves to

Whether a path is refused, and what it names otherwise, can be read off its segments:
the texts between its slashes (`HasSegments`), whatever they mean to a file system.  A
path is refused exactly if one of its segments is two dots (`resolve?_eq_none_iff`), so
a name that only holds dots, or begins with them, does no harm.

Every other path is put behind the root as it was sent, its leading slashes aside
(`resolve?_eq_some`).  As nothing absolute is ever joined to the root, the root stays
where it is, and what follows its names are the segments that say something
(`names_join`).
-/

namespace SiteServer.Files.Path

/-! ## Segments -/

/-- A path is cut into segments that hold no slash, with one slash between neighbours. -/
structure HasSegments (path : List Char) (segs : List (List Char)) : Prop where
  nonempty : segs ≠ []
  whole : ∀ segment ∈ segs, '/' ∉ segment
  joined : path = ['/'].intercalate segs

theorem hasSegments_segments (path : List Char) : HasSegments path (segments path) where
  nonempty := Text.pieces_ne_nil _ _
  whole := by
    intro segment hmem hslash
    have hsep := Text.not_sep_of_mem_pieces hmem hslash
    simp at hsep
  joined := (Text.intercalate_pieces '/' path).symm

/-- There is one way to cut a path. -/
theorem hasSegments_iff {path : List Char} {segs : List (List Char)} :
    HasSegments path segs ↔ segs = segments path := by
  constructor
  · intro h
    rw [segments, h.joined, Text.pieces_intercalate h.nonempty h.whole]
  · rintro rfl
    exact hasSegments_segments path

/-! ### What they say -/

theorem ofSegment?_eq_up_iff {segment : List Char} :
    Component.ofSegment? segment = some .up ↔ segment = ['.', '.'] := by
  unfold Component.ofSegment?
  split
  · rename_i hsilent
    refine iff_of_false (by simp) ?_
    rintro rfl
    simp at hsilent
  · split <;> simp_all

theorem up_mem_said_iff {path : List Char} : .up ∈ said path ↔ ['.', '.'] ∈ segments path := by
  rw [said, List.mem_filterMap]
  constructor
  · rintro ⟨segment, hmem, hup⟩
    exact ofSegment?_eq_up_iff.1 hup ▸ hmem
  · intro hmem
    exact ⟨_, hmem, ofSegment?_eq_up_iff.2 rfl⟩

/-- A segment that says something: it is not empty, and more than a single dot. -/
def Says (segment : List Char) : Prop := segment ≠ [] ∧ segment ≠ ['.']

instance : DecidablePred Says := fun segment =>
  inferInstanceAs (Decidable (segment ≠ [] ∧ segment ≠ ['.']))

theorem bind_name?_ofSegment? {segment : List Char} (h : segment ≠ ['.', '.']) :
    (Component.ofSegment? segment).bind Component.name? =
      if Says segment then some segment else none := by
  unfold Component.ofSegment?
  by_cases hsilent : segment = [] ∨ segment = ['.']
  · rw [if_pos hsilent, if_neg fun hsays : Says segment => not_or.2 hsays hsilent]
    rfl
  · have hsays : Says segment := not_or.1 hsilent
    rw [if_neg hsilent, if_neg h, if_pos hsays]
    rfl

/-- Where nothing goes up, the names in a path are the segments that say something. -/
theorem names_eq_filter {path : List Char} (h : ['.', '.'] ∉ segments path) :
    names path = (segments path).filter Says := by
  rw [names_eq, said, List.filterMap_filterMap]
  have hsame : ∀ segment ∈ segments path,
      (Component.ofSegment? segment).bind Component.name? =
        Option.guard Says segment := by
    intro segment hmem
    have hup : segment ≠ ['.', '.'] := fun heq => h (heq ▸ hmem)
    rw [bind_name?_ofSegment? hup]
    simp [Option.guard]
  rw [List.filterMap_congr hsame, List.filterMap_eq_filter]

/-! ## Refused paths -/

/-- A relative path stays below where it is taken from unless one of its segments is two
dots. -/
theorem all_staysBelow_iff {path : List Char} (h : isAbsolute path = false) :
    (components path).all Component.staysBelow = true ↔ ['.', '.'] ∉ segments path := by
  rw [← up_mem_said_iff, List.all_eq_true]
  constructor
  · intro hbelow hup
    exact absurd (hbelow .up (List.mem_append_right _ hup)) (by decide)
  · intro hup c hmem
    rcases List.mem_append.1 hmem with hlead | hsaid
    · simp only [lead, h, Bool.false_eq_true, if_false, List.mem_ite_nil_right,
        List.mem_singleton] at hlead
      rw [hlead.2]
      rfl
    · have hne := ne_of_mem_said hsaid
      cases c with
      | here | name => rfl
      | root => exact absurd rfl hne.2
      | up => exact absurd hsaid hup

/-- Leading slashes make no difference to what goes up. -/
theorem up_mem_segments_dropWhile {path : List Char} :
    ['.', '.'] ∈ segments (path.dropWhile (· = '/')) ↔ ['.', '.'] ∈ segments path := by
  rw [← up_mem_said_iff, ← up_mem_said_iff, said_dropWhile]

theorem resolve?_eq_none_iff {root requested : String} :
    resolve? root requested = none ↔ ['.', '.'] ∈ segments requested.toList := by
  have hbelow := all_staysBelow_iff (isAbsolute_dropWhile requested.toList)
  rw [up_mem_segments_dropWhile] at hbelow
  unfold resolve?
  dsimp only
  split
  · rename_i hall
    exact iff_of_false (by simp) (hbelow.1 hall)
  · rename_i hnot
    exact iff_of_true rfl (by_contra fun hup => hnot (hbelow.2 hup))

/-! ## Resolved paths -/

/-- The slash between a root and what is put behind it, where one is needed. -/
def separator (root : List Char) : List Char :=
  if root ≠ [] ∧ root.getLast? ≠ some '/' then ['/'] else []

/-- What is not absolute is put behind the root. -/
theorem join_eq (root : List Char) {rest : List Char} (h : isAbsolute rest = false) :
    join root rest = root ++ separator root ++ rest := by
  unfold join separator
  rw [if_neg (by simp [h])]
  by_cases hready : root = [] ∨ root.getLast? = some '/'
  · rw [if_pos hready, if_neg fun hneeded => not_or.2 hneeded hready, List.append_nil]
  · rw [if_neg hready, if_pos (not_or.1 hready), List.append_assoc, List.singleton_append]

/-- The names in what is joined come one after the other. -/
theorem names_join (root : List Char) {rest : List Char} (h : isAbsolute rest = false) :
    names (join root rest) = names root ++ names rest := by
  rw [names_eq, names_eq, names_eq, said_join root h, List.filterMap_append]

theorem resolve?_eq_some {root requested : String} (h : ['.', '.'] ∉ segments requested.toList) :
    resolve? root requested =
      some (String.ofList (join root.toList (requested.toList.dropWhile (· = '/')))) := by
  have hbelow := (all_staysBelow_iff (isAbsolute_dropWhile requested.toList)).2
    (mt up_mem_segments_dropWhile.1 h)
  unfold resolve?
  dsimp only
  rw [if_pos hbelow]

/-- A path that is not refused is joined to the root without its leading slashes. -/
theorem toList_of_resolve? {root requested file : String}
    (h : resolve? root requested = some file) :
    ['.', '.'] ∉ segments requested.toList ∧
      file.toList = join root.toList (requested.toList.dropWhile (· = '/')) := by
  have hup : ['.', '.'] ∉ segments requested.toList := by
    intro hmem
    rw [resolve?_eq_none_iff.2 hmem] at h
    contradiction
  rw [resolve?_eq_some hup] at h
  refine ⟨hup, ?_⟩
  rw [← Option.some.inj h, String.toList_ofList]

theorem resolve?_text {root requested : String} (h : ['.', '.'] ∉ segments requested.toList) :
    ∃ slashes rest, requested.toList = slashes ++ rest ∧ (∀ c ∈ slashes, c = '/') ∧
      rest.head? ≠ some '/' ∧
      resolve? root requested =
        some (String.ofList (root.toList ++ separator root.toList ++ rest)) := by
  have hrelative := isAbsolute_dropWhile requested.toList
  obtain ⟨slashes, hparts, hslashes⟩ :=
    Text.exists_append_dropWhile (fun c : Char => decide (c = '/')) requested.toList
  refine ⟨slashes, _, hparts, by simpa using hslashes, by simpa [isAbsolute] using hrelative, ?_⟩
  rw [resolve?_eq_some h, join_eq root.toList hrelative]

/-- What a path resolves to leads through the names of the root, and then through the
segments of the path. -/
theorem names_of_resolve? {root requested file : String}
    (h : resolve? root requested = some file) :
    names file.toList = names root.toList ++ (segments requested.toList).filter Says := by
  obtain ⟨hup, hjoin⟩ := toList_of_resolve? h
  have hsame : names (requested.toList.dropWhile (· = '/')) = names requested.toList := by
    rw [names_eq, names_eq, said_dropWhile]
  rw [hjoin, names_join _ (isAbsolute_dropWhile _), hsame, names_eq_filter hup]

theorem rooted_of_resolve? {root requested file : String}
    (h : resolve? root requested = some file) :
    root.toList <+: file.toList ∧ isAbsolute file.toList = isAbsolute root.toList := by
  have hrelative := isAbsolute_dropWhile requested.toList
  obtain ⟨-, hjoin⟩ := toList_of_resolve? h
  rw [hjoin, isAbsolute_join _ hrelative, join_eq _ hrelative, List.append_assoc]
  exact ⟨List.prefix_append _ _, rfl⟩

theorem resolve?_slashes (root requested : String) (n : Nat) :
    resolve? root (String.ofList (List.replicate n '/' ++ requested.toList)) =
      resolve? root requested := by
  have hslashes : ∀ c ∈ List.replicate n '/', decide (c = '/') = true := by
    intro c hmem
    simpa using List.eq_of_mem_replicate hmem
  unfold resolve?
  rw [String.toList_ofList, List.dropWhile_append_of_pos hslashes]

/-- What the path of a request comes to, said of its segments. -/
structure Resolution (root requested : String) (segs : List (List Char)) : Prop where
  /-- These are the segments of the path, and there is no other way to cut it. -/
  cut : ∀ other, HasSegments requested.toList other ↔ other = segs
  /-- Two dots are refused, and nothing else is. -/
  refused : resolve? root requested = none ↔ ['.', '.'] ∈ segs
  /-- What is not refused is put behind the root as it was sent, its leading slashes aside. -/
  text : ['.', '.'] ∉ segs → ∃ slashes rest, requested.toList = slashes ++ rest ∧
    (∀ c ∈ slashes, c = '/') ∧ rest.head? ≠ some '/' ∧
    resolve? root requested =
      some (String.ofList (root.toList ++ separator root.toList ++ rest))
  /-- It leads through the names of the root, and then through the segments. -/
  names : ∀ file, resolve? root requested = some file →
    names file.toList = Path.names root.toList ++ segs.filter Says
  /-- It starts where the root does. -/
  rooted : ∀ file, resolve? root requested = some file →
    root.toList <+: file.toList ∧ isAbsolute file.toList = isAbsolute root.toList
  slashes : ∀ n, resolve? root (String.ofList (List.replicate n '/' ++ requested.toList)) =
    resolve? root requested

/-- Every path is either refused for a segment of two dots, or names what its segments say
below the root. -/
theorem resolve_follows_segments (root requested : String) :
    ∃ segs, Resolution root requested segs :=
  ⟨segments requested.toList,
    { cut := fun _ => hasSegments_iff
      refused := resolve?_eq_none_iff
      text := resolve?_text
      names := fun _ => names_of_resolve?
      rooted := fun _ => rooted_of_resolve?
      slashes := resolve?_slashes root requested }⟩

/-- Three dots are a name like others, and so are dots within one. -/
example : resolve? "./site" "//.../a..b//./c" = some "./site/.../a..b//./c" := by decide

end SiteServer.Files.Path
