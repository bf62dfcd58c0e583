import SiteServer.Site

/-!
# Directories with a slash at their end

Before anything is served, both directories get a slash at their end, so that the path of
a file is the directory with the name behind it.  This is not meant to change where files
are found.  It does not as long as there is a directory to begin with: a name is put behind
a slash in any case, and one that the directory has already is not written twice
(`join_asDirectory`).

The empty directory is different.  Names stand for themselves in it, and behind a slash of
their own they start at the root of the file system (`join_asDirectory_empty`).  So one
question decides whether a directory stays where it was (`samePath_asDirectory_iff`).
Checked settings have a directory of files, but may leave that of the templates empty, and
it is exactly then that templates are looked for elsewhere
(`directories_stay_unless_empty`).
-/

namespace SiteServer

namespace Files.Path

/-- Two texts denote the same path: they start at the same place, and lead on through the
same components. -/
structure SamePath (path other : List Char) : Prop where
  start : isAbsolute path = isAbsolute other
  components : components path = components other

instance (path other : List Char) : Decidable (SamePath path other) :=
  decidable_of_iff
    (isAbsolute path = isAbsolute other ∧ Path.components path = Path.components other)
    ⟨fun h => ⟨h.1, h.2⟩, fun h => ⟨h.start, h.components⟩⟩

end Files.Path

open Files (FileSystem)
open Files.Path (SamePath isAbsolute join resolve?)

namespace Settings

/-! ## A slash at the end -/

theorem asDirectory_of_slash {dir : String} (h : dir.toList.getLast? = some '/') :
    asDirectory dir = dir :=
  if_pos h

theorem toList_asDirectory {dir : String} (h : dir.toList.getLast? ≠ some '/') :
    (asDirectory dir).toList = dir.toList ++ ['/'] := by
  rw [asDirectory, if_neg h, String.toList_append]
  rfl

theorem getLast?_asDirectory (dir : String) : (asDirectory dir).toList.getLast? = some '/' := by
  by_cases h : dir.toList.getLast? = some '/'
  · rw [asDirectory_of_slash h, h]
  · rw [toList_asDirectory h, List.getLast?_concat]

/-- One slash is enough. -/
theorem asDirectory_asDirectory (dir : String) : asDirectory (asDirectory dir) = asDirectory dir :=
  asDirectory_of_slash (getLast?_asDirectory dir)

theorem asDirectory_ne_empty (dir : String) : asDirectory dir ≠ "" := by
  intro h
  have hlast := getLast?_asDirectory dir
  rw [h] at hlast
  contradiction

theorem normalized_normalized (s : Settings) : s.normalized.normalized = s.normalized := by
  simp only [normalized, asDirectory_asDirectory]

/-! ## Files in a directory -/

/-- The text of a path does not show whether its directory was given with a slash. -/
theorem join_asDirectory {dir : String} (h : dir ≠ "") (file : List Char) :
    join (asDirectory dir).toList file = join dir.toList file := by
  by_cases hslash : dir.toList.getLast? = some '/'
  · rw [asDirectory_of_slash hslash]
  · by_cases habsolute : isAbsolute file = true
    · -- what is absolute is not put behind anything
      rw [join, join, if_pos habsolute, if_pos habsolute]
    · have hne : dir.toList ≠ [] := fun hnil => h (String.toList_eq_nil_iff.1 hnil)
      rw [toList_asDirectory hslash, join, join, if_neg habsolute, if_neg habsolute,
        if_pos (.inr List.getLast?_concat), if_neg (not_or.2 ⟨hne, hslash⟩), List.append_assoc]
      rfl

/-- What is in no directory is moved to the root. -/
theorem join_asDirectory_empty {file : List Char} (h : isAbsolute file = false) :
    join (asDirectory "").toList file = '/' :: file ∧ join "".toList file = file := by
  have hnot : ¬ isAbsolute file = true := by simp [h]
  constructor
  · rw [join, if_neg hnot]
    rfl
  · rw [join, if_neg hnot]
    rfl

/-- A directory stays where it was unless it was empty. -/
theorem samePath_asDirectory_iff {dir : String} {file : List Char} (h : isAbsolute file = false) :
    SamePath (join (asDirectory dir).toList file) (join dir.toList file) ↔ dir ≠ "" := by
  constructor
  · rintro hsame rfl
    obtain ⟨hmoved, hleft⟩ := join_asDirectory_empty h
    have hstart := hsame.start
    rw [hmoved, hleft, h] at hstart
    contradiction
  · intro hne
    rw [join_asDirectory hne]
    exact ⟨rfl, rfl⟩

end Settings

/-! ## What is looked up in a directory -/

theorem Files.Path.resolve?_asDirectory {dir : String} (h : dir ≠ "") (requested : String) :
    resolve? (Settings.asDirectory dir) requested = resolve? dir requested := by
  unfold resolve?
  simp only [Settings.join_asDirectory h]

/-- A service answers from a directory as it does from the directory with a slash. -/
theorem Connection.Service.respond_asDirectory (service : Connection.Service) {dir : String}
    (h : dir ≠ "") (fs : FileSystem) (buffer : Bytes) :
    { service with root := Settings.asDirectory dir }.respond fs buffer =
      { service with root := dir }.respond fs buffer := by
  apply respond_eq_of_dispatch
  intro request hparse
  have hfile : { service with root := Settings.asDirectory dir }.serveFile fs request.path =
      { service with root := dir }.serveFile fs request.path := by
    simp only [serveFile, Files.Path.resolve?_asDirectory h]
  unfold dispatch
  rw [hfile]

/-- A template is read from a directory as it is from the directory with a slash. -/
theorem Template.Store.renderValue_asDirectory (table : Media.ExtensionTable) {dir : String}
    (h : dir ≠ "") (fs : FileSystem) (file : String) (data : Json) :
    (Store.mk (Settings.asDirectory dir) table).renderValue fs file data =
      (Store.mk dir table).renderValue fs file data := by
  have hpath : (Store.mk (Settings.asDirectory dir) table).path file =
      (Store.mk dir table).path file := by
    simp only [path, Settings.join_asDirectory h]
  simp only [renderValue, hpath]

namespace Settings

/-! ## Checked settings -/

/-- Settings that pass the check have a directory of files. -/
theorem staticDir_ne_empty {s : Settings} (h : s.validate = .ok ()) : s.staticDir ≠ "" := by
  intro hempty
  unfold validate at h
  split at h
  · contradiction
  · split at h
    · contradiction
    · contradiction

/-- The check looks at no directory but that of the files, and only for its being empty. -/
theorem validate_normalized {s : Settings} (h : s.staticDir ≠ "") :
    s.normalized.validate = s.validate := by
  unfold validate normalized
  dsimp only
  rw [if_neg (asDirectory_ne_empty s.staticDir), if_neg h]

/-- What becomes of settings whose directories get a slash at their end. -/
structure Normalizes (s : Settings) : Prop where
  /-- The files of the site are where they were. -/
  files : ∀ file, isAbsolute file = false →
    SamePath (join s.normalized.staticDir.toList file) (join s.staticDir.toList file)
  /-- So are the templates, each of them, if they have a directory; else none is. -/
  templates : ∀ file, isAbsolute file = false →
    (SamePath (join s.normalized.templatesDir.toList file) (join s.templatesDir.toList file) ↔
      s.templatesDir ≠ "")
  /-- Templates without a directory are moved to the root. -/
  moved : s.templatesDir = "" → ∀ file, isAbsolute file = false →
    join s.normalized.templatesDir.toList file = '/' :: file ∧
      join s.templatesDir.toList file = file
  /-- What is answered with files of the site is what it was. -/
  answers : ∀ (service : Connection.Service) (fs : FileSystem) (buffer : Bytes),
    { service with root := s.normalized.staticDir }.respond fs buffer =
      { service with root := s.staticDir }.respond fs buffer
  /-- What is rendered from templates that have a directory is what it was. -/
  renders : s.templatesDir ≠ "" →
    ∀ (table : Media.ExtensionTable) (fs : FileSystem) (file : String) (data : Json),
      (Template.Store.mk s.normalized.templatesDir table).renderValue fs file data =
        (Template.Store.mk s.templatesDir table).renderValue fs file data
  again : s.normalized.normalized = s.normalized
  slashes : s.normalized.staticDir.toList.getLast? = some '/' ∧
    s.normalized.templatesDir.toList.getLast? = some '/'
  /-- Nothing but the two directories is touched. -/
  others : { s.normalized with staticDir := s.staticDir, templatesDir := s.templatesDir } = s
  verdict : s.normalized.validate = s.validate

/-- Of checked settings, the directory of the files stays where it is, and that of the
templates does exactly if it is not empty. -/
theorem directories_stay_unless_empty {s : Settings} (h : s.validate = .ok ()) :
    Normalizes s where
  files := fun _ hrelative => (samePath_asDirectory_iff hrelative).2 (staticDir_ne_empty h)
  templates := fun _ hrelative => samePath_asDirectory_iff hrelative
  moved := by
    intro hempty file hrelative
    have hnormalized : s.normalized.templatesDir = asDirectory "" := congrArg asDirectory hempty
    rw [hnormalized, hempty]
    exact join_asDirectory_empty hrelative
  answers := fun service => service.respond_asDirectory (staticDir_ne_empty h)
  renders := fun hne table => Template.Store.renderValue_asDirectory table hne
  again := normalized_normalized s
  slashes := ⟨getLast?_asDirectory _, getLast?_asDirectory _⟩
  others := rfl
  verdict := validate_normalized (staticDir_ne_empty h)

/-- The templates of an empty command line are where their directory was. -/
theorem default_directories_stay :
    ({} : Settings).validate = .ok () ∧
      SamePath (join "./templates/".toList "hello.html".toList)
        (join "./templates".toList "hello.html".toList) := by
  have hvalid : ({} : Settings).validate = .ok () := rfl
  have hnormalizes := directories_stay_unless_empty hvalid
  exact ⟨hvalid, (hnormalizes.templates "hello.html".toList (by decide)).2 (by decide)⟩

/-- Settings that leave the directory of the templates empty. -/
def withoutTemplates : Settings := { templatesDir := "" }

/-- They pass the check, and their templates are moved to the root of the file system. -/
theorem empty_directory_is_moved :
    withoutTemplates.validate = .ok () ∧ isAbsolute "hello.html".toList = false ∧
      join withoutTemplates.templatesDir.toList "hello.html".toList = "hello.html".toList ∧
      join withoutTemplates.normalized.templatesDir.toList "hello.html".toList =
        "/hello.html".toList ∧
      ¬ SamePath (join withoutTemplates.normalized.templatesDir.toList "hello.html".toList)
        (join withoutTemplates.templatesDir.toList "hello.html".toList) := by
  refine ⟨rfl, ?_⟩
  decide

end Settings

end SiteServer
