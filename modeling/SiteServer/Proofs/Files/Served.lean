import SiteServer.Files.Serve
import SiteServer.Proofs.Http.MediaNames
import SiteServer.Proofs.Media.Loading
import Mathlib.Logic.ExistsUnique

/-!
# Which files are served

A file is looked at up to three times before it is sent: for what it is, for its first
bytes if its extension does not tell its type, and for all of it.  Each time it may fail,
and the type may have a name that the server cannot declare.

Put together, a path is served exactly if it leads to a file that can be read and the name
that is chosen for it can be declared (`value_serve`).  Only a database can bring in a name
that cannot: those of the built-in table and those that contents show are written down
apart from those that can be declared, but all of them are among these
(`readable_files_are_served`).
-/

namespace SiteServer

namespace Media

open Http (MediaType)

/-! ## Tables -/

/-- The tables that a server can have: the built-in one, with any extensions added. -/
def ExtensionTable.IsBuilt (table : ExtensionTable) : Prop :=
  ∃ entries, table = builtIn.extend entries

theorem ExtensionTable.mem_known {e : String × String} (h : e ∈ builtIn.names.entries) :
    e ∈ known :=
  Dictionary.mem_of_mem_ofList (l := known) h

/-- All that a table has is in lower case. -/
theorem ExtensionTable.IsBuilt.lowercase_eq {table : ExtensionTable} (h : table.IsBuilt)
    {key name : String} (hmem : (key, name) ∈ table.names.entries) :
    Text.lowercase key = key := by
  obtain ⟨entries, rfl⟩ := h
  have hknown : ∀ e ∈ known, Text.lowercase e.1 = e.1 := by decide
  rw [← Dictionary.find?_eq_some_iff] at hmem
  rcases find?_extend builtIn entries key with ⟨e, -, hkey, -⟩ | ⟨-, hfound⟩
  · rw [← hkey, Text.lowercase_lowercase]
  · rw [hfound, Dictionary.find?_eq_some_iff] at hmem
    exact hknown (key, name) (mem_known hmem)

/-- In a table, the extension of a path has the entry that is found under its lower case. -/
theorem ExtensionTable.IsBuilt.nameOf?_eq_some_iff {table : ExtensionTable} (h : table.IsBuilt)
    {path name : String} :
    table.nameOf? path = some name ↔
      ∃ key, (key, name) ∈ table.names.entries ∧ HasExtension path key := by
  cases hextension : Files.Path.extension? path.toList with
  | none =>
      rw [nameOf?_eq_none table hextension]
      constructor
      · intro hname
        contradiction
      · rintro ⟨key, -, hhas⟩
        exact absurd hhas (not_hasExtension hextension)
  | some own =>
      rw [nameOf?_eq_find? table hextension, Dictionary.find?_eq_some_iff]
      constructor
      · intro hmem
        exact ⟨_, hmem, (hasExtension_iff hextension).2 (h.lowercase_eq hmem)⟩
      · rintro ⟨key, hmem, hhas⟩
        have hkey := (hasExtension_iff hextension).1 hhas
        rw [← hkey, h.lowercase_eq hmem]
        exact hmem

/-! ## Names that can be declared -/

/-- A name of the built-in table can be declared. -/
theorem exists_parse_of_mem_builtIn {extension name : String}
    (h : (extension, name) ∈ ExtensionTable.builtIn.names.entries) :
    ∃ type, MediaType.parse name = .ok type := by
  have hknown : ∀ e ∈ ExtensionTable.known, e.2 ∈ MediaType.all.map MediaType.name := by decide
  obtain ⟨type, -, hname⟩ := List.mem_map.1 (hknown _ (ExtensionTable.mem_known h))
  simp only at hname
  exact ⟨type, hname ▸ MediaType.parse_name type⟩

/-- Whatever contents show can be declared. -/
theorem exists_parse_recognise (contents : Bytes) :
    ∃ type, MediaType.parse (recognise contents) = .ok type := by
  have hsignatures : ∀ s ∈ signatures, s.name ∈ MediaType.all.map MediaType.name := by decide
  unfold recognise
  split
  · next s hfind =>
      obtain ⟨type, -, hname⟩ := List.mem_map.1 (hsignatures s (List.mem_of_find?_eq_some hfind))
      exact ⟨type, hname ▸ MediaType.parse_name type⟩
  · split
    · exact ⟨.textHtml, MediaType.parse_name .textHtml⟩
    · split
      · exact ⟨.textPlain, MediaType.parse_name .textPlain⟩
      · exact ⟨.applicationOctetStream, MediaType.parse_name .applicationOctetStream⟩

end Media

namespace Files

open Http (MediaType)
open Media (ExtensionTable HasExtension)

/-- The names that may be chosen for the type of a file: that of its extension in the
table, ASCII case aside, or if there is none, the one that its first 512 bytes show. -/
inductive Chosen (table : ExtensionTable) (path : String) (contents : Bytes) : String → Prop where
  | ofExtension {extension name : String} (entry : (extension, name) ∈ table.names.entries)
      (has : HasExtension path extension) : Chosen table path contents name
  | ofContents (unknown : ∀ entry ∈ table.names.entries, ¬ HasExtension path entry.1) :
      Chosen table path contents (Media.recognise (contents.take 512))

namespace FileSystem

/-- The name that is chosen for the type of a file. -/
def chosenName (table : ExtensionTable) (path : String) (contents : Bytes) : String :=
  (table.nameOf? path).getD (Media.recognise (contents.take sniffLength))

/-- One name is chosen for each file. -/
theorem chosen_iff {table : ExtensionTable} (h : table.IsBuilt) {path name : String}
    {contents : Bytes} :
    Chosen table path contents name ↔ name = chosenName table path contents := by
  unfold chosenName
  constructor
  · intro hchosen
    cases hchosen with
    | ofExtension entry has =>
        rw [h.nameOf?_eq_some_iff.2 ⟨_, entry, has⟩]
        rfl
    | ofContents unknown =>
        have hnone : table.nameOf? path = none := by
          rw [Option.eq_none_iff_forall_ne_some]
          intro name hname
          obtain ⟨key, hmem, hhas⟩ := h.nameOf?_eq_some_iff.1 hname
          exact unknown _ hmem hhas
        rw [hnone]
        rfl
  · rintro rfl
    cases hname : table.nameOf? path with
    | some name =>
        obtain ⟨key, hmem, hhas⟩ := h.nameOf?_eq_some_iff.1 hname
        exact .ofExtension hmem hhas
    | none =>
        refine .ofContents fun entry hmem hhas => ?_
        rw [h.nameOf?_eq_some_iff.2 ⟨_, hmem, hhas⟩] at hname
        contradiction

/-- What is served for a path, with each way to fail put together. -/
theorem value_serve (fs : FileSystem) (table : ExtensionTable) (path : String) :
    (fs.serve table path).value =
      match fs.entry path with
      | .file contents =>
        (MediaType.parse? (chosenName table path contents)).map fun type => ⟨contents, type⟩
      | _ => none := by
  unfold serve
  cases hentry : fs.entry path with
  | file contents =>
      have htypeName : fs.typeName table path = .ok (chosenName table path contents) := by
        unfold typeName sniff chosenName
        rw [hentry]
        cases table.nameOf? path with
        | some name => rfl
        | none => rfl
      unfold typeOf
      simp only [Entry.isFile, htypeName]
      cases MediaType.parse? (chosenName table path contents) with
      | some type => rfl
      | none => rfl
  | unreadable first why =>
      -- The type may still be found; then reading all of it fails.
      simp only [Entry.isFile]
      cases fs.typeOf table path with
      | ok type => rfl
      | error e => rfl
  | directory => rfl
  | absent why => rfl

end FileSystem

theorem isBuilt_builtIn : ExtensionTable.builtIn.IsBuilt := ⟨[], rfl⟩

/-- Without a database, the name that is chosen can be declared. -/
theorem Chosen.exists_parse {path name : String} {contents : Bytes}
    (h : Chosen .builtIn path contents name) : ∃ type, MediaType.parse name = .ok type := by
  cases h with
  | ofExtension entry has => exact Media.exists_parse_of_mem_builtIn entry
  | ofContents unknown => exact Media.exists_parse_recognise _

/-- What is served is what can be read, under a name that can be declared. -/
theorem FileSystem.value_serve_eq_some_iff {fs : FileSystem} {table : ExtensionTable}
    (h : table.IsBuilt) {path : String} {served : Served} :
    (fs.serve table path).value = some served ↔
      fs.entry path = .file served.contents ∧
        ∃ name, Chosen table path served.contents name ∧
          MediaType.parse name = .ok served.type := by
  simp only [chosen_iff h, exists_eq_left, MediaType.parse_eq_ok_iff, value_serve]
  cases fs.entry path with
  | file contents =>
      simp only [Option.map_eq_some_iff, Entry.file.injEq]
      constructor
      · rintro ⟨type, htype, rfl⟩
        exact ⟨rfl, htype⟩
      · rintro ⟨rfl, htype⟩
        exact ⟨served.type, htype, rfl⟩
  | unreadable first why => simp
  | directory => simp
  | absent why => simp

/-- A path is served exactly if it leads to a file that can be read and the name that is
chosen for the file can be declared; it is served with all of its contents, and with the
type of that name.  Without a database all names can be declared, and so every file that
can be read is served. -/
theorem readable_files_are_served :
    (∀ table : ExtensionTable, table.IsBuilt → ∀ (fs : FileSystem) (path : String),
      (∀ contents, ∃! name, Chosen table path contents name) ∧
      ∀ served, (fs.serve table path).value = some served ↔
        fs.entry path = .file served.contents ∧
          ∃ name, Chosen table path served.contents name ∧
            MediaType.parse name = .ok served.type) ∧
    (∀ extension name, (extension, name) ∈ ExtensionTable.builtIn.names.entries →
      ∃ type, MediaType.parse name = .ok type) ∧
    (∀ contents, ∃ type, MediaType.parse (Media.recognise contents) = .ok type) ∧
    ∀ (fs : FileSystem) (path : String),
      (∃ served, (fs.serve .builtIn path).value = some served) ↔
        ∃ contents, fs.entry path = .file contents := by
  refine ⟨fun table hbuilt fs path => ⟨fun contents => ?one, fun served => ?served⟩,
    fun _ _ => Media.exists_parse_of_mem_builtIn, Media.exists_parse_recognise,
    fun fs path => ⟨?sound, ?all⟩⟩
  case one =>
    refine ⟨FileSystem.chosenName table path contents, ?_, fun name hchosen => ?_⟩
    · exact (FileSystem.chosen_iff hbuilt).2 rfl
    · exact (FileSystem.chosen_iff hbuilt).1 hchosen
  case served => exact FileSystem.value_serve_eq_some_iff hbuilt
  case sound =>
    rintro ⟨served, hserved⟩
    exact ⟨_, ((FileSystem.value_serve_eq_some_iff isBuilt_builtIn).1 hserved).1⟩
  case all =>
    rintro ⟨contents, hentry⟩
    have hchosen : Chosen .builtIn path contents _ := (FileSystem.chosen_iff isBuilt_builtIn).2 rfl
    obtain ⟨type, htype⟩ := hchosen.exists_parse
    exact ⟨⟨contents, type⟩, (FileSystem.value_serve_eq_some_iff isBuilt_builtIn).2
      ⟨hentry, _, hchosen, htype⟩⟩

/-- A disk on which every path leads to the same bytes, which are no text. -/
def noise : FileSystem := ⟨fun _ => .file [0xFF, 0x00]⟩

/-- A table in which notes are pages. -/
def pages : ExtensionTable := .extend .builtIn [("MD", "Text/HTML; charset=utf-8")]

theorem notes_are_served :
    (noise.serve pages "notes.md").value = some ⟨[0xFF, 0x00], .textHtml⟩ ∧
      ∃ served, (noise.serve .builtIn "notes").value = some served := by
  obtain ⟨hbuilt, -, -, hall⟩ := readable_files_are_served
  obtain ⟨-, hserved⟩ := hbuilt pages ⟨_, rfl⟩ noise "notes.md"
  have hentry : ("md", "Text/HTML; charset=utf-8") ∈ pages.names.entries := by decide
  have hchosen : Chosen pages "notes.md" [0xFF, 0x00] "Text/HTML; charset=utf-8" :=
    .ofExtension hentry ⟨_, rfl, rfl⟩
  exact ⟨(hserved _).2 ⟨rfl, _, hchosen, rfl⟩, (hall noise "notes").2 ⟨_, rfl⟩⟩

end Files

end SiteServer
