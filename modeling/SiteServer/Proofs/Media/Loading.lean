import SiteServer.Media.Database

/-!
# The order in which a database is added

The extensions of a database have no order among themselves.  They are put into lower case
one by one as they are added to the built-in table, and each takes the place of what was
there, be it built in or added before.

Nothing is left of the order exactly if no two extensions with different types are the same
in lower case (`order_shows_iff_clash`).  Where there are two of them, the last one counts,
and either can be the last: the same document then makes different tables
(`clashing_extensions_race`).  That the database goes before the built-in table, and that
all other extensions keep their types, holds in every order.
-/

namespace SiteServer.Media

namespace ExtensionTable

/-- What is found under an extension is what one of the entries that were added has for it,
or else what was found before. -/
theorem find?_extend (t : ExtensionTable) (entries : List (String × String)) (key : String) :
    (∃ e ∈ entries, Text.lowercase e.1 = key ∧ (t.extend entries).names.find? key = some e.2) ∨
      (∀ e ∈ entries, Text.lowercase e.1 ≠ key) ∧
        (t.extend entries).names.find? key = t.names.find? key := by
  induction entries generalizing t with
  | nil => exact .inr ⟨fun e hmem => absurd hmem List.not_mem_nil, rfl⟩
  | cons first rest ih =>
      have hextend : t.extend (first :: rest) = (t.set first.1 first.2).extend rest := rfl
      rw [hextend]
      rcases ih (t.set first.1 first.2) with ⟨e, hmem, hkey, hfound⟩ | ⟨hnone, hfound⟩
      · exact .inl ⟨e, List.mem_cons_of_mem _ hmem, hkey, hfound⟩
      · rw [find?_set] at hfound
        by_cases hfirst : Text.lowercase first.1 = key
        · rw [if_pos hfirst] at hfound
          exact .inl ⟨first, List.mem_cons_self .., hfirst, hfound⟩
        · rw [if_neg hfirst] at hfound
          refine .inr ⟨fun e hmem => ?_, hfound⟩
          rcases List.mem_cons.1 hmem with rfl | hmem
          · exact hfirst
          · exact hnone e hmem

/-- The entry that is added last is found under its extension. -/
theorem find?_extend_last (t : ExtensionTable) (entries : List (String × String))
    (last : String × String) :
    (t.extend (entries ++ [last])).names.find? (Text.lowercase last.1) = some last.2 := by
  rw [extend, List.foldl_append]
  simp [find?_set]

theorem eq_of_find? {t t' : ExtensionTable}
    (h : ∀ key, t.names.find? key = t'.names.find? key) : t = t' := by
  have hnames : t.names = t'.names := Dictionary.ext_find? h
  cases t
  cases t'
  exact congrArg _ hnames

end ExtensionTable

/-- The path has the extension, ASCII case aside. -/
def HasExtension (path extension : String) : Prop :=
  ∃ own, Files.Path.extension? path.toList = some own ∧
    Text.fold own = Text.fold extension.toList

theorem not_hasExtension {path extension : String}
    (h : Files.Path.extension? path.toList = none) : ¬ HasExtension path extension := by
  rintro ⟨own, hown, -⟩
  rw [h] at hown
  contradiction

theorem hasExtension_iff {path extension : String} {own : List Char}
    (h : Files.Path.extension? path.toList = some own) :
    HasExtension path extension ↔ Text.lowercase extension = String.ofList (Text.fold own) := by
  rw [HasExtension, Text.lowercase, String.ofList_inj, h]
  constructor
  · rintro ⟨_, hsame, hfold⟩
    rw [Option.some.injEq] at hsame
    rw [hsame, hfold]
  · intro hfold
    exact ⟨own, rfl, hfold.symm⟩

theorem nameOf?_eq_none (t : ExtensionTable) {path : String}
    (h : Files.Path.extension? path.toList = none) : t.nameOf? path = none := by
  rw [ExtensionTable.nameOf?, h]
  rfl

theorem nameOf?_eq_find? (t : ExtensionTable) {path : String} {own : List Char}
    (h : Files.Path.extension? path.toList = some own) :
    t.nameOf? path = t.names.find? (String.ofList (Text.fold own)) := by
  rw [ExtensionTable.nameOf?, h]
  rfl

namespace Database

open Json (Document)

/-- A file is a database, with these extensions in it. -/
def Holds (fs : Files.FileSystem) (path : String) (extensions : Dictionary String) : Prop :=
  ∃ text, (fs.entry path).readText = .ok text ∧
    (Document.parse? text).bind ofDocument? = some extensions

/-- A table that comes of adding the extensions to the built-in ones in some order. -/
def MayGive (extensions : Dictionary String) (table : ExtensionTable) : Prop :=
  ∃ order, order.Perm extensions.entries ∧ table = ExtensionTable.builtIn.extend order

/-- Two extensions differ in case only, and their types differ. -/
def Clash (extensions : Dictionary String) : Prop :=
  ∃ e ∈ extensions.entries, ∃ e' ∈ extensions.entries,
    Text.lowercase e.1 = Text.lowercase e'.1 ∧ e.2 ≠ e'.2

/-- A database that is accepted gives one of the tables that it may give. -/
theorem load_eq_ok_iff {fs : Files.FileSystem} {path : String} {table : ExtensionTable} :
    load fs path = .ok table ↔ ∃ extensions, Holds fs path extensions ∧
      table = ExtensionTable.builtIn.extend extensions.entries := by
  unfold load Holds
  cases hread : (fs.entry path).readText with
  | error why => simp
  | ok text =>
      cases hdocument : (Document.parse? text).bind ofDocument? with
      | none => simp [hdocument]
      | some extensions => simp [hdocument, eq_comm]

/-- Each entry can be the last one that is added. -/
theorem exists_mayGive_find? {extensions : Dictionary String} {e : String × String}
    (h : e ∈ extensions.entries) :
    ∃ table, MayGive extensions table ∧ table.names.find? (Text.lowercase e.1) = some e.2 := by
  have hperm : (extensions.entries.erase e ++ [e]).Perm extensions.entries :=
    List.perm_append_comm.trans (List.perm_cons_erase h).symm
  exact ⟨_, ⟨_, hperm, rfl⟩, ExtensionTable.find?_extend_last ..⟩

/-- In every order, what is found under an extension is what the database has for it, or
else what is built in. -/
theorem MayGive.find? {extensions : Dictionary String} {table : ExtensionTable}
    (h : MayGive extensions table) (key : String) :
    (∃ e ∈ extensions.entries, Text.lowercase e.1 = key ∧ table.names.find? key = some e.2) ∨
      (∀ e ∈ extensions.entries, Text.lowercase e.1 ≠ key) ∧
        table.names.find? key = ExtensionTable.builtIn.names.find? key := by
  obtain ⟨order, hperm, rfl⟩ := h
  simp only [← hperm.mem_iff]
  exact ExtensionTable.find?_extend .builtIn order key

/-- Without a clash, all orders give the same table. -/
theorem MayGive.unique {extensions : Dictionary String} (h : ¬ Clash extensions)
    {table other : ExtensionTable} (htable : MayGive extensions table)
    (hother : MayGive extensions other) : table = other := by
  apply ExtensionTable.eq_of_find?
  intro key
  rcases htable.find? key with ⟨e, hmem, hkey, hfound⟩ | ⟨hnone, hfound⟩
  · rcases hother.find? key with ⟨e', hmem', hkey', hfound'⟩ | ⟨hnone', -⟩
    · have hname : e.2 = e'.2 := Classical.byContradiction fun hne =>
        h ⟨e, hmem, e', hmem', hkey.trans hkey'.symm, hne⟩
      rw [hfound, hfound', hname]
    · exact absurd hkey (hnone' e hmem)
  · rcases hother.find? key with ⟨e', hmem', hkey', -⟩ | ⟨-, hfound'⟩
    · exact absurd hkey' (hnone e' hmem')
    · rw [hfound, hfound']

/-- In every order, the database decides on its own extensions and on no others. -/
theorem MayGive.nameOf? {extensions : Dictionary String} {table : ExtensionTable}
    (h : MayGive extensions table) (path : String) :
    (∃ e ∈ extensions.entries, HasExtension path e.1 ∧ table.nameOf? path = some e.2) ∨
      (∀ e ∈ extensions.entries, ¬ HasExtension path e.1) ∧
        table.nameOf? path = ExtensionTable.builtIn.nameOf? path := by
  cases hextension : Files.Path.extension? path.toList with
  | none =>
      refine .inr ⟨fun e hmem => not_hasExtension hextension, ?_⟩
      rw [nameOf?_eq_none _ hextension, nameOf?_eq_none _ hextension]
  | some own =>
      simp only [hasExtension_iff hextension, nameOf?_eq_find? _ hextension]
      exact h.find? _

/-- A database that is accepted gives one table, whatever the order in which its extensions
are added, exactly if no two of them clash.  In every order its extensions take precedence
over the built-in ones, ASCII case aside, and the others keep their types; but of two that
clash, either may be the one that counts. -/
theorem order_shows_iff_clash {fs : Files.FileSystem} {path : String}
    {extensions : Dictionary String} (h : Holds fs path extensions) :
    (∃ table, load fs path = .ok table ∧ MayGive extensions table) ∧
      ((∃ table other, MayGive extensions table ∧ MayGive extensions other ∧ table ≠ other) ↔
        Clash extensions) ∧
      (∀ table, MayGive extensions table → ∀ file,
        (∃ e ∈ extensions.entries, HasExtension file e.1 ∧ table.nameOf? file = some e.2) ∨
          (∀ e ∈ extensions.entries, ¬ HasExtension file e.1) ∧
            table.nameOf? file = ExtensionTable.builtIn.nameOf? file) ∧
      ∀ e ∈ extensions.entries, ∃ table, MayGive extensions table ∧
        ∀ file, HasExtension file e.1 → table.nameOf? file = some e.2 := by
  refine ⟨?loaded, ⟨?clash, ?race⟩, fun table hgive file => hgive.nameOf? file, ?last⟩
  case loaded =>
    exact ⟨_, load_eq_ok_iff.2 ⟨extensions, h, rfl⟩, _, .refl _, rfl⟩
  case clash =>
    rintro ⟨table, other, htable, hother, hne⟩
    exact Classical.byContradiction fun hclash => hne (htable.unique hclash hother)
  case race =>
    rintro ⟨e, hmem, e', hmem', hkey, hname⟩
    obtain ⟨table, htable, hfound⟩ := exists_mayGive_find? hmem
    obtain ⟨other, hother, hfound'⟩ := exists_mayGive_find? hmem'
    refine ⟨table, other, htable, hother, fun heq => hname ?_⟩
    rw [heq, hkey, hfound'] at hfound
    exact (Option.some.inj hfound).symm
  case last =>
    intro e hmem
    obtain ⟨table, htable, hfound⟩ := exists_mayGive_find? hmem
    refine ⟨table, htable, fun file hhas => ?_⟩
    obtain ⟨own, hown, hfold⟩ := hhas
    have hkey := (hasExtension_iff hown).1 ⟨own, hown, hfold⟩
    rw [nameOf?_eq_find? table hown, ← hkey, hfound]

/-- A disk with one database on it. -/
def holding (document : String) : Files.FileSystem :=
  ⟨fun _ => .file (Text.bytes document)⟩

/-- A database with a new extension in capitals, and another type for a built-in one. -/
def capitals : String :=
  "\x7b\"extensions\":\x7b\"MD\":\"text/markdown\",\"htm\":\"text/html\"\x7d\x7d"

theorem capitals_give_one_table :
    ∃ extensions table, Holds (holding capitals) "db" extensions ∧
      load (holding capitals) "db" = .ok table ∧
      (∀ other, MayGive extensions other → other = table) ∧
      table.nameOf? "a.md" = some "text/markdown" ∧ table.nameOf? "a.HTM" = some "text/html" ∧
      table.nameOf? "a.png" = some "image/png" := by
  have hholds : Holds (holding capitals) "db"
      (.ofList [("MD", "text/markdown"), ("htm", "text/html")]) := ⟨capitals.toList, rfl, rfl⟩
  have hquiet : ¬ Clash (.ofList [("MD", "text/markdown"), ("htm", "text/html")]) := by
    unfold Clash
    decide
  obtain ⟨⟨table, hload, hgive⟩, hrace, -⟩ := order_shows_iff_clash hholds
  have hone : ∀ other, MayGive _ other → other = table := fun other hother =>
    Classical.byContradiction fun hne => hquiet (hrace.1 ⟨other, table, hother, hgive, hne⟩)
  have hbuilt := hone _ ⟨_, .refl _, rfl⟩
  refine ⟨_, table, hholds, hload, hone, ?_, ?_, ?_⟩
  all_goals
    subst hbuilt
    rfl

/-- A database with two extensions that differ in case only. -/
def clashing : String :=
  "\x7b\"extensions\":\x7b\"MD\":\"text/html\",\"md\":\"text/plain\"\x7d\x7d"

/-- One document gives two tables, by the order in which its extensions are added. -/
theorem clashing_extensions_race :
    ∃ extensions table other, Holds (holding clashing) "db" extensions ∧
      load (holding clashing) "db" = .ok table ∧
      MayGive extensions table ∧ MayGive extensions other ∧
      table.nameOf? "a.md" = some "text/plain" ∧ other.nameOf? "a.md" = some "text/html" := by
  have hholds : Holds (holding clashing) "db"
      (.ofList [("MD", "text/html"), ("md", "text/plain")]) := ⟨clashing.toList, rfl, rfl⟩
  refine ⟨_, .extend .builtIn [("MD", "text/html"), ("md", "text/plain")],
    .extend .builtIn [("md", "text/plain"), ("MD", "text/html")], hholds, ?_, ?_, ?_, rfl, rfl⟩
  · exact load_eq_ok_iff.2 ⟨_, hholds, rfl⟩
  · exact ⟨_, .refl _, rfl⟩
  · exact ⟨_, .swap .., rfl⟩

end Database

end SiteServer.Media
