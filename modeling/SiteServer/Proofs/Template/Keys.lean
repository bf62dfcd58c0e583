import SiteServer.Proofs.Files.Served
import SiteServer.Proofs.Json.Ways
import SiteServer.Proofs.Template.Filling

/-!
# What keys stand for

The segments of a key are a way down the data, and the key stands for what it leads to
(`resolve?_eq_some_iff`).  Segments hold neither slashes nor tildes, so a key can be
rewritten to a pointer by putting slashes for its dots (`atPointer?_pointer`).

Plain arguments are the members of one object, and all of them are strings.  No way of two
steps leads anywhere there, so a key with a dot stands for nothing, also where an argument
has that very name; a key without one stands for the argument of its name
(`resolve?_ofStrings`).
-/

namespace SiteServer.Template

/-! ## Keys as ways -/

/-- The pointer that a key is rewritten to. -/
def pointer (key : List Char) : List Char :=
  '/' :: key.map fun c => if c = '.' then '/' else c

/-- The pointer of a key leads where its segments lead. -/
theorem atPointer?_pointer (data : Json) {key : List Char} {parts : List (List Char)}
    (h : Spells key parts) : data.atPointer? (pointer key) = data.descend? parts := by
  have hsame : ∀ part ∈ parts, part.map (fun c => if c = '.' then '/' else c) = part := by
    intro part hpart
    have hdot : isSegmentChar '.' = false := by decide
    have hid : ∀ c ∈ part, (if c = '.' then '/' else c) = c := by
      intro c hc
      have hne : c ≠ '.' := fun heq => h.not_mem hdot part hpart (heq ▸ hc)
      rw [if_neg hne]
    rw [List.map_congr_left hid, List.map_id']
  have hparts : parts.map (List.map fun c => if c = '.' then '/' else c) = parts := by
    rw [List.map_congr_left hsame, List.map_id']
  have hslash : isSegmentChar '/' = false := by decide
  have htilde : isSegmentChar '~' = false := by decide
  rw [pointer, h.joined, Text.map_intercalate, hparts, if_pos rfl]
  exact data.atPointer?_intercalate h.ne_nil fun part hpart =>
    ⟨h.not_mem hslash part hpart, h.not_mem htilde part hpart⟩

/-- The text of a value in a page: a string as it is, nothing for null, and everything
else as compact JSON. -/
inductive Shows : Json → List Char → Prop where
  | string (s : String) : Shows (.string s) s.toList
  | null : Shows .null []
  | compact {value : Json} (string : ∀ s, value ≠ .string s) (null : value ≠ .null) :
      Shows value value.write

theorem shows_iff {value : Json} {text : List Char} : Shows value text ↔ text = textOf value := by
  constructor
  · intro h
    cases h with
    | string s => rfl
    | null => rfl
    | compact string null =>
        cases value with
        | string s => exact absurd rfl (string s)
        | null => exact absurd rfl null
        | bool | number | array | object => rfl
  · rintro rfl
    cases value with
    | string s => exact .string s
    | null => exact .null
    | bool | number | array | object => exact .compact (fun _ => nofun) nofun

/-- A key stands for the text of what its segments lead to. -/
theorem resolve?_eq_some_iff {data : Json} {key text : List Char} {parts : List (List Char)}
    (h : Spells key parts) :
    resolve? data key = some text ↔ ∃ value, Json.Leads data parts value ∧ Shows value text := by
  rw [resolve?, h.segments_eq, Option.map_eq_some_iff]
  constructor
  · rintro ⟨value, hvalue, rfl⟩
    exact ⟨value, Json.descend?_eq_some_iff.1 hvalue, shows_iff.2 rfl⟩
  · rintro ⟨value, leads, shows⟩
    exact ⟨value, Json.descend?_eq_some_iff.2 leads, (shows_iff.1 shows).symm⟩

/-- All keys have values exactly if their segments lead somewhere. -/
theorem allResolve_iff {data : Json} {source : List Char} :
    AllResolve data source ↔
      ∀ i text key parts, Occurs source i text key → Spells key parts →
        ∃ value, Json.Leads data parts value := by
  constructor
  · intro resolved i text key parts occurs spells
    obtain ⟨value, hvalue⟩ := resolved i text key occurs
    obtain ⟨found, leads, -⟩ := (resolve?_eq_some_iff spells).1 hvalue
    exact ⟨found, leads⟩
  · intro leads i text key occurs
    obtain ⟨left, right, -, -, dotted, -⟩ := occurs.placeholder
    obtain ⟨parts, spells⟩ := dotted
    obtain ⟨value, found⟩ := leads i text key parts occurs spells
    exact ⟨_, (resolve?_eq_some_iff spells).2 ⟨value, found, shows_iff.2 rfl⟩⟩

/-! ## Plain arguments -/

theorem child?_ofStrings (args : Dictionary String) (segment : List Char) :
    (Json.ofStrings args).child? segment =
      (args.find? (String.ofList segment)).map Json.string := by
  rw [Json.ofStrings, Json.child?, Dictionary.find?]
  induction args.entries with
  | nil => rfl
  | cons entry rest ih =>
      obtain ⟨name, value⟩ := entry
      rw [List.map_cons, Dictionary.lookup_cons, Dictionary.lookup_cons, ih]
      split
      · rfl
      · rfl

/-- A key stands for the argument of its name, and with a dot in it for nothing. -/
theorem resolve?_ofStrings (args : Dictionary String) (key : List Char) :
    resolve? (Json.ofStrings args) key =
      if '.' ∈ key then none else (args.find? (String.ofList key)).map String.toList := by
  split
  · rename_i hdot
    have hmore : ∃ first second rest, segments key = first :: second :: rest := by
      match hsegments : segments key with
      | [] => exact absurd hsegments (Text.pieces_ne_nil _ _)
      | first :: second :: rest => exact ⟨first, second, rest, rfl⟩
      | [only] =>
          have hkey : key = only := by
            have hjoin := Text.intercalate_pieces '.' key
            rw [show Text.pieces (· = '.') key = [only] from hsegments,
              List.intercalate_singleton] at hjoin
            exact hjoin.symm
          have hmem : only ∈ Text.pieces (· = '.') key := by
            rw [show Text.pieces (· = '.') key = [only] from hsegments]
            exact List.mem_singleton_self only
          have hsep := Text.not_sep_of_mem_pieces hmem (hkey ▸ hdot)
          exact absurd hsep (by decide)
    obtain ⟨first, second, rest, hsegments⟩ := hmore
    -- The first step leads to a string at most, and none leads on from there.
    rw [resolve?, hsegments, Json.descend?, child?_ofStrings]
    cases args.find? (String.ofList first) with
    | none => rfl
    | some value => rfl
  · rename_i hdot
    rw [resolve?, segments, Text.pieces_of_not_mem hdot, Json.descend?, child?_ofStrings]
    cases args.find? (String.ofList key) with
    | none => rfl
    | some value => rfl

theorem resolve?_ofStrings_eq_some_iff {args : Dictionary String} {key text : List Char} :
    resolve? (Json.ofStrings args) key = some text ↔
      '.' ∉ key ∧ args.find? (String.ofList key) = some (String.ofList text) := by
  rw [resolve?_ofStrings]
  split
  · rename_i hdot
    exact iff_of_false nofun fun h => h.1 hdot
  · rename_i hdot
    rw [Option.map_eq_some_iff]
    constructor
    · rintro ⟨value, hvalue, rfl⟩
      rw [String.ofList_toList]
      exact ⟨hdot, hvalue⟩
    · rintro ⟨-, hvalue⟩
      exact ⟨_, hvalue, String.toList_ofList⟩

/-- Plain arguments fill a template exactly if each key is the name of one, and has no
dot. -/
theorem allResolve_ofStrings_iff {args : Dictionary String} {source : List Char} :
    AllResolve (Json.ofStrings args) source ↔
      ∀ i text key, Occurs source i text key →
        '.' ∉ key ∧ String.ofList key ∈ args.keys := by
  constructor
  · intro resolved i text key occurs
    obtain ⟨value, hvalue⟩ := resolved i text key occurs
    obtain ⟨plain, given⟩ := resolve?_ofStrings_eq_some_iff.1 hvalue
    exact ⟨plain, Dictionary.mem_keys_iff.2 ⟨_, given⟩⟩
  · intro named i text key occurs
    obtain ⟨plain, given⟩ := named i text key occurs
    obtain ⟨value, hvalue⟩ := Dictionary.mem_keys_iff.1 given
    refine ⟨value.toList, resolve?_ofStrings_eq_some_iff.2 ⟨plain, ?_⟩⟩
    rw [String.ofList_toList, hvalue]

/-! ## Templates in files -/

open Http (MediaType Response)

/-- A template that can be read: its file is valid UTF-8 and holds the text, and the name
that is chosen for the file can be declared. -/
def Readable (store : Store) (fs : Files.FileSystem) (file : String) (source : List Char)
    (type : MediaType) : Prop :=
  ∃ contents, fs.entry (store.path file) = .file contents ∧
    Text.Utf8.decode? contents = some source ∧
    ∃ name, Files.Chosen store.table (store.path file) contents name ∧
      MediaType.parse name = .ok type

/-- The response with a page. -/
def pageResponse (type : MediaType) (page : List Char) : Response :=
  { status := .ok, type, body := Text.Utf8.encode page }

/-- A template that can be read is rendered as its text is. -/
theorem Readable.value_renderValue {store : Store} {fs : Files.FileSystem} {file : String}
    {source : List Char} {type : MediaType} (built : store.table.IsBuilt)
    (h : Readable store fs file source type) (data : Json) :
    (store.renderValue fs file data).value =
      (Store.renderText source data).map (pageResponse type) := by
  obtain ⟨contents, hentry, hdecode, name, hchosen, hname⟩ := h
  have hserve : (fs.serve store.table (store.path file)).value = some ⟨contents, type⟩ :=
    (Files.FileSystem.value_serve_eq_some_iff built).2 ⟨hentry, name, hchosen, hname⟩
  rw [Store.renderValue]
  simp only [Logged.value_bind, hserve, hdecode]
  cases Store.renderText source data with
  | error e => rfl
  | ok page => rfl

/-- A template that can be read is rendered to the page of its text. -/
theorem Readable.renderValue_eq_ok_iff {store : Store} {fs : Files.FileSystem} {file : String}
    {source : List Char} {type : MediaType} (built : store.table.IsBuilt)
    (h : Readable store fs file source type) {data : Json} {response : Response} :
    (store.renderValue fs file data).value = .ok response ↔
      ∃ page, IsPage data source page ∧ response = pageResponse type page := by
  rw [h.value_renderValue built]
  simp only [← renderText_eq_ok_iff]
  cases Store.renderText source data with
  | error e => exact iff_of_false nofun nofun
  | ok page =>
      constructor
      · intro heq
        exact ⟨page, rfl, (Except.ok.inj heq).symm⟩
      · rintro ⟨found, heq, rfl⟩
        rw [Except.ok.inj heq]
        rfl

/-- What becomes of a template with plain arguments, if it can be read. -/
structure RendersPlainly (store : Store) (fs : Files.FileSystem) (file : String)
    (source : List Char) (type : MediaType) (args : Dictionary String) : Prop where
  /-- It is rendered exactly if each key is the name of an argument, and has no dot. -/
  succeeds : (∃ response, (store.render fs file args).value = .ok response) ↔
    ∀ i text key, Occurs source i text key → '.' ∉ key ∧ String.ofList key ∈ args.keys
  /-- The response is the page of the text, with the type of the file. -/
  gives : ∀ response, (store.render fs file args).value = .ok response ↔
    ∃ page, IsPage (Json.ofStrings args) source page ∧ response = pageResponse type page
  /-- What stands for a placeholder there is the argument of that name, as it is. -/
  verbatim : ∀ key text, resolve? (Json.ofStrings args) key = some text ↔
    '.' ∉ key ∧ args.find? (String.ofList key) = some (String.ofList text)

theorem Readable.rendersPlainly {store : Store} {fs : Files.FileSystem} {file : String}
    {source : List Char} {type : MediaType} (built : store.table.IsBuilt)
    (h : Readable store fs file source type) (args : Dictionary String) :
    RendersPlainly store fs file source type args := by
  refine ⟨?_, fun response => h.renderValue_eq_ok_iff built,
    fun key text => resolve?_ofStrings_eq_some_iff⟩
  have hpage : (∃ response, (store.render fs file args).value = .ok response) ↔
      ∃ page, IsPage (Json.ofStrings args) source page := by
    constructor
    · rintro ⟨response, hresponse⟩
      obtain ⟨page, hpage, -⟩ := (h.renderValue_eq_ok_iff built).1 hresponse
      exact ⟨page, hpage⟩
    · rintro ⟨page, hpage⟩
      exact ⟨_, (h.renderValue_eq_ok_iff built).2 ⟨page, hpage, rfl⟩⟩
  rw [hpage, ← allResolve_ofStrings_iff, ← exists_renderText_iff]
  simp only [renderText_eq_ok_iff]

/-- A key stands for what its segments lead to, whatever the data, and so does the pointer
that it is rewritten to; a text has a page exactly if all of its keys lead somewhere.  With
plain arguments, a template that can be read is rendered exactly if each of its keys is the
name of one and has no dot, and stands for that argument as it is. -/
theorem keys_lead_to_their_values :
    (∀ members : List (String × Json), members.Pairwise (fun a b => a.1 ≠ b.1) →
      ∀ name value, Json.StepsTo (.object members) name.toList value ↔
        (name, value) ∈ members) ∧
    (∀ (data : Json) (key : List Char) (parts : List (List Char)), Spells key parts →
      data.atPointer? (pointer key) = data.descend? parts ∧
      ∀ text, resolve? data key = some text ↔
        ∃ value, Json.Leads data parts value ∧ Shows value text) ∧
    (∀ (data : Json) (source : List Char),
      (∃ page, Store.renderText source data = .ok page) ↔
        ∀ i text key parts, Occurs source i text key → Spells key parts →
          ∃ value, Json.Leads data parts value) ∧
    ∀ (store : Store) (fs : Files.FileSystem) (file : String) (source : List Char)
      (type : MediaType), store.table.IsBuilt → Readable store fs file source type →
      ∀ args, RendersPlainly store fs file source type args := by
  refine ⟨?members, ?keys, ?pages, ?plain⟩
  case members =>
    intro members distinct name value
    exact Json.stepsTo_object_iff distinct
  case keys =>
    intro data key parts spells
    exact ⟨atPointer?_pointer data spells, fun text => resolve?_eq_some_iff spells⟩
  case pages =>
    intro data source
    rw [exists_renderText_iff, allResolve_iff]
  case plain =>
    intro store fs file source type built readable args
    exact readable.rendersPlainly built args

/-- An array in an object, and an object in the array whose member has a name of digits. -/
def nested : Json := .object [("list", .array [.null, .object [("1", .bool true)]])]

/-- The text of a letter. -/
def letter : List Char := "Dear \x7b\x7b name \x7d\x7d,".toList

/-- A disk on which every path leads to the letter. -/
def letters : Files.FileSystem := ⟨fun _ => .file (Text.Utf8.encode letter)⟩

/-- A store of letters. -/
def mail : Store := ⟨"mail", .builtIn⟩

/-- Arguments for the letter, and one that no key reaches. -/
def addressee : Dictionary String := .ofList [("name", "<Ada>"), ("user.name", "ada")]

theorem letter_is_rendered :
    Json.StepsTo (.object [("1", .bool true)]) "1".toList (.bool true) ∧
    (∃ value, Json.Leads nested [['l', 'i', 's', 't'], ['1'], ['1']] value ∧
      Shows value "true".toList) ∧
    Readable mail letters "a.txt" letter .textPlain ∧
    (mail.render letters "a.txt" addressee).value =
      .ok (pageResponse .textPlain "Dear <Ada>,".toList) ∧
    ∀ i text key, Occurs letter i text key →
      '.' ∉ key ∧ String.ofList key ∈ addressee.keys := by
  obtain ⟨hmembers, hkeys, -, hplain⟩ := keys_lead_to_their_values
  have hspells : Spells "list.1.1".toList [['l', 'i', 's', 't'], ['1'], ['1']] := by
    have hall : ∀ part ∈ [['l', 'i', 's', 't'], ['1'], ['1']],
        part.isEmpty = false ∧ part.all isSegmentChar = true := by decide
    exact ⟨List.cons_ne_nil _ _, fun part hpart => ⟨List.isEmpty_eq_false_iff.1 (hall part hpart).1,
      List.all_eq_true.1 (hall part hpart).2⟩, rfl⟩
  have hreadable : Readable mail letters "a.txt" letter .textPlain := by
    have hentry : ("txt", "text/plain") ∈ mail.table.names.entries := by decide
    exact ⟨_, rfl, rfl, "text/plain", .ofExtension hentry ⟨_, rfl, rfl⟩, rfl⟩
  have hrendered : (mail.render letters "a.txt" addressee).value =
      .ok (pageResponse .textPlain "Dear <Ada>,".toList) := rfl
  have hletter := hplain mail letters "a.txt" letter .textPlain Files.isBuilt_builtIn hreadable
    addressee
  have hmember := (hmembers [("1", .bool true)] (List.pairwise_singleton _ _) "1" (.bool true)).2
    (List.mem_singleton_self _)
  refine ⟨hmember, ((hkeys nested _ _ hspells).2 _).1 rfl, hreadable, hrendered, ?_⟩
  exact hletter.succeeds.1 ⟨_, hrendered⟩

end SiteServer.Template
