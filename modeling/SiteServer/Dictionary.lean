import SiteServer.Text.Utf8

/-!
# Dictionaries

A dictionary maps strings to values and lists them in ascending order of the
UTF-8 bytes of their keys, whatever order they came in.  Header maps, route
tables, tables of file extensions and the arguments of templates are all
dictionaries.

The order is a field of the type, so two dictionaries with the same entries are
equal as lists too (`ext_find?`): nothing that is read from a dictionary can
tell in which order it was filled.
-/

namespace SiteServer

/-- The order of keys: lexicographic on their UTF-8 bytes. -/
def Text.Precedes (a b : String) : Prop :=
  Text.bytes a < Text.bytes b

namespace Text.Precedes

instance (a b : String) : Decidable (Text.Precedes a b) :=
  inferInstanceAs (Decidable (Text.bytes a < Text.bytes b))

theorem irrefl (a : String) : ¬ Text.Precedes a a :=
  List.lt_irrefl _

theorem trans {a b c : String} (hab : Text.Precedes a b) (hbc : Text.Precedes b c) :
    Text.Precedes a c :=
  List.lt_trans hab hbc

theorem asymm {a b : String} (hab : Text.Precedes a b) : ¬ Text.Precedes b a :=
  fun hba => irrefl a (trans hab hba)

/-- Of two different keys one comes first. -/
theorem of_not {a b : String} (hne : a ≠ b) (h : ¬ Text.Precedes a b) : Text.Precedes b a := by
  rcases List.le_iff_lt_or_eq.1 (List.not_lt.1 h) with hlt | heq
  · exact hlt
  · exact absurd (Text.Utf8.bytes_injective heq).symm hne

theorem ne {a b : String} (h : Text.Precedes a b) : a ≠ b := fun e => irrefl a (e ▸ h)

end Text.Precedes

universe u

/-- Entries in strictly ascending order of their keys. -/
structure Dictionary (α : Type u) where
  entries : List (String × α)
  ascending : entries.Pairwise fun a b => Text.Precedes a.1 b.1

namespace Dictionary

variable {α : Type u} {β : Type u}

/-- The dictionary without entries. -/
def empty : Dictionary α := ⟨[], .nil⟩

instance : EmptyCollection (Dictionary α) := ⟨empty⟩
instance : Inhabited (Dictionary α) := ⟨empty⟩

/-- The value under a key in a list of entries. -/
def lookup (key : String) (entries : List (String × α)) : Option α :=
  (entries.find? (·.1 = key)).map (·.2)

/-- The value under a key. -/
def find? (d : Dictionary α) (key : String) : Option α :=
  lookup key d.entries

/-- Whether there is a value under a key. -/
def contains (d : Dictionary α) (key : String) : Bool :=
  (d.find? key).isSome

/-- The keys, in ascending order. -/
def keys (d : Dictionary α) : List String :=
  d.entries.map (·.1)

/-- The number of entries. -/
def size (d : Dictionary α) : Nat :=
  d.entries.length

/-- Whether there are no entries. -/
def isEmpty (d : Dictionary α) : Bool :=
  d.entries.isEmpty

/-- Puts an entry in its place; one with the same key gives way. -/
def place (key : String) (value : α) : List (String × α) → List (String × α)
  | [] => [(key, value)]
  | (k, v) :: rest =>
    if key = k then (key, value) :: rest
    else if Text.Precedes key k then (key, value) :: (k, v) :: rest
    else (k, v) :: place key value rest

theorem key_of_mem_place {key : String} {value : α} {l : List (String × α)} {e : String × α}
    (h : e ∈ place key value l) : e = (key, value) ∨ e ∈ l := by
  induction l with
  | nil => simpa [place] using h
  | cons head rest ih =>
      obtain ⟨k, v⟩ := head
      simp only [place] at h
      split at h
      · rcases List.mem_cons.1 h with h | h
        · exact .inl h
        · exact .inr (List.mem_cons_of_mem _ h)
      · split at h
        · rcases List.mem_cons.1 h with h | h
          · exact .inl h
          · exact .inr h
        · rcases List.mem_cons.1 h with h | h
          · exact .inr (h ▸ List.mem_cons_self ..)
          · exact (ih h).imp_right (List.mem_cons_of_mem _)

theorem pairwise_place (key : String) (value : α) {l : List (String × α)}
    (h : l.Pairwise fun a b => Text.Precedes a.1 b.1) :
    (place key value l).Pairwise fun a b => Text.Precedes a.1 b.1 := by
  induction l with
  | nil => simp [place]
  | cons head rest ih =>
      obtain ⟨k, v⟩ := head
      obtain ⟨hhead, hrest⟩ := List.pairwise_cons.1 h
      simp only [place]
      split
      · next he => subst he; exact List.pairwise_cons.2 ⟨hhead, hrest⟩
      · next hne =>
          split
          · next hlt =>
              refine List.pairwise_cons.2 ⟨fun e he => ?_, h⟩
              rcases List.mem_cons.1 he with rfl | he
              · exact hlt
              · exact hlt.trans (hhead e he)
          · next hge =>
              refine List.pairwise_cons.2 ⟨fun e he => ?_, ih hrest⟩
              rcases key_of_mem_place he with rfl | he
              · exact .of_not hne hge
              · exact hhead e he

/-- The dictionary with a value under a key; an earlier value is replaced. -/
def insert (d : Dictionary α) (key : String) (value : α) : Dictionary α :=
  ⟨place key value d.entries, pairwise_place key value d.ascending⟩

/-- The dictionary of a list of entries, inserted in order: the last value of a
key is the one that stays. -/
def ofList (entries : List (String × α)) : Dictionary α :=
  entries.foldl (fun d e => d.insert e.1 e.2) empty

/-! ## Reading what was written -/

@[simp] theorem find?_empty (key : String) : (empty : Dictionary α).find? key = none := rfl

theorem lookup_place (key key' : String) (value : α) (l : List (String × α))
    (h : l.Pairwise fun a b => Text.Precedes a.1 b.1) :
    lookup key' (place key value l) = if key = key' then some value else lookup key' l := by
  induction l with
  | nil => by_cases hk : key = key' <;> simp [place, lookup, hk]
  | cons head rest ih =>
      obtain ⟨k, v⟩ := head
      have hrest := (List.pairwise_cons.1 h).2
      simp only [place]
      split
      · next he =>
          subst he
          by_cases hk : key = key' <;> simp [lookup, hk]
      · next hne =>
          split
          · by_cases hk : key = key' <;> simp [lookup, hk]
          · have ih' := ih hrest
            by_cases hkk : k = key'
            · have : key ≠ key' := fun e => hne (e.trans hkk.symm)
              simp [lookup, hkk, this]
            · simpa [lookup, hkk] using ih'

/-- An insertion is seen under its own key and nowhere else. -/
theorem find?_insert (d : Dictionary α) (key key' : String) (value : α) :
    (d.insert key value).find? key' = if key = key' then some value else d.find? key' :=
  lookup_place key key' value d.entries d.ascending

theorem lookup_cons (key name : String) (value : α) (rest : List (String × α)) :
    lookup key ((name, value) :: rest) = if name = key then some value else lookup key rest := by
  by_cases h : name = key <;> simp [lookup, h]

/-- Of entries with different keys, look-up finds each. -/
theorem lookup_eq_some_iff {l : List (String × α)} (h : l.Pairwise fun a b => a.1 ≠ b.1)
    {key : String} {value : α} : lookup key l = some value ↔ (key, value) ∈ l := by
  induction l with
  | nil => simp [lookup]
  | cons head rest ih =>
      obtain ⟨k, v⟩ := head
      obtain ⟨hhead, hrest⟩ := List.pairwise_cons.1 h
      rw [lookup_cons]
      by_cases hk : k = key
      · subst hk
        have hnot : (k, value) ∉ rest := fun hm => hhead _ hm rfl
        simpa [hnot] using eq_comm
      · simp [hk, Ne.symm hk, ih hrest]

/-- The entries are the pairs that look-up finds. -/
theorem find?_eq_some_iff {d : Dictionary α} {key : String} {value : α} :
    d.find? key = some value ↔ (key, value) ∈ d.entries :=
  lookup_eq_some_iff (d.ascending.imp Text.Precedes.ne)

theorem mem_keys_iff {d : Dictionary α} {key : String} :
    key ∈ d.keys ↔ ∃ value, d.find? key = some value := by
  simp only [keys, List.mem_map, find?_eq_some_iff]
  constructor
  · intro h
    rcases h with ⟨⟨k, value⟩, hmem, rfl⟩
    exact ⟨value, hmem⟩
  · intro h
    rcases h with ⟨value, hmem⟩
    exact ⟨(key, value), hmem, rfl⟩

/-- No key is listed twice. -/
theorem nodup_keys (d : Dictionary α) : d.keys.Nodup := by
  rw [keys, List.Nodup, List.pairwise_map]
  exact d.ascending.imp Text.Precedes.ne

private theorem entries_ext {l m : List (String × α)}
    (hl : l.Pairwise fun a b => Text.Precedes a.1 b.1)
    (hm : m.Pairwise fun a b => Text.Precedes a.1 b.1)
    (h : ∀ e, e ∈ l ↔ e ∈ m) : l = m := by
  induction l generalizing m with
  | nil =>
      cases m with
      | nil => rfl
      | cons e m => exact absurd ((h e).2 (List.mem_cons_self ..)) List.not_mem_nil
  | cons a l ih =>
      obtain ⟨ha, hl'⟩ := List.pairwise_cons.1 hl
      cases m with
      | nil => exact absurd ((h a).1 (List.mem_cons_self ..)) List.not_mem_nil
      | cons b m =>
          obtain ⟨hb, hm'⟩ := List.pairwise_cons.1 hm
          have hab : a = b := by
            rcases List.mem_cons.1 ((h a).1 (List.mem_cons_self ..)) with e | ham
            · exact e
            · rcases List.mem_cons.1 ((h b).2 (List.mem_cons_self ..)) with e | hbl
              · exact e.symm
              · exact absurd (ha b hbl) (hb a ham).asymm
          subst hab
          refine congrArg _ (ih hl' hm' fun e => ⟨fun he => ?_, fun he => ?_⟩)
          · rcases List.mem_cons.1 ((h e).1 (List.mem_cons_of_mem _ he)) with rfl | he'
            · exact absurd (ha e he) (Text.Precedes.irrefl _)
            · exact he'
          · rcases List.mem_cons.1 ((h e).2 (List.mem_cons_of_mem _ he)) with rfl | he'
            · exact absurd (hb e he) (Text.Precedes.irrefl _)
            · exact he'

theorem perm_place {key : String} {value : α} {l : List (String × α)}
    (h : lookup key l = none) : (place key value l).Perm ((key, value) :: l) := by
  induction l with
  | nil => exact .refl _
  | cons head rest ih =>
      obtain ⟨k, v⟩ := head
      simp only [place]
      split
      · next he => simp [lookup, he] at h
      · next hne =>
          split
          · exact .refl _
          · have hrest : lookup key rest = none := by
              simpa [lookup, Ne.symm hne] using h
            exact ((ih hrest).cons _).trans (.swap ..)

/-- Under a new key one entry is added to the others. -/
theorem perm_insert {d : Dictionary α} {key : String} (value : α)
    (h : d.contains key = false) :
    (d.insert key value).entries.Perm ((key, value) :: d.entries) := by
  have hnone : d.find? key = none := by simpa [contains] using h
  exact perm_place hnone

/-- What is in the dictionary of a list was in the list. -/
theorem mem_of_mem_ofList {l : List (String × α)} {e : String × α}
    (h : e ∈ (ofList l).entries) : e ∈ l := by
  have hfold : ∀ (l : List (String × α)) (d : Dictionary α),
      e ∈ (l.foldl (fun d e => d.insert e.1 e.2) d).entries → e ∈ d.entries ∨ e ∈ l := by
    intro l
    induction l with
    | nil => exact fun d hmem => .inl hmem
    | cons first rest ih =>
        intro d hmem
        rcases ih _ hmem with hmem | hmem
        · rcases key_of_mem_place hmem with rfl | hmem
          · exact .inr (List.mem_cons_self ..)
          · exact .inl hmem
        · exact .inr (List.mem_cons_of_mem _ hmem)
  exact (hfold l empty h).resolve_left List.not_mem_nil

/-- A dictionary is determined by what look-up finds in it. -/
theorem ext_find? {d e : Dictionary α} (h : ∀ key, d.find? key = e.find? key) : d = e := by
  have hent : d.entries = e.entries := by
    refine entries_ext d.ascending e.ascending fun ⟨k, v⟩ => ?_
    rw [← find?_eq_some_iff, ← find?_eq_some_iff, h]
  cases d; cases e
  simp_all

/-- Entries are in one order only. -/
theorem eq_of_perm {d e : Dictionary α} (h : d.entries.Perm e.entries) : d = e := by
  apply ext_find?
  intro key
  ext value
  rw [find?_eq_some_iff, find?_eq_some_iff, h.mem_iff]

/-- The order in which two keys are inserted does not show. -/
theorem insert_comm {d : Dictionary α} {key other : String} (hne : key ≠ other)
    (value value' : α) :
    (d.insert key value).insert other value' = (d.insert other value').insert key value := by
  apply ext_find?
  intro k
  simp only [find?_insert]
  by_cases hkey : key = k
  · have hother : other ≠ k := fun heq => hne (hkey.trans heq.symm)
    simp [hkey, hother]
  · simp [hkey]

end Dictionary

end SiteServer
