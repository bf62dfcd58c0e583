import SiteServer.Proofs.Dictionary
import SiteServer.Routes

/-!
# The last registration of a path

Routes are registered one after another, and a path may come up again and again.
All that is left of such a history is, for each path, its last registration: with
its handler and with its methods, whatever earlier ones allowed (`find?_ofHistory`).
There is thus one route for each path that was ever registered (`size_ofHistory`).
-/

namespace SiteServer

open Http (Method Request)

/-- A route as it is asked for. -/
structure Registration where
  path : String
  methods : List Method
  handler : Handler

/-- The route of a registration. -/
def Registration.route (registration : Registration) : Route :=
  ⟨registration.methods, registration.handler⟩

/-- The registration is the last one of its path. -/
def Registration.LastIn (registration : Registration) (history : List Registration) : Prop :=
  ∃ before after, history = before ++ registration :: after ∧
    ∀ later ∈ after, later.path ≠ registration.path

namespace Registration

/-- What is registered next is the last of its path, and leaves those of other paths
as they are. -/
theorem lastIn_append_iff {history : List Registration} {registration latest : Registration} :
    registration.LastIn (history ++ [latest]) ↔
      registration = latest ∨
        registration.LastIn history ∧ latest.path ≠ registration.path := by
  constructor
  · intro h
    rcases h with ⟨before, after, hsplit, hlast⟩
    rcases List.eq_nil_or_concat after with rfl | ⟨initial, final, rfl⟩
    · have hfinal := (List.append_inj' hsplit rfl).2
      exact .inl (List.singleton_inj.1 hfinal).symm
    · have hsplit' : history ++ [latest] = (before ++ registration :: initial) ++ [final] := by
        rw [hsplit, List.concat_eq_append, List.append_assoc, List.cons_append]
      rcases List.append_inj' hsplit' rfl with ⟨hhistory, hfinal⟩
      obtain rfl := List.singleton_inj.1 hfinal
      refine .inr ⟨⟨before, initial, hhistory, fun later hmem => ?_⟩, ?_⟩
      · exact hlast later (by simp [hmem])
      · exact hlast latest (by simp)
  · intro h
    rcases h with rfl | ⟨⟨before, after, rfl, hlast⟩, hne⟩
    · exact ⟨history, [], rfl, by simp⟩
    · refine ⟨before, after ++ [latest], by simp, fun later hmem => ?_⟩
      rcases List.mem_append.1 hmem with hmem | hmem
      · exact hlast later hmem
      · rwa [List.mem_singleton.1 hmem]

end Registration

namespace Routes

/-- The routes after a history of registrations. -/
def ofHistory (history : List Registration) : Routes :=
  history.foldl
    (fun routes r => (routes.register r.path r.methods r.handler).value) .empty

@[simp] theorem ofHistory_nil : ofHistory [] = .empty := rfl

theorem value_register (routes : Routes) (path : String) (methods : List Method)
    (handler : Handler) :
    (routes.register path methods handler).value = routes.insert path ⟨methods, handler⟩ := by
  unfold register
  split <;> rfl

theorem ofHistory_append (history : List Registration) (latest : Registration) :
    ofHistory (history ++ [latest]) = (ofHistory history).insert latest.path latest.route := by
  rw [ofHistory, List.foldl_append]
  exact value_register ..

/-- The route of a path is that of its last registration. -/
theorem find?_ofHistory {history : List Registration} {path : String} {route : Route} :
    (ofHistory history).find? path = some route ↔
      ∃ registration : Registration, registration.LastIn history ∧
        registration.path = path ∧ registration.route = route := by
  -- from the end, since what is registered last is inserted last
  induction history using List.reverseRecOn with
  | nil => simp [Registration.LastIn]
  | append_singleton history latest ih =>
      rw [ofHistory_append, Dictionary.find?_insert]
      simp only [Registration.lastIn_append_iff]
      split
      · next hpath =>
          rw [Option.some.injEq]
          constructor
          · intro hroute
            exact ⟨latest, .inl rfl, hpath, hroute⟩
          · intro h
            rcases h with ⟨registration, rfl | ⟨-, hne⟩, hsame, hroute⟩
            · exact hroute
            · exact absurd (hpath.trans hsame.symm) hne
      · next hpath =>
          rw [ih]
          constructor
          · intro h
            rcases h with ⟨registration, hlast, rfl, hroute⟩
            exact ⟨registration, .inr ⟨hlast, hpath⟩, rfl, hroute⟩
          · intro h
            rcases h with ⟨registration, rfl | ⟨hlast, -⟩, hsame, hroute⟩
            · exact absurd hsame hpath
            · exact ⟨registration, hlast, hsame, hroute⟩

/-- A path has a last registration if it was registered at all. -/
theorem mem_keys_ofHistory {history : List Registration} {path : String} :
    path ∈ (ofHistory history).keys ↔ path ∈ history.map Registration.path := by
  induction history using List.reverseRecOn with
  | nil => simp [Dictionary.keys, Dictionary.empty]
  | append_singleton history latest ih =>
      rw [Dictionary.mem_keys_iff] at ih ⊢
      rw [ofHistory_append, List.map_append, List.mem_append, ← ih]
      simp only [Dictionary.find?_insert, List.map_cons, List.map_nil, List.mem_singleton]
      by_cases hpath : latest.path = path
      · simp [hpath]
      · simp [hpath, Ne.symm hpath]

/-- There are as many routes as there are different paths in the history. -/
theorem size_ofHistory (history : List Registration) :
    (ofHistory history).size = (history.map Registration.path).toFinset.card := by
  apply Dictionary.size_eq_card
  intro path
  exact mem_keys_ofHistory

/-- A path does not depend on the registrations of another. -/
theorem find?_ofHistory_filter {path left : String} (hne : path ≠ left)
    (history : List Registration) :
    (ofHistory (history.filter (·.path ≠ left))).find? path = (ofHistory history).find? path := by
  induction history using List.reverseRecOn with
  | nil => rfl
  | append_singleton history latest ih =>
      rw [List.filter_append, ofHistory_append, Dictionary.find?_insert]
      by_cases hleft : latest.path = left
      · rw [if_neg (fun e => hne (e.symm.trans hleft)), ← ih]
        simp [hleft]
      · simp only [List.filter_cons, hleft, ne_eq, not_false_eq_true, decide_true, if_true,
          List.filter_nil, ofHistory_append, Dictionary.find?_insert]
        rw [← ih]

/-! ## Which requests are answered -/

/-- A request is answered by the last registration of its path, if that has its
method. -/
theorem answering?_ofHistory {history : List Registration} {path : String} {method : Method}
    {route : Route} :
    (ofHistory history).answering? path method = some route ↔
      ∃ registration : Registration, registration.LastIn history ∧
        registration.path = path ∧ method ∈ registration.methods ∧
        registration.route = route := by
  rw [answering?, Option.filter_eq_some_iff, find?_ofHistory, List.contains_iff_mem]
  constructor
  · intro h
    rcases h with ⟨⟨registration, hlast, hpath, rfl⟩, hmethod⟩
    exact ⟨registration, hlast, hpath, hmethod, rfl⟩
  · intro h
    rcases h with ⟨registration, hlast, hpath, hmethod, rfl⟩
    exact ⟨⟨registration, hlast, hpath, rfl⟩, hmethod⟩

theorem answering?_ofHistory_eq_none {history : List Registration} {path : String}
    {method : Method} :
    (ofHistory history).answering? path method = none ↔
      ∀ registration : Registration, registration.LastIn history →
        registration.path = path → method ∉ registration.methods := by
  rw [Option.eq_none_iff_forall_ne_some]
  constructor
  · intro h registration hlast hpath hmethod
    exact h registration.route
      (answering?_ofHistory.2 ⟨registration, hlast, hpath, hmethod, rfl⟩)
  · intro h route hroute
    rcases answering?_ofHistory.1 hroute with ⟨registration, hlast, hpath, hmethod, -⟩
    exact h registration hlast hpath hmethod

/-- Handling a request gives something exactly if there is a route for it. -/
theorem value_handle_eq_none_iff (routes : Routes) (fs : Files.FileSystem) (path : String)
    (method : Method) (request : Request) :
    (routes.handle fs path method request).value = none ↔ routes.answers path method = false := by
  unfold handle answers
  cases routes.answering? path method <;> simp

end Routes

end SiteServer
