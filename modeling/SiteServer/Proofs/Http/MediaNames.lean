import SiteServer.Http.MediaType
import SiteServer.Proofs.Text.Ends
import Mathlib.Data.List.Nodup

/-!
# Names of media types

The canonical names are all different.  They are in lower case, and no blanks and no
semicolons are in them, so each is read as what it names (`parse?_name`).
-/

namespace SiteServer.Http.MediaType

theorem name_injective {s t : MediaType} (h : s.name = t.name) : s = t := by
  have hdistinct : (all.map name).Nodup := by decide +kernel
  exact List.inj_on_of_nodup_map hdistinct (mem_all s) (mem_all t) h

theorem of_mem_name {t : MediaType} {c : Char} (h : c ∈ t.name.toList) :
    c.toLower = c ∧ Text.isBlank c = false ∧ c ≠ ';' := by
  have hall : (t.name.toList.all fun c =>
      c.toLower = c ∧ Text.isBlank c = false ∧ c ≠ ';') = true := by
    cases t <;> decide +kernel
  exact of_decide_eq_true (List.all_eq_true.1 hall c h)

theorem fold_name (t : MediaType) : Text.fold t.name.toList = t.name.toList := by
  have hsame : t.name.toList.map Char.toLower = t.name.toList.map id :=
    List.map_congr_left fun c hc => (of_mem_name hc).1
  rw [Text.fold, hsame, List.map_id]

theorem essence_name (t : MediaType) : essence t.name = t.name.toList := by
  have hwhole : Text.breakAt (· = ';') t.name.toList = (t.name.toList, []) :=
    Text.breakAt_of_not_mem fun hmem => (of_mem_name hmem).2.2 rfl
  have hends : ∀ c ∈ t.name.toList, Text.isBlank c = false := fun c hc => (of_mem_name hc).2.1
  rw [essence, hwhole]
  refine Text.trimBoth_eq_iff.2 ⟨⟨[], [], by simp⟩, fun c hc => ?_, fun c hc => ?_⟩
  · exact hends c (List.mem_of_head? hc)
  · exact hends c (List.mem_of_getLast? hc)

/-- A canonical name is read as what it names. -/
theorem parse?_name (t : MediaType) : parse? t.name = some t := by
  have hsame : ∀ s : MediaType, Text.fold s.name.toList = Text.fold (essence t.name) ↔ s = t := by
    intro s
    rw [essence_name, fold_name, fold_name, String.toList_inj]
    exact ⟨name_injective, congrArg name⟩
  simp only [parse?, hsame]
  cases hfind : all.find? (fun s => s = t) with
  | none => simpa using List.find?_eq_none.1 hfind t (mem_all t)
  | some s => simpa using List.find?_some hfind

theorem parse_eq_ok_iff {name : String} {t : MediaType} :
    parse name = .ok t ↔ parse? name = some t := by
  unfold parse
  cases parse? name with
  | none => simp
  | some s => simp

theorem parse_name (t : MediaType) : parse t.name = .ok t :=
  parse_eq_ok_iff.2 (parse?_name t)

end SiteServer.Http.MediaType
