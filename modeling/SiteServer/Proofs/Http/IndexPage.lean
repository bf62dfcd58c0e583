import SiteServer.Proofs.Http.RequestGrammar

/-!
# The page that stands for the root

A target that is only a slash is read as the path of the index page.  Two buffers
that ask for the same, one for the root and one for the index page, are therefore
the same request or have the same flaw (`value_parse_root`), and no request is for
the path of the root itself (`path_ne_root`).
-/

namespace SiteServer.Http

/-- Two buffers that ask in the same way, one for a target and one for another: the
words around it, the header lines and the bodies are the same. -/
structure AskAlike (buffer other : Bytes) (target target' : String) : Prop where
  words : ∃ first third, FirstWords (splitHead buffer).1 first target third ∧
    FirstWords (splitHead other).1 first target' third
  lines : headerLines (splitHead buffer).1 = headerLines (splitHead other).1
  bodies : (splitHead buffer).2 = (splitHead other).2

/-- The root is read as the index page. -/
theorem value_parse_root {buffer other : Bytes} (h : AskAlike buffer other "/" indexPath) :
    (Request.parse buffer).value = (Request.parse other).value := by
  rcases h.words with ⟨first, third, hroot, hindex⟩
  have htext := hasText_of_mem_requestWords (List.mem_of_getElem? hroot.first)
  have htext' := hasText_of_mem_requestWords (List.mem_of_getElem? hindex.first)
  rw [value_parse, value_parse, readHead_of_hasText htext, readHead_of_hasText htext',
    hroot.parse, hindex.parse, h.lines, h.bodies]
  cases Method.words.find? first with
  | none => rfl
  | some m =>
      cases Version.words.find? third with
      | none => rfl
      | some v =>
          cases ({} : HeaderFields).recordLines (headerLines (splitHead other).1) with
          | error e => rfl
          | ok fields => rfl

theorem pathOfTarget_ne_root (target : String) : (pathOfTarget target).value ≠ "/" := by
  unfold pathOfTarget
  split
  · show indexPath ≠ "/"
    decide
  · assumption

/-- No request is for the root. -/
theorem path_ne_root {buffer : Bytes} {request : Request}
    (h : (Request.parse buffer).value = .ok request) : request.path ≠ "/" := by
  rcases value_parse_eq_ok_iff.1 h with ⟨line, fields, -, rfl⟩
  exact pathOfTarget_ne_root line.target

end SiteServer.Http
