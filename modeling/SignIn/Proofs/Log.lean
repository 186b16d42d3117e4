/-!
# Logs

A log grows at its end, and an entry is judged by what was logged before it. So nothing that is
logged later changes the judgement, and a log is judged entry by entry, as it grows.

## Main results

* `Log.concat_eq_iff` — where a log can be split that grew by one entry
* `Log.forall_concat_iff` — every entry of it is as it should be
-/

namespace SignIn.Log

variable {α : Type} {log before behind : List α} {entry last : α}

/-- A log that grew is split before its last entry, or where it could be split already. -/
theorem concat_eq_iff : log ++ [last] = before ++ entry :: behind ↔
    (log = before ∧ last = entry ∧ behind = []) ∨
      ∃ rest, behind = rest ++ [last] ∧ log = before ++ entry :: rest := by
  constructor
  · intro h
    obtain rfl | ⟨rest, b, rfl⟩ := List.eq_nil_or_concat behind
    · obtain ⟨rfl, rfl⟩ := List.append_singleton_inj.1 h
      exact .inl ⟨rfl, rfl, rfl⟩
    · rw [List.concat_eq_append, ← List.cons_append, ← List.append_assoc] at h
      obtain ⟨rfl, rfl⟩ := List.append_singleton_inj.1 h
      exact .inr ⟨rest, List.concat_eq_append, rfl⟩
  · rintro (⟨rfl, rfl, rfl⟩ | ⟨rest, rfl, rfl⟩)
    · rfl
    · simp

/-- Every entry of a log that grew is as it should be if they were before and the new one is. -/
theorem forall_concat_iff {P : List α → α → Prop} :
    (∀ before entry behind, log ++ [last] = before ++ entry :: behind → P before entry) ↔
      (∀ before entry behind, log = before ++ entry :: behind → P before entry) ∧ P log last := by
  constructor
  · intro h
    refine ⟨fun before entry behind hlog => ?_, h log last [] rfl⟩
    exact h before entry (behind ++ [last]) (by simp [hlog])
  · rintro ⟨hlog, hlast⟩ before entry behind hgrown
    obtain ⟨rfl, rfl, -⟩ | ⟨rest, -, hsplit⟩ := concat_eq_iff.1 hgrown
    · exact hlast
    · exact hlog before entry rest hsplit

end SignIn.Log
