import Mathlib.Data.List.TakeWhile

/-!
# The last mark of a text

Some formats split a text at the last place where a mark stands. What is behind it holds no mark, so
the reversed text starts with what is behind the mark, and then comes the mark.

## Main results

* `Marks.dropWhile_reverse`, `Marks.takeWhile_reverse` — where the last mark is
* `Marks.of_dropWhile_reverse` — what a text with a mark consists of
-/

namespace SignIn.Marks

variable {mark : Char} {before behind : List Char}

theorem reverse_append_cons :
    (before ++ mark :: behind).reverse = behind.reverse ++ mark :: before.reverse := by
  rw [List.reverse_append, List.reverse_cons, List.append_assoc, List.singleton_append]

theorem forall_ne_reverse (h : mark ∉ behind) : ∀ c ∈ behind.reverse, decide (c ≠ mark) = true := by
  intro c hc
  refine decide_eq_true ?_
  rintro rfl
  exact h (List.mem_reverse.1 hc)

theorem dropWhile_reverse (h : mark ∉ behind) :
    (before ++ mark :: behind).reverse.dropWhile (· ≠ mark) = mark :: before.reverse := by
  rw [reverse_append_cons, List.dropWhile_append_of_pos (forall_ne_reverse h)]
  exact List.dropWhile_cons_of_neg (by simp)

theorem takeWhile_reverse (h : mark ∉ behind) :
    (before ++ mark :: behind).reverse.takeWhile (· ≠ mark) = behind.reverse := by
  rw [reverse_append_cons, List.takeWhile_append_of_pos (forall_ne_reverse h),
    List.takeWhile_cons_of_neg (by simp), List.append_nil]

theorem dropWhile_reverse_of_not_mem (h : mark ∉ behind) :
    behind.reverse.dropWhile (· ≠ mark) = [] :=
  List.dropWhile_eq_nil_iff.2 (forall_ne_reverse h)

/-- A text in which there is a mark is what is before the last one and what is behind it. -/
theorem of_dropWhile_reverse {text : List Char} {c : Char}
    (h : text.reverse.dropWhile (· ≠ mark) = c :: before) :
    text = before.reverse ++ mark :: (text.reverse.takeWhile (· ≠ mark)).reverse ∧
      mark ∉ (text.reverse.takeWhile (· ≠ mark)).reverse := by
  have hmark : c = mark := by
    have hhead := List.head?_dropWhile_not (· ≠ mark) text.reverse
    rw [h] at hhead
    simpa using hhead
  have hsplit : text.reverse.takeWhile (· ≠ mark) ++ mark :: before = text.reverse := by
    rw [hmark] at h
    rw [← h]
    exact List.takeWhile_append_dropWhile
  constructor
  · have hreverse := congrArg List.reverse hsplit
    rw [reverse_append_cons, List.reverse_reverse] at hreverse
    exact hreverse.symm
  · intro hmem
    have hne := List.mem_takeWhile_imp (List.mem_reverse.1 hmem)
    simp at hne

end SignIn.Marks
