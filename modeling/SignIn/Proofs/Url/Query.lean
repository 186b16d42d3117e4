import SignIn.Proofs.Text.Form
import SignIn.Url.Query

/-!
# Pairs behind a query

## Main results

* `Url.pairs_appendPairs` — a URL has the pairs that it had, and behind them those that were added
-/

namespace SignIn.Url

/-- A URL keeps its pairs when others are added, whatever its query was. -/
@[simp]
theorem pairs_appendPairs (u : Url) (form : Form) :
    (u.appendPairs form).pairs = u.pairs ++ form := by
  suffices h : Form.ofText (extendQuery u.query form) = Form.ofText (u.query.getD "") ++ form from h
  unfold extendQuery
  split
  · next h => simp [h]
  · next h => simp [h]
  · next text _ h =>
    rw [h, Option.getD_some]
    split
    · next hform => rw [List.isEmpty_iff.1 hform, List.append_nil]
    · rw [Form.ofText_append, Form.ofText_encode]

end SignIn.Url
