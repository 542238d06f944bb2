import DepSpec.Text.Blank

set_option autoImplicit false

/-! # Cutting text into pieces

Two ways to cut: at every separator (`splitWhere`, and `words` for the runs between blanks), and
at the first separator only (`cut?`). Beside them the tests for how a text begins and ends. -/

namespace DepSpec.Text

/-! ## At every separator -/

/-- The pieces between the separators, in order; `n` separators make `n + 1` pieces. -/
def splitWhere (sep : Char → Bool) : List Char → List (List Char)
  | [] => [[]]
  | c :: cs =>
    if sep c then [] :: splitWhere sep cs
    else match splitWhere sep cs with
      | [] => [[c]]
      | piece :: pieces => (c :: piece) :: pieces

/-- There is always at least one piece. -/
theorem splitWhere_ne_nil (sep : Char → Bool) (cs : List Char) : splitWhere sep cs ≠ [] := by
  cases cs with
  | nil => simp [splitWhere]
  | cons c cs =>
    unfold splitWhere
    split
    · simp
    · split <;> simp

/-- The pieces between the dots. -/
def splitDots (cs : List Char) : List (List Char) := splitWhere (· == '.') cs

/-- The pieces between the slashes. -/
def splitSlashes (cs : List Char) : List (List Char) := splitWhere (· == '/') cs

/-- The maximal runs of characters that are not blank. -/
def words (cs : List Char) : List (List Char) :=
  (splitWhere isBlank cs).filter (fun w => !w.isEmpty)

/-! ## At the first separator -/

/-- What stands before and after the first separator, if there is one. -/
def cut? (sep : Char → Bool) : List Char → Option (List Char × List Char)
  | [] => none
  | c :: cs =>
    if sep c then some ([], cs)
    else (cut? sep cs).map fun (before, after) => (c :: before, after)

/-- A cut loses nothing but the separator, and cuts at the first one. -/
theorem cut?_eq_some {sep : Char → Bool} {cs before after : List Char}
    (h : cut? sep cs = some (before, after)) :
    ∃ c, sep c = true ∧ cs = before ++ c :: after ∧ ∀ b ∈ before, sep b = false := by
  induction cs generalizing before with
  | nil => simp [cut?] at h
  | cons c cs ih =>
    unfold cut? at h
    split at h
    · next hc =>
      simp only [Option.some.injEq, Prod.mk.injEq] at h
      obtain ⟨rfl, rfl⟩ := h
      exact ⟨c, hc, rfl, by simp⟩
    · next hc =>
      simp only [Option.map_eq_some_iff, Prod.mk.injEq, Prod.exists] at h
      obtain ⟨b, a, hcut, rfl, rfl⟩ := h
      obtain ⟨d, hd, rfl, hall⟩ := ih hcut
      refine ⟨d, hd, rfl, ?_⟩
      simpa [hc] using hall

theorem length_of_cut? {sep : Char → Bool} {cs before after : List Char}
    (h : cut? sep cs = some (before, after)) : after.length < cs.length := by
  obtain ⟨c, -, rfl, -⟩ := cut?_eq_some h
  simp; omega

/-! ## How a text begins and ends -/

/-- What follows `start`, if the text begins with it. -/
def after? (start : List Char) (cs : List Char) : Option (List Char) :=
  if start.isPrefixOf cs then some (cs.drop start.length) else none

/-- The text with one `ending` taken off, if it ends with it. -/
def withoutEnding (ending : List Char) (cs : List Char) : List Char :=
  if ending.isSuffixOf cs then cs.take (cs.length - ending.length) else cs

/-- The text without the leading and trailing characters of a class. -/
def strip (p : Char → Bool) (cs : List Char) : List Char :=
  ((cs.dropWhile p).reverse.dropWhile p).reverse

end DepSpec.Text
