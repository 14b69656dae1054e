import Mathlib.Data.List.Basic
import Mathlib.Tactic.Common

/-!
# Lines

A line ends with a delimiter and holds it nowhere else. Lines that stand one behind the other can be
told apart again, and so can those of a beginning of them.

## Main definitions

* `IsLine d l`: the list is a line
* `split d l`: the lines of a text, and what follows the last of them

## Main results

* `flatten_split`: splitting loses nothing
* `split_flatten_append`: splitting what was put together from lines
* `split_eq_iff`: which texts have the lines
* `split_of_prefix`: splitting a beginning
-/

namespace Lines

variable {α : Type*} {d : α}

/-- The list ends with the delimiter and holds it nowhere else. -/
def IsLine (d : α) (l : List α) : Prop := ∃ body, l = body ++ [d] ∧ d ∉ body

/-- The delimiter of a line is behind the first element, or is that element. -/
theorem isLine_cons {a : α} {l : List α} :
    IsLine d (a :: l) ↔ a = d ∧ l = [] ∨ a ≠ d ∧ IsLine d l := by
  constructor
  · rintro ⟨body, heq, hbody⟩
    cases body with
    | nil => exact Or.inl (List.cons.inj heq)
    | cons b body =>
      obtain ⟨rfl, rfl⟩ := List.cons.inj heq
      rw [List.mem_cons, not_or] at hbody
      exact Or.inr ⟨Ne.symm hbody.1, body, rfl, hbody.2⟩
  · rintro (⟨rfl, rfl⟩ | ⟨hne, body, rfl, hbody⟩)
    · exact ⟨[], rfl, List.not_mem_nil⟩
    · exact ⟨a :: body, rfl, List.not_mem_cons_of_ne_of_not_mem (Ne.symm hne) hbody⟩

theorem IsLine.ne_nil {l : List α} (h : IsLine d l) : l ≠ [] := by
  obtain ⟨body, rfl, -⟩ := h
  exact List.append_ne_nil_of_right_ne_nil _ (List.cons_ne_nil _ _)

theorem IsLine.mem {l : List α} (h : IsLine d l) : d ∈ l := by
  obtain ⟨body, rfl, -⟩ := h
  exact List.mem_append_right _ List.mem_cons_self

/-- A beginning of a text that does not reach the end of its first line holds no delimiter. -/
theorem not_mem_of_not_prefix {line l : List α} {lines : List (List α)} (h : IsLine d line)
    (hl : l <+: (line :: lines).flatten) (hreach : ¬ line <+: l) : d ∉ l := by
  obtain ⟨body, rfl, hbody⟩ := h
  rw [List.flatten_cons] at hl
  have hline := (List.prefix_or_prefix_of_prefix hl (List.prefix_append _ _)).resolve_right hreach
  rcases List.prefix_concat_iff.mp hline with rfl | hshort
  · exact absurd List.prefix_rfl hreach
  · exact fun hmem => hbody (hshort.subset hmem)

variable [DecidableEq α]

/-- The lines of a text, and what follows the last of them. -/
def split (d : α) : List α → List (List α) × List α
  | [] => ([], [])
  | a :: l =>
    if a = d then ([a] :: (split d l).1, (split d l).2)
    else
      match (split d l).1 with
      | [] => ([], a :: (split d l).2)
      | line :: lines => ((a :: line) :: lines, (split d l).2)

@[simp] theorem split_nil (d : α) : split d [] = ([], []) := rfl

/-- A line in front of a text is its first. -/
theorem split_line_append {line : List α} (h : IsLine d line) (l : List α) :
    split d (line ++ l) = (line :: (split d l).1, (split d l).2) := by
  induction line with
  | nil => exact absurd rfl h.ne_nil
  | cons a line ih =>
    rcases isLine_cons.mp h with ⟨rfl, rfl⟩ | ⟨hne, hline⟩
    · simp [split]
    · simp [split, hne, ih hline]

/-- A text without the delimiter has no line. -/
theorem split_of_not_mem {l : List α} (h : d ∉ l) : split d l = ([], l) := by
  induction l with
  | nil => rfl
  | cons a l ih =>
    rw [List.mem_cons, not_or] at h
    simp [split, Ne.symm h.1, ih h.2]

/-- **Splitting what was put together**: the lines come back, and what stood behind them. -/
theorem split_flatten_append {lines : List (List α)} (h : ∀ line ∈ lines, IsLine d line)
    (l : List α) : split d (lines.flatten ++ l) = (lines ++ (split d l).1, (split d l).2) := by
  induction lines with
  | nil => rfl
  | cons line lines ih =>
    rw [List.forall_mem_cons] at h
    rw [List.flatten_cons, List.append_assoc, split_line_append h.1, ih h.2]
    rfl

theorem split_flatten {lines : List (List α)} (h : ∀ line ∈ lines, IsLine d line) :
    split d lines.flatten = (lines, []) := by
  have hsplit := split_flatten_append h []
  rwa [List.append_nil, split_nil, List.append_nil] at hsplit

/-- **Splitting** loses nothing and reorders nothing. -/
theorem flatten_split (d : α) (l : List α) : (split d l).1.flatten ++ (split d l).2 = l := by
  induction l with
  | nil => rfl
  | cons a l ih =>
    rw [split]
    split_ifs with ha
    · simpa using ih
    · cases hlines : (split d l).1 with
      | nil =>
        rw [hlines] at ih
        exact congrArg (a :: ·) ih
      | cons line lines =>
        rw [hlines] at ih
        simpa using ih

/-- **The lines of a text** are the given ones exactly where it is put together from them. -/
theorem split_eq_iff {lines : List (List α)} (h : ∀ line ∈ lines, IsLine d line) (l : List α) :
    split d l = (lines, []) ↔ l = lines.flatten := by
  constructor
  · intro hsplit
    have hflatten := flatten_split d l
    rw [hsplit, List.append_nil] at hflatten
    exact hflatten.symm
  · rintro rfl
    exact split_flatten h

/-- **Splitting a beginning** of a text put together from lines: its lines are the first of them,
and what follows is a beginning, short of the delimiter, of the others. -/
theorem split_of_prefix {lines : List (List α)} (h : ∀ line ∈ lines, IsLine d line) {l : List α}
    (hl : l <+: lines.flatten) :
    ∃ rest, lines = (split d l).1 ++ rest ∧ (split d l).2 <+: rest.flatten ∧
      d ∉ (split d l).2 := by
  induction lines generalizing l with
  | nil =>
    obtain rfl := List.prefix_nil.mp hl
    exact ⟨[], rfl, List.prefix_rfl, List.not_mem_nil⟩
  | cons line lines ih =>
    rw [List.forall_mem_cons] at h
    -- the beginning reaches the end of the first line, or stays inside it
    by_cases hreach : line <+: l
    · obtain ⟨m, rfl⟩ := hreach
      rw [List.flatten_cons, List.prefix_append_right_inj] at hl
      obtain ⟨rest, hlines, hrest, hmem⟩ := ih h.2 hl
      rw [split_line_append h.1]
      exact ⟨rest, congrArg (line :: ·) hlines, hrest, hmem⟩
    · have hmem : d ∉ l := not_mem_of_not_prefix h.1 hl hreach
      rw [split_of_not_mem hmem]
      exact ⟨line :: lines, rfl, hl, hmem⟩

end Lines
