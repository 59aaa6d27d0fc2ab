import Mathlib.Data.List.TakeWhile

/-!
# Spans of characters

The readers take characters off the front of a text as long as these have a property. Where such a
span is known beforehand, together with what stops it, it is just what they take off.
-/

set_option autoImplicit false

namespace Stencil

variable {p : Char → Bool} {span rest : List Char}

theorem head?_dropWhile (p : Char → Bool) (cs : List Char) : (cs.dropWhile p).head?.all (!p ·) := by
  have hstop := List.head?_dropWhile_not p cs
  cases h : cs.dropWhile p with
  | nil => rfl
  | cons c rest => simp_all

theorem dropWhile_of_head? (hrest : rest.head?.all (!p ·)) : rest.dropWhile p = rest := by
  cases rest with
  | nil => rfl
  | cons c rest => simp_all

theorem takeWhile_of_head? (hrest : rest.head?.all (!p ·)) : rest.takeWhile p = [] := by
  cases rest with
  | nil => rfl
  | cons c rest => simp_all

theorem dropWhile_span (h : ∀ c ∈ span, p c = true) (hrest : rest.head?.all (!p ·)) :
    (span ++ rest).dropWhile p = rest := by
  rw [List.dropWhile_append_of_pos h, dropWhile_of_head? hrest]

theorem takeWhile_span (h : ∀ c ∈ span, p c = true) (hrest : rest.head?.all (!p ·)) :
    (span ++ rest).takeWhile p = span := by
  rw [List.takeWhile_append_of_pos h, takeWhile_of_head? hrest, List.append_nil]

end Stencil
