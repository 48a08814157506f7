import Emend.Text.Blank
import Emend.Text.Split
import Mathlib

/-!
Text cut at blanks and separators. Trimming stops at the first character that is not blank, pieces that
were joined are found again, and a cut is made at the first mark.
-/

set_option autoImplicit false

namespace Emend.Text

variable {before front back after : List Char} {c mark : Char}

theorem trimStart_blanks (blank : ∀ b ∈ before, isBlank b = true) (back : List Char) :
    trimStart (before ++ back) = trimStart back :=
  List.dropWhile_append_of_pos blank

theorem trimStart_of_solid (solid : isBlank c = false) (back : List Char) :
    trimStart (c :: back) = c :: back :=
  List.dropWhile_cons_of_neg (by simp [solid])

theorem trimEnd_append (solid : isBlank c = false) (front back : List Char) :
    trimEnd (front ++ c :: back) = front ++ c :: trimEnd back := by
  have stop : (c :: front.reverse).dropWhile isBlank = c :: front.reverse :=
    List.dropWhile_cons_of_neg (by simp [solid])
  have reversed : (front ++ c :: back).reverse = back.reverse ++ c :: front.reverse := by simp
  unfold trimEnd
  rw [reversed, List.dropWhile_append, stop]
  split
  · rename_i lost
    rw [List.isEmpty_iff.mp lost]
    simp
  · simp

theorem trimEnd_trimEnd (cs : List Char) : trimEnd (trimEnd cs) = trimEnd cs :=
  List.rdropWhile_idempotent isBlank cs

theorem exists_trimStart (cs : List Char) :
    ∃ before, (∀ b ∈ before, isBlank b = true) ∧ cs = before ++ trimStart cs :=
  ⟨cs.takeWhile isBlank, fun _ member => List.mem_takeWhile_imp member,
    List.takeWhile_append_dropWhile.symm⟩

theorem exists_trimEnd (cs : List Char) :
    ∃ after, (∀ b ∈ after, isBlank b = true) ∧ cs = trimEnd cs ++ after := by
  obtain ⟨blanks, blank, whole⟩ := exists_trimStart cs.reverse
  refine ⟨blanks.reverse, fun b member => blank b (List.mem_reverse.mp member), ?_⟩
  have mirrored := congrArg List.reverse whole
  rwa [List.reverse_reverse, List.reverse_append] at mirrored

theorem trimEnd_eq_self_iff {cs : List Char} :
    trimEnd cs = cs ↔ ∀ c, cs.getLast? = some c → isBlank c = false := by
  refine (List.rdropWhile_eq_self_iff (p := isBlank)).trans ?_
  cases cs with
  | nil => simp
  | cons c cs => simp [List.getLast?_eq_some_getLast]

theorem pieces_eq_splitOnP (isSeparator : Char → Bool) (cs : List Char) :
    pieces isSeparator cs = cs.splitOnP isSeparator := by
  induction cs with
  | nil => rfl
  | cons c cs ih =>
      rw [pieces, List.splitOnP_cons_eq_if_modifyHead, ih]
      cases split : cs.splitOnP isSeparator with
      | nil => exact absurd split (List.splitOnP_ne_nil _ _)
      | cons first others => rfl

theorem pieces_joined {parts : List (List Char)} (filled : parts ≠ [])
    (unmarked : ∀ part ∈ parts, mark ∉ part) :
    pieces (· == mark) ([mark].intercalate parts) = parts := by
  rw [pieces_eq_splitOnP]
  exact List.splitOn_intercalate mark unmarked filled

theorem joined_pieces (mark : Char) (cs : List Char) :
    [mark].intercalate (pieces (· == mark) cs) = cs := by
  rw [pieces_eq_splitOnP]
  exact List.intercalate_splitOn mark

theorem cut?_eq_none (unmarked : mark ∉ front) : cut? mark front = none := by
  induction front with
  | nil => rfl
  | cons c front ih =>
      rw [List.mem_cons, not_or] at unmarked
      rw [cut?, if_neg (Ne.symm unmarked.1), ih unmarked.2]
      rfl

theorem cut?_append (unmarked : mark ∉ front) (back : List Char) :
    cut? mark (front ++ mark :: back) = some (front, back) := by
  induction front with
  | nil => rw [List.nil_append, cut?, if_pos rfl]
  | cons c front ih =>
      rw [List.mem_cons, not_or] at unmarked
      rw [List.cons_append, cut?, if_neg (Ne.symm unmarked.1), ih unmarked.2]
      rfl

theorem exists_cut? (mark : Char) (cs : List Char) :
    (mark ∉ cs ∧ cut? mark cs = none) ∨
    ∃ front back, cs = front ++ mark :: back ∧ mark ∉ front ∧ cut? mark cs = some (front, back) := by
  by_cases marked : mark ∈ cs
  · obtain ⟨front, back, rfl, unmarked⟩ := List.eq_append_cons_of_mem marked
    exact .inr ⟨front, back, rfl, unmarked, cut?_append unmarked back⟩
  · exact .inl ⟨marked, cut?_eq_none marked⟩

end Emend.Text
