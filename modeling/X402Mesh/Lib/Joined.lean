import Mathlib.Data.List.Basic

set_option autoImplicit false

namespace Joined

variable {α β : Type}

-- Without this, `decide` may go through the whole of a finite type for the elements of one list.
theorem forall_of_all {p : α → Prop} [DecidablePred p] {l : List α}
    (all : l.all (fun a => decide (p a)) = true) : ∀ a ∈ l, p a := by
  simpa using all

theorem map_intercalate (f : α → β) (sep : List α) (parts : List (List α)) :
    (sep.intercalate parts).map f = (sep.map f).intercalate (parts.map (List.map f)) := by
  induction parts with
  | nil => rfl
  | cons part rest ih =>
    cases rest with
    | nil => simp
    | cons next more =>
      simp only [List.intercalate_cons_cons, List.map_append, List.map_cons] at ih ⊢
      rw [ih]

theorem mem_intercalate {x sep : α} {parts : List (List α)} (member : x ∈ [sep].intercalate parts) :
    x = sep ∨ ∃ part ∈ parts, x ∈ part := by
  induction parts with
  | nil => simp at member
  | cons part rest ih =>
    cases rest with
    | nil => exact .inr ⟨part, by simp, by simpa using member⟩
    | cons next more =>
      simp only [List.intercalate_cons_cons, List.mem_append, List.mem_singleton, or_assoc] at member
      obtain here | here | later := member
      · exact .inr ⟨part, by simp, here⟩
      · exact .inl here
      · obtain same | ⟨found, among, inside⟩ := ih later
        · exact .inl same
        · exact .inr ⟨found, List.mem_cons_of_mem _ among, inside⟩

-- What holds no separator is a single part.
theorem intercalate_free {sep : α} {parts : List (List α)} {whole : List α} (free : sep ∉ whole)
    (some : parts ≠ []) (same : [sep].intercalate parts = whole) : parts = [whole] := by
  cases parts with
  | nil => exact absurd rfl some
  | cons part rest =>
    cases rest with
    | nil => rw [← same, List.intercalate_singleton]
    | cons next more =>
      rw [List.intercalate_cons_cons] at same
      exact absurd (by rw [← same]; simp) free

-- Two lists that a separator ends in front of the rest agree on both sides of it.
theorem append_cons_inj {sep : α} {a b x y : List α} (left : sep ∉ a) (right : sep ∉ b)
    (same : a ++ sep :: x = b ++ sep :: y) : a = b ∧ x = y := by
  induction a generalizing b with
  | nil =>
    cases b with
    | nil => exact ⟨rfl, by simpa using same⟩
    | cons c b =>
      rw [List.nil_append, List.cons_append, List.cons.injEq] at same
      exact absurd (by simp [same.1]) right
  | cons d a ih =>
    cases b with
    | nil =>
      rw [List.nil_append, List.cons_append, List.cons.injEq] at same
      exact absurd (by simp [same.1]) left
    | cons c b =>
      rw [List.cons_append, List.cons_append, List.cons.injEq] at same
      obtain ⟨front, back⟩ := ih (fun inside => left (List.mem_cons_of_mem _ inside))
        (fun inside => right (List.mem_cons_of_mem _ inside)) same.2
      exact ⟨by rw [same.1, front], back⟩

variable [BEq α] [LawfulBEq α]

theorem dropPrefix?_eq_some (whole front rest : List α) :
    whole.dropPrefix? front = some rest ↔ whole = front ++ rest := by
  induction front generalizing whole with
  | nil => simp
  | cons a front ih =>
    cases whole with
    | nil => simp [List.dropPrefix?]
    | cons b whole =>
      rw [List.dropPrefix?]
      split
      next same =>
        obtain rfl := eq_of_beq same
        rw [ih, List.cons_append, List.cons.injEq]
        simp
      next other =>
        simp only [List.cons_append, List.cons.injEq, reduceCtorEq, false_iff]
        exact fun both => other (beq_iff_eq.mpr both.1)

end Joined
