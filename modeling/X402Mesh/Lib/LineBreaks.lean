import Mathlib.Data.List.Basic

set_option autoImplicit false

namespace LineBreaks

variable {α : Type} [DecidableEq α] (cr lf : α)

def joinPairs : List α → List α
  | [] => []
  | [a] => [a]
  | a :: b :: rest =>
    if a = cr ∧ b = lf then lf :: joinPairs rest else a :: joinPairs (b :: rest)

def unify (text : List α) : List α :=
  (joinPairs cr lf text).map fun c => if c = cr then lf else c

-- No pair straddles the seam.
def Apart (a b : List α) : Prop := ¬ (a.getLast? = some cr ∧ b.head? = some lf)

theorem joinPairs_append (a b : List α) (apart : Apart cr lf a b) :
    joinPairs cr lf (a ++ b) = joinPairs cr lf a ++ joinPairs cr lf b := by
  fun_induction joinPairs cr lf a with
  | case1 => rfl
  | case2 c =>
    cases b with
    | nil => simp [joinPairs]
    | cons d rest =>
      have no : ¬ (c = cr ∧ d = lf) := by simpa [Apart] using apart
      simp [joinPairs, no]
  | case3 c d rest both ih =>
    have later : Apart cr lf rest b := by
      cases rest with
      | nil => simp [Apart]
      | cons e more => simpa [Apart] using apart
    simpa [joinPairs, both] using ih later
  | case4 c d rest no ih =>
    have later : Apart cr lf (d :: rest) b := by simpa [Apart] using apart
    simpa [joinPairs, no] using ih later

theorem unify_append (a b : List α) (apart : Apart cr lf a b) :
    unify cr lf (a ++ b) = unify cr lf a ++ unify cr lf b := by
  rw [unify, joinPairs_append cr lf a b apart, List.map_append]
  rfl

theorem unify_pair (rest : List α) : unify cr lf (cr :: lf :: rest) = lf :: unify cr lf rest := by
  simp [unify, joinPairs]

theorem unify_cr : unify cr lf [cr] = [lf] := by
  simp [unify, joinPairs]

def held (text : List α) : Bool := text.getLast? = some cr

def withoutHeld (text : List α) : List α := if held cr text then text.dropLast else text

-- What is settled of a text while its last carriage return is withheld.
def settled (text : List α) : List α := unify cr lf (withoutHeld cr text)

theorem withoutHeld_held (text : List α) (ends : held cr text = true) :
    text = withoutHeld cr text ++ [cr] := by
  have last : text.getLast? = some cr := by simpa [held] using ends
  obtain ⟨front, rfl⟩ := List.getLast?_eq_some_iff.mp last
  simp [withoutHeld, held]

theorem withoutHeld_open (text : List α) (ends : held cr text = false) :
    withoutHeld cr text = text := by
  rw [withoutHeld, if_neg (by simp [ends])]

theorem held_append (text : List α) (c : α) (rest : List α) :
    held cr (text ++ c :: rest) = held cr (c :: rest) := by
  simp [held, List.getLast?_append]

theorem withoutHeld_append (text : List α) (c : α) (rest : List α) :
    withoutHeld cr (text ++ c :: rest) = text ++ withoutHeld cr (c :: rest) := by
  simp only [withoutHeld, held_append]
  split
  next => rw [List.dropLast_append_of_ne_nil (by simp)]
  next => rfl

section Distinct

variable {cr lf : α} (other : cr ≠ lf)

include other

-- A carriage return becomes a line feed, whatever stands before it.
theorem unify_concat_cr (text rest : List α) (apart : Apart cr lf [cr] rest) :
    unify cr lf (text ++ cr :: rest) = unify cr lf text ++ lf :: unify cr lf rest := by
  have seam : Apart cr lf text (cr :: rest) := by simp [Apart, other]
  have first := unify_append cr lf [cr] rest apart
  rw [unify_cr] at first
  rw [unify_append cr lf text _ seam]
  exact congrArg (unify cr lf text ++ ·) first

theorem withoutHeld_lf (rest : List α) :
    withoutHeld cr (lf :: rest) = lf :: withoutHeld cr rest := by
  cases rest with
  | nil => simp [withoutHeld, held, other.symm]
  | cons c more => exact withoutHeld_append cr [lf] c more

theorem settled_append (text : List α) (c : α) (rest : List α) :
    settled cr lf (text ++ c :: rest) = settled cr lf text ++
      if held cr text then lf :: settled cr lf (if c = lf then rest else c :: rest)
      else settled cr lf (c :: rest) := by
  simp only [settled, withoutHeld_append]
  cases ends : held cr text with
  | false =>
    have seam : Apart cr lf text (withoutHeld cr (c :: rest)) := by
      intro both
      simp [held, both.1] at ends
    rw [unify_append cr lf _ _ seam, withoutHeld_open cr text ends]
    rfl
  | true =>
    have split := withoutHeld_held cr text ends
    generalize withoutHeld cr text = front at split
    rw [split, List.append_assoc, List.singleton_append, if_pos rfl]
    by_cases pair : c = lf
    next =>
      have seam : Apart cr lf front (cr :: lf :: withoutHeld cr rest) := by simp [Apart, other]
      rw [if_pos pair, pair, withoutHeld_lf other, unify_append cr lf _ _ seam, unify_pair]
    next =>
      have alone : Apart cr lf [cr] (withoutHeld cr (c :: rest)) := by
        intro both
        have head : (withoutHeld cr (c :: rest)).head? = some lf := both.2
        simp only [withoutHeld] at head
        split at head
        next => cases rest <;> simp_all
        next => simp_all
      rw [if_neg pair, unify_concat_cr other _ _ alone]

theorem unify_settled (text : List α) : unify cr lf text =
    settled cr lf text ++ if held cr text then [lf] else [] := by
  cases ends : held cr text with
  | false => simp [settled, withoutHeld_open cr text ends]
  | true =>
    have split := withoutHeld_held cr text ends
    have last := unify_concat_cr other (withoutHeld cr text) [] (by simp [Apart])
    rw [← split] at last
    exact last

end Distinct

theorem joinPairs_plain {text : List α} (free : cr ∉ text) : joinPairs cr lf text = text := by
  fun_induction joinPairs cr lf text with
  | case1 => rfl
  | case2 => rfl
  | case3 a b rest both => exact absurd (both.1 ▸ List.mem_cons_self) free
  | case4 a b rest no ih => rw [ih fun member => free (List.mem_cons_of_mem a member)]

theorem unify_plain {text : List α} (free : cr ∉ text) : unify cr lf text = text := by
  have kept : ∀ c ∈ text, (if c = cr then lf else c) = c := by
    intro c member
    have other : c ≠ cr := fun same => free (same ▸ member)
    exact if_neg other
  rw [unify, joinPairs_plain cr lf free]
  exact (List.map_congr_left kept).trans (List.map_id' text)

theorem settled_plain {text : List α} (free : cr ∉ text) : settled cr lf text = text := by
  have ends : held cr text = false := by
    simp only [held, decide_eq_false_iff_not]
    exact fun last => free (List.mem_of_getLast? last)
  rw [settled, withoutHeld_open cr text ends, unify_plain cr lf free]

section Cut

variable (lf : α)

-- What stands in front of the first two that meet, and behind them.
def cut : List α → Option (List α × List α)
  | [] => none
  | [_] => none
  | a :: b :: rest =>
    if a = lf ∧ b = lf then some ([], rest)
    else (cut (b :: rest)).map fun parts => (a :: parts.1, parts.2)

theorem cut_shape {text front back : List α} (found : cut lf text = some (front, back)) :
    text = front ++ lf :: lf :: back ∧ cut lf front = none := by
  fun_induction cut lf text generalizing front with
  | case1 => cases found
  | case2 => cases found
  | case3 a b rest both =>
    obtain ⟨rfl, rfl⟩ := Prod.mk.inj (Option.some.inj found)
    exact ⟨by rw [both.1, both.2]; rfl, rfl⟩
  | case4 a b rest no ih =>
    obtain ⟨parts, inner, same⟩ := Option.map_eq_some_iff.mp found
    obtain ⟨rfl, rfl⟩ := Prod.mk.inj same
    obtain ⟨shape, none⟩ := ih inner
    refine ⟨by rw [shape]; rfl, ?_⟩
    -- The first of the front is the `b` that does not pair with `a`.
    cases start : parts.1 with
    | nil => rfl
    | cons c more =>
      rw [start] at shape none
      obtain ⟨rfl, -⟩ := List.cons.inj shape
      rw [cut, if_neg no, none]
      rfl

theorem cut_append {text front back : List α} (found : cut lf text = some (front, back))
    (more : List α) : cut lf (text ++ more) = some (front, back ++ more) := by
  fun_induction cut lf text generalizing front with
  | case1 => cases found
  | case2 => cases found
  | case3 a b rest both =>
    obtain ⟨rfl, rfl⟩ := Prod.mk.inj (Option.some.inj found)
    simp [cut, both]
  | case4 a b rest no ih =>
    obtain ⟨parts, inner, same⟩ := Option.map_eq_some_iff.mp found
    obtain ⟨rfl, rfl⟩ := Prod.mk.inj same
    have later := ih inner
    simp only [List.cons_append] at later ⊢
    rw [cut, if_neg no, later]
    rfl

def cutAll (text : List α) : List (List α) × List α :=
  match found : cut lf text with
  | none => ([], text)
  | some (front, back) =>
    have shorter : back.length < text.length := by
      rw [(cut_shape lf found).1]
      simp
      omega
    (front :: (cutAll back).1, (cutAll back).2)
termination_by text.length

theorem cutAll_none {text : List α} (whole : cut lf text = none) : cutAll lf text = ([], text) := by
  rw [cutAll]
  split
  next => rfl
  next found => rw [whole] at found; cases found

theorem cutAll_some {text front back : List α} (parts : cut lf text = some (front, back)) :
    cutAll lf text = (front :: (cutAll lf back).1, (cutAll lf back).2) := by
  rw [cutAll]
  split
  next found => rw [parts] at found; cases found
  next found =>
    rw [parts] at found
    obtain ⟨rfl, rfl⟩ := Prod.mk.inj (Option.some.inj found)
    rfl

-- What is cut off stays cut off when more text comes.
theorem cutAll_append (text more : List α) : cutAll lf (text ++ more) =
    ((cutAll lf text).1 ++ (cutAll lf ((cutAll lf text).2 ++ more)).1,
      (cutAll lf ((cutAll lf text).2 ++ more)).2) := by
  fun_induction cutAll lf text with
  | case1 text whole => simp
  | case2 text front back parts shorter ih =>
    rw [cutAll_some lf (cut_append lf parts more), ih]
    rfl

theorem cut_frame {front : List α} (free : lf ∉ front) (back : List α) :
    cut lf (front ++ lf :: lf :: back) = some (front, back) := by
  induction front with
  | nil => simp [cut]
  | cons a rest ih =>
    have other : a ≠ lf := fun same => free (same ▸ List.mem_cons_self)
    have later := ih fun member => free (List.mem_cons_of_mem a member)
    cases rest with
    | nil => simp [cut, other]
    | cons b more =>
      rw [List.cons_append] at later ⊢
      rw [List.cons_append, cut, if_neg fun both => other both.1, later]
      rfl

-- Frames that are written one after the other are cut apart again.
theorem cutAll_frames {frames : List (List α)} (free : ∀ frame ∈ frames, lf ∉ frame) :
    cutAll lf (frames.flatMap (· ++ [lf, lf])) = (frames, []) := by
  induction frames with
  | nil => exact cutAll_none lf rfl
  | cons frame rest ih =>
    have parts := cut_frame lf (free frame List.mem_cons_self) (rest.flatMap (· ++ [lf, lf]))
    have later := ih fun other member => free other (List.mem_cons_of_mem frame member)
    have shape : (frame :: rest).flatMap (· ++ [lf, lf]) =
        frame ++ lf :: lf :: rest.flatMap (· ++ [lf, lf]) := by simp
    rw [shape, cutAll_some lf parts, later]

theorem cut_two_lines {first second : List α} (free : lf ∉ first) (some : second ≠ [])
    (free' : lf ∉ second) (back : List α) :
    cut lf ((first ++ lf :: second) ++ lf :: lf :: back) = .some (first ++ lf :: second, back) := by
  induction first with
  | nil =>
    obtain ⟨c, rest, rfl⟩ := List.exists_cons_of_ne_nil some
    have other : c ≠ lf := fun same => free' (same ▸ List.mem_cons_self)
    have later := cut_frame lf free' back
    rw [List.cons_append] at later
    simp [cut, other, later]
  | cons a rest ih =>
    have other : a ≠ lf := fun same => free (same ▸ List.mem_cons_self)
    have later := ih fun member => free (List.mem_cons_of_mem a member)
    cases rest with
    | nil =>
      simp only [List.nil_append, List.cons_append] at later ⊢
      rw [cut, if_neg fun both => other both.1, later]
      rfl
    | cons b more =>
      simp only [List.cons_append] at later ⊢
      rw [cut, if_neg fun both => other both.1, later]
      rfl

theorem cutAll_whole {frames : List (List α)}
    (whole : ∀ frame ∈ frames, ∀ back, cut lf (frame ++ lf :: lf :: back) = some (frame, back)) :
    cutAll lf (frames.flatMap (· ++ [lf, lf])) = (frames, []) := by
  induction frames with
  | nil => exact cutAll_none lf rfl
  | cons frame rest ih =>
    rw [List.forall_mem_cons] at whole
    have shape : (frame :: rest).flatMap (· ++ [lf, lf]) =
        frame ++ lf :: lf :: rest.flatMap (· ++ [lf, lf]) := by simp
    rw [shape, cutAll_some lf (whole.1 _), ih whole.2]

def lines (text : List α) : List (List α) := text.splitOn lf

def groups (text : List α) : List (List (List α)) := (lines lf text).splitOn []

theorem lines_cons (c : α) (text : List α) : lines lf (c :: text) =
    if c = lf then [] :: lines lf text else (lines lf text).modifyHead (c :: ·) := by
  rw [lines, List.splitOn_cons_eq_if_modifyHead]
  simp only [beq_iff_eq]
  rfl

theorem mem_of_mem_lines {text l : List α} (member : l ∈ lines lf text) : ∀ c ∈ l, c ∈ text := by
  induction text generalizing l with
  | nil =>
    have empty : l = [] := by simpa [lines] using member
    simp [empty]
  | cons c text ih =>
    obtain ⟨first, rest, shape⟩ := List.exists_cons_of_ne_nil (List.splitOn_ne_nil lf text)
    have shape : lines lf text = first :: rest := shape
    rw [lines_cons, shape] at member
    rw [shape] at ih
    split at member
    next =>
      intro d inside
      cases List.mem_cons.mp member with
      | inl empty => rw [empty] at inside; cases inside
      | inr later => exact List.mem_cons_of_mem _ (ih later d inside)
    next =>
      intro d inside
      cases List.mem_cons.mp member with
      | inl same =>
        rw [same] at inside
        cases List.mem_cons.mp inside with
        | inl here => rw [here]; exact List.mem_cons_self
        | inr later => exact List.mem_cons_of_mem _ (ih List.mem_cons_self d later)
      | inr later => exact List.mem_cons_of_mem _ (ih (List.mem_cons_of_mem _ later) d inside)

theorem groups_cut {text front back : List α} (parts : cut lf text = some (front, back)) :
    groups lf text = groups lf front ++ groups lf back := by
  have inner : lines lf text = lines lf front ++ [] :: lines lf back := by
    rw [(cut_shape lf parts).1, lines, List.splitOn_append_cons_self,
      ← List.nil_append (lf :: back), List.splitOn_append_cons_self, List.splitOn_nil]
    rfl
  rw [groups, inner, List.splitOn_append_cons_self]
  rfl

-- Apart from the last line none is blank.
def Tight (ls : List (List α)) : Prop := ∀ l ∈ ls.dropLast, l ≠ []

theorem lines_tight (text : List α) (whole : cut lf text = none) :
    Tight (lines lf text).tail ∧ (text.head? ≠ some lf → Tight (lines lf text)) := by
  induction text with
  | nil => simp [lines, Tight]
  | cons c text ih =>
    have later : cut lf text = none ∧ (c = lf → text.head? ≠ some lf) := by
      cases text with
      | nil => simp [cut]
      | cons d rest =>
        rw [cut] at whole
        split at whole
        next => cases whole
        next no =>
          refine ⟨Option.map_eq_none_iff.mp whole, fun same next => no ⟨same, ?_⟩⟩
          simpa using next
    have inner := ih later.1
    rw [lines_cons]
    split
    next same =>
      refine ⟨inner.2 (later.2 same), fun start => ?_⟩
      exact absurd (by rw [same]; rfl) start
    next apart =>
      obtain ⟨first, rest, shape⟩ := List.exists_cons_of_ne_nil (List.splitOn_ne_nil lf text)
      have shape : lines lf text = first :: rest := shape
      rw [shape] at inner ⊢
      refine ⟨inner.1, fun _ => ?_⟩
      have tight : Tight rest := inner.1
      intro l member
      cases rest with
      | nil => cases member
      | cons next more =>
        cases List.mem_cons.mp member with
        | inl same => rw [same]; simp
        | inr later => exact tight l later

theorem groups_tight (ls : List (List α)) (tight : Tight ls) :
    ∃ count, ls.splitOn [] = ls.filter (· ≠ []) :: List.replicate count [] := by
  rcases List.eq_nil_or_concat' ls with rfl | ⟨front, last, rfl⟩
  · exact ⟨0, rfl⟩
  have solid : ∀ l ∈ front, l ≠ [] := by simpa [Tight] using tight
  have kept : front.filter (· ≠ []) = front := List.filter_eq_self.mpr (by simpa using solid)
  have free : [] ∉ front := fun member => solid [] member rfl
  by_cases blank : last = []
  next =>
    refine ⟨1, ?_⟩
    rw [blank, List.splitOn_append_cons_self_of_not_mem free, List.filter_append, kept]
    simp
  next =>
    refine ⟨0, ?_⟩
    have apart : [] ∉ front ++ [last] := by simp [free, Ne.symm blank]
    rw [List.splitOn_eq_singleton apart, List.filter_append, kept]
    simp [blank]

-- A text that is not cut is one group, with nothing in front of it or behind it.
theorem groups_whole (text : List α) (whole : cut lf text = none) :
    ∃ before after, groups lf text = List.replicate before [] ++
      (lines lf text).filter (· ≠ []) :: List.replicate after [] := by
  have tight := lines_tight lf text whole
  by_cases start : text.head? = some lf
  next =>
    obtain ⟨rest, rfl⟩ := List.head?_eq_some_iff.mp start
    have first : lines lf (lf :: rest) = [] :: lines lf rest := by rw [lines_cons, if_pos rfl]
    rw [first] at tight
    obtain ⟨after, split⟩ := groups_tight (lines lf rest) tight.1
    refine ⟨1, after, ?_⟩
    rw [groups, first, List.splitOn_cons_eq_if_modifyHead, if_pos (by simp), split]
    simp
  next =>
    obtain ⟨after, split⟩ := groups_tight (lines lf text) (tight.2 start)
    exact ⟨0, after, split⟩

theorem lines_concat_lf (text : List α) : lines lf (text ++ [lf]) = lines lf text ++ [[]] := by
  rw [lines, List.splitOn_append_cons_self, List.splitOn_nil]
  rfl

theorem groups_concat_lf (text : List α) : groups lf (text ++ [lf]) = groups lf text ++ [[]] := by
  rw [groups, lines_concat_lf, List.splitOn_append_cons_self, List.splitOn_nil]
  rfl

end Cut

end LineBreaks
