import Mathlib.Order.Lattice
import X402Mesh.Lib.OrderedMap

set_option autoImplicit false

/-!
# Maps in the order of their stamps

A loop that drops stale entries from the front and stops at the first fresh one clears such a map.
-/

namespace OrderedMap

variable {κ ν τ : Type} [LinearOrder τ] (stamp : ν → τ)

def InOrder (m : OrderedMap κ ν) : Prop :=
  m.entries.Pairwise fun a b => stamp a.2 ≤ stamp b.2

namespace InOrder

variable {stamp} {m : OrderedMap κ ν}

theorem empty : InOrder stamp (.empty : OrderedMap κ ν) := List.Pairwise.nil

theorem dropWhile_fresh (order : m.InOrder stamp) (stale : ν → Bool)
    (older : ∀ a b, stamp a ≤ stamp b → stale b = true → stale a = true) :
    ∀ e ∈ (m.dropWhile fun _ => stale).entries, stale e.2 = false := by
  have cleared (l : List (κ × ν)) (sorted : l.Pairwise fun a b => stamp a.2 ≤ stamp b.2) :
      ∀ e ∈ l.dropWhile fun e => stale e.2, stale e.2 = false := by
    induction l with
    | nil => simp
    | cons first rest ih =>
      rw [List.pairwise_cons] at sorted
      cases fresh : stale first.2 with
      | true => simpa [List.dropWhile_cons, fresh] using ih sorted.2
      | false =>
        simp only [List.dropWhile_cons, fresh, Bool.false_eq_true, if_false]
        intro e member
        cases List.mem_cons.mp member with
        | inl same => rw [same]; exact fresh
        | inr later =>
          -- A stale entry after a fresh one would make the fresh one stale.
          cases kept : stale e.2 with
          | false => rfl
          | true => rw [older _ _ (sorted.1 e later) kept] at fresh; cases fresh
  exact cleared m.entries order

end InOrder

variable [DecidableEq κ] {stamp}

-- What stands after the entry of a key.
def behind (m : OrderedMap κ ν) (k : κ) : List (κ × ν) :=
  (m.entries.dropWhile fun e => decide (e.1 ≠ k)).tail

theorem mem_replace {k : κ} {v : ν} {l : List (κ × ν)} {e : κ × ν} (member : e ∈ replace k v l) :
    e = (k, v) ∨ e ∈ l := by
  induction l with
  | nil => simpa [replace] using member
  | cons first rest ih =>
    by_cases same : first.1 = k
    next =>
      simp only [replace, same, if_true, List.mem_cons] at member
      cases member with
      | inl new => exact .inl new
      | inr kept => exact .inr (List.mem_cons_of_mem _ kept)
    next =>
      simp only [replace, same, if_false, List.mem_cons] at member
      cases member with
      | inl kept => exact .inr (kept ▸ List.mem_cons_self)
      | inr later => exact (ih later).imp_right (List.mem_cons_of_mem _)

theorem inOrder_set {m : OrderedMap κ ν} (order : m.InOrder stamp) (k : κ) (v : ν)
    (newest : ∀ e ∈ m.entries, stamp e.2 ≤ stamp v) :
    (m.set k v).InOrder stamp ↔ ∀ e ∈ m.behind k, stamp v ≤ stamp e.2 := by
  have placed (l : List (κ × ν)) (sorted : l.Pairwise fun a b => stamp a.2 ≤ stamp b.2)
      (newest : ∀ e ∈ l, stamp e.2 ≤ stamp v) :
      (replace k v l).Pairwise (fun a b => stamp a.2 ≤ stamp b.2) ↔
        ∀ e ∈ (l.dropWhile fun e => decide (e.1 ≠ k)).tail, stamp v ≤ stamp e.2 := by
    induction l with
    | nil => simp [replace]
    | cons first rest ih =>
      rw [List.pairwise_cons] at sorted
      by_cases same : first.1 = k
      next => simp [replace, same, sorted.2]
      next =>
        have below : ∀ e ∈ replace k v rest, stamp first.2 ≤ stamp e.2 := by
          intro e member
          cases mem_replace member with
          | inl new => rw [new]; exact newest first List.mem_cons_self
          | inr kept => exact sorted.1 e kept
        have later := ih sorted.2 fun e member => newest e (List.mem_cons_of_mem _ member)
        have head : (replace k v (first :: rest)).Pairwise (fun a b => stamp a.2 ≤ stamp b.2) ↔
            (replace k v rest).Pairwise fun a b => stamp a.2 ≤ stamp b.2 := by
          simp only [replace, same, if_false, List.pairwise_cons]
          exact and_iff_right below
        rw [head, later]
        simp [same]
  exact placed m.entries order newest

theorem mem_of_behind {m : OrderedMap κ ν} {k : κ} {e : κ × ν} (later : e ∈ m.behind k) :
    e ∈ m.entries :=
  (List.dropWhile_sublist _).subset (List.mem_of_mem_tail later)

theorem behind_ne {m : OrderedMap κ ν} {k : κ} {e : κ × ν} (later : e ∈ m.behind k) : e.1 ≠ k := by
  have apart (l : List (κ × ν)) (nodup : (l.map Prod.fst).Nodup)
      (later : e ∈ (l.dropWhile fun e => decide (e.1 ≠ k)).tail) : e.1 ≠ k := by
    induction l with
    | nil => simp at later
    | cons first rest ih =>
      rw [List.map_cons, List.nodup_cons] at nodup
      by_cases same : first.1 = k
      next =>
        have member : e ∈ rest := by simpa [same] using later
        intro key
        exact nodup.1 (List.mem_map.mpr ⟨e, member, key.trans same.symm⟩)
      next => exact ih nodup.2 (by simpa [same] using later)
  exact apart m.entries m.nodup later

theorem mem_set_of_ne {m : OrderedMap κ ν} {k : κ} {v : ν} {e : κ × ν} (other : e.1 ≠ k)
    (member : e ∈ m.entries) : e ∈ (m.set k v).entries := by
  have found : m.get? e.1 = some e.2 := (m.get?_eq_some e.1 e.2).mpr member
  exact ((m.set k v).get?_eq_some e.1 e.2).mp (by rw [get?_set, if_neg other, found])

theorem behind_kept {m : OrderedMap κ ν} {k : κ} {v : ν} (stale : ν → Bool) (fresh : stale v = false)
    {e : κ × ν} (later : e ∈ m.behind k) :
    e ∈ ((m.set k v).dropWhile fun _ => stale).entries := by
  have kept (l : List (κ × ν)) (later : e ∈ (l.dropWhile fun e => decide (e.1 ≠ k)).tail) :
      e ∈ (replace k v l).dropWhile fun e => stale e.2 := by
    induction l with
    | nil => simp at later
    | cons first rest ih =>
      by_cases same : first.1 = k
      next =>
        have member : e ∈ rest := by simpa [same] using later
        simp [replace, same, fresh, member]
      next =>
        have stands := ih (by simpa [same] using later)
        simp only [replace, same, if_false, List.dropWhile_cons]
        split
        next => exact stands
        next => exact List.mem_cons_of_mem _ ((List.dropWhile_sublist _).subset stands)
  exact kept m.entries later

end OrderedMap
