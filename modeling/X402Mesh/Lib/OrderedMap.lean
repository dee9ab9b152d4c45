import Mathlib.Data.List.Nodup
import Mathlib.Data.List.Perm.Basic
import Mathlib.Algebra.BigOperators.Group.List.Basic

set_option autoImplicit false

/-!
# Insertion-ordered maps

`set` on a key that is present keeps its position, and a new key goes last.
-/

structure OrderedMap (κ ν : Type) where
  entries : List (κ × ν)
  nodup : (entries.map Prod.fst).Nodup

namespace OrderedMap

variable {κ ν : Type} [DecidableEq κ]

def lookup (k : κ) : List (κ × ν) → Option ν
  | [] => none
  | e :: rest => if e.1 = k then some e.2 else lookup k rest

def replace (k : κ) (v : ν) : List (κ × ν) → List (κ × ν)
  | [] => [(k, v)]
  | e :: rest => if e.1 = k then (k, v) :: rest else e :: replace k v rest

theorem mem_keys_replace (k : κ) (v : ν) (l : List (κ × ν)) (k' : κ) :
    k' ∈ (replace k v l).map Prod.fst ↔ k' = k ∨ k' ∈ l.map Prod.fst := by
  induction l with
  | nil => simp [replace]
  | cons e rest ih =>
    by_cases same : e.1 = k
    · simp only [replace, same, if_true, List.map_cons, List.mem_cons]
      tauto
    · simp only [replace, same, if_false, List.map_cons, List.mem_cons, ih]
      tauto

theorem nodup_replace (k : κ) (v : ν) (l : List (κ × ν)) (h : (l.map Prod.fst).Nodup) :
    ((replace k v l).map Prod.fst).Nodup := by
  induction l with
  | nil => simp [replace]
  | cons e rest ih =>
    rw [List.map_cons, List.nodup_cons] at h
    by_cases same : e.1 = k
    · simpa [replace, same] using h
    · simp only [replace, same, if_false, List.map_cons, List.nodup_cons, mem_keys_replace]
      exact ⟨fun found => found.elim id h.1, ih h.2⟩

def empty : OrderedMap κ ν := ⟨[], List.nodup_nil⟩

def get? (m : OrderedMap κ ν) (k : κ) : Option ν := lookup k m.entries

def contains (m : OrderedMap κ ν) (k : κ) : Bool := (m.get? k).isSome

def set (m : OrderedMap κ ν) (k : κ) (v : ν) : OrderedMap κ ν :=
  ⟨replace k v m.entries, nodup_replace k v m.entries m.nodup⟩

def erase (m : OrderedMap κ ν) (k : κ) : OrderedMap κ ν :=
  ⟨m.entries.filter (fun e => e.1 ≠ k), m.nodup.sublist (List.filter_sublist.map _)⟩

def dropWhile (m : OrderedMap κ ν) (p : κ → ν → Bool) : OrderedMap κ ν :=
  ⟨m.entries.dropWhile (fun e => p e.1 e.2),
    m.nodup.sublist ((List.dropWhile_sublist _).map _)⟩

def drop (m : OrderedMap κ ν) (n : Nat) : OrderedMap κ ν :=
  ⟨m.entries.drop n, m.nodup.sublist ((List.drop_sublist n _).map _)⟩

def keys (m : OrderedMap κ ν) : List κ := m.entries.map Prod.fst
def values (m : OrderedMap κ ν) : List ν := m.entries.map Prod.snd
def size (m : OrderedMap κ ν) : Nat := m.entries.length

theorem lookup_replace (k : κ) (v : ν) (l : List (κ × ν)) (k' : κ) :
    lookup k' (replace k v l) = if k' = k then some v else lookup k' l := by
  induction l with
  | nil => by_cases same : k = k' <;> simp [replace, lookup, same, Ne.symm]
  | cons e rest ih =>
    by_cases same : e.1 = k
    · by_cases wanted : k' = k
      · simp [replace, lookup, same, wanted]
      · simp [replace, lookup, same, wanted, Ne.symm wanted]
    · by_cases wanted : e.1 = k'
      · have other : k' ≠ k := fun h => same (wanted.trans h)
        simp [replace, lookup, wanted, other]
      · simp [replace, lookup, same, wanted, ih]

theorem lookup_filter (k : κ) (l : List (κ × ν)) (k' : κ) :
    lookup k' (l.filter (fun e => e.1 ≠ k)) = if k' = k then none else lookup k' l := by
  induction l with
  | nil => simp [lookup]
  | cons e rest ih =>
    by_cases same : e.1 = k
    · by_cases wanted : k' = k
      · simp_all
      · have other : e.1 ≠ k' := fun h => wanted (h.symm.trans same)
        simp_all [lookup]
    · by_cases wanted : e.1 = k'
      · have other : k' ≠ k := fun h => same (wanted.trans h)
        simp [lookup, wanted, other]
      · simp_all [lookup]

@[simp] theorem get?_empty (k : κ) : (empty : OrderedMap κ ν).get? k = none := rfl

@[grind =] theorem get?_set (m : OrderedMap κ ν) (k : κ) (v : ν) (k' : κ) :
    (m.set k v).get? k' = if k' = k then some v else m.get? k' :=
  lookup_replace k v m.entries k'

@[grind =] theorem get?_erase (m : OrderedMap κ ν) (k k' : κ) :
    (m.erase k).get? k' = if k' = k then none else m.get? k' :=
  lookup_filter k m.entries k'

@[simp] theorem get?_set_self (m : OrderedMap κ ν) (k : κ) (v : ν) :
    (m.set k v).get? k = some v := by
  simp [get?_set]

@[simp] theorem get?_erase_self (m : OrderedMap κ ν) (k : κ) : (m.erase k).get? k = none := by
  simp [get?_erase]

theorem lookup_eq_some (l : List (κ × ν)) (h : (l.map Prod.fst).Nodup) (k : κ) (v : ν) :
    lookup k l = some v ↔ (k, v) ∈ l := by
  induction l with
  | nil => simp [lookup]
  | cons e rest ih =>
    rw [List.map_cons, List.nodup_cons] at h
    by_cases same : e.1 = k
    · subst same
      have absent : (e.1, v) ∉ rest := fun found => h.1 (List.mem_map.mpr ⟨_, found, rfl⟩)
      simp only [lookup, if_true, Option.some.injEq, List.mem_cons, absent, or_false]
      exact ⟨fun found => by rw [← found], fun found => by rw [← found]⟩
    · simp only [lookup, same, if_false, ih h.2, List.mem_cons]
      exact ⟨Or.inr, fun found => found.resolve_left fun hit => same (by rw [← hit])⟩

theorem get?_eq_some (m : OrderedMap κ ν) (k : κ) (v : ν) :
    m.get? k = some v ↔ (k, v) ∈ m.entries :=
  lookup_eq_some m.entries m.nodup k v

theorem get?_eq_none (m : OrderedMap κ ν) (k : κ) : m.get? k = none ↔ k ∉ m.keys := by
  constructor
  · intro absent found
    obtain ⟨e, member, rfl⟩ := List.mem_map.mp found
    rw [(m.get?_eq_some e.1 e.2).mpr member] at absent
    cases absent
  · intro absent
    cases found : m.get? k with
    | none => rfl
    | some v =>
      exact absurd (List.mem_map_of_mem (f := Prod.fst) ((m.get?_eq_some k v).mp found)) absent

theorem mem_values (m : OrderedMap κ ν) (v : ν) : v ∈ m.values ↔ ∃ k, m.get? k = some v := by
  simp only [values, List.mem_map, Prod.exists, exists_eq_right, get?_eq_some]

theorem mem_keys (m : OrderedMap κ ν) (k : κ) : k ∈ m.keys ↔ ∃ v, m.get? k = some v := by
  simp only [keys, List.mem_map, Prod.exists, exists_and_right, exists_eq_right, get?_eq_some]

theorem size_eq_zero (m : OrderedMap κ ν) : m.size = 0 ↔ ∀ k, m.get? k = none := by
  rw [size, List.length_eq_zero_iff]
  constructor
  · intro none_stored k
    rw [get?, none_stored]
    rfl
  · intro absent
    apply List.eq_nil_iff_forall_not_mem.mpr
    intro e member
    have found : m.get? e.1 = some e.2 := (m.get?_eq_some e.1 e.2).mpr member
    rw [absent] at found
    cases found

theorem entries_set_absent (m : OrderedMap κ ν) (k : κ) (v : ν) (h : m.get? k = none) :
    (m.set k v).entries = m.entries ++ [(k, v)] := by
  have absent (l : List (κ × ν)) (missing : k ∉ l.map Prod.fst) :
      replace k v l = l ++ [(k, v)] := by
    induction l with
    | nil => rfl
    | cons e rest ih =>
      simp only [List.map_cons, List.mem_cons, not_or] at missing
      simp [replace, Ne.symm missing.1, ih missing.2]
  exact absent m.entries ((m.get?_eq_none k).mp h)

theorem entries_erase_perm (m : OrderedMap κ ν) (k : κ) (v : ν) (h : m.get? k = some v) :
    m.entries.Perm ((k, v) :: (m.erase k).entries) := by
  have extract (l : List (κ × ν)) (nodup : (l.map Prod.fst).Nodup) (found : (k, v) ∈ l) :
      l.Perm ((k, v) :: l.filter (fun e => e.1 ≠ k)) := by
    induction l with
    | nil => cases found
    | cons e rest ih =>
      rw [List.map_cons, List.nodup_cons] at nodup
      rcases List.mem_cons.mp found with rfl | later
      · have kept : rest.filter (fun e => e.1 ≠ k) = rest := by
          rw [List.filter_eq_self]
          intro e member
          have other : e.1 ≠ k := fun same => nodup.1 (List.mem_map.mpr ⟨e, member, same⟩)
          simp [other]
        rw [List.filter_cons_of_neg (by simp), kept]
      · have other : e.1 ≠ k := fun same =>
          nodup.1 (List.mem_map.mpr ⟨(k, v), later, same.symm⟩)
        rw [List.filter_cons_of_pos (by simp [other])]
        exact ((ih nodup.2 later).cons e).trans (List.Perm.swap _ _ _)
  exact extract m.entries m.nodup ((m.get?_eq_some k v).mp h)

theorem erase_set (m : OrderedMap κ ν) (k : κ) (v : ν) :
    ((m.set k v).erase k).entries = (m.erase k).entries := by
  have same (l : List (κ × ν)) :
      (replace k v l).filter (fun e => e.1 ≠ k) = l.filter (fun e => e.1 ≠ k) := by
    induction l with
    | nil => simp [replace]
    | cons e rest ih =>
      by_cases hit : e.1 = k
      · simp [replace, hit]
      · simp only [replace, hit, if_false, List.filter_cons, ih]
  exact same m.entries

theorem entries_set_perm (m : OrderedMap κ ν) (k : κ) (v : ν) :
    (m.set k v).entries.Perm ((k, v) :: (m.erase k).entries) := by
  rw [← erase_set m k v]
  exact entries_erase_perm _ _ _ (get?_set_self m k v)

theorem entries_erase_absent (m : OrderedMap κ ν) (k : κ) (h : m.get? k = none) :
    (m.erase k).entries = m.entries := by
  have missing := (m.get?_eq_none k).mp h
  refine List.filter_eq_self.mpr ?_
  intro e member
  have other : e.1 ≠ k := fun same => missing (same ▸ List.mem_map_of_mem member)
  simp [other]

theorem get?_dropWhile (m : OrderedMap κ ν) (p : κ → ν → Bool) (k : κ) (v : ν)
    (h : m.get? k = some v) (keep : p k v = false) : (m.dropWhile p).get? k = some v := by
  rw [get?_eq_some] at h ⊢
  have kept (l : List (κ × ν)) (found : (k, v) ∈ l) : (k, v) ∈ l.dropWhile (fun e => p e.1 e.2) := by
    induction l with
    | nil => cases found
    | cons e rest ih =>
      by_cases hit : p e.1 e.2 = true
      · rw [List.dropWhile_cons, if_pos hit]
        refine ih ((List.mem_cons.mp found).resolve_left ?_)
        rintro rfl
        simp [keep] at hit
      · rwa [List.dropWhile_cons, if_neg hit]
  exact kept m.entries h

theorem get?_dropWhile_some (m : OrderedMap κ ν) (p : κ → ν → Bool) (k : κ) (v : ν)
    (h : (m.dropWhile p).get? k = some v) : m.get? k = some v := by
  rw [get?_eq_some] at h ⊢
  exact (List.dropWhile_sublist _).subset h

theorem get?_drop_some (m : OrderedMap κ ν) (n : Nat) (k : κ) (v : ν)
    (h : (m.drop n).get? k = some v) : m.get? k = some v := by
  rw [get?_eq_some] at h ⊢
  exact (List.drop_sublist n _).subset h

theorem keys_set (m : OrderedMap κ ν) (k : κ) (v : ν) :
    (m.set k v).keys = if (m.get? k).isSome then m.keys else m.keys ++ [k] := by
  cases found : m.get? k with
  | none => simp [keys, entries_set_absent m k v found]
  | some old =>
    have same (l : List (κ × ν)) (present : k ∈ l.map Prod.fst) :
        (replace k v l).map Prod.fst = l.map Prod.fst := by
      induction l with
      | nil => cases present
      | cons e rest ih =>
        by_cases hit : e.1 = k
        · simp [replace, hit]
        · have later : k ∈ rest.map Prod.fst :=
            (List.mem_cons.mp present).resolve_left fun same => hit same.symm
          simp [replace, hit, ih later]
    rw [Option.isSome_some, if_pos rfl]
    exact same m.entries ((m.mem_keys k).mpr ⟨old, found⟩)

omit [DecidableEq κ] in
theorem keys_drop (m : OrderedMap κ ν) (n : Nat) : (m.drop n).keys = m.keys.drop n :=
  List.map_drop

omit [DecidableEq κ] in
theorem length_keys (m : OrderedMap κ ν) : m.keys.length = m.size := List.length_map _

theorem get?_drop (m : OrderedMap κ ν) (n : Nat) (k : κ) :
    (m.drop n).get? k = if k ∈ m.keys.take n then none else m.get? k := by
  have same (l : List (κ × ν)) (nodup : (l.map Prod.fst).Nodup) (n : Nat) :
      lookup k (l.drop n) = if k ∈ (l.map Prod.fst).take n then none else lookup k l := by
    induction l generalizing n with
    | nil => simp [lookup]
    | cons e rest ih =>
      rw [List.map_cons, List.nodup_cons] at nodup
      cases n with
      | zero => simp
      | succ n =>
        rw [List.drop_succ_cons, ih nodup.2, List.map_cons, List.take_succ_cons]
        by_cases hit : e.1 = k
        · have absent : lookup k rest = none := by
            cases found : lookup k rest with
            | none => rfl
            | some v =>
              have member := (lookup_eq_some rest nodup.2 k v).mp found
              exact absurd (List.mem_map_of_mem (f := Prod.fst) member) (hit ▸ nodup.1)
          simp [hit, absent]
        · simp [lookup, hit, Ne.symm hit]
  exact same m.entries m.nodup n

theorem filterMap_keys {β : Type} (m : OrderedMap κ ν) (f : ν → β) :
    m.keys.filterMap (fun k => (m.get? k).map f) = m.values.map f := by
  have each : ∀ e ∈ m.entries, (m.get? e.1).map f = some (f e.2) := by
    intro e member
    rw [(m.get?_eq_some e.1 e.2).mpr member]
    rfl
  rw [keys, values, List.filterMap_map, List.map_map]
  exact (List.filterMap_congr each).trans (congrFun List.filterMap_eq_map m.entries)

theorem lookup_perm (m : OrderedMap κ ν) {l : List (κ × ν)} (same : l.Perm m.entries) (k : κ) :
    lookup k l = m.get? k := by
  have nodup : (l.map Prod.fst).Nodup := (same.map Prod.fst).nodup_iff.mpr m.nodup
  apply Option.ext
  intro v
  rw [lookup_eq_some l nodup, m.get?_eq_some, same.mem_iff]

theorem lookup_map {β : Type} (f : ν → β) (k : κ) (l : List (κ × ν)) :
    lookup k (l.map fun e => (e.1, f e.2)) = (lookup k l).map f := by
  induction l with
  | nil => rfl
  | cons e rest ih =>
    rw [List.map_cons, lookup, lookup, ih]
    split <;> rfl

-- A map filled from a function of its keys.
theorem get?_fill (f : κ → ν) (keys : List κ) (m : OrderedMap κ ν) (k : κ) :
    (keys.foldl (fun built key => built.set key (f key)) m).get? k =
      if k ∈ keys then some (f k) else m.get? k := by
  induction keys generalizing m with
  | nil => simp
  | cons first rest ih =>
    rw [List.foldl_cons, ih, get?_set]
    by_cases later : k ∈ rest
    · simp [later]
    · by_cases same : k = first <;> simp [later, same]

-- Setting the entries of a map in order builds the map again.
theorem foldl_set (m : OrderedMap κ ν) :
    m.entries.foldl (fun built e => built.set e.1 e.2) empty = m := by
  have build (l : List (κ × ν)) (m : OrderedMap κ ν)
      (nodup : ((m.entries ++ l).map Prod.fst).Nodup) :
      (l.foldl (fun built e => built.set e.1 e.2) m).entries = m.entries ++ l := by
    induction l generalizing m with
    | nil => simp
    | cons e rest ih =>
      have absent : m.get? e.1 = none := by
        rw [get?_eq_none]
        intro present
        rw [List.map_append, List.nodup_append] at nodup
        exact nodup.2.2 _ present _ (by simp) rfl
      have entries := entries_set_absent m e.1 e.2 absent
      rw [List.foldl_cons, ih (m.set e.1 e.2) (by simpa [entries] using nodup), entries]
      simp
  have same := build m.entries empty (by simpa [empty] using m.nodup)
  generalize m.entries.foldl (fun built e => built.set e.1 e.2) empty = built at same ⊢
  cases built
  cases m
  simpa [empty] using same

end OrderedMap
