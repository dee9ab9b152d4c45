import Mathlib.Data.List.Basic
import Mathlib.Data.List.Infix

set_option autoImplicit false

/-!
# Chains of multi-step writes

A chain runs its works in order and the operations of one work in order. An operation takes
effect at some moment while it is in progress; a rejected one, whether or not it took effect,
ends its work.
-/

structure Work (ω : Type) where
  ops : List ω
  applied : Bool
  deriving Repr, DecidableEq

namespace WriteChain

variable {ω : Type}

def enqueue (chain : List (Work ω)) (ops : List ω) : List (Work ω) := chain ++ [⟨ops, false⟩]

def call (serialize : ω → ω) : List (Work ω) → Option (List (Work ω))
  | ⟨op :: ops, false⟩ :: rest => some (⟨serialize op :: ops, false⟩ :: rest)
  | _ => none

def apply : List (Work ω) → Option (ω × List (Work ω))
  | ⟨op :: ops, false⟩ :: rest => some (op, ⟨op :: ops, true⟩ :: rest)
  | _ => none

def resolve : List (Work ω) → Option (ω × List (Work ω))
  | ⟨op :: ops, true⟩ :: rest => some (op, if ops.isEmpty then rest else ⟨ops, false⟩ :: rest)
  | _ => none

def reject : List (Work ω) → Option (List (Work ω))
  | ⟨_ :: _, _⟩ :: rest => some rest
  | _ => none

-- The operations whose effect is still to come, in the order they will have it.
def pending : List (Work ω) → List ω
  | [] => []
  | ⟨ops, applied⟩ :: rest => (if applied then ops.tail else ops) ++ pending rest

@[simp] theorem pending_nil : pending ([] : List (Work ω)) = [] := rfl

theorem pending_append (left right : List (Work ω)) :
    pending (left ++ right) = pending left ++ pending right := by
  induction left with
  | nil => rfl
  | cons work rest ih => simp [pending, ih]

@[simp] theorem pending_enqueue (chain : List (Work ω)) (ops : List ω) :
    pending (enqueue chain ops) = pending chain ++ ops := by
  simp [enqueue, pending_append, pending]

theorem pending_call (serialize : ω → ω) (chain chain' : List (Work ω))
    (called : call serialize chain = some chain') :
    ∃ op rest, pending chain = op :: rest ∧ pending chain' = serialize op :: rest := by
  unfold call at called
  split at called
  · rename_i op ops rest
    cases called
    exact ⟨op, ops ++ pending rest, by simp [pending], by simp [pending]⟩
  · cases called

theorem pending_apply (chain chain' : List (Work ω)) (op : ω)
    (applied : apply chain = some (op, chain')) : pending chain = op :: pending chain' := by
  unfold apply at applied
  split at applied
  · cases applied
    simp [pending]
  · cases applied

theorem pending_resolve (chain chain' : List (Work ω)) (op : ω)
    (resolved : resolve chain = some (op, chain')) : pending chain' = pending chain := by
  unfold resolve at resolved
  split at resolved
  · rename_i op ops rest
    simp only [Option.some.injEq, Prod.mk.injEq] at resolved
    rw [← resolved.2]
    cases ops <;> simp [pending]
  · cases resolved

theorem pending_reject (chain chain' : List (Work ω)) (rejected : reject chain = some chain') :
    pending chain' <:+ pending chain := by
  unfold reject at rejected
  split at rejected
  · cases rejected
    exact List.suffix_append _ _
  · cases rejected

-- The operations of a chain, those in progress included.
def queued (works : List (Work ω)) : List ω := works.flatMap (·.ops)

theorem queued_call (serialize : ω → ω) (chain chain' : List (Work ω))
    (called : call serialize chain = some chain') :
    ∃ op rest, queued chain = op :: rest ∧ queued chain' = serialize op :: rest := by
  unfold call at called
  split at called
  next op ops rest =>
    cases called
    exact ⟨op, ops ++ queued rest, by simp [queued], by simp [queued]⟩
  next => cases called

theorem queued_apply (chain chain' : List (Work ω)) (op : ω)
    (applied : apply chain = some (op, chain')) : op ∈ queued chain ∧ queued chain' = queued chain := by
  unfold apply at applied
  split at applied
  next =>
    cases applied
    simp [queued]
  next => cases applied

theorem queued_resolve (chain chain' : List (Work ω)) (op : ω)
    (resolved : resolve chain = some (op, chain')) : queued chain = op :: queued chain' := by
  unfold resolve at resolved
  split at resolved
  next op ops rest =>
    cases resolved
    cases ops <;> simp [queued]
  next => cases resolved

theorem queued_reject (chain chain' : List (Work ω)) (rejected : reject chain = some chain') :
    ∀ op ∈ queued chain', op ∈ queued chain := by
  unfold reject at rejected
  split at rejected
  next =>
    cases rejected
    intro op member
    simp only [queued, List.flatMap_cons, List.mem_append]
    exact .inr member
  next => cases rejected

end WriteChain
