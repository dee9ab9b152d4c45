import X402Mesh.Settlement.Liabilities

set_option autoImplicit false

namespace X402Mesh.Settlement

open Registry Service

-- A record that was in a durable row and is in none any more has been paid.
def NothingDestroyed (cfg : Deps) (allowed : World Unit → Action Unit → Prop) : Prop :=
  ∀ (rows : Rows) (w w' : World Unit),
    Transition.Run (World.step cfg) allowed (World.start rows) w →
    Transition.Run (World.step cfg) allowed w w' →
    ∀ r, Durably w.rows r → ¬ Durably w'.rows r → Among w'.settled r

theorem nothing_destroyed (cfg : Deps) (stored : cfg.accrualStore = true) :
    NothingDestroyed cfg (World.Served cfg) := by
  intro rows w w' reached later r durable gone
  exact (World.kept_of_run stored reached later durable).resolve_left gone

def durableIds (rows : Rows) : List (Option String) :=
  (rows.openRows.values ++ rows.batchRows.values).flatMap fun row => row.records.map (·.requestId)

theorem mem_durableIds (rows : Rows) (id : Option String) :
    id ∈ durableIds rows ↔ ∃ r, Durably rows r ∧ r.requestId = id := by
  simp only [durableIds, List.mem_flatMap, List.mem_append, List.mem_map]
  constructor
  · rintro ⟨row, opened | batch, r, listed, named⟩
    · obtain ⟨key, found⟩ := (OrderedMap.mem_values _ _).mp opened
      exact ⟨r, .inl ⟨key, row, found, listed⟩, named⟩
    · obtain ⟨b, found⟩ := (OrderedMap.mem_values _ _).mp batch
      exact ⟨r, .inr ⟨b, row, found, listed⟩, named⟩
  · rintro ⟨r, ⟨key, row, found, listed⟩ | ⟨b, row, found, listed⟩, named⟩
    · exact ⟨row, .inl ((OrderedMap.mem_values _ _).mpr ⟨key, found⟩), r, listed, named⟩
    · exact ⟨row, .inr ((OrderedMap.mem_values _ _).mpr ⟨b, found⟩), r, listed, named⟩

-- A request is durable when its process dies.
def madeDurable : List (Action Unit) := World.paidFor () "r1" 10 ++ World.written ()

def booted (ok : Bool) (now : Nat) : List (Action Unit) :=
  [.restart (), .boot () ["OPERATOR"] [] none ok fun _ => now]

-- The next process cannot read the rows, and the one after it pays what they say.
theorem nothing_destroyed_unread :
    ∃ (w w' : World Unit) (r : StoredRecord), r.requestId = some "r1" ∧ Durably w.rows r ∧
      ¬ Durably w'.rows r ∧ Among w'.settled r := by
  let paying : List (Action Unit) := booted false 20 ++ booted true 30 ++ World.written () ++
    World.written () ++ [.payout () 0 (.paid "TX") 41 41] ++ World.written ()
  have shown : ((Transition.replay World.steadyStep (World.start .empty) madeDurable).bind fun w =>
      (Transition.replay World.steadyStep w paying).map fun w' =>
        (durableIds w.rows, durableIds w'.rows)) = some ([some "r1"], []) := by
    decide
  obtain ⟨w, replayed, later⟩ := Option.bind_eq_some_iff.mp shown
  obtain ⟨w', replayed', facts⟩ := Option.map_eq_some_iff.mp later
  simp only [Prod.mk.injEq] at facts
  obtain ⟨here, gone⟩ := facts
  obtain ⟨r, durable, named⟩ := (mem_durableIds w.rows (some "r1")).mp (by rw [here]; simp)
  have absent : ¬ Durably w'.rows r := by
    intro still
    have listed := (mem_durableIds w'.rows r.requestId).mpr ⟨r, still, rfl⟩
    rw [gone] at listed
    cases listed
  exact ⟨w, w', r, named, durable, absent, nothing_destroyed World.demoDeps rfl .empty w w'
    (World.run_of_steady madeDurable replayed) (World.run_of_steady paying replayed') r durable
    absent⟩

-- The next process cannot read the rows, and writes the operator's open row anew.
theorem liability_destroyed :
    ¬ NothingDestroyed World.demoDeps (fun _ a => World.sequential a = true) := by
  intro kept
  let overwriting : List (Action Unit) :=
    booted false 30 ++ World.paidFor () "r2" 40 ++ World.written ()
  have shown : ((Transition.replay (World.step World.demoDeps) (World.start .empty)
      madeDurable).bind fun w =>
        (Transition.replay (World.step World.demoDeps) w overwriting).map fun w' =>
          (durableIds w.rows, durableIds w'.rows, w'.settled)) =
      some ([some "r1"], [some "r2"], []) := by
    decide
  obtain ⟨w, replayed, later⟩ := Option.bind_eq_some_iff.mp shown
  obtain ⟨w', replayed', facts⟩ := Option.map_eq_some_iff.mp later
  simp only [Prod.mk.injEq] at facts
  obtain ⟨here, left, unpaid⟩ := facts
  obtain ⟨r, durable, named⟩ := (mem_durableIds w.rows (some "r1")).mp (by rw [here]; simp)
  have gone : ¬ Durably w'.rows r := by
    intro still
    have listed := (mem_durableIds w'.rows r.requestId).mpr ⟨r, still, rfl⟩
    rw [left, named] at listed
    simp at listed
  have ran {a b : World Unit} {labels : List (Action Unit)}
      (one : ∀ a ∈ labels, World.sequential a = true)
      (replayed : Transition.replay (World.step World.demoDeps) a labels = some b) :
      Transition.Run (World.step World.demoDeps) (fun _ a => World.sequential a = true) a b :=
    Transition.run_of_replay labels
      (Transition.allows_of_forall labels fun _ => one) replayed
  obtain ⟨id, settled, -⟩ := kept .empty w w' (ran (by decide) replayed) (ran (by decide) replayed')
    r durable gone
  rw [unpaid] at settled
  cases settled

end X402Mesh.Settlement
