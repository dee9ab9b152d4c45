import X402Mesh.Settlement.Recovery

set_option autoImplicit false

namespace X402Mesh.Settlement

open Service

variable (cfg : Deps)

structure Service.Quiet (before after : Service) : Prop where
  accruals : after.accruals = before.accruals
  arrays : after.arrays = before.arrays
  payouts : after.payouts = before.payouts
  outbox : after.outbox = before.outbox
  claimed : ∀ id ∈ before.claimed, id ∈ after.claimed
  pending : ∀ key, ∃ records : List SettlementRecord,
    after.pending key = before.pending key ++ records.map .putLedger

namespace Service

theorem Bookkeeping.quiet {before after : Service} (kept : Bookkeeping before after) :
    Quiet before after :=
  ⟨kept.accruals, kept.arrays, kept.payouts, kept.outbox, kept.claimed, kept.pending⟩

theorem Quiet.trans {a b c : Service} (first : Quiet a b) (second : Quiet b c) : Quiet a c where
  accruals := second.accruals.trans first.accruals
  arrays := second.arrays.trans first.arrays
  payouts := second.payouts.trans first.payouts
  outbox := second.outbox.trans first.outbox
  claimed id held := second.claimed id (first.claimed id held)
  pending key := by
    obtain ⟨left, queued⟩ := first.pending key
    obtain ⟨right, queued'⟩ := second.pending key
    exact ⟨left ++ right, by simp [queued, queued']⟩

theorem Quiet.sound {before after : Service} (kept : Quiet before after) (sound : Sound before) :
    Sound after := by
  intro operatorAddress accrual found
  rw [kept.accruals] at found
  obtain ⟨keyed, nonempty, total, operator, priced, live, claimed⟩ := sound _ _ found
  exact ⟨keyed, nonempty, total, operator, priced, by rw [kept.arrays, live],
    fun r member => kept.claimed _ (claimed r member)⟩

theorem Quiet.mem_pending {before after : Service} (kept : Quiet before after) {key : String}
    {op : StoreOp} (member : op ∈ after.pending key) :
    op ∈ before.pending key ∨ ∃ record, op = .putLedger record := by
  obtain ⟨records, queued⟩ := kept.pending key
  rw [queued, List.mem_append] at member
  apply member.imp_right
  intro ledger
  obtain ⟨record, -, rfl⟩ := List.mem_map.mp ledger
  exact ⟨record, rfl⟩

/-- A record taken on by a process that had not claimed its request. -/
structure Taken (before base : Service) (record : SettlementRecord) : Prop where
  kept : Quiet before base
  priced : Priced record
  unclaimed : record.requestId ∉ before.claimed
  claimed : record.requestId ∈ base.claimed

theorem Taken.putAccrual_sound {before base : Service} {record : SettlementRecord}
    (taken : Taken before base record) (sound : Sound before) (accruedAt : Nat) :
    Sound (base.putAccrual (base.grown record accruedAt)) :=
  base.putAccrual_sound record accruedAt (taken.kept.sound sound) taken.priced taken.claimed

theorem settleInbound_moves (batching : 0 < cfg.batchMinAtomic) (svc : Service) (sound : Sound svc)
    (inbound : InboundSettlement) (now : Readings) :
    Quiet svc (settleInbound cfg svc inbound now) ∨
      ∃ record base, Taken svc base record ∧ record.requestId = inbound.requestId ∧
        (settleInbound cfg svc inbound now = hold cfg base record now.accruedAt ∨
          settleInbound cfg svc inbound now =
            detach cfg (base.putAccrual (base.grown record now.accruedAt)) record.operatorAddress
              (base.grown record now.accruedAt) now.flushedAt) := by
  rcases settleInbound_cases cfg batching svc inbound now with
    quiet | ⟨record, base, kept, id, unclaimed, claimed, priced, pushed⟩
  · exact .inl quiet.quiet
  · have taken : Taken svc base record := ⟨{ kept.quiet with }, priced, unclaimed, claimed⟩
    refine .inr ⟨record, base, taken, id, ?_⟩
    rw [pushed]
    exact push_cases cfg base record now.accruedAt now.flushedAt (taken.kept.sound sound) priced
      claimed

theorem recordRouting_quiet (svc : Service) (requestId nodeId operatorAddress : String)
    (now : Nat) : Quiet svc (svc.recordRouting requestId nodeId operatorAddress now) :=
  ⟨rfl, rfl, rfl, rfl, fun _ held => held,
    fun _ => ⟨[], by simp [recordRouting, pruneRouting, pending, chain]⟩⟩

end Service

def Action.turns {ι : Type} : Action ι → Bool
  | .recordRouting .. | .settleInbound .. | .deadline .. | .flushPayouts .. | .hydrateLedger .. =>
    true
  | _ => false

namespace World

variable {ι : Type} [DecidableEq ι]

def put (w : World ι) (i : ι) (svc : Service) : World ι :=
  { w with service := Function.update w.service i svc }

@[simp] theorem put_service_self (w : World ι) (i : ι) (svc : Service) :
    (w.put i svc).service i = svc := by
  simp [put]

theorem put_service (w : World ι) (i j : ι) (svc : Service) :
    (w.put i svc).service j = if j = i then svc else w.service j := by
  by_cases same : j = i
  · subst same
    simp
  · simp [put, same]

@[simp] theorem put_put (w : World ι) (i : ι) (a b : Service) : (w.put i a).put i b = w.put i b := by
  simp [put]

@[simp] theorem put_self (w : World ι) (i : ι) : w.put i (w.service i) = w := by
  simp [put]

@[simp] theorem put_turn (w : World ι) (i : ι) (a b : Service) :
    (w.put i a).turn i b = w.turn i b := by
  simp [turn, put]

theorem turn_eq (w : World ι) (i : ι) (svc : Service) :
    w.turn i svc = (w.put i svc).turn i ((w.put i svc).service i) := by
  simp [turn, put]

-- `new w i id`: process `i` may take the request on.
structure KeptByMoves (P : World ι → Prop) (new : World ι → ι → String → Prop) : Prop where
  ended : ∀ w i, P w → P (w.turn i (w.service i))
  quiet : ∀ w i svc, P w → Quiet (w.service i) svc → P (w.put i svc)
  hold : ∀ w i base record accruedAt, P w → Sound (w.service i) →
    Taken (w.service i) base record → new w i record.requestId →
    P (w.put i (Service.hold cfg base record accruedAt))
  take : ∀ w i base record accruedAt, P w → Sound (w.service i) →
    Taken (w.service i) base record → new w i record.requestId →
    P (w.put i (base.putAccrual (base.grown record accruedAt)))
  detach : ∀ w i operatorAddress accrual now, P w → Sound (w.service i) →
    (w.service i).accruals.get? operatorAddress = some accrual →
    P (w.put i (Service.detach cfg (w.service i) operatorAddress accrual now))

variable {cfg} {P : World ι → Prop} {new : World ι → ι → String → Prop}
variable (moves : KeptByMoves cfg P new)

include moves

theorem KeptByMoves.turn (w : World ι) (i : ι) (svc : Service) (held : P (w.put i svc)) :
    P (w.turn i svc) := by
  rw [turn_eq]
  exact moves.ended _ i held

theorem KeptByMoves.settleInbound (batching : 0 < cfg.batchMinAtomic) (w : World ι) (i : ι)
    (held : P w) (sound : Sound (w.service i)) (inbound : InboundSettlement)
    (now : Service.Readings)
    (ok : inbound.requestId ∉ (w.service i).claimed → new w i inbound.requestId) :
    P (w.turn i (Service.settleInbound cfg (w.service i) inbound now)) := by
  apply moves.turn
  rcases settleInbound_moves cfg batching (w.service i) sound inbound now with
    quiet | ⟨record, base, taken, id, outcome⟩
  · exact moves.quiet w i _ held quiet
  · have fresh : new w i record.requestId := by
      rw [id]
      exact ok (id ▸ taken.unclaimed)
    rcases outcome with waits | flushed
    · rw [waits]
      exact moves.hold w i base record now.accruedAt held sound taken fresh
    · have taken' := moves.take w i base record now.accruedAt held sound taken fresh
      have found : ((w.put i (base.putAccrual (base.grown record now.accruedAt))).service
          i).accruals.get? record.operatorAddress = some (base.grown record now.accruedAt) := by
        have keyed := base.grown_operatorAddress record now.accruedAt (taken.kept.sound sound)
        simp [Service.putAccrual, keyed]
      have detached := moves.detach _ i record.operatorAddress _ now.flushedAt taken'
        (by simpa using taken.putAccrual_sound sound now.accruedAt) found
      rw [flushed]
      simpa using detached

theorem KeptByMoves.flushAccrual (w : World ι) (i : ι) (held : P w) (sound : Sound (w.service i))
    (operatorAddress : String) (now : Nat) :
    P (w.put i (Service.flushAccrual cfg (w.service i) operatorAddress now)) := by
  cases found : (w.service i).accruals.get? operatorAddress with
  | none => rwa [flushAccrual_absent cfg _ _ now found, put_self]
  | some accrual =>
    rw [flushAccrual_found cfg _ _ now accrual found (sound _ _ found)]
    exact moves.detach w i operatorAddress accrual now held sound found

theorem KeptByMoves.flushPayouts (w : World ι) (i : ι) (held : P w) (sound : Sound (w.service i))
    (now : Nat → Nat) : P (w.turn i (Service.flushPayouts cfg (w.service i) now)) := by
  apply moves.turn
  have flushed := flushPayouts_induction cfg (P := fun svc => P (w.put i svc)) now
    (fun svc operatorAddress accrual now held sound found => by
      have detached := moves.detach (w.put i svc) i operatorAddress accrual now held
        (by simpa using sound) (by simpa using found)
      simpa using detached)
    (w.service i) (by simpa using held) sound
  exact flushed.1

theorem KeptByMoves.step (batching : 0 < cfg.batchMinAtomic) {w w' : World ι} {a : Action ι}
    (turns : a.turns = true) (held : P w) (sound : ∀ i, Sound (w.service i))
    (ok : ∀ i inbound now, a = .settleInbound i inbound now →
      inbound.requestId ∉ (w.service i).claimed → new w i inbound.requestId)
    (taken : World.step cfg w a = some w') : P w' := by
  cases a with
  | recordRouting i requestId nodeId operatorAddress now =>
    cases taken
    exact moves.turn w i _ (moves.quiet w i _ held (recordRouting_quiet _ _ _ _ _))
  | settleInbound i inbound now =>
    cases taken
    exact moves.settleInbound batching w i held (sound i) inbound now (ok i inbound now rfl)
  | deadline i operatorAddress now =>
    rw [deadline_inv taken]
    exact moves.turn w i _ (moves.flushAccrual w i held (sound i) operatorAddress now)
  | flushPayouts i now =>
    cases taken
    exact moves.flushPayouts w i held (sound i) now
  | hydrateLedger i history =>
    cases taken
    exact moves.turn w i _ (moves.quiet w i _ held (hydrateLedger_bookkeeping cfg _ history).quiet)
  | _ => cases turns

end World

end X402Mesh.Settlement
