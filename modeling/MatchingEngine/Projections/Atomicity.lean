import MatchingEngine.Projections.MarketData

/-!
# Refused events

The handlers check an event before they change anything, and the `switch` moves the
sequence number only when the event was not refused. So a refused event changes nothing,
an ignored event changes the sequence number only, and a stream of events can be read
without the refused ones.
-/

namespace MatchingEngine

namespace MarketDataProjection

variable (p : MarketDataProjection) (order : IterationOrder) (event : ExecutionEventRecordV1)

/-- `upsert_order` changes nothing unless it applies the order. -/
theorem upsertOrder_of_ne (orderId : UInt64) (state : OrderState)
    (h : (p.upsertOrder order orderId state).1.status ≠ .applied) :
    (p.upsertOrder order orderId state).2 = p := by
  unfold upsertOrder at h ⊢
  split
  · rfl
  · rename_i hvalid
    rw [if_neg hvalid] at h
    exact absurd rfl h

/-- `apply_trade` changes nothing unless it applies the trade. -/
theorem applyTrade_of_ne (h : (p.applyTrade order event).1.status ≠ .applied) :
    (p.applyTrade order event).2 = p := by
  unfold applyTrade at h ⊢
  split
  · rfl
  · rename_i hpresent
    rw [if_neg hpresent] at h
    cases hlookup : p.activeOrders.lookup event.contraOrderId with
    | none => rfl
    | some restingOrder =>
      rw [hlookup] at h
      by_cases hexceeds : restingOrder.remainingQuantityLots < event.quantityLots
      · exact congrArg Prod.snd (if_pos hexceeds)
      · simp only [if_neg hexceeds] at h
        exact absurd rfl h

/-- The `switch` changes nothing unless it applies the event. -/
theorem applyByType_of_ne (h : (p.applyByType order event).1.status ≠ .applied) :
    (p.applyByType order event).2 = p := by
  unfold applyByType at h ⊢
  split at h
  · rfl
  · rfl
  · unfold applyRested at h ⊢
    split
    · rfl
    · rename_i hvisible
      rw [if_neg hvisible] at h
      exact upsertOrder_of_ne _ _ _ _ h
  · unfold applyRested at h ⊢
    split
    · rfl
    · rename_i hvisible
      rw [if_neg hvisible] at h
      exact upsertOrder_of_ne _ _ _ _ h
  · exact applyTrade_of_ne _ _ _ h
  · unfold applyFilled at h ⊢
    split
    · rfl
    · rename_i hknown
      rw [if_neg hknown] at h
      exact absurd rfl h
  · unfold applyCancelled at h ⊢
    split
    · rfl
    · rename_i hknown
      rw [if_neg hknown] at h
      exact absurd rfl h
  · rfl

/-- An event of another number is refused and changes nothing. -/
theorem apply_of_gap (hgap : event.eventSequence ≠ p.lastAppliedEventSequence + 1) :
    (p.apply order event).1.status = .rejected ∧ (p.apply order event).2 = p := by
  unfold apply
  rw [if_pos hgap]
  exact ⟨rfl, rfl⟩

/-- A refused event changes nothing. -/
theorem apply_rejected (h : (p.apply order event).1.status = .rejected) :
    (p.apply order event).2 = p := by
  by_cases hgap : event.eventSequence ≠ p.lastAppliedEventSequence + 1
  · exact (p.apply_of_gap order event hgap).2
  · unfold apply at h ⊢
    rw [if_neg hgap] at h ⊢
    dsimp only at h ⊢
    split
    · rename_i haccepted
      rw [if_pos haccepted] at h
      exact absurd h haccepted
    · rename_i hrejected
      rw [not_not] at hrejected
      exact p.applyByType_of_ne order event (by rw [hrejected]; decide)

/-- An ignored event changes the sequence number only, and by one. -/
theorem apply_ignored (h : (p.apply order event).1.status = .ignored) :
    (p.apply order event).2 =
      { p with lastAppliedEventSequence := p.lastAppliedEventSequence + 1 } := by
  by_cases hgap : event.eventSequence ≠ p.lastAppliedEventSequence + 1
  · rw [(p.apply_of_gap order event hgap).1] at h
    cases h
  · unfold apply at h ⊢
    rw [if_neg hgap] at h ⊢
    dsimp only at h ⊢
    split
    · rename_i haccepted
      rw [if_pos haccepted] at h
      rw [p.applyByType_of_ne order event (by rw [h]; decide), not_not.mp hgap]
    · rename_i hrejected
      rw [if_neg hrejected] at h
      exact absurd (by rw [h]; decide) hrejected

end MarketDataProjection

/-- The events of a stream that a projection does not refuse when it is fed the stream, each
with the order in which the hash map is visited. -/
def MarketDataProjection.acceptedInputs (p : MarketDataProjection)
    (inputs : List (IterationOrder × ExecutionEventRecordV1)) :
    List (IterationOrder × ExecutionEventRecordV1) :=
  projectionMachine.translateRun
    (fun p input => if (p.apply input.1 input.2).1.status = .rejected then none else some input)
    p inputs

/-- A refused event leaves the projection as it is, an ignored event moves the sequence
number by one and leaves the rest, and without the refused events a stream of events leads
to the same projection and answers the other events in the same way. -/
theorem rejected_events_leave_no_trace (p : MarketDataProjection) :
    (∀ order event, (p.apply order event).1.status = .rejected → (p.apply order event).2 = p) ∧
      (∀ order event, (p.apply order event).1.status = .ignored →
        (p.apply order event).2 =
          { p with lastAppliedEventSequence := p.lastAppliedEventSequence + 1 }) ∧
      ∀ inputs, projectionMachine.run p (p.acceptedInputs inputs) =
        ((projectionMachine.run p inputs).1.filter fun result => result.status ≠ .rejected,
          (projectionMachine.run p inputs).2) := by
  refine ⟨p.apply_rejected, p.apply_ignored, fun inputs => ?_⟩
  have hrun := projectionMachine.run_translateRun projectionMachine
    (fun p input => if (p.apply input.1 input.2).1.status = .rejected then none else some input)
    (fun result => if result.status ≠ .rejected then some result else none) some
    (R := Eq) (P := fun _ => True) ?_ (Eq.refl p) (fun i (_ : i ∈ inputs) => trivial)
  · obtain ⟨hresults, hend⟩ := hrun
    rw [List.filterMap_some] at hresults
    refine Prod.ext ?_ hend.symm
    refine hresults.trans ?_
    rw [← List.filterMap_eq_filter]
    refine List.filterMap_congr fun result _ => ?_
    by_cases h : result.status = .rejected <;> simp [h, Option.guard]
  · rintro p _ ⟨order, event⟩ rfl -
    by_cases h : (p.apply order event).1.status = .rejected
    · have hsame := p.apply_rejected order event h
      simp only [h, if_true, Option.toList_none, projectionMachine, Machine.run_nil]
      exact ⟨by simp [h], hsame⟩
    · simp only [h, if_false, Option.toList_some, Machine.run_cons, Machine.run_nil,
        projectionMachine]
      exact ⟨by simp [h], trivial⟩

end MatchingEngine
