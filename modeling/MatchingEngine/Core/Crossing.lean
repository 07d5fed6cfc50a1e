import MatchingEngine.Core.Priority

/-!
# How much a limit can take

The quantity waiting at the prices a limit reaches decides whether an accepted
order is filled or rests: the matching loops leave it with what exceeds that
quantity. So the events that put an order into the book can be told from the
book and the command before the command is applied.
-/

namespace MatchingEngine

/-- The quantity waiting in a queue. -/
def queueQuantity : List RestingOrder → ℤ
  | [] => 0
  | o :: rest => o.remainingQuantityLots.toInt + queueQuantity rest

/-- The quantity waiting at the prices that a limit reaches, best price first. -/
def crossingQuantity (contra : Side) (limit : Int64) : List PriceLevel → ℤ
  | [] => 0
  | level :: worse =>
      if contra.Better limit level.1 then 0
      else queueQuantity level.2 + crossingQuantity contra limit worse

@[simp] theorem queueQuantity_nil : queueQuantity [] = 0 := rfl

@[simp] theorem queueQuantity_cons (o : RestingOrder) (rest : List RestingOrder) :
    queueQuantity (o :: rest) = o.remainingQuantityLots.toInt + queueQuantity rest := rfl

theorem queueQuantity_nonneg {queue : List RestingOrder}
    (hqueue : ∀ o ∈ queue, 0 < o.remainingQuantityLots) : 0 ≤ queueQuantity queue := by
  induction queue with
  | nil => exact le_rfl
  | cons o rest ih =>
    obtain ⟨ho, hrest⟩ := List.forall_mem_cons.mp hqueue
    rw [queueQuantity_cons]
    exact add_nonneg (FixedWidth.pos_iff.mp ho).le (ih hrest)

theorem crossingQuantity_nonneg {contra : Side} {limit : Int64} {levels : List PriceLevel}
    (hlevels : ∀ level ∈ levels, ∀ o ∈ level.2, 0 < o.remainingQuantityLots) :
    0 ≤ crossingQuantity contra limit levels := by
  induction levels with
  | nil => exact le_rfl
  | cons level worse ih =>
    obtain ⟨hlevel, hworse⟩ := List.forall_mem_cons.mp hlevels
    unfold crossingQuantity
    split
    · exact le_rfl
    · exact add_nonneg (queueQuantity_nonneg hlevel) (ih hworse)

/-- The inner loop leaves what exceeds the quantity of the queue. -/
theorem matchQueue_remaining (command : OrderCommandRecordV1) (priceTicks : Int64)
    {queue : List RestingOrder} (hqueue : ∀ o ∈ queue, 0 < o.remainingQuantityLots)
    (vars : MatchVars) (hvars : 0 ≤ vars.incomingRemaining.toInt) :
    (matchQueue command priceTicks queue vars).vars.incomingRemaining.toInt =
      max 0 (vars.incomingRemaining.toInt - queueQuantity queue) := by
  induction queue generalizing vars with
  | nil => simp [matchQueue, hvars]
  | cons o rest ih =>
    obtain ⟨ho, hrest⟩ := List.forall_mem_cons.mp hqueue
    have hrestNonneg := queueQuantity_nonneg hrest
    have hpos := FixedWidth.pos_iff.mp ho
    rw [queueQuantity_cons]
    simp only [matchQueue]
    by_cases hincoming : 0 < vars.incomingRemaining
    · have hexact := fillFront_exact command priceTicks vars hincoming ho
      have hmin := FixedWidth.toInt_min vars.incomingRemaining o.remainingQuantityLots
      obtain ⟨-, hleft, hresting, hleftNonneg, hrestingNonneg⟩ := hexact
      simp only [if_pos hincoming]
      by_cases hgone :
          (fillFront command priceTicks o vars).restingOrder.remainingQuantityLots = 0
      · simp only [if_pos hgone]
        have hzero := FixedWidth.eq_zero_iff.mp hgone
        have hdrop := ih hrest ((fillFront command priceTicks o vars).vars.dropOrder
          (fillFront command priceTicks o vars).restingOrder.orderId) hleftNonneg
        change _ = max 0 ((fillFront command priceTicks o vars).vars.incomingRemaining.toInt - _)
          at hdrop
        rw [hdrop, hleft]
        omega
      · simp only [if_neg hgone]
        rw [FixedWidth.eq_zero_iff] at hgone
        omega
    · simp only [if_neg hincoming]
      rw [FixedWidth.pos_iff] at hincoming
      omega

/-- The outer loop leaves what exceeds the quantity at the prices it reaches. -/
theorem matchLevels_remaining (command : OrderCommandRecordV1) (contra : Side)
    {levels : List PriceLevel}
    (hlevels : ∀ level ∈ levels, ∀ o ∈ level.2, 0 < o.remainingQuantityLots)
    (vars : MatchVars) (hvars : 0 ≤ vars.incomingRemaining.toInt) :
    (matchLevels command contra levels vars).vars.incomingRemaining.toInt =
      max 0 (vars.incomingRemaining.toInt -
        crossingQuantity contra command.priceTicks levels) := by
  induction levels generalizing vars with
  | nil => simp [matchLevels, crossingQuantity, hvars]
  | cons level worse ih =>
    obtain ⟨price, queue⟩ := level
    obtain ⟨hlevel, hworse⟩ := List.forall_mem_cons.mp hlevels
    have hworseNonneg : 0 ≤ crossingQuantity contra command.priceTicks worse :=
      crossingQuantity_nonneg hworse
    have hlevelNonneg : 0 ≤ queueQuantity queue := queueQuantity_nonneg hlevel
    simp only [matchLevels, crossingQuantity]
    by_cases hincoming : 0 < vars.incomingRemaining
    · by_cases hcross : contra.Better command.priceTicks price
      · simp only [if_pos hincoming, if_pos hcross]
        omega
      · have hinner : (matchQueue command price queue vars).vars.incomingRemaining.toInt =
            max 0 (vars.incomingRemaining.toInt - queueQuantity queue) :=
          matchQueue_remaining command price hlevel vars hvars
        simp only [if_pos hincoming, if_neg hcross]
        by_cases hempty : (matchQueue command price queue vars).left = []
        · simp only [hempty, List.isEmpty_nil, if_true]
          rw [ih hworse _ (by omega), hinner]
          omega
        · simp only [List.isEmpty_iff, hempty, if_false]
          have hdone := Int64.le_iff_toInt_le.mp (matchQueue_exit hempty)
          rw [Int64.toInt_zero] at hdone
          omega
    · simp only [if_neg hincoming]
      rw [FixedWidth.pos_iff] at hincoming
      split <;> omega

/-! ## Which order a command puts into the book -/

/-- An event of another kind puts no order into the book. -/
theorem not_rests_of_eventType {event : ExecutionEventRecordV1} (t : ExecutionEventType)
    (htype : event.eventType = t.code) (ht : t ≠ .orderRested ∧ t ≠ .orderPartiallyFilled)
    (orderId : UInt64) : ¬ event.Rests orderId := by
  rintro ⟨h | h, -⟩
  · exact ht.1 (ExecutionEventType.code_injective (htype.symm.trans h))
  · exact ht.2 (ExecutionEventType.code_injective (htype.symm.trans h))

/-- Trades put no order into the book. -/
theorem levelEmissions_not_rests {command : OrderCommandRecordV1} {contra : Side}
    {levels : Side → List PriceLevel} {own : List PriceLevel} {vars : MatchVars} {e : Emission}
    (he : e ∈ levelEmissions command contra levels own vars) (orderId : UInt64) :
    ¬ e.event.Rests orderId :=
  not_rests_of_eventType .tradeExecuted (levelEmissions_isTrade he) (by decide) orderId

/-- A rejection puts no order into the book. -/
theorem OrderBook.rejectEmissions_not_rests {book : OrderBook} {command : OrderCommandRecordV1}
    {reason : RejectionReason} {e : Emission} (he : e ∈ book.rejectEmissions command reason)
    (orderId : UInt64) : ¬ e.event.Rests orderId := by
  rw [List.mem_singleton.mp he]
  exact not_rests_of_eventType .orderRejected rfl (by decide) orderId

/-- A cancellation puts no order into the book. -/
theorem OrderBook.cancelEmission_not_rests (book : OrderBook) (command : OrderCommandRecordV1)
    (o : RestingOrder) (orderId : UInt64) :
    ¬ (book.cancelEmission command o).event.Rests orderId :=
  not_rests_of_eventType .orderCancelled rfl (by decide) orderId

/-- A cancelling command puts no order into the book. -/
theorem OrderBook.cancelOrderEmissions_not_rests {book : OrderBook}
    {command : OrderCommandRecordV1} {e : Emission} (he : e ∈ book.cancelOrderEmissions command)
    (orderId : UInt64) : ¬ e.event.Rests orderId := by
  unfold cancelOrderEmissions at he
  split at he
  · exact rejectEmissions_not_rests he orderId
  · split at he
    · exact rejectEmissions_not_rests he orderId
    · split at he
      · exact rejectEmissions_not_rests he orderId
      · rw [List.mem_singleton.mp he]
        exact book.cancelEmission_not_rests command _ orderId

/-- The last emission of an accepted order puts it into the book exactly when it
has something left. -/
theorem OrderBook.settleEmission_rests_iff (book : OrderBook) (command : OrderCommandRecordV1)
    (remaining : Int64) (orderId : UInt64) :
    (book.settleEmission command remaining).event.Rests orderId ↔
      remaining ≠ 0 ∧ command.orderId = orderId := by
  unfold settleEmission
  split
  · rename_i hzero
    refine iff_of_false ?_ (fun h => h.1 hzero)
    exact not_rests_of_eventType .orderFullyFilled rfl (by decide) orderId
  · rename_i hnonzero
    refine ⟨fun h => ⟨hnonzero, h.2⟩, fun h => ⟨?_, h.2⟩⟩
    change (if _ then ExecutionEventType.orderPartiallyFilled else _).code = _ ∨
      (if _ then ExecutionEventType.orderPartiallyFilled else _).code = _
    split
    · exact Or.inr rfl
    · exact Or.inl rfl

/-- An accepted order of which something is left after matching. -/
structure OrderBook.RestsAfterMatching (book : OrderBook) (command : OrderCommandRecordV1) :
    Prop where
  /-- The command passes the validation of new orders. -/
  valid : book.validateNewOrder command = .none
  /-- The contra orders within its limit hold less than it wants. -/
  exceeds : crossingQuantity (incomingSide command).opposite command.priceTicks
    (book.levels (incomingSide command).opposite) < command.quantityLots.toInt

/-- A new order leaves something after matching exactly when it wants more than
the contra orders within its limit hold. -/
theorem OrderBook.matchIncoming_ne_zero_iff {book : OrderBook} (hbook : book.moment.WellFormed)
    {command : OrderCommandRecordV1} (hvalid : NewOrderValid book command) :
    ((book.acceptIncoming command).2.matchIncoming command).1 ≠ 0 ↔
      crossingQuantity (incomingSide command).opposite command.priceTicks
        (book.levels (incomingSide command).opposite) < command.quantityLots.toInt := by
  obtain ⟨s, hside⟩ := hvalid.side
  have hlevels : (book.acceptIncoming command).2.levels = book.levels := by
    rw [← book.bindInstrumentIfNeeded_levels command.instrumentId]
    funext t
    cases t <;> rfl
  have hqueues : ∀ level ∈ book.levels s.opposite, ∀ o ∈ level.2, 0 < o.remainingQuantityLots :=
    fun level hlevel o ho => ((hbook.level s.opposite level hlevel).order o ho).remaining
  have hquantity := FixedWidth.pos_iff.mp hvalid.quantity
  have hremaining := matchLevels_remaining command s.opposite hqueues
    ((book.acceptIncoming command).2.matchVars command) hquantity.le
  rw [(OrderBook.matchIncoming_moment _ hside).1, hlevels, incomingSide_eq hside, ne_eq,
    FixedWidth.eq_zero_iff, hremaining]
  change ¬ max 0 (command.quantityLots.toInt - _) = 0 ↔ _
  omega

/-- A new order puts its id into the book exactly when something of it is left. -/
theorem OrderBook.newOrderEmissions_rests_iff {book : OrderBook} (hbook : book.moment.WellFormed)
    (command : OrderCommandRecordV1) (orderId : UInt64) :
    (∃ e ∈ book.newOrderEmissions command, e.event.Rests orderId) ↔
      command.orderId = orderId ∧ book.RestsAfterMatching command := by
  unfold newOrderEmissions
  by_cases hvalid : book.validateNewOrder command ≠ .none
  · rw [if_pos hvalid]
    refine iff_of_false ?_ (fun h => hvalid h.2.valid)
    rintro ⟨e, he, hrests⟩
    rw [List.mem_singleton.mp he] at hrests
    exact not_rests_of_eventType .orderRejected rfl (by decide) orderId hrests
  · rw [if_neg hvalid]
    have hvalid := not_not.mp hvalid
    have hleft := matchIncoming_ne_zero_iff hbook ((book.validateNewOrder_eq_none_iff command).mp
      hvalid)
    simp only [acceptEmissions, List.cons_append, List.mem_cons, List.mem_append,
      List.not_mem_nil, or_false]
    constructor
    · rintro ⟨e, rfl | he | rfl, hrests⟩
      · exact absurd hrests (not_rests_of_eventType .orderAccepted rfl (by decide) orderId)
      · exact absurd hrests (levelEmissions_not_rests he orderId)
      · obtain ⟨hnonzero, hid⟩ := (settleEmission_rests_iff _ _ _ _).mp hrests
        exact ⟨hid, hvalid, hleft.mp hnonzero⟩
    · rintro ⟨hid, -, hexceeds⟩
      exact ⟨_, Or.inr (Or.inr rfl),
        (settleEmission_rests_iff _ _ _ _).mpr ⟨hleft.mpr hexceeds, hid⟩⟩

/-- A command puts the order id zero into the book exactly when it is a new order
with that id of which something is left: replacements may not have that id. -/
theorem OrderBook.emissions_rests_zero_iff {book : OrderBook} (hbook : book.moment.WellFormed)
    (command : OrderCommandRecordV1) :
    (∃ e ∈ book.emissions command, e.event.Rests 0) ↔
      command.orderId = 0 ∧ book.RestsAfterMatching command := by
  have hkind : book.RestsAfterMatching command →
      decodeCommandType command.commandType = some .newOrder :=
    fun h => ((book.validateNewOrder_eq_none_iff command).mp h.valid).kind
  unfold emissions
  split
  · rename_i htype
    refine iff_of_false ?_ (fun h => by simp [hkind h.2] at htype)
    rintro ⟨e, he, hrests⟩
    exact rejectEmissions_not_rests he 0 hrests
  · exact newOrderEmissions_rests_iff hbook command 0
  · rename_i htype
    refine iff_of_false ?_ (fun h => by simp [hkind h.2] at htype)
    rintro ⟨e, he, hrests⟩
    exact cancelOrderEmissions_not_rests he 0 hrests
  · rename_i htype
    refine iff_of_false ?_ (fun h => by simp [hkind h.2] at htype)
    rintro ⟨e, he, hrests⟩
    unfold replaceOrderEmissions at he
    by_cases hvalid : book.validateReplaceOrder command ≠ .none
    · rw [if_pos hvalid] at he
      exact rejectEmissions_not_rests he 0 hrests
    · rw [if_neg hvalid] at he
      obtain ⟨o, ho⟩ := replaceOrderValid_of_validate (not_not.mp hvalid)
      have hfind : book.findOrder command.orderId = some o := ho.active
      rw [hfind] at he
      rcases List.mem_cons.mp he with rfl | he
      · exact book.cancelEmission_not_rests command o 0 hrests
      · have hwf := (cancelled_step hbook command hfind).wellFormed hbook
        have hzero := (newOrderEmissions_rests_iff hwf (replacementNewOrderCommand command) 0).mp
          ⟨e, he, hrests⟩
        exact ho.replacement_ne_zero hzero.1

/-- No command of the list rests an order with id zero. -/
def NeverRestsZero (firstEventSequence : UInt64) (commands : List OrderCommandRecordV1) : Prop :=
  ∀ earlier command later, commands = earlier ++ command :: later →
    ¬ (command.orderId = 0 ∧
      ((InstrumentEngine.create firstEventSequence).applyAll
        earlier).2.orderBook.RestsAfterMatching command)

/-- The emissions of a run rest no order with id zero exactly when its commands do not. -/
theorem emissionsAll_not_rests_zero_iff (firstEventSequence : UInt64)
    (commands : List OrderCommandRecordV1) :
    (∀ e ∈ (InstrumentEngine.create firstEventSequence).emissionsAll commands,
        ¬ e.event.Rests 0) ↔ NeverRestsZero firstEventSequence commands := by
  have hbook : ∀ earlier, ((InstrumentEngine.create firstEventSequence).applyAll earlier).2 =
      (emissionMachine.run (InstrumentEngine.create firstEventSequence) earlier).2 := by
    intro earlier
    rw [InstrumentEngine.emissionMachine_run]
  constructor
  · intro hnone earlier command later heq hrests
    have hwf := (InstrumentEngine.reachable_applyAll firstEventSequence earlier).wellFormed
    obtain ⟨e, he, hzero⟩ := (OrderBook.emissions_rests_zero_iff hwf command).mpr hrests
    rw [hbook] at he
    exact hnone e (emissionMachine.mem_run_iff.mpr ⟨earlier, command, later, heq, he⟩) hzero
  · intro hnone e he hzero
    obtain ⟨earlier, command, later, heq, hmem⟩ := emissionMachine.mem_run_iff.mp he
    have hwf := (InstrumentEngine.reachable_applyAll firstEventSequence earlier).wellFormed
    refine hnone earlier command later heq
      ((OrderBook.emissions_rests_zero_iff hwf command).mp ⟨e, ?_, hzero⟩)
    rw [hbook]
    exact hmem

end MatchingEngine
