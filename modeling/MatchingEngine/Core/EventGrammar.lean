import Mathlib.Algebra.Order.BigOperators.Group.List
import Mathlib.Algebra.Order.Group.Int
import Mathlib.Algebra.Ring.Int.Defs
import MatchingEngine.Core.GreedyMatching
import MatchingEngine.Core.Replacement

/-!
# The grammar of the answers

Every command is answered in one of four forms. An accepted order is announced, trades
any number of times, and ends with one event that says whether it was filled, filled in
part, or not at all. The quantities in these events follow from the greedy walk.
-/

namespace MatchingEngine

/-- The kind of an event and the two quantities that it carries. -/
structure ExecutionEventRecordV1.Carries (event : ExecutionEventRecordV1)
    (t : ExecutionEventType) (quantity remaining : ℤ) : Prop where
  kind : event.eventType = t.code
  quantity : event.quantityLots.toInt = quantity
  remaining : event.remainingQuantityLots.toInt = remaining

/-- The quantity that was traded in some events. -/
def tradedQuantity (trades : List ExecutionEventRecordV1) : ℤ :=
  (trades.map fun trade => trade.quantityLots.toInt).sum

/-- The answer to an accepted order of the given quantity. -/
structure AcceptedAnswer (quantity : ℤ) (accepted : ExecutionEventRecordV1)
    (trades : List ExecutionEventRecordV1) (last : ExecutionEventRecordV1) : Prop where
  /-- The order wants something. -/
  positive : 0 < quantity
  /-- The acceptance carries the whole quantity twice. -/
  accepted : accepted.Carries .orderAccepted quantity quantity
  /-- Every trade carries a positive quantity and what the trades up to it leave. -/
  trade : ∀ (k : ℕ) (trade : ExecutionEventRecordV1), trades[k]? = some trade →
    trade.IsTrade ∧ 0 < trade.quantityLots.toInt ∧
      trade.remainingQuantityLots.toInt = quantity - tradedQuantity (trades.take (k + 1))
  /-- The order rests as it is, or it has traded and is filled, or filled in part. -/
  ending :
    (trades = [] ∧ last.Carries .orderRested 0 quantity) ∨
    (trades ≠ [] ∧ last.Carries .orderFullyFilled quantity 0) ∨
    (trades ≠ [] ∧ 0 < tradedQuantity trades ∧ 0 < quantity - tradedQuantity trades ∧
      last.Carries .orderPartiallyFilled (tradedQuantity trades)
        (quantity - tradedQuantity trades))
  /-- It is filled exactly when the trades add up to its quantity. -/
  filled_iff : last.eventType = ExecutionEventType.orderFullyFilled.code ↔
    tradedQuantity trades = quantity

/-- Some events are the answer to an accepted order, and their last event carries the
quantity that the book holds for the order id afterwards. -/
def AnswersAccepted (events : List ExecutionEventRecordV1) (quantity : ℤ) (orderId : UInt64)
    (after : OrderBook) : Prop :=
  ∃ accepted trades last, events = accepted :: trades ++ [last] ∧
    AcceptedAnswer quantity accepted trades last ∧
    last.remainingQuantityLots = after.remainingQuantity orderId

/-- The four forms of an answer. -/
inductive AnswerForm where
  | rejected
  | cancelled
  | accepted
  | replaced

/-- The form describes the events with which a command was answered. -/
def AnswerForm.Describes (command : OrderCommandRecordV1)
    (events : List ExecutionEventRecordV1) (after : OrderBook) : AnswerForm → Prop
  | rejected => ∃ event, events = [event] ∧
      event.eventType = ExecutionEventType.orderRejected.code
  | cancelled => decodeCommandType command.commandType = some .cancelOrder ∧
      ∃ event, events = [event] ∧ event.eventType = ExecutionEventType.orderCancelled.code
  | accepted => decodeCommandType command.commandType = some .newOrder ∧
      AnswersAccepted events command.quantityLots.toInt command.orderId after
  | replaced => decodeCommandType command.commandType = some .replaceOrder ∧
      ∃ event rest, events = event :: rest ∧
        event.eventType = ExecutionEventType.orderCancelled.code ∧
        AnswersAccepted rest command.quantityLots.toInt command.replacementOrderId after

/-! ## The arithmetic of an accepted order -/

/-- The quantity traded in the first trades is what the first shares take. -/
theorem tradedQuantity_take {trades : List ExecutionEventRecordV1}
    {shares : List (Share RestingOrder ℤ)}
    (hterms : trades.map tradeTerms = shares.map shareTerms) (n : ℕ) :
    tradedQuantity (trades.take n) = ((shares.take n).map Share.quantity).sum := by
  have h := congrArg (fun terms => (terms.take n).map fun t => t.2.2.1) hterms
  simp only [← List.map_take, List.map_map] at h
  exact congrArg List.sum h

/-- The trades cover what the loop has not left over. -/
theorem MatchedGreedily.tradedQuantity_eq {book matched : OrderBook}
    {command : OrderCommandRecordV1} {remaining : Int64} {trades : List ExecutionEventRecordV1}
    (hmatched : MatchedGreedily book command remaining trades matched) :
    tradedQuantity trades = command.quantityLots.toInt - remaining.toInt := by
  have htake := tradedQuantity_take hmatched.terms trades.length
  have hlength : trades.length = (book.shares command).length := by
    simpa using congrArg List.length hmatched.terms
  rw [List.take_length, hlength, List.take_length] at htake
  rw [htake, hmatched.remaining, eq_sub_iff_add_eq]
  exact sum_greedyShares_add_left

/-- Every trade carries the terms of its share. -/
theorem MatchedGreedily.trade_terms {book matched : OrderBook} {command : OrderCommandRecordV1}
    {remaining : Int64} {trades : List ExecutionEventRecordV1}
    (hmatched : MatchedGreedily book command remaining trades matched)
    (hbook : book.moment.WellFormed) {k : ℕ} {trade : ExecutionEventRecordV1}
    (htrade : trades[k]? = some trade) :
    0 < trade.quantityLots.toInt ∧ trade.remainingQuantityLots.toInt =
      command.quantityLots.toInt - tradedQuantity (trades.take (k + 1)) := by
  have hshare : ((book.shares command).map shareTerms)[k]? = some (tradeTerms trade) := by
    rw [← hmatched.terms, List.getElem?_map, htrade, Option.map_some]
  rw [List.getElem?_map, Option.map_eq_some_iff] at hshare
  obtain ⟨share, hk, hterms⟩ := hshare
  have hquantity : share.quantity = trade.quantityLots.toInt := congrArg (fun t => t.2.2.1) hterms
  have hleft : share.left = trade.remainingQuantityLots.toInt := congrArg (fun t => t.2.2.2) hterms
  have hoffers : ∀ o ∈ reached (incomingSide command).opposite command.priceTicks
      (book.levels (incomingSide command).opposite), 0 < o.offer := by
    intro o ho
    obtain ⟨level, hlevel, ho⟩ := mem_queued.mp ((reached_isPrefix _ _ _).subset ho)
    exact RestingOrder.offer_pos ((hbook.level _ level hlevel).order o ho).remaining
  constructor
  · rw [← hquantity]
    exact greedyShares_quantity_pos hoffers share (List.mem_of_getElem? hk)
  · rw [← hleft, tradedQuantity_take hmatched.terms]
    exact greedyShares_left_eq k hk

/-- Some trades of positive quantities trade something. -/
theorem tradedQuantity_pos {trades : List ExecutionEventRecordV1}
    (hpos : ∀ trade ∈ trades, 0 < trade.quantityLots.toInt) (hne : trades ≠ []) :
    0 < tradedQuantity trades := by
  refine List.sum_pos _ ?_ (mt List.map_eq_nil_iff.mp hne)
  intro quantity hmem
  obtain ⟨trade, htrade, rfl⟩ := List.mem_map.mp hmem
  exact hpos trade htrade

/-- The loop leaves something between nothing and the whole quantity, and the whole
quantity exactly when it has not traded. -/
theorem MatchedGreedily.remaining_bounds {book matched : OrderBook}
    {command : OrderCommandRecordV1} {remaining : Int64} {trades : List ExecutionEventRecordV1}
    (hmatched : MatchedGreedily book command remaining trades matched)
    (hbook : book.moment.WellFormed) (hquantity : 0 < command.quantityLots) :
    0 ≤ remaining.toInt ∧ remaining.toInt ≤ command.quantityLots.toInt ∧
      (remaining = command.quantityLots ↔ trades = []) := by
  have htraded := hmatched.tradedQuantity_eq
  have hnonneg : 0 ≤ remaining.toInt := by
    rw [hmatched.remaining]
    exact greedyLeft_nonneg (FixedWidth.pos_iff.mp hquantity).le
  have hpos : ∀ trade ∈ trades, 0 < trade.quantityLots.toInt := by
    intro trade hmem
    obtain ⟨k, hk⟩ := List.mem_iff_getElem?.mp hmem
    exact (hmatched.trade_terms hbook hk).1
  rw [← Int64.toInt_inj]
  by_cases hnone : trades = []
  · have hzero : tradedQuantity trades = 0 := by rw [hnone]; rfl
    exact ⟨hnonneg, by omega, iff_of_true (by omega) hnone⟩
  · have hsome := tradedQuantity_pos hpos hnone
    exact ⟨hnonneg, by omega, iff_of_false (by omega) hnone⟩

/-- The last event says what became of the order. -/
theorem MatchedGreedily.settleIncoming_carries {book matched : OrderBook}
    {command : OrderCommandRecordV1} {remaining : Int64} {trades : List ExecutionEventRecordV1}
    (hmatched : MatchedGreedily book command remaining trades matched)
    (hbook : book.moment.WellFormed) (hquantity : 0 < command.quantityLots) :
    ∃ last, (matched.settleIncoming command remaining).1 = [last] ∧
      last.remainingQuantityLots = remaining ∧
      last.Carries
        (if remaining = 0 then .orderFullyFilled
          else if remaining = command.quantityLots then .orderRested else .orderPartiallyFilled)
        (if remaining = 0 then command.quantityLots.toInt else tradedQuantity trades)
        remaining.toInt := by
  by_cases hzero : remaining = 0
  · unfold OrderBook.settleIncoming
    simp only [if_pos hzero]
    exact ⟨_, rfl, hzero.symm, rfl, rfl, by rw [hzero]; rfl⟩
  · obtain ⟨hnonneg, hle, -⟩ := hmatched.remaining_bounds hbook hquantity
    rw [matched.settleIncoming_of_ne_zero command hzero, if_neg hzero, if_neg hzero]
    refine ⟨_, rfl, rfl, ?_, ?_, rfl⟩
    · change (if remaining ≠ command.quantityLots then _ else _ : ExecutionEventType).code = _
      rw [ite_not]
    · rw [hmatched.tradedQuantity_eq]
      exact FixedWidth.toInt_sub_of_le hnonneg hle

/-- Afterwards the book holds for the new order what its matching has left. -/
theorem MatchedGreedily.remainingQuantity_eq {book matched settled : OrderBook}
    {command : OrderCommandRecordV1} {remaining : Int64} {trades : List ExecutionEventRecordV1}
    (hmatched : MatchedGreedily book command remaining trades matched)
    (hsettled : SettledGreedily book command settled) :
    settled.remainingQuantity command.orderId = remaining := by
  have hleft : Int64.ofInt (book.leftover command) = remaining := by
    rw [← hmatched.remaining, Int64.ofInt_toInt]
  unfold OrderBook.remainingQuantity
  rw [hsettled.index, if_pos rfl]
  by_cases hzero : book.leftover command = 0
  · rw [if_pos hzero, ← hleft, hzero]
    rfl
  · rw [if_neg hzero, hleft]
    rfl

/-- A valid new order is answered in the form of accepted orders. -/
theorem NewOrderValid.answersAccepted {book : OrderBook} {command : OrderCommandRecordV1}
    (hvalid : NewOrderValid book command) (hbook : book.moment.WellFormed) :
    AnswersAccepted (book.applyNewOrder command).1 command.quantityLots.toInt command.orderId
      (book.applyNewOrder command).2 := by
  have hmatched := hvalid.matchedGreedily hbook
  have hsettled := hmatched.settle hbook hvalid
  obtain ⟨last, hlast, hremaining, hcarries⟩ :=
    hmatched.settleIncoming_carries hbook hvalid.quantity
  obtain ⟨hnonneg, hle, hnone⟩ := hmatched.remaining_bounds hbook hvalid.quantity
  have htraded := hmatched.tradedQuantity_eq
  have hpos := FixedWidth.pos_iff.mp hvalid.quantity
  rw [hvalid.applyNewOrder_eq]
  refine ⟨_, _, last, by rw [hlast], ⟨hpos, ⟨rfl, rfl, rfl⟩, fun k trade htrade => ?_, ?_, ?_⟩, ?_⟩
  · exact ⟨OrderBook.isTrade_of_mem_matchIncoming (List.mem_of_getElem? htrade),
      hmatched.trade_terms hbook htrade⟩
  · by_cases hzero : ((book.acceptIncoming command).2.matchIncoming command).1 = 0
    · simp only [if_pos hzero] at hcarries
      rw [hzero] at hnone hcarries
      refine Or.inr (Or.inl ⟨fun hempty => ?_, hcarries⟩)
      exact absurd (hnone.mpr hempty) (ne_of_lt hvalid.quantity)
    · simp only [if_neg hzero] at hcarries
      by_cases hall :
          ((book.acceptIncoming command).2.matchIncoming command).1 = command.quantityLots
      · simp only [if_pos hall] at hcarries
        have hempty := hnone.mp hall
        rw [hall, hempty] at hcarries
        exact Or.inl ⟨hempty, hcarries⟩
      · simp only [if_neg hall] at hcarries
        have hsome : 0 < ((book.acceptIncoming command).2.matchIncoming command).1.toInt := by
          rw [FixedWidth.eq_zero_iff] at hzero
          omega
        have hpart : ((book.acceptIncoming command).2.matchIncoming command).1.toInt <
            command.quantityLots.toInt := by
          rw [← Int64.toInt_inj] at hall
          omega
        rw [htraded] at hcarries ⊢
        rw [sub_sub_cancel]
        exact Or.inr (Or.inr ⟨mt hnone.mpr hall, by omega, hsome, hcarries⟩)
  · rw [hcarries.kind, ExecutionEventType.code_inj, htraded, sub_eq_self, ← FixedWidth.eq_zero_iff]
    split
    · exact iff_of_true rfl (by assumption)
    · refine iff_of_false ?_ (by assumption)
      split <;> decide
  · rw [hremaining, hmatched.remainingQuantity_eq hsettled]

/-! ## The form of an answer -/

/-- The kind of the first event of a form. -/
def AnswerForm.firstKind : AnswerForm → ExecutionEventType
  | rejected => .orderRejected
  | cancelled => .orderCancelled
  | accepted => .orderAccepted
  | replaced => .orderCancelled

theorem AnswerForm.Describes.head {command : OrderCommandRecordV1}
    {events : List ExecutionEventRecordV1} {after : OrderBook} {form : AnswerForm}
    (h : form.Describes command events after) :
    events.head?.map ExecutionEventRecordV1.eventType = some form.firstKind.code := by
  cases form with
  | rejected =>
    obtain ⟨event, rfl, hkind⟩ := h
    exact congrArg some hkind
  | cancelled =>
    obtain ⟨-, event, rfl, hkind⟩ := h
    exact congrArg some hkind
  | accepted =>
    obtain ⟨-, event, trades, last, rfl, hanswer, -⟩ := h
    exact congrArg some hanswer.accepted.kind
  | replaced =>
    obtain ⟨-, event, rest, rfl, hkind, -⟩ := h
    exact congrArg some hkind

/-- An answer has one form at most. -/
theorem AnswerForm.Describes.unique {command : OrderCommandRecordV1}
    {events : List ExecutionEventRecordV1} {after : OrderBook} {form form' : AnswerForm}
    (h : form.Describes command events after) (h' : form'.Describes command events after) :
    form = form' := by
  have hfirst : form.firstKind = form'.firstKind :=
    ExecutionEventType.code_injective (Option.some.inj (h.head.symm.trans h'.head))
  -- a cancellation and a replacement begin alike and answer different commands
  cases form <;> cases form' <;>
    first
    | rfl
    | cases h.1.symm.trans h'.1
    | cases hfirst

/-- A refused command is answered by its rejection. -/
theorem OrderBook.reject_describes (book : OrderBook) (command : OrderCommandRecordV1)
    (reason : RejectionReason) :
    AnswerForm.rejected.Describes command (book.reject command reason).1
      (book.reject command reason).2 := ⟨_, rfl, rfl⟩

theorem OrderBook.applyNewOrder_describes {book : OrderBook} (hbook : book.moment.WellFormed)
    {command : OrderCommandRecordV1}
    (hkind : decodeCommandType command.commandType = some .newOrder) :
    ∃ form : AnswerForm, form.Describes command (book.applyNewOrder command).1
      (book.applyNewOrder command).2 := by
  by_cases hnone : book.validateNewOrder command = .none
  · have hvalid := (book.validateNewOrder_eq_none_iff command).mp hnone
    exact ⟨.accepted, hkind, hvalid.answersAccepted hbook⟩
  · unfold applyNewOrder
    rw [if_pos hnone]
    exact ⟨.rejected, book.reject_describes command _⟩

theorem OrderBook.applyCancelOrder_describes (book : OrderBook) {command : OrderCommandRecordV1}
    (hkind : decodeCommandType command.commandType = some .cancelOrder) :
    ∃ form : AnswerForm, form.Describes command (book.applyCancelOrder command).1
      (book.applyCancelOrder command).2 := by
  unfold applyCancelOrder
  rw [if_neg (not_not.mpr hkind)]
  split
  · exact ⟨.rejected, book.reject_describes command _⟩
  · split
    · exact ⟨.rejected, book.reject_describes command _⟩
    · exact ⟨.cancelled, hkind, _, rfl, rfl⟩

theorem OrderBook.applyReplaceOrder_describes {book : OrderBook} (hbook : book.moment.WellFormed)
    {command : OrderCommandRecordV1}
    (hkind : decodeCommandType command.commandType = some .replaceOrder) :
    ∃ form : AnswerForm, form.Describes command (book.applyReplaceOrder command).1
      (book.applyReplaceOrder command).2 := by
  by_cases hnone : book.validateReplaceOrder command = .none
  · obtain ⟨o, hvalid⟩ := replaceOrderValid_of_validate hnone
    have hwf := (cancelled_step hbook command hvalid.active).wellFormed hbook
    have hanswer := (hvalid.newOrderValid hbook).answersAccepted hwf
    rw [hvalid.applyReplaceOrder_eq hnone]
    exact ⟨.replaced, hkind, _, _, rfl, rfl, hanswer⟩
  · unfold applyReplaceOrder
    rw [if_pos hnone]
    exact ⟨.rejected, book.reject_describes command _⟩

/-- In every reachable state every command is answered in exactly one of four forms: a
rejection, a cancellation, the answer to an accepted order, or, for a replacement, a
cancellation followed by the answer to an accepted order. -/
theorem answers_follow_grammar (firstEventSequence : UInt64)
    (earlier : List OrderCommandRecordV1) (command : OrderCommandRecordV1) :
    let engine := ((InstrumentEngine.create firstEventSequence).applyAll earlier).2
    ∃! form : AnswerForm, form.Describes command (engine.apply command).1
      (engine.apply command).2.orderBook := by
  intro engine
  have hwf := (InstrumentEngine.reachable_applyAll firstEventSequence earlier).wellFormed
  have hform : ∃ form : AnswerForm, form.Describes command (engine.apply command).1
      (engine.apply command).2.orderBook := by
    unfold InstrumentEngine.apply OrderBook.dispatch
    cases hkind : decodeCommandType command.commandType with
    | none => exact ⟨.rejected, engine.orderBook.reject_describes command _⟩
    | some kind =>
      cases kind with
      | newOrder => exact OrderBook.applyNewOrder_describes hwf hkind
      | cancelOrder => exact engine.orderBook.applyCancelOrder_describes hkind
      | replaceOrder => exact OrderBook.applyReplaceOrder_describes hwf hkind
  obtain ⟨form, hdescribes⟩ := hform
  exact ⟨form, hdescribes, fun form' h => h.unique hdescribes⟩

end MatchingEngine
