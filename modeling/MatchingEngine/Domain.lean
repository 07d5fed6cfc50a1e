import Mathlib.Data.List.Basic

/-!
# Durable commands and events

The records of `domain/order_command_record.hpp` and
`domain/execution_event_record.hpp`, and the numeric enumerations of
`domain/matching_types.hpp`. Enumeration fields are raw 16-bit integers in the
records, as they are on disk; the core decodes them before use.
-/

namespace MatchingEngine

/-- Command kinds accepted by the matcher. -/
inductive CommandType where
  | newOrder
  | cancelOrder
  | replaceOrder
  deriving DecidableEq

/-- The durable number of a command kind. -/
def CommandType.code : CommandType → UInt16
  | .newOrder => 1
  | .cancelOrder => 2
  | .replaceOrder => 3

/-- Order side. -/
inductive Side where
  | buy
  | sell
  deriving DecidableEq

/-- The durable number of a side. -/
def Side.code : Side → UInt16
  | .buy => 1
  | .sell => 2

/-- The side an order of this side trades against. -/
def Side.opposite : Side → Side
  | .buy => .sell
  | .sell => .buy

/-- Time-in-force values. -/
inductive TimeInForce where
  | gtc
  deriving DecidableEq

/-- Event kinds emitted by matching. -/
inductive ExecutionEventType where
  | orderAccepted
  | orderRejected
  | tradeExecuted
  | orderRested
  | orderPartiallyFilled
  | orderFullyFilled
  | orderCancelled
  deriving DecidableEq

/-- The durable number of an event kind. -/
def ExecutionEventType.code : ExecutionEventType → UInt16
  | .orderAccepted => 1
  | .orderRejected => 2
  | .tradeExecuted => 3
  | .orderRested => 4
  | .orderPartiallyFilled => 5
  | .orderFullyFilled => 6
  | .orderCancelled => 7

/-- Why a command was refused. -/
inductive RejectionReason where
  | none
  | unsupportedCommand
  | invalidSide
  | invalidPrice
  | invalidQuantity
  | duplicateOrderId
  | unsupportedTimeInForce
  | unknownOrderId
  | instrumentMismatch
  | replaceWouldDuplicateOrderId
  | invalidReplacementOrderId
  deriving DecidableEq

/-- The durable number of a rejection reason. -/
def RejectionReason.code : RejectionReason → UInt16
  | .none => 0
  | .unsupportedCommand => 1
  | .invalidSide => 2
  | .invalidPrice => 3
  | .invalidQuantity => 4
  | .duplicateOrderId => 5
  | .unsupportedTimeInForce => 6
  | .unknownOrderId => 7
  | .instrumentMismatch => 8
  | .replaceWouldDuplicateOrderId => 9
  | .invalidReplacementOrderId => 10

/-- One normalized order command, `domain::OrderCommandRecordV1`. -/
structure OrderCommandRecordV1 where
  commandSequence : UInt64 := 0
  sourceIngressEpoch : UInt64 := 0
  sourceIngressSequence : UInt64 := 0
  orderId : UInt64 := 0
  replacementOrderId : UInt64 := 0
  clientId : UInt64 := 0
  priceTicks : Int64 := 0
  quantityLots : Int64 := 0
  instrumentId : UInt32 := 0
  commandType : UInt16 := 0
  side : UInt16 := 0
  timeInForce : UInt16 := 0
  reserved : UInt16 := 0
  deriving DecidableEq

/-- One fact emitted by matching, `domain::ExecutionEventRecordV1`. -/
structure ExecutionEventRecordV1 where
  eventSequence : UInt64 := 0
  commandSequence : UInt64 := 0
  sourceIngressEpoch : UInt64 := 0
  sourceIngressSequence : UInt64 := 0
  orderId : UInt64 := 0
  contraOrderId : UInt64 := 0
  tradeId : UInt64 := 0
  priceTicks : Int64 := 0
  quantityLots : Int64 := 0
  remainingQuantityLots : Int64 := 0
  instrumentId : UInt32 := 0
  eventType : UInt16 := 0
  side : UInt16 := 0
  rejectionReason : UInt16 := 0
  reserved : UInt16 := 0
  deriving DecidableEq

/-- The event announces a trade. -/
def ExecutionEventRecordV1.IsTrade (event : ExecutionEventRecordV1) : Prop :=
  event.eventType = ExecutionEventType.tradeExecuted.code

instance (event : ExecutionEventRecordV1) : Decidable event.IsTrade :=
  inferInstanceAs (Decidable (_ = _))

/-- `decode_command_type`: unknown numbers decode to nothing. -/
def decodeCommandType (commandType : UInt16) : Option CommandType :=
  if commandType = CommandType.newOrder.code then some .newOrder
  else if commandType = CommandType.cancelOrder.code then some .cancelOrder
  else if commandType = CommandType.replaceOrder.code then some .replaceOrder
  else none

/-- The event kind a `switch` over a raw event number selects. -/
def decodeExecutionEventType (eventType : UInt16) : Option ExecutionEventType :=
  if eventType = ExecutionEventType.orderAccepted.code then some .orderAccepted
  else if eventType = ExecutionEventType.orderRejected.code then some .orderRejected
  else if eventType = ExecutionEventType.tradeExecuted.code then some .tradeExecuted
  else if eventType = ExecutionEventType.orderRested.code then some .orderRested
  else if eventType = ExecutionEventType.orderPartiallyFilled.code then some .orderPartiallyFilled
  else if eventType = ExecutionEventType.orderFullyFilled.code then some .orderFullyFilled
  else if eventType = ExecutionEventType.orderCancelled.code then some .orderCancelled
  else none

/-- `OrderBook::decode_side`. -/
def decodeSide (side : UInt16) : Option Side :=
  if side = Side.buy.code then some .buy
  else if side = Side.sell.code then some .sell
  else none

/-- `OrderBook::decode_time_in_force`. -/
def decodeTimeInForce (command : OrderCommandRecordV1) : Option TimeInForce :=
  if command.timeInForce = 1 then some .gtc else none

/-- A side number decodes to a side exactly when it is the number of that side. -/
theorem decodeSide_eq_some_iff {n : UInt16} {s : Side} : decodeSide n = some s ↔ n = s.code := by
  unfold decodeSide
  constructor
  · intro h
    split at h
    · cases h
      assumption
    · split at h
      · cases h
        assumption
      · cases h
  · rintro rfl
    cases s <;> rfl

@[simp] theorem Side.opposite_opposite (s : Side) : s.opposite.opposite = s := by
  cases s <;> rfl

theorem Side.opposite_ne (s : Side) : s.opposite ≠ s := by
  cases s <;> decide

/-- There are only the two sides of an order. -/
theorem Side.eq_or_eq_opposite (s t : Side) : t = s ∨ t = s.opposite := by
  cases s <;> cases t <;> simp [Side.opposite]

/-- Event kinds are told apart by their numbers. -/
theorem ExecutionEventType.code_injective : Function.Injective ExecutionEventType.code := by
  intro a b
  cases a <;> cases b <;> decide

/-- The two sides have different numbers. -/
theorem Side.code_injective : Function.Injective Side.code := by
  intro s t
  cases s <;> cases t <;> decide

@[simp] theorem ExecutionEventType.code_inj {a b : ExecutionEventType} :
    a.code = b.code ↔ a = b := code_injective.eq_iff

/-- An event of another kind is not a trade. -/
theorem not_isTrade_of_eventType {event : ExecutionEventRecordV1} (t : ExecutionEventType)
    (htype : event.eventType = t.code) (ht : t ≠ .tradeExecuted) : ¬ event.IsTrade :=
  fun h => ht (ExecutionEventType.code_injective (htype.symm.trans h))

/-- The number of an event kind selects that kind. -/
@[simp] theorem decodeExecutionEventType_code (t : ExecutionEventType) :
    decodeExecutionEventType t.code = some t := by
  cases t <;> simp [decodeExecutionEventType]

end MatchingEngine
