import Mathlib.Data.List.Nodup
import MatchingEngine.Domain
import MatchingEngine.Library.Text

/-!
# Printed commands and events

`app/event_dump.cpp`. Everything printed on a line is a word of the form `key=value`, so a line
can be taken apart again: what was printed is compared with what a reader learns from it.
-/

namespace App

open MatchingEngine Text

namespace EventDump

/-! ## Names of enumerated values -/

/-- The texts of `command_type`, with that of an unknown number. -/
def commandTypeName : Option CommandType → List UInt8
  | some .newOrder => ascii "NEW"
  | some .cancelOrder => ascii "CANCEL"
  | some .replaceOrder => ascii "REPLACE"
  | none => ascii "UNKNOWN"

/-- `command_type`. -/
def commandType (value : UInt16) : List UInt8 := commandTypeName (decodeCommandType value)

/-- The texts of `event_type`, with that of an unknown number. -/
def eventTypeName : Option ExecutionEventType → List UInt8
  | some .orderAccepted => ascii "OrderAccepted"
  | some .orderRejected => ascii "OrderRejected"
  | some .tradeExecuted => ascii "TradeExecuted"
  | some .orderRested => ascii "OrderRested"
  | some .orderPartiallyFilled => ascii "OrderPartiallyFilled"
  | some .orderFullyFilled => ascii "OrderFullyFilled"
  | some .orderCancelled => ascii "OrderCancelled"
  | none => ascii "UnknownEvent"

/-- `event_type`. -/
def eventType (value : UInt16) : List UInt8 := eventTypeName (decodeExecutionEventType value)

/-- The texts of `side`, with that of an unknown number. -/
def sideName : Option Side → List UInt8
  | some .buy => ascii "BUY"
  | some .sell => ascii "SELL"
  | none => ascii "NA"

/-- `side`. -/
def side (value : UInt16) : List UInt8 := sideName (decodeSide value)

/-- The reason a `switch` over a raw number selects. -/
def decodeRejectionReason (rejectionReason : UInt16) : Option RejectionReason :=
  [.none, .unsupportedCommand, .invalidSide, .invalidPrice, .invalidQuantity, .duplicateOrderId,
    .unsupportedTimeInForce, .unknownOrderId, .instrumentMismatch, .replaceWouldDuplicateOrderId,
    .invalidReplacementOrderId].find? fun reason => rejectionReason = reason.code

/-- The texts of `rejection_reason`, with that of an unknown number. -/
def rejectionReasonName : Option RejectionReason → List UInt8
  | some .none => ascii "None"
  | some .unsupportedCommand => ascii "UnsupportedCommand"
  | some .invalidSide => ascii "InvalidSide"
  | some .invalidPrice => ascii "InvalidPrice"
  | some .invalidQuantity => ascii "InvalidQuantity"
  | some .duplicateOrderId => ascii "DuplicateOrderId"
  | some .unsupportedTimeInForce => ascii "UnsupportedTimeInForce"
  | some .unknownOrderId => ascii "UnknownOrderId"
  | some .instrumentMismatch => ascii "InstrumentMismatch"
  | some .replaceWouldDuplicateOrderId => ascii "ReplaceWouldDuplicateOrderId"
  | some .invalidReplacementOrderId => ascii "InvalidReplacementOrderId"
  | none => ascii "UnknownReason"

/-- `rejection_reason`. -/
def rejectionReason (value : UInt16) : List UInt8 :=
  rejectionReasonName (decodeRejectionReason value)

end EventDump

/-! ## Lines -/

/-- `print_command`. -/
def printCommand (command : OrderCommandRecordV1) : List UInt8 :=
  ascii "cmd_seq=" ++ decimal command.commandSequence.toNat ++
    ascii " type=" ++ EventDump.commandType command.commandType ++
    ascii " instrument=" ++ decimal command.instrumentId.toNat ++
    ascii " client=" ++ decimal command.clientId.toNat ++
    ascii " order=" ++ decimal command.orderId.toNat ++
    (if command.replacementOrderId ≠ 0 then
      ascii " replacement=" ++ decimal command.replacementOrderId.toNat else []) ++
    (if command.side ≠ 0 then ascii " side=" ++ EventDump.side command.side else []) ++
    (if command.priceTicks ≠ 0 ∨ command.quantityLots ≠ 0 then
      ascii " price=" ++ decimalInt command.priceTicks.toInt ++
      ascii " qty=" ++ decimalInt command.quantityLots.toInt else []) ++
    [newline]

/-- `print_event`. -/
def printEvent (event : ExecutionEventRecordV1) : List UInt8 :=
  ascii "event_seq=" ++ decimal event.eventSequence.toNat ++
    ascii " cmd_seq=" ++ decimal event.commandSequence.toNat ++
    ascii " type=" ++ EventDump.eventType event.eventType ++
    ascii " instrument=" ++ decimal event.instrumentId.toNat ++
    ascii " order=" ++ decimal event.orderId.toNat ++
    (if event.contraOrderId ≠ 0 then
      ascii " contra=" ++ decimal event.contraOrderId.toNat else []) ++
    (if event.tradeId ≠ 0 then ascii " trade=" ++ decimal event.tradeId.toNat else []) ++
    ascii " side=" ++ EventDump.side event.side ++
    ascii " price=" ++ decimalInt event.priceTicks.toInt ++
    ascii " qty=" ++ decimalInt event.quantityLots.toInt ++
    ascii " remaining=" ++ decimalInt event.remainingQuantityLots.toInt ++
    (if event.rejectionReason ≠ 0 then
      ascii " reason=" ++ EventDump.rejectionReason event.rejectionReason else []) ++
    [newline]

/-! ## What a line says -/

/-- What can be read off a printed command. -/
structure PrintedCommand where
  commandSequence : UInt64
  commandType : Option CommandType
  instrumentId : UInt32
  clientId : UInt64
  orderId : UInt64
  replacementOrderId : UInt64
  /-- Nothing for the number zero, which is not printed. -/
  side : Option (Option Side)
  priceTicks : Int64
  quantityLots : Int64
  deriving DecidableEq

/-- What can be read off a printed event. -/
structure PrintedEvent where
  eventSequence : UInt64
  commandSequence : UInt64
  eventType : Option ExecutionEventType
  instrumentId : UInt32
  orderId : UInt64
  contraOrderId : UInt64
  tradeId : UInt64
  side : Option Side
  priceTicks : Int64
  quantityLots : Int64
  remainingQuantityLots : Int64
  rejectionReason : Option RejectionReason
  deriving DecidableEq

/-- A command as far as it is printed. -/
def PrintedCommand.of (command : OrderCommandRecordV1) : PrintedCommand where
  commandSequence := command.commandSequence
  commandType := decodeCommandType command.commandType
  instrumentId := command.instrumentId
  clientId := command.clientId
  orderId := command.orderId
  replacementOrderId := command.replacementOrderId
  side := if command.side ≠ 0 then some (decodeSide command.side) else none
  priceTicks := command.priceTicks
  quantityLots := command.quantityLots

/-- An event as far as it is printed. -/
def PrintedEvent.of (event : ExecutionEventRecordV1) : PrintedEvent where
  eventSequence := event.eventSequence
  commandSequence := event.commandSequence
  eventType := decodeExecutionEventType event.eventType
  instrumentId := event.instrumentId
  orderId := event.orderId
  contraOrderId := event.contraOrderId
  tradeId := event.tradeId
  side := decodeSide event.side
  priceTicks := event.priceTicks
  quantityLots := event.quantityLots
  remainingQuantityLots := event.remainingQuantityLots
  rejectionReason := EventDump.decodeRejectionReason event.rejectionReason

namespace EventDump

/-! ## Names are read back -/

/-- Names are read back when the known values have different ones. -/
theorem injective_of_nodup {α : Type} {name : α → List UInt8} (known : List α)
    (hknown : ∀ value, value ∈ known) (hdistinct : (known.map name).Nodup) :
    Function.Injective name := fun value value' h =>
  List.inj_on_of_nodup_map hdistinct (hknown value) (hknown value') h

theorem commandTypeName_injective : Function.Injective commandTypeName :=
  injective_of_nodup [none, some .newOrder, some .cancelOrder, some .replaceOrder]
    (by rintro (_ | _ | _) <;> decide) (by decide)

theorem eventTypeName_injective : Function.Injective eventTypeName :=
  injective_of_nodup
    [none, some .orderAccepted, some .orderRejected, some .tradeExecuted, some .orderRested,
      some .orderPartiallyFilled, some .orderFullyFilled, some .orderCancelled]
    (by rintro (_ | _ | _) <;> decide) (by decide)

theorem sideName_injective : Function.Injective sideName :=
  injective_of_nodup [none, some .buy, some .sell] (by rintro (_ | _ | _) <;> decide) (by decide)

theorem rejectionReasonName_injective : Function.Injective rejectionReasonName :=
  injective_of_nodup
    [none, some .none, some .unsupportedCommand, some .invalidSide, some .invalidPrice,
      some .invalidQuantity, some .duplicateOrderId, some .unsupportedTimeInForce,
      some .unknownOrderId, some .instrumentMismatch, some .replaceWouldDuplicateOrderId,
      some .invalidReplacementOrderId]
    (by rintro (_ | _ | _) <;> decide) (by decide)

/-! ## The words of a line -/

/-- One word of a line. -/
def word (key : List UInt8) (value : List UInt8) : List UInt8 := key ++ value

/-- A word that is printed only if there is a value. -/
def optional (key : List UInt8) (value : Option (List UInt8)) : List (List UInt8) :=
  (value.map (word key)).toList

/-- An identifier that is printed unless it is zero. -/
def nonzero (id : UInt64) : Option (List UInt8) :=
  if id ≠ 0 then some (decimal id.toNat) else none

/-- The side of a command, which is printed unless its number is zero. -/
def nonzeroSide (value : UInt16) : Option (List UInt8) :=
  if value ≠ 0 then some (side value) else none

/-- The reason of a rejection, which is printed unless its number is zero. -/
def nonzeroReason (value : UInt16) : Option (List UInt8) :=
  if value ≠ 0 then some (rejectionReason value) else none

@[simp] theorem word_inj {key value value' : List UInt8} :
    word key value = word key value' ↔ value = value' :=
  ⟨List.append_cancel_left, fun h => by rw [h]⟩

@[simp] theorem nonzero_inj {id id' : UInt64} : nonzero id = nonzero id' ↔ id = id' := by
  refine ⟨fun h => ?_, fun h => by rw [h]⟩
  unfold nonzero at h
  by_cases hzero : id = 0 <;> by_cases hzero' : id' = 0
  · rw [hzero, hzero']
  · simp [hzero, hzero'] at h
  · simp [hzero, hzero'] at h
  · rw [if_pos hzero, if_pos hzero'] at h
    exact UInt64.toNat_inj.mp (decimal_injective (Option.some.inj h))

/-- The line does not go on with this key. -/
def Other (key : List UInt8) (rest : List (List UInt8)) : Prop :=
  ∀ next ∈ rest.head?, ¬ key <+: next

/-- A key is recognised by its first byte. -/
theorem other_word {key key' value : List UInt8} {rest : List (List UInt8)}
    (h : ∃ byte ∈ key.head?, ∃ byte' ∈ key'.head?, byte ≠ byte') :
    Other key (word key' value :: rest) := by
  obtain ⟨byte, hbyte, byte', hbyte', hne⟩ := h
  obtain ⟨more, rfl⟩ := List.head?_eq_some_iff.mp hbyte
  obtain ⟨more', rfl⟩ := List.head?_eq_some_iff.mp hbyte'
  intro next hnext hprefixed
  cases hnext
  exact hne (List.cons_prefix_cons.mp hprefixed).1

theorem other_optional {key key' : List UInt8} {value : Option (List UInt8)}
    {rest : List (List UInt8)} (h : ∃ byte ∈ key.head?, ∃ byte' ∈ key'.head?, byte ≠ byte')
    (hrest : Other key rest) : Other key (optional key' value ++ rest) := by
  cases value with
  | none => exact hrest
  | some text => exact other_word h

/-- Whether an optional word is there is seen at its key, which the next word does not have. -/
theorem optional_append_inj {key : List UInt8} {value value' : Option (List UInt8)}
    {rest rest' : List (List UInt8)} (hrest : Other key rest) (hrest' : Other key rest') :
    optional key value ++ rest = optional key value' ++ rest' ↔ value = value' ∧ rest = rest' := by
  refine ⟨fun h => ?_, fun h => by rw [h.1, h.2]⟩
  cases value with
  | none =>
    cases value' with
    | none => exact ⟨rfl, h⟩
    | some text' =>
      have hhead : rest = word key text' :: rest' := h
      exact absurd (List.prefix_append key text') (hrest _ (by rw [hhead]; rfl))
  | some text =>
    cases value' with
    | none =>
      have hhead : word key text :: rest = rest' := h
      exact absurd (List.prefix_append key text) (hrest' _ (by rw [← hhead]; rfl))
    | some text' =>
      obtain ⟨hword, hrests⟩ := List.cons.inj h
      exact ⟨congrArg some (word_inj.mp hword), hrests⟩

/-- The words of a printed command. -/
def commandWords (command : OrderCommandRecordV1) : List (List UInt8) :=
  word (ascii "cmd_seq=") (decimal command.commandSequence.toNat) ::
    word (ascii "type=") (commandType command.commandType) ::
    word (ascii "instrument=") (decimal command.instrumentId.toNat) ::
    word (ascii "client=") (decimal command.clientId.toNat) ::
    word (ascii "order=") (decimal command.orderId.toNat) ::
    (optional (ascii "replacement=") (nonzero command.replacementOrderId) ++
    (optional (ascii "side=") (nonzeroSide command.side) ++
    if command.priceTicks ≠ 0 ∨ command.quantityLots ≠ 0 then
      [word (ascii "price=") (decimalInt command.priceTicks.toInt),
        word (ascii "qty=") (decimalInt command.quantityLots.toInt)]
    else []))

/-- The words of a printed event. -/
def eventWords (event : ExecutionEventRecordV1) : List (List UInt8) :=
  word (ascii "event_seq=") (decimal event.eventSequence.toNat) ::
    word (ascii "cmd_seq=") (decimal event.commandSequence.toNat) ::
    word (ascii "type=") (eventType event.eventType) ::
    word (ascii "instrument=") (decimal event.instrumentId.toNat) ::
    word (ascii "order=") (decimal event.orderId.toNat) ::
    (optional (ascii "contra=") (nonzero event.contraOrderId) ++
    (optional (ascii "trade=") (nonzero event.tradeId) ++
    word (ascii "side=") (side event.side) ::
    word (ascii "price=") (decimalInt event.priceTicks.toInt) ::
    word (ascii "qty=") (decimalInt event.quantityLots.toInt) ::
    word (ascii "remaining=") (decimalInt event.remainingQuantityLots.toInt) ::
    optional (ascii "reason=") (nonzeroReason event.rejectionReason)))

theorem printCommand_eq (command : OrderCommandRecordV1) :
    printCommand command = spaced (commandWords command) ++ [newline] := by
  have hspace : ' '.toUInt8 = 32 := rfl
  unfold printCommand commandWords nonzero nonzeroSide
  by_cases hreplacement : command.replacementOrderId = 0 <;>
    by_cases hside : command.side = 0 <;>
      by_cases hterms : command.priceTicks ≠ 0 ∨ command.quantityLots ≠ 0 <;>
        simp [hreplacement, hside, hterms, hspace, spaced, word, optional, ascii]

theorem printEvent_eq (event : ExecutionEventRecordV1) :
    printEvent event = spaced (eventWords event) ++ [newline] := by
  have hspace : ' '.toUInt8 = 32 := rfl
  unfold printEvent eventWords nonzero nonzeroReason
  by_cases hcontra : event.contraOrderId = 0 <;> by_cases htrade : event.tradeId = 0 <;>
    by_cases hreason : event.rejectionReason = 0 <;>
      simp [hcontra, htrade, hreason, hspace, spaced, word, optional, ascii]

/-! ## Words are words -/

/-- A word of the line has a key and no spaces. -/
structure Proper (printed : List UInt8) : Prop where
  some : printed ≠ []
  solid : Solid printed

theorem solid_commandType (value : UInt16) : Solid (commandType value) := by
  unfold commandType
  rcases decodeCommandType value with _ | _ | _ <;> decide

theorem solid_eventType (value : UInt16) : Solid (eventType value) := by
  unfold eventType
  rcases decodeExecutionEventType value with _ | _ | _ <;> decide

theorem solid_side (value : UInt16) : Solid (side value) := by
  unfold side
  rcases decodeSide value with _ | _ | _ <;> decide

theorem solid_rejectionReason (value : UInt16) : Solid (rejectionReason value) := by
  unfold rejectionReason
  rcases decodeRejectionReason value with _ | _ | _ <;> decide

theorem proper_word {key value : List UInt8} (hkey : key ≠ [] ∧ Solid key) (hvalue : Solid value) :
    Proper (word key value) where
  some h := hkey.1 (List.append_eq_nil_iff.mp h).1
  solid := hkey.2.append hvalue

theorem proper_optional {key : List UInt8} {value : Option (List UInt8)}
    (hkey : key ≠ [] ∧ Solid key) (hvalue : ∀ text ∈ value, Solid text) :
    ∀ printed ∈ optional key value, Proper printed := by
  intro printed hprinted
  obtain ⟨text, htext, rfl⟩ := Option.map_eq_some_iff.mp (Option.mem_toList.mp hprinted)
  exact proper_word hkey (hvalue text htext)

theorem solid_nonzero (id : UInt64) : ∀ text ∈ nonzero id, Solid text := by
  intro text htext
  unfold nonzero at htext
  split at htext
  · exact Option.some.inj htext ▸ solid_decimal _
  · cases htext

theorem solid_nonzeroSide (value : UInt16) : ∀ text ∈ nonzeroSide value, Solid text := by
  intro text htext
  unfold nonzeroSide at htext
  split at htext
  · exact Option.some.inj htext ▸ solid_side _
  · cases htext

theorem solid_nonzeroReason (value : UInt16) : ∀ text ∈ nonzeroReason value, Solid text := by
  intro text htext
  unfold nonzeroReason at htext
  split at htext
  · exact Option.some.inj htext ▸ solid_rejectionReason _
  · cases htext

theorem proper_commandWords (command : OrderCommandRecordV1) :
    ∀ printed ∈ commandWords command, Proper printed := by
  unfold commandWords
  simp only [List.forall_mem_cons, List.forall_mem_append]
  refine ⟨proper_word (by decide) (solid_decimal _),
    proper_word (by decide) (solid_commandType _), proper_word (by decide) (solid_decimal _),
    proper_word (by decide) (solid_decimal _), proper_word (by decide) (solid_decimal _),
    proper_optional (by decide) (solid_nonzero _),
    proper_optional (by decide) (solid_nonzeroSide _), ?_⟩
  split
  · simp only [List.forall_mem_cons]
    exact ⟨proper_word (by decide) (solid_decimalInt _),
      proper_word (by decide) (solid_decimalInt _), List.forall_mem_nil _⟩
  · exact List.forall_mem_nil _

theorem proper_eventWords (event : ExecutionEventRecordV1) :
    ∀ printed ∈ eventWords event, Proper printed := by
  unfold eventWords
  simp only [List.forall_mem_cons, List.forall_mem_append]
  exact ⟨proper_word (by decide) (solid_decimal _), proper_word (by decide) (solid_decimal _),
    proper_word (by decide) (solid_eventType _), proper_word (by decide) (solid_decimal _),
    proper_word (by decide) (solid_decimal _), proper_optional (by decide) (solid_nonzero _),
    proper_optional (by decide) (solid_nonzero _), proper_word (by decide) (solid_side _),
    proper_word (by decide) (solid_decimalInt _), proper_word (by decide) (solid_decimalInt _),
    proper_word (by decide) (solid_decimalInt _),
    proper_optional (by decide) (solid_nonzeroReason _)⟩

/-- Records with equal dumps have equal words. -/
theorem words_eq_of_flatMap {α : Type} {print : α → List UInt8} {wordsOf : α → List (List UInt8)}
    (hprint : ∀ record, print record = spaced (wordsOf record) ++ [newline])
    (hproper : ∀ record, ∀ printed ∈ wordsOf record, Proper printed) {records records' : List α}
    (h : records.flatMap print = records'.flatMap print) :
    records.map wordsOf = records'.map wordsOf := by
  have hread : ∀ records : List α, (lines (records.flatMap print)).map words =
      records.map wordsOf := by
    intro records
    have hrows : ∀ row ∈ records.map wordsOf, ∀ printed ∈ row, Proper printed := by
      intro row hrow
      obtain ⟨record, -, rfl⟩ := List.mem_map.mp hrow
      exact hproper record
    have hlines := words_lines
      (fun row hrow printed hprinted => (hrows row hrow printed hprinted).solid)
      (fun row hrow printed hprinted => (hrows row hrow printed hprinted).some)
    rwa [List.flatMap_map, ← funext hprint] at hlines
  rw [← hread, h, hread]

/-! ## Words say what was printed -/

theorem commandType_eq_iff {value value' : UInt16} :
    commandType value = commandType value' ↔ decodeCommandType value = decodeCommandType value' :=
  commandTypeName_injective.eq_iff

theorem eventType_eq_iff {value value' : UInt16} : eventType value = eventType value' ↔
    decodeExecutionEventType value = decodeExecutionEventType value' :=
  eventTypeName_injective.eq_iff

theorem side_eq_iff {value value' : UInt16} :
    side value = side value' ↔ decodeSide value = decodeSide value' :=
  sideName_injective.eq_iff

theorem nonzeroSide_eq_iff {value value' : UInt16} : nonzeroSide value = nonzeroSide value' ↔
    (if value ≠ 0 then some (decodeSide value) else none) =
      if value' ≠ 0 then some (decodeSide value') else none := by
  unfold nonzeroSide
  split <;> split <;> simp [side_eq_iff]

/-- Only the number zero means that there is no reason. -/
theorem decodeRejectionReason_eq_none {value : UInt16} :
    decodeRejectionReason value = some .none ↔ value = 0 := by
  constructor
  · intro h
    unfold decodeRejectionReason at h
    have hcode := List.find?_some h
    exact of_decide_eq_true hcode
  · rintro rfl
    rfl

theorem nonzeroReason_eq_iff {value value' : UInt16} :
    nonzeroReason value = nonzeroReason value' ↔
      decodeRejectionReason value = decodeRejectionReason value' := by
  unfold nonzeroReason
  by_cases hzero : value = 0 <;> by_cases hzero' : value' = 0
  · simp [hzero, hzero']
  · refine iff_of_false (by simp [hzero, hzero']) fun h => ?_
    exact hzero' (decodeRejectionReason_eq_none.mp
      (h.symm.trans (decodeRejectionReason_eq_none.mpr hzero)))
  · refine iff_of_false (by simp [hzero, hzero']) fun h => ?_
    exact hzero (decodeRejectionReason_eq_none.mp
      (h.trans (decodeRejectionReason_eq_none.mpr hzero')))
  · rw [if_pos hzero, if_pos hzero', Option.some_inj]
    exact rejectionReasonName_injective.eq_iff

/-- Numbers are equal when they are printed alike. -/
theorem decimal_inj {n n' : ℕ} : decimal n = decimal n' ↔ n = n' :=
  ⟨decimal_injective, fun h => by rw [h]⟩

theorem decimalInt_inj {value value' : Int64} :
    decimalInt value.toInt = decimalInt value'.toInt ↔ value = value' :=
  ⟨fun h => Int64.toInt_inj.mp (decimalInt_injective h), fun h => by rw [h]⟩

/-- The words of an event are those of what can be read off it. -/
theorem eventWords_eq_iff {event event' : ExecutionEventRecordV1} :
    eventWords event = eventWords event' ↔ PrintedEvent.of event = PrintedEvent.of event' := by
  have hreason : ∀ value value', optional (ascii "reason=") (nonzeroReason value) =
      optional (ascii "reason=") (nonzeroReason value') ↔
        decodeRejectionReason value = decodeRejectionReason value' := by
    intro value value'
    have hempty : Other (ascii "reason=") [] := fun next hnext => by cases hnext
    rw [← nonzeroReason_eq_iff, ← List.append_nil (optional _ (nonzeroReason value)),
      ← List.append_nil (optional _ (nonzeroReason value')), optional_append_inj hempty hempty,
      and_iff_left rfl]
  unfold eventWords PrintedEvent.of
  rw [PrintedEvent.mk.injEq]
  simp only [List.cons.injEq]
  rw [optional_append_inj (other_optional (by decide) (other_word (by decide)))
      (other_optional (by decide) (other_word (by decide))),
    optional_append_inj (other_word (by decide)) (other_word (by decide))]
  simp only [List.cons.injEq, word_inj, nonzero_inj, hreason, decimal_inj, decimalInt_inj,
    UInt64.toNat_inj, UInt32.toNat_inj, eventType_eq_iff, side_eq_iff]

/-- The words of a command are those of what can be read off it. -/
theorem commandWords_eq_iff {command command' : OrderCommandRecordV1} :
    commandWords command = commandWords command' ↔
      PrintedCommand.of command = PrintedCommand.of command' := by
  have hother : ∀ {key : List UInt8} (terms : Prop) [Decidable terms] (price qty : Int64),
      (∃ byte ∈ key.head?, ∃ byte' ∈ (ascii "price=").head?, byte ≠ byte') →
        Other key (if terms then [word (ascii "price=") (decimalInt price.toInt),
          word (ascii "qty=") (decimalInt qty.toInt)] else []) := by
    intro key terms _ price qty h
    split
    · exact other_word h
    · exact fun next hnext => by cases hnext
  have hterms : ∀ price price' qty qty' : Int64,
      ((if price ≠ 0 ∨ qty ≠ 0 then [word (ascii "price=") (decimalInt price.toInt),
          word (ascii "qty=") (decimalInt qty.toInt)] else []) =
        if price' ≠ 0 ∨ qty' ≠ 0 then [word (ascii "price=") (decimalInt price'.toInt),
          word (ascii "qty=") (decimalInt qty'.toInt)] else []) ↔ price = price' ∧ qty = qty' := by
    intro price price' qty qty'
    split
    · rename_i h
      split
      · simp [decimalInt_inj]
      · rename_i h'
        refine iff_of_false (by simp) ?_
        rintro ⟨rfl, rfl⟩
        exact h' h
    · rename_i h
      split
      · rename_i h'
        refine iff_of_false (by simp) ?_
        rintro ⟨rfl, rfl⟩
        exact h h'
      · rename_i h'
        rw [not_or, not_not, not_not] at h h'
        exact iff_of_true rfl ⟨h.1.trans h'.1.symm, h.2.trans h'.2.symm⟩
  unfold commandWords PrintedCommand.of
  rw [PrintedCommand.mk.injEq]
  simp only [List.cons.injEq]
  rw [optional_append_inj (other_optional (by decide) (hother _ _ _ (by decide)))
      (other_optional (by decide) (hother _ _ _ (by decide))),
    optional_append_inj (hother _ _ _ (by decide)) (hother _ _ _ (by decide)), hterms]
  simp only [word_inj, nonzero_inj, decimal_inj, UInt64.toNat_inj, UInt32.toNat_inj,
    commandType_eq_iff, nonzeroSide_eq_iff]

/-- Records have equal dumps exactly when they agree in what can be read off them. -/
theorem flatMap_eq_iff {α β : Type} {print : α → List UInt8} {wordsOf : α → List (List UInt8)}
    {of : α → β} (hprint : ∀ record, print record = spaced (wordsOf record) ++ [newline])
    (hproper : ∀ record, ∀ printed ∈ wordsOf record, Proper printed)
    (hwords : ∀ {record record'}, wordsOf record = wordsOf record' ↔ of record = of record')
    {records records' : List α} :
    records.flatMap print = records'.flatMap print ↔ records.map of = records'.map of := by
  have hmaps : records.map wordsOf = records'.map wordsOf ↔ records.map of = records'.map of := by
    induction records generalizing records' with
    | nil => cases records' <;> simp
    | cons record records ih =>
      cases records' with
      | nil => simp
      | cons record' records' => simp [ih, hwords]
  rw [← hmaps]
  refine ⟨words_eq_of_flatMap hprint hproper, fun h => ?_⟩
  have hrows := congrArg (fun rows => rows.flatMap fun row => spaced row ++ [newline]) h
  simp only [List.flatMap_map] at hrows
  rwa [← funext hprint] at hrows

end EventDump

/-- Two lists of events are printed alike exactly when they agree in everything that can be read
off an event, and two lists of commands likewise: the printed lines can be read back. -/
theorem dumps_are_readable (events events' : List ExecutionEventRecordV1)
    (commands commands' : List OrderCommandRecordV1) :
    (events.flatMap printEvent = events'.flatMap printEvent ↔
        events.map PrintedEvent.of = events'.map PrintedEvent.of) ∧
      (commands.flatMap printCommand = commands'.flatMap printCommand ↔
        commands.map PrintedCommand.of = commands'.map PrintedCommand.of) :=
  ⟨EventDump.flatMap_eq_iff EventDump.printEvent_eq EventDump.proper_eventWords
      EventDump.eventWords_eq_iff,
    EventDump.flatMap_eq_iff EventDump.printCommand_eq EventDump.proper_commandWords
      EventDump.commandWords_eq_iff⟩

end App
