import MatchingEngine.Domain
import MatchingEngine.Wal.SegmentReader
import MatchingEngine.Wal.SegmentWriter

/-!
# Domain records in the log

`append_storage_record` and `read_storage_record` of `app/main.cpp`, and `WalReader` of
`wal.cpp`. A domain record is stored as it lies in memory: its fields in their order,
without gaps, and the bytes that fill up the last eight, which belong to no field.
-/

namespace App

open MatchingEngine Wal

/-- How a trivially copyable record lies in memory, and that reading the memory back
gives the record, whatever is in the bytes behind its last field. -/
structure StorageLayout (α : Type) where
  /-- `sizeof`. -/
  size : ℕ
  /-- `std::as_bytes`, with the bytes behind the last field. -/
  toBytes : α → UInt32 → List UInt8
  /-- The record whose memory was copied from the bytes. -/
  ofBytes : List UInt8 → α
  toBytes_length : ∀ record tail, (toBytes record tail).length = size
  ofBytes_toBytes : ∀ record tail, ofBytes (toBytes record tail) = record

/-! ## The two records -/

namespace OrderCommand

/-- The sizes of the fields of `OrderCommandRecordV1`, and of the bytes behind them. -/
def widths : List ℕ := [8, 8, 8, 8, 8, 8, 8, 8, 4, 2, 2, 2, 2, 4]

/-- The fields as numbers. -/
def values (record : OrderCommandRecordV1) (tail : UInt32) : List ℕ :=
  [record.commandSequence.toNat, record.sourceIngressEpoch.toNat,
    record.sourceIngressSequence.toNat, record.orderId.toNat, record.replacementOrderId.toNat,
    record.clientId.toNat, record.priceTicks.toUInt64.toNat, record.quantityLots.toUInt64.toNat,
    record.instrumentId.toNat, record.commandType.toNat, record.side.toNat,
    record.timeInForce.toNat, record.reserved.toNat, tail.toNat]

/-- The record whose memory the bytes were copied into. -/
def ofBytes (bytes : List UInt8) : OrderCommandRecordV1 :=
  match LittleEndian.unpack widths bytes with
  | [commandSequence, sourceIngressEpoch, sourceIngressSequence, orderId, replacementOrderId,
      clientId, priceTicks, quantityLots, instrumentId, commandType, side, timeInForce, reserved,
      _] =>
    { commandSequence := .ofNat commandSequence
      sourceIngressEpoch := .ofNat sourceIngressEpoch
      sourceIngressSequence := .ofNat sourceIngressSequence
      orderId := .ofNat orderId
      replacementOrderId := .ofNat replacementOrderId
      clientId := .ofNat clientId
      priceTicks := (UInt64.ofNat priceTicks).toInt64
      quantityLots := (UInt64.ofNat quantityLots).toInt64
      instrumentId := .ofNat instrumentId
      commandType := .ofNat commandType
      side := .ofNat side
      timeInForce := .ofNat timeInForce
      reserved := .ofNat reserved }
  | _ => {}

/-- Every field fits its place. -/
theorem values_fit (record : OrderCommandRecordV1) (tail : UInt32) :
    List.Forall₂ (fun width value => value < 256 ^ width) widths (values record tail) :=
  .cons record.commandSequence.toNat_lt (.cons record.sourceIngressEpoch.toNat_lt
  (.cons record.sourceIngressSequence.toNat_lt (.cons record.orderId.toNat_lt
  (.cons record.replacementOrderId.toNat_lt (.cons record.clientId.toNat_lt
  (.cons record.priceTicks.toUInt64.toNat_lt (.cons record.quantityLots.toUInt64.toNat_lt
  (.cons record.instrumentId.toNat_lt (.cons record.commandType.toNat_lt
  (.cons record.side.toNat_lt (.cons record.timeInForce.toNat_lt
  (.cons record.reserved.toNat_lt (.cons tail.toNat_lt .nil)))))))))))))

/-- `OrderCommandRecordV1` in memory. -/
def storage : StorageLayout OrderCommandRecordV1 where
  size := 80
  toBytes record tail := LittleEndian.pack widths (values record tail)
  ofBytes := ofBytes
  toBytes_length _ _ := LittleEndian.pack_length rfl
  ofBytes_toBytes record tail := by
    unfold ofBytes
    rw [LittleEndian.unpack_pack (values_fit record tail)]
    simp [values]

end OrderCommand

namespace ExecutionEvent

/-- The sizes of the fields of `ExecutionEventRecordV1`, and of the bytes behind them. -/
def widths : List ℕ := [8, 8, 8, 8, 8, 8, 8, 8, 8, 8, 4, 2, 2, 2, 2, 4]

/-- The fields as numbers. -/
def values (record : ExecutionEventRecordV1) (tail : UInt32) : List ℕ :=
  [record.eventSequence.toNat, record.commandSequence.toNat, record.sourceIngressEpoch.toNat,
    record.sourceIngressSequence.toNat, record.orderId.toNat, record.contraOrderId.toNat,
    record.tradeId.toNat, record.priceTicks.toUInt64.toNat, record.quantityLots.toUInt64.toNat,
    record.remainingQuantityLots.toUInt64.toNat, record.instrumentId.toNat,
    record.eventType.toNat, record.side.toNat, record.rejectionReason.toNat,
    record.reserved.toNat, tail.toNat]

/-- The record whose memory the bytes were copied into. -/
def ofBytes (bytes : List UInt8) : ExecutionEventRecordV1 :=
  match LittleEndian.unpack widths bytes with
  | [eventSequence, commandSequence, sourceIngressEpoch, sourceIngressSequence, orderId,
      contraOrderId, tradeId, priceTicks, quantityLots, remainingQuantityLots, instrumentId,
      eventType, side, rejectionReason, reserved, _] =>
    { eventSequence := .ofNat eventSequence
      commandSequence := .ofNat commandSequence
      sourceIngressEpoch := .ofNat sourceIngressEpoch
      sourceIngressSequence := .ofNat sourceIngressSequence
      orderId := .ofNat orderId
      contraOrderId := .ofNat contraOrderId
      tradeId := .ofNat tradeId
      priceTicks := (UInt64.ofNat priceTicks).toInt64
      quantityLots := (UInt64.ofNat quantityLots).toInt64
      remainingQuantityLots := (UInt64.ofNat remainingQuantityLots).toInt64
      instrumentId := .ofNat instrumentId
      eventType := .ofNat eventType
      side := .ofNat side
      rejectionReason := .ofNat rejectionReason
      reserved := .ofNat reserved }
  | _ => {}

/-- Every field fits its place. -/
theorem values_fit (record : ExecutionEventRecordV1) (tail : UInt32) :
    List.Forall₂ (fun width value => value < 256 ^ width) widths (values record tail) :=
  .cons record.eventSequence.toNat_lt (.cons record.commandSequence.toNat_lt
  (.cons record.sourceIngressEpoch.toNat_lt (.cons record.sourceIngressSequence.toNat_lt
  (.cons record.orderId.toNat_lt (.cons record.contraOrderId.toNat_lt
  (.cons record.tradeId.toNat_lt (.cons record.priceTicks.toUInt64.toNat_lt
  (.cons record.quantityLots.toUInt64.toNat_lt
  (.cons record.remainingQuantityLots.toUInt64.toNat_lt (.cons record.instrumentId.toNat_lt
  (.cons record.eventType.toNat_lt (.cons record.side.toNat_lt
  (.cons record.rejectionReason.toNat_lt (.cons record.reserved.toNat_lt
  (.cons tail.toNat_lt .nil)))))))))))))))

/-- `ExecutionEventRecordV1` in memory. -/
def storage : StorageLayout ExecutionEventRecordV1 where
  size := 96
  toBytes record tail := LittleEndian.pack widths (values record tail)
  ofBytes := ofBytes
  toBytes_length _ _ := LittleEndian.pack_length rfl
  ofBytes_toBytes record tail := by
    unfold ofBytes
    rw [LittleEndian.unpack_pack (values_fit record tail)]
    simp [values]

end ExecutionEvent

/-! ## Writing and reading records -/

/-- `order_command_record_type`. -/
def orderCommandRecordType : UInt32 := 200

/-- `execution_event_record_type`. -/
def executionEventRecordType : UInt32 := 300

/-- What happens to be in the bytes of a stored record that belong to no field: those of
the record itself and those of the header in front of it. -/
structure Padding where
  record : UInt32 := 0
  header : UInt32 := 0
  deriving DecidableEq

variable {α : Type}

/-- The arguments with which `append_storage_record` calls the writer. -/
def storageAppend (layout : StorageLayout α) (recordType : UInt32) (record : α)
    (padding : Padding) : Append where
  recordType := recordType
  payload := layout.toBytes record padding.record
  tailPadding := padding.header

/-- `append_storage_record`. -/
def appendStorageRecord (layout : StorageLayout α) (recordType : UInt32) (record : α)
    (padding : Padding) (writer : WalSegmentWriter) : WalAppendResult × WalSegmentWriter :=
  writer.append (storageAppend layout recordType record padding)

/-- `WalReader::read_next_record`. -/
def readNextRecord (file : List UInt8) (reader : WalSegmentReader) :
    WalReadResult × Option WalRecord × WalSegmentReader :=
  let read := reader.readNext file
  if read.1.status ≠ .recordRead then (read.1, none, read.2.2)
  else
    (read.1,
      read.2.1.map fun view =>
        { recordType := view.header.recordType
          position := read.1.position
          payload := view.payload },
      read.2.2)

/-- `read_storage_record`. -/
def readStorageRecord (layout : StorageLayout α) (expectedRecordType : UInt32)
    (file : List UInt8) (reader : WalSegmentReader) :
    WalReadResult × Option α × WalSegmentReader :=
  let read := readNextRecord file reader
  let walRecord := read.2.1.getD {}
  if read.1.status ≠ .recordRead then (read.1, none, read.2.2)
  else if walRecord.recordType ≠ expectedRecordType then
    ({ read.1 with status := .failed, error := .recordTypeMismatch }, none, read.2.2)
  else if walRecord.payload.length ≠ layout.size then
    ({ read.1 with status := .failed, error := .payloadSizeMismatch }, none, read.2.2)
  else (read.1, some (layout.ofBytes walRecord.payload), read.2.2)

/-- The records that `append_storage_record` writes for a list of domain records. -/
def storageAppends (layout : StorageLayout α) (recordType : UInt32) (padding : ℕ → Padding)
    (records : List α) : List Append :=
  records.mapIdx fun i record => storageAppend layout recordType record (padding i)

@[simp] theorem storageAppends_cons (layout : StorageLayout α) (recordType : UInt32)
    (padding : ℕ → Padding) (record : α) (records : List α) :
    storageAppends layout recordType padding (record :: records) =
      storageAppend layout recordType record (padding 0) ::
        storageAppends layout recordType (fun i => padding (i + 1)) records :=
  List.mapIdx_cons

@[simp] theorem storageAppends_length (layout : StorageLayout α) (recordType : UInt32)
    (padding : ℕ → Padding) (records : List α) :
    (storageAppends layout recordType padding records).length = records.length :=
  List.length_mapIdx

end App
