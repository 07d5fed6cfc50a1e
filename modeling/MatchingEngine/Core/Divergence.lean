import MatchingEngine.Core.ReplayExact
import MatchingEngine.Library.CommonPrefix
import MatchingEngine.Library.FixedWidth

/-!
# The first divergence

Replay compares the stored events with the generated ones, command by command. When the
two lists differ, it stops at the first place where they do, and its report describes
this place: what each list holds there, and which command generates it.
-/

namespace MatchingEngine

/-! ## The first differing field -/

/-- The fields of an event, in the order in which the comparator looks at them. -/
def EventComparator.fields : List EventField :=
  [.eventType, .eventSequence, .commandSequence, .sourceIngressEpoch, .sourceIngressSequence,
    .instrumentId, .orderId, .contraOrderId, .side, .priceTicks, .quantityLots,
    .remainingQuantityLots, .tradeId, .rejectionReason, .reserved]

/-- Two events differ in a field. -/
def EventField.differs (expected actual : ExecutionEventRecordV1) : EventField → Bool
  | none => false
  | eventType => expected.eventType ≠ actual.eventType
  | eventSequence => expected.eventSequence ≠ actual.eventSequence
  | commandSequence => expected.commandSequence ≠ actual.commandSequence
  | sourceIngressEpoch => expected.sourceIngressEpoch ≠ actual.sourceIngressEpoch
  | sourceIngressSequence => expected.sourceIngressSequence ≠ actual.sourceIngressSequence
  | instrumentId => expected.instrumentId ≠ actual.instrumentId
  | orderId => expected.orderId ≠ actual.orderId
  | contraOrderId => expected.contraOrderId ≠ actual.contraOrderId
  | side => expected.side ≠ actual.side
  | priceTicks => expected.priceTicks ≠ actual.priceTicks
  | quantityLots => expected.quantityLots ≠ actual.quantityLots
  | remainingQuantityLots => expected.remainingQuantityLots ≠ actual.remainingQuantityLots
  | tradeId => expected.tradeId ≠ actual.tradeId
  | rejectionReason => expected.rejectionReason ≠ actual.rejectionReason
  | reserved => expected.reserved ≠ actual.reserved

/-- A comparison that fails names the first of the fields in which the events differ. -/
def EventComparison.Finds (comparison : EventComparison) (differs : EventField → Bool)
    (fields : List EventField) : Prop :=
  comparison.equal = false → fields.find? differs = some comparison.field

/-- A test of one field stands before the tests of the others. -/
theorem EventComparison.Finds.cons {α : Type} [DecidableEq α] {expected actual : α}
    {field : EventField} {fields : List EventField} {differs : EventField → Bool}
    {rest : EventComparison} (hfield : differs field = decide (expected ≠ actual))
    (hrest : rest.Finds differs fields) :
    (if expected ≠ actual then ⟨false, field⟩ else rest : EventComparison).Finds differs
      (field :: fields) := by
  intro hequal
  by_cases h : expected ≠ actual
  · rw [if_pos h, List.find?_cons_of_pos (by rw [hfield, decide_eq_true h])]
  · rw [if_neg h] at hequal ⊢
    rw [List.find?_cons_of_neg (by rw [hfield]; simpa using h)]
    exact hrest hequal

/-- The comparator names the first field in which different events differ. -/
theorem EventComparator.compare_finds (expected actual : ExecutionEventRecordV1) :
    (compare expected actual).Finds (EventField.differs expected actual) fields := by
  unfold compare fields
  iterate 15 refine EventComparison.Finds.cons rfl ?_
  exact fun hequal => by cases hequal

/-! ## Where a comparison stops -/

/-- The class of the failure at a place where the generated and the stored events differ. -/
def divergenceClass : Option ExecutionEventRecordV1 → Option ExecutionEventRecordV1 →
    ReplayFailureClass
  | some _, none => .storedEventMissing
  | none, some _ => .extraStoredEvent
  | some _, some _ => .eventFieldMismatch
  | none, none => .none

/-- A failure describes what the generated and the stored events hold where they differ. -/
structure ReplayFailure.Describes (failure : ReplayFailure)
    (expected actual : Option ExecutionEventRecordV1) : Prop where
  failureClass : failure.failureClass = divergenceClass expected actual
  expectedEvent : failure.expectedEvent = expected
  actualEvent : failure.actualEvent = actual
  /-- Where both lists hold an event, the first differing field is named. -/
  field : ∀ generated ∈ expected, ∀ stored ∈ actual,
    EventComparator.fields.find? (EventField.differs generated stored) = some failure.field

/-- The script of a reader that delivers these records and then the end of the log. -/
abbrev deliveringScript {α : Type} (records : List α) (unread : ReadScript α) : ReadScript α :=
  records.map .recordRead ++ .endOfLog :: unread

/-- If the stored events do not go on with those of a command, the comparison stops at the
first place where they differ. -/
theorem compareEvents_diverges (command : OrderCommandRecordV1)
    (beforeSnapshot afterSnapshot : String) {generated stored : List ExecutionEventRecordV1}
    (hnot : ¬ generated <+: stored) (index : ℕ) (unread : ReadScript ExecutionEventRecordV1)
    (eventsCompared : UInt64) :
    ∃ failure : ReplayFailure,
      compareEvents command beforeSnapshot afterSnapshot generated index
          (deliveringScript stored unread) eventsCompared =
        .diverged failure (eventsCompared + .ofNat (commonPrefix stored generated).length) ∧
      failure.command = command ∧
      failure.eventIndexWithinCommand = index + (commonPrefix stored generated).length ∧
      failure.Describes generated[(commonPrefix stored generated).length]?
        stored[(commonPrefix stored generated).length]? := by
  induction generated generalizing stored index eventsCompared with
  | nil => exact absurd List.nil_prefix hnot
  | cons event generated ih =>
    have hnone : eventsCompared + .ofNat ([] : List ExecutionEventRecordV1).length =
        eventsCompared := UInt64.add_zero _
    unfold compareEvents
    cases stored with
    | nil =>
      rw [commonPrefix_nil_left, hnone]
      refine ⟨_, rfl, rfl, rfl, rfl, rfl, rfl, ?_⟩
      rintro _ - _ ⟨⟩
    | cons storedEvent stored =>
      simp only [deliveringScript, List.map_cons, List.cons_append, ReadScript.readNext]
      by_cases hequal : event = storedEvent
      · subst hequal
        have hrest : ¬ generated <+: stored :=
          fun h => hnot (List.cons_prefix_cons.mpr ⟨rfl, h⟩)
        obtain ⟨failure, hcompare, hcommand, hindex, hdescribes⟩ :=
          ih hrest (index + 1) (eventsCompared + 1)
        rw [if_pos ((EventComparator.compare_equal_iff event event).mpr rfl),
          commonPrefix_cons_self, List.length_cons]
        refine ⟨failure, ?_, hcommand, ?_, hdescribes⟩
        · rw [FixedWidth.add_ofNat_succ, UInt64.add_assoc, UInt64.add_comm (.ofNat _),
            ← UInt64.add_assoc]
          exact hcompare
        · rw [hindex, Nat.add_assoc, Nat.add_comm 1]
      · have hunequal : (EventComparator.compare event storedEvent).equal = false :=
          Bool.eq_false_iff.mpr fun h =>
            hequal ((EventComparator.compare_equal_iff event storedEvent).mp h)
        rw [hunequal, commonPrefix_cons_of_ne (Ne.symm hequal), hnone]
        refine ⟨_, rfl, rfl, rfl, rfl, rfl, rfl, ?_⟩
        rintro _ ⟨⟩ _ ⟨⟩
        exact EventComparator.compare_finds event storedEvent hunequal

/-! ## Where a replay stops -/

/-- A replay has stopped where the stored events part from those of the commands. -/
structure ReplayResult.ReportsDivergence (result start : ReplayResult) (engine : InstrumentEngine)
    (commands : List OrderCommandRecordV1) (stored : List ExecutionEventRecordV1) : Prop where
  refused : result.ok = false
  eventsCompared : result.eventsCompared = start.eventsCompared +
    .ofNat (commonPrefix stored (engine.applyAll commands).1).length
  describes : result.failure.Describes
    (engine.applyAll commands).1[(commonPrefix stored (engine.applyAll commands).1).length]?
    stored[(commonPrefix stored (engine.applyAll commands).1).length]?
  /-- The report names the command that generates the event at this place. -/
  command : (commonPrefix stored (engine.applyAll commands).1).length <
      (engine.applyAll commands).1.length →
    ∃ before after, commands = before ++ result.failure.command :: after ∧
      (engine.applyAll before).1.length + result.failure.eventIndexWithinCommand =
        (commonPrefix stored (engine.applyAll commands).1).length ∧
      result.failure.eventIndexWithinCommand <
        ((engine.applyAll before).2.apply result.failure.command).1.length ∧
      result.commandsReplayed = start.commandsReplayed + .ofNat before.length

/-- A divergence behind the events of the first command is a divergence of the whole. -/
theorem ReplayResult.ReportsDivergence.cons {result start : ReplayResult}
    {engine : InstrumentEngine} {command : OrderCommandRecordV1}
    {commands : List OrderCommandRecordV1} {stored : List ExecutionEventRecordV1}
    (h : result.ReportsDivergence
      { start with
        commandsReplayed := start.commandsReplayed + 1
        eventsCompared := start.eventsCompared + .ofNat (engine.apply command).1.length }
      (engine.apply command).2 commands stored) :
    result.ReportsDivergence start engine (command :: commands)
      ((engine.apply command).1 ++ stored) := by
  obtain ⟨hrefused, hcompared, hdescribes, hcommand⟩ := h
  have hplace : (commonPrefix ((engine.apply command).1 ++ stored)
        (engine.applyAll (command :: commands)).1).length =
      (engine.apply command).1.length +
        (commonPrefix stored ((engine.apply command).2.applyAll commands).1).length := by
    rw [InstrumentEngine.applyAll_cons, commonPrefix_append, List.length_append]
  refine ⟨hrefused, ?_, ?_, fun hlt => ?_⟩
  · rw [hplace, hcompared, UInt64.ofNat_add, UInt64.add_assoc]
  · rw [hplace, InstrumentEngine.applyAll_cons, List.getElem?_append_right (Nat.le_add_right _ _),
      List.getElem?_append_right (Nat.le_add_right _ _), Nat.add_sub_cancel_left]
    exact hdescribes
  · rw [hplace, InstrumentEngine.applyAll_cons, List.length_append,
      Nat.add_lt_add_iff_left] at hlt
    obtain ⟨before, after, hsplit, hindex, hwithin, hreplayed⟩ := hcommand hlt
    refine ⟨command :: before, after, by rw [hsplit]; rfl, ?_, hwithin, ?_⟩
    · rw [hplace, ← hindex, InstrumentEngine.applyAll_cons, List.length_append, Nat.add_assoc]
    · rw [hreplayed, List.length_cons, FixedWidth.add_ofNat_succ, UInt64.add_assoc,
        UInt64.add_comm 1, ← UInt64.add_assoc]

/-- The main loop stops at the first place where the stored events differ from those of the
commands, and reports this place. -/
theorem replayLoop_reportsDivergence {engine : InstrumentEngine} (hreach : engine.Reachable)
    {commands : List OrderCommandRecordV1} (unreadCommands : ReadScript OrderCommandRecordV1)
    {previous : Option UInt64} (hconsecutive : ConsecutiveAfter previous commands)
    {stored : List ExecutionEventRecordV1} (unreadEvents : ReadScript ExecutionEventRecordV1)
    (hdiffer : stored ≠ (engine.applyAll commands).1) (start : ReplayResult) :
    (replayLoop (deliveringScript commands unreadCommands) previous
      (deliveringScript stored unreadEvents) engine start).1.ReportsDivergence start engine
      commands stored := by
  induction commands generalizing engine previous stored start with
  | nil =>
    cases stored with
    | nil => exact absurd rfl hdiffer
    | cons event stored =>
      refine ⟨rfl, ?_, ⟨rfl, rfl, rfl, ?_⟩, fun hlt => absurd hlt (Nat.not_lt_zero _)⟩
      · exact (UInt64.add_zero _).symm
      · rintro _ ⟨⟩
  | cons command commands ih =>
    obtain ⟨hbreak, hrest⟩ := (consecutiveAfter_cons ..).mp hconsecutive
    have hnext := hreach.apply command
    change (replayLoop (.recordRead command :: deliveringScript commands unreadCommands) previous
      (deliveringScript stored unreadEvents) engine start).1.ReportsDivergence _ _ _ _
    unfold replayLoop
    simp only [hbreak, Bool.false_eq_true, if_false]
    by_cases hprefix : (engine.apply command).1 <+: stored
    · obtain ⟨others, rfl⟩ := hprefix
      have hmatched := (compareEvents_eq_matched_iff command engine.orderBook.snapshot
        (engine.apply command).2.orderBook.snapshot (engine.apply command).1 0
        (deliveringScript ((engine.apply command).1 ++ others) unreadEvents)
        (deliveringScript others unreadEvents) start.eventsCompared _).mpr
        ⟨by rw [deliveringScript, List.map_append, List.append_assoc], rfl⟩
      have hothers : others ≠ ((engine.apply command).2.applyAll commands).1 := by
        rintro rfl
        exact hdiffer (by rw [InstrumentEngine.applyAll_cons])
      simp only [hmatched, hnext.validateInvariants, if_true]
      exact (ih hnext hrest hothers _).cons
    · obtain ⟨failure, hcompare, hcommand, hindex, hdescribes⟩ :=
        compareEvents_diverges command engine.orderBook.snapshot
          (engine.apply command).2.orderBook.snapshot hprefix 0 unreadEvents start.eventsCompared
      have hlt := length_commonPrefix_lt hprefix
      have hplace : commonPrefix stored (engine.applyAll (command :: commands)).1 =
          commonPrefix stored (engine.apply command).1 := by
        rw [InstrumentEngine.applyAll_cons, commonPrefix_append_right hprefix]
      rw [Nat.zero_add] at hindex
      simp only [hcompare]
      refine ⟨rfl, ?_, ?_, fun _ => ⟨[], commands, ?_, ?_, ?_, ?_⟩⟩
      · rw [hplace]
        rfl
      · rw [hplace, InstrumentEngine.applyAll_cons, List.getElem?_append_left hlt]
        exact hdescribes
      · rw [List.nil_append]
        exact congrArg (· :: commands) hcommand.symm
      · rw [hplace, InstrumentEngine.applyAll_nil, List.length_nil, Nat.zero_add]
        exact hindex
      · change failure.eventIndexWithinCommand < (engine.apply failure.command).1.length
        rw [hindex, hcommand]
        exact hlt
      · exact (UInt64.add_zero _).symm

/-- Replay of consecutive commands on a fresh engine, with stored events that differ from
the generated ones, reports the first place where they differ. -/
theorem replay_reports_first_divergence (firstEventSequence : UInt64)
    (commands : List OrderCommandRecordV1) (stored : List ExecutionEventRecordV1)
    (commandLog : ReadScript OrderCommandRecordV1) (eventLog : ReadScript ExecutionEventRecordV1)
    (hcommandLog : commandLog.Delivers commands) (heventLog : eventLog.Delivers stored)
    (hconsecutive : ConsecutiveCommands commands)
    (hdiffer : stored ≠ ((InstrumentEngine.create firstEventSequence).applyAll commands).1) :
    let engine := InstrumentEngine.create firstEventSequence
    let generated := (engine.applyAll commands).1
    let i := (commonPrefix stored generated).length
    let result := (ReplayRunner.replay commandLog eventLog engine).1
    result.ok = false ∧ result.eventsCompared = UInt64.ofNat i ∧
      (stored.length = i → result.failure.failureClass = .storedEventMissing ∧
        ∃ expected, generated[i]? = some expected ∧
          result.failure.expectedEvent = some expected) ∧
      (generated.length = i → result.failure.failureClass = .extraStoredEvent ∧
        ∃ actual, stored[i]? = some actual ∧ result.failure.actualEvent = some actual) ∧
      (stored.length ≠ i → generated.length ≠ i →
        result.failure.failureClass = .eventFieldMismatch ∧
        ∃ expected actual, generated[i]? = some expected ∧ stored[i]? = some actual ∧
          result.failure.expectedEvent = some expected ∧
          result.failure.actualEvent = some actual ∧
          EventComparator.fields.find? (EventField.differs expected actual) =
            some result.failure.field) ∧
      (generated.length ≠ i → ∃ before after,
        commands = before ++ result.failure.command :: after ∧
        (engine.applyAll before).1.length + result.failure.eventIndexWithinCommand = i ∧
        result.failure.eventIndexWithinCommand <
          ((engine.applyAll before).2.apply result.failure.command).1.length ∧
        result.commandsReplayed = UInt64.ofNat before.length) := by
  intro engine generated i result
  obtain ⟨unreadCommands, rfl⟩ := hcommandLog
  obtain ⟨unreadEvents, rfl⟩ := heventLog
  have hafter : ConsecutiveAfter none commands := hconsecutive
  have hreport : result.ReportsDivergence {} engine commands stored :=
    replayLoop_reportsDivergence (InstrumentEngine.reachable_create firstEventSequence)
      unreadCommands hafter unreadEvents hdiffer {}
  have hparted := getElem?_commonPrefix_ne hdiffer
  change stored[i]? ≠ generated[i]? at hparted
  obtain ⟨hrefused, hcompared, ⟨hclass, hexpected, hactual, hfield⟩, hcommand⟩ := hreport
  change result.failure.failureClass = divergenceClass generated[i]? stored[i]? at hclass
  change result.failure.expectedEvent = generated[i]? at hexpected
  change result.failure.actualEvent = stored[i]? at hactual
  obtain ⟨hstoredPrefix, hgeneratedPrefix⟩ := commonPrefix_prefix stored generated
  refine ⟨hrefused, hcompared.trans (UInt64.zero_add _), fun hend => ?_, fun hend => ?_,
    fun hstored hgenerated => ?_, fun hgenerated => ?_⟩
  · have hnone : stored[i]? = none := List.getElem?_eq_none hend.le
    obtain ⟨expected, hsome⟩ := Option.ne_none_iff_exists'.mp (hnone ▸ hparted.symm)
    rw [hsome, hnone] at hclass
    exact ⟨hclass, expected, hsome, hexpected.trans hsome⟩
  · have hnone : generated[i]? = none := List.getElem?_eq_none hend.le
    obtain ⟨actual, hsome⟩ := Option.ne_none_iff_exists'.mp (hnone ▸ hparted)
    rw [hsome, hnone] at hclass
    exact ⟨hclass, actual, hsome, hactual.trans hsome⟩
  · have hlt : i < generated.length := hgeneratedPrefix.length_le.lt_of_ne hgenerated.symm
    have hlt' : i < stored.length := hstoredPrefix.length_le.lt_of_ne hstored.symm
    have hsome := List.getElem?_eq_getElem hlt
    have hsome' := List.getElem?_eq_getElem hlt'
    rw [hsome, hsome'] at hclass
    exact ⟨hclass, _, _, hsome, hsome', hexpected.trans hsome, hactual.trans hsome',
      hfield _ hsome _ hsome'⟩
  · have hlt : i < generated.length := hgeneratedPrefix.length_le.lt_of_ne hgenerated.symm
    obtain ⟨before, after, hsplit, hindex, hwithin, hreplayed⟩ := hcommand hlt
    exact ⟨before, after, hsplit, hindex, hwithin, hreplayed.trans (UInt64.zero_add _)⟩

/-- The second event stored for a buy order is another one. -/
theorem replay_reports_first_divergence_rested :
    let command : OrderCommandRecordV1 :=
      { commandSequence := 1, orderId := 1, instrumentId := 7, priceTicks := 10,
        quantityLots := 2, commandType := 1, side := 1, timeInForce := 1 }
    let generated := ((InstrumentEngine.create 1).applyAll [command]).1
    let stored := generated.map fun event => { event with quantityLots := 2 }
    (ReplayRunner.replay [.recordRead command, .endOfLog] (stored.map .recordRead ++ [.endOfLog])
      (InstrumentEngine.create 1)).1.eventsCompared = 1 := by
  intro command generated stored
  obtain ⟨-, hcompared, -⟩ := replay_reports_first_divergence 1 [command] stored
    [.recordRead command, .endOfLog] (stored.map .recordRead ++ [.endOfLog]) ⟨[], rfl⟩ ⟨[], rfl⟩
    (List.isChain_singleton _) (by decide)
  exact hcompared.trans (by decide)

end MatchingEngine
