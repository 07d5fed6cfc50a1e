import MatchingEngine.Core.Symmetry

/-!
# Buy and sell orders

The two matching loops are mirror images of each other. When buy and sell orders change
places and the prices of a scale from zero to `K` are read from its other end, the book
sees the same run with its two sides exchanged.
-/

namespace MatchingEngine

/-- The number of the other side. Numbers of no side stay as they are. -/
def mirrorSideNumber (side : UInt16) : UInt16 :=
  if side = Side.buy.code then Side.sell.code
  else if side = Side.sell.code then Side.buy.code
  else side

/-- The other side. -/
theorem decodeSide_mirrorSideNumber (side : UInt16) :
    decodeSide (mirrorSideNumber side) = (decodeSide side).map Side.opposite := by
  unfold mirrorSideNumber
  by_cases hbuy : side = Side.buy.code
  · rw [if_pos hbuy, hbuy]
    decide
  · rw [if_neg hbuy]
    by_cases hsell : side = Side.sell.code
    · rw [if_pos hsell, hsell]
      decide
    · rw [if_neg hsell, decodeSide, if_neg hbuy, if_neg hsell, Option.map_none]

/-- The value of a price on the scale, read from the other end. -/
theorem toInt_mirror {K p : Int64} (hp : 0 < p ∧ p < K) : (K - p).toInt = K.toInt - p.toInt := by
  have hpos := FixedWidth.pos_iff.mp hp.1
  have hlt := Int64.lt_iff_toInt_lt.mp hp.2
  exact FixedWidth.toInt_sub_of_le hpos.le hlt.le

/-- The mirror image on the scale of prices from zero to `K`. -/
def mirror (K : Int64) : Symmetry where
  toRelabelling := .same
  side := Side.opposite
  sideNumber := mirrorSideNumber
  price p := K - p
  eventNumber := id
  InRange p := 0 < p ∧ p < K
  decodeSide_eq := decodeSide_mirrorSideNumber
  side_opposite _ := rfl
  better_iff s p q hp hq := by
    have hp' := toInt_mirror hp
    have hq' := toInt_mirror hq
    cases s with
    | buy =>
      change K - p < K - q ↔ q < p
      rw [Int64.lt_iff_toInt_lt, Int64.lt_iff_toInt_lt, hp', hq']
      omega
    | sell =>
      change K - q < K - p ↔ p < q
      rw [Int64.lt_iff_toInt_lt, Int64.lt_iff_toInt_lt, hp', hq']
      omega
  pos_iff {p} hp := by
    have hp' := toInt_mirror hp
    have hlt := Int64.lt_iff_toInt_lt.mp hp.2
    refine iff_of_true ?_ hp.1
    rw [FixedWidth.pos_iff, hp']
    omega
  eventNumber_succ := Symmetry.same.eventNumber_succ

/-- Whether a price has its place on the scale is a comparison. -/
instance decidableMirrorAdmits (K : Int64) (command : OrderCommandRecordV1) :
    Decidable ((mirror K).Admits command) :=
  inferInstanceAs (Decidable
    (decodeCommandType command.commandType = some .newOrder ∨
        decodeCommandType command.commandType = some .replaceOrder →
      0 < command.priceTicks ∧ command.priceTicks < K))

/-- New orders and replacements with prices strictly between zero and `K`, and any other
commands: the mirrored commands give the mirrored events, and in the end the bids mirror
the asks and the asks mirror the bids. -/
theorem mirrored_run (K : Int64) (firstEventSequence : UInt64)
    {commands : List OrderCommandRecordV1}
    (hcommands : ∀ command ∈ commands, (mirror K).Admits command) :
    let fresh := InstrumentEngine.create firstEventSequence
    let run := fresh.applyAll commands
    let mirrored := fresh.applyAll (commands.map (mirror K).command)
    mirrored.1 = run.1.map (mirror K).event ∧
      mirrored.2.orderBook.bids.entries = run.2.orderBook.asks.entries.map (mirror K).level ∧
      mirrored.2.orderBook.asks.entries = run.2.orderBook.bids.entries.map (mirror K).level := by
  intro fresh run mirrored
  have hstart : (mirror K).Relates fresh.orderBook.moment fresh.orderBook.moment :=
    (mirror K).relates_create firstEventSequence
  obtain ⟨hevents, hbook⟩ :=
    hstart.applyAll (InstrumentEngine.reachable_create firstEventSequence) hcommands
  exact ⟨hevents, hbook.levels .sell, hbook.levels .buy⟩

/-- A sell order that rests, a buy order that takes part of it, and a cancellation that is
refused. -/
theorem mirrored_run_trade :
    let fresh := InstrumentEngine.create 1
    let commands : List OrderCommandRecordV1 :=
      [{ commandSequence := 1, orderId := 1, priceTicks := 40, quantityLots := 3
         instrumentId := 1, commandType := 1, side := 2, timeInForce := 1 },
        { commandSequence := 2, orderId := 2, priceTicks := 45, quantityLots := 2
          instrumentId := 1, commandType := 1, side := 1, timeInForce := 1 },
        { commandSequence := 3, orderId := 7, priceTicks := 100, commandType := 2 }]
    (fresh.applyAll (commands.map (mirror 100).command)).1 =
      (fresh.applyAll commands).1.map (mirror 100).event :=
  (mirrored_run 100 1 (by decide)).1

end MatchingEngine
