import Mathlib.Order.Monotone.Basic
import MatchingEngine.Core.Symmetry

/-!
# What prices mean to the engine

The engine compares prices with each other and with zero. On any other scale that keeps these
comparisons, which need not be an even one, the same orders meet in the same sequence and trade
the same quantities.
-/

namespace MatchingEngine

/-- A scale that keeps the order of the admitted prices and their signs. -/
structure PriceScale where
  price : Int64 → Int64
  admitted : Set Int64
  increasing : StrictMonoOn price admitted
  pos_iff : ∀ p ∈ admitted, 0 < price p ↔ 0 < p

/-- The change of the prices alone. -/
def PriceScale.symmetry (scale : PriceScale) : Symmetry :=
  { Symmetry.same with
    price := scale.price
    InRange := fun p => p ∈ scale.admitted
    better_iff := by
      intro s p q hp hq
      cases s with
      | buy => exact scale.increasing.lt_iff_lt hq hp
      | sell => exact scale.increasing.lt_iff_lt hp hq
    pos_iff := fun {p} hp => scale.pos_iff p hp }

/-- New orders and replacements with admitted prices, and any other commands: the same commands
on another scale give the same events on that scale, and leave the book behind on it. -/
theorem rescaled_run (scale : PriceScale) (firstEventSequence : UInt64)
    {commands : List OrderCommandRecordV1}
    (hcommands : ∀ command ∈ commands, scale.symmetry.Admits command) :
    let fresh := InstrumentEngine.create firstEventSequence
    let run := fresh.applyAll commands
    let rescaled := fresh.applyAll (commands.map scale.symmetry.command)
    rescaled.1 = run.1.map scale.symmetry.event ∧
      rescaled.2.orderBook.bids.entries =
        run.2.orderBook.bids.entries.map scale.symmetry.level ∧
      rescaled.2.orderBook.asks.entries =
        run.2.orderBook.asks.entries.map scale.symmetry.level := by
  intro fresh run rescaled
  have hstart : scale.symmetry.Relates fresh.orderBook.moment fresh.orderBook.moment :=
    scale.symmetry.relates_create firstEventSequence
  obtain ⟨hevents, hbook⟩ :=
    hstart.applyAll (InstrumentEngine.reachable_create firstEventSequence) hcommands
  exact ⟨hevents, hbook.levels .buy, hbook.levels .sell⟩

/-- A trade at ten times the price, though the limit of the buy order has moved further. -/
theorem rescaled_run_trade :
    let scale : PriceScale :=
      { price := fun p => if p = 45 then 1000 else p * 10
        admitted := {40, 45}
        increasing := by
          rintro p (rfl | rfl) q (rfl | rfl) hlt <;> revert hlt <;> decide
        pos_iff := by
          rintro p (rfl | rfl) <;> decide }
    let fresh := InstrumentEngine.create 1
    let commands : List OrderCommandRecordV1 :=
      [{ commandSequence := 1, orderId := 1, priceTicks := 40, quantityLots := 3
         instrumentId := 1, commandType := 1, side := 2, timeInForce := 1 },
        { commandSequence := 2, orderId := 2, priceTicks := 45, quantityLots := 2
          instrumentId := 1, commandType := 1, side := 1, timeInForce := 1 }]
    (fresh.applyAll (commands.map scale.symmetry.command)).1 =
      (fresh.applyAll commands).1.map scale.symmetry.event := by
  intro scale fresh commands
  refine (rescaled_run scale 1 fun command hcommand _ => ?_).1
  rcases List.mem_pair.mp hcommand with rfl | rfl
  · exact Or.inl rfl
  · exact Or.inr rfl

end MatchingEngine
