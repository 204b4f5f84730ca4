import QuorumRelay.Amount

/-!
# Rate windows

A window counts the messages admitted since its start and starts anew once it is
as old as an epoch.  Around the edge between two windows up to twice the limit
can pass.
-/

namespace QuorumRelay

/-- A fixed-window counter. -/
structure RateWindow where
  start : Slot := 0
  count : UInt32 := 0
  deriving DecidableEq

namespace RateWindow

/-- The window in force at a slot: itself, or a fresh one once the epoch is over. -/
def current (w : RateWindow) (now epochLength : Slot) : RateWindow :=
  if w.start.later epochLength ≤ now then { start := now, count := 0 } else w

/-- The window after `count` more messages.  The window itself does not change,
so a caller can drop the result when a later check fails. -/
def accept (w : RateWindow) (now epochLength : Slot) (limit count : UInt32) :
    Except Fault RateWindow := do
  let c := w.current now epochLength
  let total := c.count.toNat + count.toNat
  require (total < UInt32.size) .arithmeticOverflow
  require (total ≤ limit.toNat) .rateLimited
  return { c with count := UInt32.ofNat total }

end RateWindow

end QuorumRelay
