import Tsch.Basic
import Tsch.Ring
import Tsch.Schedule
import Tsch.Store
import Tsch.SyncIE
import Tsch.Mac
import Tsch.Powercycle
import Tsch.System
import Tsch.Clock
import Tsch.Backoff
import Tsch.Timing
import Tsch.Rings
import Tsch.Fifo
import Tsch.Delivery
import Tsch.RoundRobin
import Tsch.Dedup
import Tsch.Interleaving
import Tsch.Table
import Tsch.Faults
import Tsch.Progress
import Tsch.CellBackoff
import Tsch.Enqueue
