import QemuIos.Baseband.Core
import QemuIos.Lib.Due

/-!
# When the next tick is due

`hw/misc/ios_baseband_core.c:1458-1476` and `3229-3277`, `hw/misc/ios_baseband_gps.c:161-164`:
the time of the next activity, by which the device sets its timer.
-/

namespace QemuIos.Baseband

/-- `vib_next_edge`: when the vibrator is next switched; 0 if it is not by itself. -/
def vibNextEdge (m : Modem) : Int :=
  let t := m.nowMs - m.vibStartMs
  if m.vibOnMs ≤ 0 ∨ t < 0 then 0
  else if m.vibMode = 1 then if t < m.vibOnMs then m.vibStartMs + m.vibOnMs else 0
  else if m.vibMode = 2 ∧ 0 < m.vibPeriodMs then
    let cycle := t - t % m.vibPeriodMs
    m.vibStartMs +
      if t % m.vibPeriodMs < m.vibOnMs then cycle + m.vibOnMs else cycle + m.vibPeriodMs
  else 0

def gpsNextDue (g : Gps) : Int := if 0 ≤ g.ch then g.dueMs else 0

namespace Core

/-- The timers in the order `ios_bb_next_due` looks at them. -/
def timers (c : Core) : List Timer :=
  let m := c.modem
  let first : List Timer :=
    [(m.reg.regStep ≠ 0, m.reg.regDueMs), (m.nowMs < m.reg.campDueMs, m.reg.campDueMs),
      (m.tempDueMs ≠ 0, m.tempDueMs), (m.xsimDueMs ≠ 0, m.xsimDueMs),
      (vibNextEdge m ≠ 0, vibNextEdge m)]
  let calls : List Timer := (List.range maxCalls).map fun i =>
    ((m.calls i).used && (m.calls i).dueMs ≠ 0 && (m.calls i).next ≠ .none, (m.calls i).dueMs)
  let last : List Timer :=
    [(c.link.unacked ≠ [], c.link.lastTxMs + h5RetxMs), (gpsNextDue m.gps ≠ 0, gpsNextDue m.gps)]
  first ++ calls ++ last

/-- `ios_bb_next_due`: 0 if nothing is due by itself. -/
def iosBbNextDue (c : Core) : Int := if c.off then 0 else c.timers.foldl sooner 0

/-- The same core later. -/
def atTime (c : Core) (t : Int) : Core := { c with modem := { c.modem with nowMs := t } }

end Core

end QemuIos.Baseband
