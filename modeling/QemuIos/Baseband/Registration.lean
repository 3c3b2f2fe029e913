import QemuIos.Baseband.Sim

/-!
# Registration

`hw/misc/ios_baseband_core.c:1471-1709`: the search for a cell, the registration state the
modem would report, and the timed burst of reports that tells the host about it.
-/

namespace QemuIos.Baseband
open CText

variable (host : Host) (m : Modem)

/-- `ios_bb_rssi`: 0 to 31; a C division rounds towards zero. -/
def rssi : Int :=
  let n := (m.signalDbm + 113 + 1).tdiv 2
  if m.signalDbm ≤ -113 then 0 else if 31 < n then 31 else if n < 0 then 0 else n

def batteryLevel : Int :=
  if m.battery < 1 then 1 else if 100 < m.battery then 100 else m.battery

def Modem.isOpen (ch : Nat) : Bool := (m.chans ch).isOpen

def radioOk : Bool := m.reg.cfun = 1 && m.reg.registered

def serviceOk : Bool := radioOk m && !m.sim.locked

/-- The modem can search: radio on, automatic selection, an unlocked SIM, a network there. -/
def campPossible : Bool :=
  m.reg.cfun = 1 && !m.reg.copsDetached && !m.sim.locked && m.reg.registered

def camped : Bool :=
  campPossible m && m.reg.campDueMs ≠ 0 && m.reg.campDueMs ≤ m.nowMs

/-- The `+CREG` state the model would report. -/
def regStat : Int :=
  if m.reg.cfun ≠ 1 then 0
  else if m.reg.copsDetached || m.sim.locked then 0
  else if camped m then 1 else 2

def xregValue : Int := if regStat m = 1 then 4 else 0

/-- Schedule the searching and registered reports. -/
def regSchedule : Modem :=
  if m.reg.cfun ≠ 1 then m
  else { m with reg := { m.reg with regStep := 1, regDueMs := m.nowMs + 300 } }

/-- How long a search takes. -/
def searchTime : Int :=
  if m.sim.lociPlmn ≠ [] ∧ m.sim.lociPlmn = m.reg.plmn then 3000
  else if m.reg.searchMs ≠ 0 then m.reg.searchMs else 8000

/-- Start a search when one becomes possible, drop it when it no longer is; at its end the
SIM's location is written. -/
def campUpdate : Modem :=
  if !campPossible m then { m with reg := { m.reg with campDueMs := 0 } }
  else if m.reg.campDueMs = 0 then
    let due := m.nowMs + searchTime m
    { m with reg := { m.reg with campDueMs := if due = 0 then 1 else due, campNoted := false } }
  else if m.reg.campDueMs ≤ m.nowMs ∧ !m.reg.campNoted then
    let m := { m with reg := { m.reg with campNoted := true } }
    if m.sim.lociPlmn ≠ m.reg.plmn then
      { m with sim := { m.sim with lociPlmn := m.reg.plmn.take 6 }.save }
    else m
  else m

/-- `+XSIGSTR`, the signal as UTRAN levels. -/
def emitXsigstr : List Act :=
  if !m.xsigstrOn || !m.isOpen m.xsigstrCh || regStat m ≠ 1 then []
  else
    let rscp := m.signalDbm + 116
    let rscp := if rscp < 0 then 0 else if 91 < rscp then 91 else rscp
    [urc m.xsigstrCh (ascii "+XSIGSTR: 2," ++ decimal rscp ++ ascii ",45")]

def emitXciev : Out :=
  if !m.isOpen m.xcievCh then (m, [])
  else
    let m := { m with lastRssi := rssi m, lastBatt := batteryLevel m }
    (m, urc m.xcievCh (ascii "+XCIEV: " ++ decimal (rssi m) ++ [44] ++ decimal (batteryLevel m)) ::
      emitXsigstr m)

/-- The network's time zone, once the host asked for it. -/
def nitzReport : List Act :=
  if !m.nitz || !m.ctzrOn || !m.isOpen m.ctzrCh then []
  else [chanPrintf m.ctzrCh (host.ctzv (m.nowMs + m.wallOffsetMs))]

def cgregReport (stat : Int) : List Act :=
  if 0 < m.reg.cgregN then [urc m.reg.cregCh (ascii "+CGREG: " ++ decimal stat)] else []

/-- One due step of the burst: searching, then registered. -/
def regTick : Out :=
  let ch := m.reg.cregCh
  let stat := regStat m
  if !m.isOpen ch then ({ m with reg := { m.reg with regStep := 0 } }, [])
  else if m.reg.regStep = 1 then
    if stat = 1 then
      ({ m with reg := { m.reg with lastCreg := 2, regStep := 2, regDueMs := m.nowMs + 400 } },
        urc ch (ascii "+CREG: 2") :: cgregReport m 2)
    else
      -- searching, or off: reported once
      ({ m with reg := { m.reg with lastCreg := stat, regStep := 0 } },
        urc ch (ascii "+CREG: " ++ decimal stat) :: cgregReport m stat)
  else if m.reg.regStep = 2 then
    let m := { m with reg := { m.reg with lastCreg := 1 } }
    let acts := urc ch (ascii "+CREG: 1," ++ hexUpper m.reg.lac ++ [44] ++ hexUpper m.reg.ci) ::
      nitzReport host m ++ cgregReport m 1 ++
      if 0 < m.reg.xregN then [urc ch (ascii "+XREG: " ++ decimal (xregValue m))] else []
    (Out.andThen (m, acts) emitXciev).andThen fun m =>
      ({ m with reg := { m.reg with regStep := 0 } }, [])
  else (m, [])

/-! ## Controls -/

/-- `ios_bb_operator_changed`. -/
def operatorChanged : Modem :=
  if regStat m = 1 ∧ m.isOpen m.reg.cregCh then regSchedule m else m

/-- `ios_bb_changed`: tell the host what it would see. -/
def changed : Out :=
  let (m, acts) :=
    if rssi m ≠ m.lastRssi ∨ batteryLevel m ≠ m.lastBatt then
      if m.isOpen m.xcievCh then emitXciev m
      else
        let m := { m with lastRssi := rssi m, lastBatt := batteryLevel m }
        (m, emitXsigstr m)
    else (m, [])
  let m := campUpdate m
  let m := if m.reg.cfun = 1 ∧ m.isOpen m.reg.cregCh ∧ regStat m ≠ m.reg.lastCreg then regSchedule m
    else m
  let m := if m.sim.present ≠ m.simLast ∧ m.isOpen m.xsimCh then
      { m with xsimDueMs := m.nowMs + 100 } else m
  ({ m with simLast := m.sim.present }, acts)

end QemuIos.Baseband
