import QemuIos.Iop.Nand

/-!
# Publishing what the overlay owns

The bitmaps of the pages that the overlay owns stay in memory until the pages are durable. When the
machine stops, and before a snapshot, the files of pages are flushed first; only if that went well,
and nothing has failed before, are the bitmaps written and flushed.
-/

namespace QemuIos.Iop.Nand
open Block

/-- Every place of the part, in the order the loops visit them. -/
def places : List (Nat × Nat) :=
  (List.range nandBuses).flatMap fun bus => (List.range nandCes).map fun ce => (bus, ce)

/-- The file of pages of a place is flushed, if it has one. The second component says whether
anything has failed. -/
def flushPages (s : Nand × Bool) (die : Nat × Nat) : Nand × Bool :=
  if s.1.part.Populated die then
    let flushed := s.1.disk.flush (if s.1.part.overlayDir then .ovl die else .chip die)
    ({ s.1 with disk := flushed.1 }, s.2 || !flushed.2)
  else s

/-- The bitmap of a place is written and flushed, if there is something to publish. -/
def publish (s : Nand × Bool) (die : Nat × Nat) : Nand × Bool :=
  if s.1.part.overlayDir = true ∧ s.1.part.Populated die ∧ s.1.ownershipPending die = true then
    let written := s.1.disk.pwrite (.ownership die) 0 ((s.1.part.pagesPerCe + 7) / 8)
      (s.1.dirty die)
    let n := { s.1 with disk := written.1 }
    if written.2 then
      let flushed := n.disk.flush (.ownership die)
      let n := { n with disk := flushed.1 }
      if flushed.2 then
        ({ n with ownershipPending := Function.update n.ownershipPending die false }, s.2)
      else (n, true)
    else (n, true)
  else s

/-- The machine has stopped, or goes on (`iop_vm_state`). -/
def iopVmState (n : Nand) (running : Bool) : Nand :=
  if running then n
  else
    let s := places.foldl flushPages (n, n.storageFailed)
    let s := if s.2 then s else places.foldl publish s
    if s.2 then { s.1 with storageFailed := true } else s.1

/-- Before a snapshot (`iop_pre_save`): the same, and the snapshot is refused if anything has
failed. -/
def iopPreSave (n : Nand) : Nand × Int :=
  let n := n.iopVmState false
  if n.storageFailed then (n, -5) else (n, 0)

end QemuIos.Iop.Nand
