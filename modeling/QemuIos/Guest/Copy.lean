import QemuIos.Lib.Pages

/-!
# Guest memory for a caller

How the host reaches guest memory on behalf of the guest code that called it: `guest_copy` of
`hw/arm/guest-services.c`, and `gles_guest_rw` of `hw/arm/guest-gles.c` for the GL calls. Both try
the pages the caller's TLB has as plain RAM first, and then probe every page of the range before a
debug access, which ignores protection.

The CPU is what the two functions ask of it: for a page and an access type what
`probe_access_flags` says, where the debug access's page-table walk finds the page, and how much of
a transfer the bus carries out. Memory is physical, so two pages may share a frame.
-/

namespace QemuIos.Guest

open Pages

/-- What `probe_access_flags` returns: TLB_INVALID_MASK, whether any other flag is set, and the host
pointer. -/
structure Probe where
  invalid : Bool
  other : Bool
  host : Option Nat
deriving Repr, DecidableEq

/-- A CPU in the state it made the call in. Pages are by number; an access type is whether it is a
store. -/
structure Cpu where
  /-- `TARGET_PAGE_BITS`. -/
  bits : Nat
  /-- The mode is User. -/
  user : Bool
  probe : Nat → Bool → Probe
  /-- `cpu_get_phys_page_attrs_debug`. -/
  walk : Nat → Option Nat
  /-- The bytes `address_space_rw` transfers at a physical address. -/
  bus : Nat → Nat → Bool → Nat

variable (cpu : Cpu)

/-- `TARGET_PAGE_SIZE`. -/
def Cpu.size : Nat := 2 ^ cpu.bits

/-- The length of the caller's buffer, which no object exceeds. -/
structure Length where
  bytes : Nat
  object : bytes < 2 ^ 63

/-- `UINT32_MAX`. -/
def uint32Max : Nat := 0xffffffff

/-- The last address of a run, as `vaddr` counts. -/
def lastOf (va len : Nat) : Nat := (va + len + (2 ^ 64 - 1)) % 2 ^ 64

/-- A page the caller's TLB has as plain RAM: no flag is set and there is a host pointer. -/
def Cpu.ram (write : Bool) (page : Nat) : Option Nat :=
  if (cpu.probe page write).invalid || (cpu.probe page write).other then none
  else (cpu.probe page write).host

/-- Copies through the host pointers, page by page (`guest_rw_ram`). Returns false, having possibly
copied part, when a page needs the full path. -/
def guestRwRam (va : Nat) (len : Length) (write : Bool) (v : View) : Bool × View :=
  if lastOf va len.bytes < va ∨ uint32Max < lastOf va len.bytes then
    (false, v)
  else
    copy cpu.size (cpu.ram write) (fun _ n => n) va len.bytes write len.bytes 0 v

/-- The debug access (`cpu_memory_rw_debug`). -/
def cpuMemoryRwDebug (va : Nat) (len : Length) (write : Bool) (v : View) :
    Bool × View :=
  copy cpu.size cpu.walk (fun pa n => cpu.bus pa n write) va len.bytes write len.bytes 0 v

/-- The loop that probes every page of a range: the first address whose page the caller may not
access. The fuel is the number of pages. -/
def probeRange (cpu : Cpu) (write : Bool) (last : Nat) : Nat → Nat → Option Nat
  | 0, _ => none
  | fuel + 1, p =>
    if (cpu.probe (p / cpu.size) write).invalid then
      some p
    else if p / cpu.size = last / cpu.size then
      none
    else
      probeRange cpu write last fuel ((p / cpu.size + 1) * cpu.size)

/-- The pages of a range. -/
def pageCount (va last : Nat) : Nat := last / cpu.size - va / cpu.size + 1

/-- The full path behind the plain copy: every page is probed, and then the debug access redoes the
whole range. A privileged caller gets the debug access whatever the probe says. -/
def guestCopySlow (va : Nat) (len : Length) (write : Bool) (last : Nat) (v : View) :
    Bool × View :=
  if (probeRange cpu write last (pageCount cpu va last) va).isSome && cpu.user then
    (false, v)
  else
    cpuMemoryRwDebug cpu va len write v

/-- What follows the plain copy: nothing more, or the full path if it stopped. -/
def guestCopyRest (va : Nat) (len : Length) (write : Bool) (last : Nat) :
    Bool × View → Bool × View
  | (true, v) => (true, v)
  | (false, v) => guestCopySlow cpu va len write last v

/-- Guest memory for a guest-services caller (`guest_copy`); true is its 0. -/
def guestCopy (address : UInt32) (len : Length) (write : Bool) (v : View) :
    Bool × View :=
  if len.bytes = 0 then
    (true, v)
  else if uint32Max < lastOf address.toNat len.bytes then
    (false, v)
  else
    guestCopyRest cpu address.toNat len write (lastOf address.toNat len.bytes)
      (guestRwRam cpu address.toNat len write v)

/-- The fault a GL call will raise when it returns (`gf`). -/
structure GuestFault where
  armed : Bool
  pending : Bool
  va : Nat
  write : Bool
deriving Repr, DecidableEq

/-- The full path of a GL access: the first page the caller may not access fails it, and becomes the
fault of an armed call. -/
def glesGuestSlow (gf : GuestFault) (va : Nat) (len : Length) (write : Bool)
    (last : Nat) (v : View) : (Bool × View) × GuestFault :=
  if gf.pending ∨ last < va ∨ uint32Max < last then
    ((false, v), gf)
  else
    match probeRange cpu write last (pageCount cpu va last) va with
    | some p =>
      ((false, v), if gf.armed then { gf with pending := true, va := p, write := write } else gf)
    | none => (cpuMemoryRwDebug cpu va len write v, gf)

/-- What follows the plain copy in a GL call. -/
def glesGuestRest (gf : GuestFault) (va : Nat) (len : Length) (write : Bool)
    (last : Nat) : Bool × View → (Bool × View) × GuestFault
  | (true, v) => ((true, v), gf)
  | (false, v) => glesGuestSlow cpu gf va len write last v

/-- Guest memory for a GL call (`gles_guest_rw`); true is its 0. -/
def glesGuestRw (gf : GuestFault) (address : UInt64) (len : Length) (write : Bool)
    (v : View) : (Bool × View) × GuestFault :=
  if len.bytes = 0 then
    (cpuMemoryRwDebug cpu address.toNat len write v, gf)
  else if gf.pending then
    glesGuestSlow cpu gf address.toNat len write (lastOf address.toNat len.bytes) v
  else
    glesGuestRest cpu gf address.toNat len write (lastOf address.toNat len.bytes)
      (guestRwRam cpu address.toNat len write v)

end QemuIos.Guest
