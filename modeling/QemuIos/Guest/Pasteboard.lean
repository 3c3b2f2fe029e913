import QemuIos.Lib.CText

/-!
# The pasteboard channel

`hw/arm/guest-pasteboard.c:119-347`: the host sets a text, the guest polls for it, reads it out in
windows and acknowledges it; the other way the guest writes windows and commits them. The outcome
of a `guest_copy` is part of the call, and so is the clock it reads. The warning timer and the
status texts are left out.
-/

namespace QemuIos.Pasteboard

open CText

def qcPbMaxLen : Nat := 256 * 1024

structure GuestPasteboard where
  pbOut : Option Bytes := none
  pbIn : Option Bytes := none
  pbGuest : Option Bytes := none
  pbLastPollNs : Int := 0
  pbPolls : UInt64 := 0
  pbPollsAtSet : UInt64 := 0
  pbDelivered : Option Bytes := none
  pbDeliveredNs : Int := 0
  pbDeliveries : UInt64 := 0
  guestText : Bytes := []
  guestTextSerial : UInt64 := 0
  peerRegistered : Bool := false
  /-- The text the peer last put on the host's clipboard. -/
  clipboard : Option Bytes := none

inductive Call where
  | poll (now : Int)
  /-- Read a window out to the guest, whose buffer takes it or faults. -/
  | read (offset length : UInt32) (copies : Bool)
  | ack (now : Int)
  /-- Write a window of the guest's buffer, which can be read or faults. -/
  | write (offset : UInt32) (window : Bytes) (copies : Bool)
  | commit
  deriving DecidableEq

inductive Errno where
  | efault
  | einval
  deriving DecidableEq

/-- `retval` and `*err`, and what was copied out to the guest. -/
structure Reply where
  retval : Int := 0
  err : Option Errno := none
  data : Bytes := []
  deriving DecidableEq

/-- `g_strndup(text, QC_PB_MAX_LEN)`, if there is a text at all. -/
def queued (text : Option Bytes) : Option Bytes :=
  match text.map cstr with
  | none | some [] => none
  | some text => some (text.take qcPbMaxLen)

namespace GuestPasteboard

def guestPbSet (pb : GuestPasteboard) (text : Option Bytes) : GuestPasteboard :=
  match queued text with
  | none => { pb with pbOut := none }
  | some text => { pb with pbOut := some text, pbPollsAtSet := pb.pbPolls }

def guestPbGuestCommit (pb : GuestPasteboard) : GuestPasteboard :=
  match pb.pbIn with
  | none => { pb with pbGuest := none }
  | some bytes =>
    { pb with
      pbGuest := some bytes
      pbIn := none
      guestText := cstr bytes
      guestTextSerial := pb.guestTextSerial + 1
      peerRegistered := true
      clipboard := some bytes }

def guestPbCall (pb : GuestPasteboard) : Call → GuestPasteboard × Reply
  | .poll now =>
    ({ pb with pbPolls := pb.pbPolls + 1, pbLastPollNs := now },
      { retval := (pb.pbOut.map List.length).getD 0 })
  | .read offset length copies =>
    match pb.pbOut with
    | none => (pb, {})
    | some text =>
      if text.length ≤ offset.toNat then (pb, {})
      else
        let len := min length.toNat (text.length - offset.toNat)
        if copies then (pb, { retval := len, data := (text.drop offset.toNat).take len })
        else (pb, { retval := -1, err := some .efault })
  | .ack now =>
    match pb.pbOut with
    | none => (pb, {})
    | some text =>
      ({ pb with
         pbOut := none, pbDelivered := some text, pbDeliveredNs := now
         pbDeliveries := pb.pbDeliveries + 1 }, {})
  | .write offset window copies =>
    -- Offset 0 starts a fresh item; anything else has to go on with the one being staged.
    let staged := if offset = 0 then none else pb.pbIn
    let start := staged.getD []
    if offset.toNat ≠ start.length ∨ qcPbMaxLen < window.length ∨
        qcPbMaxLen < offset.toNat + window.length then
      ({ pb with pbIn := none }, { retval := -1, err := some .einval })
    else if copies then ({ pb with pbIn := some (start ++ window) }, { retval := window.length })
    else ({ pb with pbIn := none }, { retval := -1, err := some .efault })
  | .commit =>
    if pb.pbIn.isNone then (pb, { retval := -1, err := some .einval })
    else (pb.guestPbGuestCommit, {})

end GuestPasteboard

/-- One turn of the two parties. -/
inductive Event where
  | hostSet (text : Option Bytes)
  | call (c : Call)
  deriving DecidableEq

/-- The state, and the turns taken so far with their replies. -/
def step (s : GuestPasteboard × List (Event × Reply)) :
    Event → GuestPasteboard × List (Event × Reply)
  | .hostSet text => (s.1.guestPbSet text, s.2 ++ [(.hostSet text, {})])
  | .call c => ((s.1.guestPbCall c).1, s.2 ++ [(.call c, (s.1.guestPbCall c).2)])

def run (events : List Event) : GuestPasteboard × List (Event × Reply) := events.foldl step ({}, [])

end QemuIos.Pasteboard
