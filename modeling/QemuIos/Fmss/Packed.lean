import QemuIos.Fmc.Store

/-!
# The packed base image of the FMSS

The pages of the iPod touch's flash in one file: a header, an index with one word for each page of
each chip select, and the records that the index counts from 1. The file is mapped once and every
bound comes out of it (`fmss_try_map_packed`, `hw/arm/ipod_touch_fmss.c`). A read gives the accesses
to the mapping with its result, as offset and length.
-/

namespace QemuIos.Fmss

open Fmc (HostFile)

def bytesPerPage : Nat := 4096
def bytesPerSpare : Nat := 64
def pagesPerBlock : Nat := 128
def blocksPerChip : Nat := 4096
def chips : Nat := 4

/-- The data of a page and its spare. -/
structure Record where
  data : Mem
  spare : Mem

/-- The bytes of a page and its spare together. -/
def bytesPerRecord : Nat := bytesPerPage + bytesPerSpare

/-- A packed image that has been mapped. -/
structure Packed where
  file : HostFile
  numCs : Nat
  pagesPerCs : Nat
  /-- Where the records start. -/
  records : Nat
  recordCount : Nat

/-- `fmss_try_map_packed`. The size of the index is computed in a `size_t`. -/
def tryMapPacked (file : HostFile) : Option Packed :=
  if file.len < 24 ∨ (List.range 8).map file.bytes ≠ CText.ascii "ITNAND01" then none
  else if file.bytes.word 8 ≠ bytesPerPage ∨ file.bytes.word 12 ≠ bytesPerSpare then none
  else
    let numCs := file.bytes.word 16
    let pagesPerCs := file.bytes.word 20
    let indexBytes := numCs * pagesPerCs * 4 % 2 ^ 64
    if file.len - 24 < indexBytes then none
    else
      some {
        file := file
        numCs := numCs
        pagesPerCs := pagesPerCs
        records := 24 + indexBytes
        recordCount := (file.len - 24 - indexBytes) / bytesPerRecord }

/-- `FMSSPackedRead`. -/
inductive PackedRead where
  | invalid
  | hole
  | data (r : Record)

/-- `fmss_packed_page`. -/
def packedPage (p : Packed) (cs page : Nat) : PackedRead × List (Nat × Nat) :=
  if p.numCs ≤ cs ∨ p.pagesPerCs ≤ page then (.invalid, [])
  else
    let index := 24 + 4 * (cs * p.pagesPerCs + page)
    let slot := p.file.bytes.word index
    if slot = 0 then (.hole, [(index, 4)])
    else if p.recordCount < slot then (.invalid, [(index, 4)])
    else
      let start := p.records + (slot - 1) * bytesPerRecord
      (.data ⟨p.file.bytes.slice start, p.file.bytes.slice (start + bytesPerPage)⟩,
        [(index, 4), (start, bytesPerPage), (start + bytesPerPage, bytesPerSpare)])

end QemuIos.Fmss
