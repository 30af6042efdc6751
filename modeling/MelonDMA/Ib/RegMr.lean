import MelonDMA.Core.Pin
import MelonDMA.Hw.CreateMkey
import MelonDMA.Ib.MrTable

/-!
# The command that registers a region

`MlxMR::RegMR` up to its `CREATE_MKEY`: the memory is pinned, a page size is chosen, the pages are listed,
from the pinned pages of a small region, in a row for a large one that is contiguous, and segment by
segment for any other, and the command is encoded. Whatever the path, the entries that the firmware reads
translate every byte of the client's range to the device address of that byte
(`createMkey_translates`).

What becomes of the command, and the table of regions, is `MrTable.regMr`.
-/

namespace MelonDMA.Ib

open MelonDMA.Lib MelonDMA.Core MelonDMA.Hw

/-- Source: `MLX_CMD_MAX_SIZE`. -/
def cmdMaxSize : ℕ := 4112

/-- Source: `MLX_CMD_MAX_INPUT_SIZE`. -/
def cmdMaxInputSize : ℕ := 524304

/-- What a registration finds. -/
structure RegMrWorld extends PinWorld where
  /-- The device's limit on the page size, `0` when it is not known. -/
  maxMttLogPageSize : ℕ
  /-- The buffers of a large command can be allocated. -/
  allocated : Bool
  /-- The variant of the key. -/
  variant : ℕ

/-- The command that is sent. -/
structure MkeyCommand where
  input : List Byte
  inputSize : ℕ
  /-- Translation entries written. -/
  pageCount : ℕ
  deriving DecidableEq, Repr

/-- The pages of a region, the log of their size and the room for the command. -/
structure RegionPages where
  pageShift : ℕ
  pas : List ℕ
  capacity : ℕ
  deriving DecidableEq, Repr

/-- The pages of a pinned region. Source: the part of `MlxMR::RegMR` between `Pin` and
`mlxEncodeCreateMkey`. -/
def regionPages (w : RegMrWorld) (req : RegMrReq) (dma : DmaReq) : Except KernReturn RegionPages :=
  if maxDmaPages * 4096 < req.length then
    let pageShift :=
      if dma.contiguous = true then
        mlxPickMttPageShift req.startAddr dma.iovaBase
          (if w.maxMttLogPageSize ≠ 0 then w.maxMttLogPageSize else mttMaxPageShift)
      else mttPageShift
    let pageCount := mlxMttPageCountShift req.startAddr req.length pageShift % 2 ^ 32
    let capacity := mlxCreateMkeyInputSize pageCount
    if pageShift = 0 ∨ pageCount = 0 ∨ cmdMaxInputSize < capacity then .error .noSpace
    else if w.allocated = false then .error .noMemory
    else
      let built :=
        if dma.contiguous = true then
          mlxBuildContiguousPas dma.iovaBase req.startAddr req.length pageShift pageCount
        else
          (mlxBuildSegmentPas dma.segments req.startAddr req.length pageCount).filter
            fun pas => pas.length = pageCount
      match built with
      | none => .error .noSpace
      | some pas => .ok ⟨pageShift, pas, capacity⟩
  else .ok ⟨mttPageShift, dma.pageDMA, cmdMaxSize⟩

/-- The command that `MlxMR::RegMR` sends. -/
def regMrCommand (w : RegMrWorld) (req : RegMrReq) : Except KernReturn MkeyCommand :=
  if req.startAddr = 0 ∨ req.length = 0 ∨ (req.startAddr + req.length) % 2 ^ 64 < req.startAddr then
    .error .badArgument
  else
    match pin w.toPinWorld with
    | .error kr => .error kr
    | .ok dma =>
        if dma.iovaBase % 4096 ≠ req.startAddr % 4096 then .error .badArgument
        else
          match regionPages w req dma with
          | .error kr => .error kr
          | .ok pages =>
              match mlxEncodeCreateMkey (zeroBytes pages.capacity) pages.pas req.startAddr req.length
                  (req.accessFlags % 2 ^ 5) req.pd w.variant pages.pageShift with
              | none => .error .badArgument
              | some (output, inputSize) => .ok ⟨sentMkey output, inputSize, pages.pas.length⟩

section

variable {w : RegMrWorld} {req : RegMrReq} {dma : DmaReq} {segs : List DmaSegment} {pages : RegionPages}

/-- Whatever the path, the pages translate the range. -/
lemma maps_regionPages (hsegs : w.prepare = .ok segs) (hpin : pin w.toPinWorld = .ok dma)
    (hcover : totalLength segs = req.length) (hlen : req.length < 2 ^ 64)
    (hcong : dma.iovaBase % 4096 = req.startAddr % 4096) (h : regionPages w req dma = .ok pages) :
    Maps pages.pageShift req.startAddr pages.pas (byteAddress segs) req.length := by
  obtain ⟨hcovers, hsegments, hbase, hcontiguous, hpages⟩ := pin_spec hsegs hpin
  obtain ⟨hnonempty, htotal, hfits⟩ := cover_spec hcovers
  have hmem : w.memLen = req.length := htotal.symm.trans hcover
  have hfits := hfits (by omega)
  unfold regionPages at h
  by_cases hlarge : maxDmaPages * 4096 < req.length
  · rw [if_pos hlarge] at h
    cases hone : dma.contiguous with
    | true =>
        rw [hone] at h hcontiguous
        obtain ⟨seg, rest, rfl⟩ := List.exists_cons_of_ne_nil hnonempty
        have hiova : dma.iovaBase = seg.address := hbase
        dsimp only at h
        rw [if_pos rfl, if_pos rfl] at h
        generalize (if w.maxMttLogPageSize ≠ 0 then w.maxMttLogPageSize else mttMaxPageShift) = limit at h
        split_ifs at h with hbad halloc
        push Not at hbad
        split at h
        · cases h
        · rename_i pas hbuilt
          obtain rfl := Except.ok.inj h
          have hend := end_of_consecutive hcontiguous.symm hfits
          rw [hcover, ← hiova] at hend
          have hmaps := maps_mlxBuildContiguousPas hbuilt (mlxPickMttPageShift_spec hbad.1) hend
          apply hmaps.addr_congr
          intro i hi
          rw [byteAddress_consecutive hcontiguous.symm (by omega), hiova]
    | false =>
        rw [hone] at h
        dsimp only at h
        rw [if_neg Bool.false_ne_true, if_neg Bool.false_ne_true] at h
        split_ifs at h with hbad halloc
        split at h
        · cases h
        · rename_i pas hbuilt
          obtain rfl := Except.ok.inj h
          obtain ⟨hbuilt, -⟩ := Option.filter_eq_some_iff.mp hbuilt
          rw [hsegments] at hbuilt
          have hmaps := maps_mlxBuildSegmentPas hbuilt
          rwa [hcover] at hmaps
  · rw [if_neg hlarge] at h
    obtain rfl := Except.ok.inj h
    rw [hmem, if_pos (not_lt.mp hlarge)] at hpages
    have hmaps := maps_mlxBuildSegmentPas hpages
    rw [hcover] at hmaps
    exact hmaps.congr hcong

/-- The entries that the firmware reads translate every byte of the range to the device address of that
byte of the segments, on every path; and as many entries were written as the range has pages, which is what
both counts of the command declare, two entries to an octword, and its size has room for. -/
theorem createMkey_translates {cmd : MkeyCommand} (hstart : req.startAddr < 2 ^ 64)
    (hlen : req.length < 2 ^ 64) (hsegs : w.prepare = .ok segs) (hcover : totalLength segs = req.length)
    (h : regMrCommand w req = .ok cmd) :
    (∀ i < req.length, readTranslation cmd.input (req.startAddr + i) = byteAddress segs i) ∧
      cmd.pageCount = pageCount (readPageShift cmd.input) req.startAddr req.length ∧
      getBits cmd.input (mkc 0x1a0) 32 = (cmd.pageCount + 1) / 2 ∧
      getBits cmd.input createMkeyActualXltBitOffset 32 = (cmd.pageCount + 1) / 2 ∧
      cmd.inputSize = createMkeyFixedBytes + (cmd.pageCount + 1) / 2 * 16 := by
  unfold regMrCommand at h
  split_ifs at h with hreq
  split at h
  · cases h
  · rename_i dma hpin
    split_ifs at h with hcong
    split at h
    · cases h
    · rename_i pages hpages
      split at h
      · cases h
      · rename_i output inputSize hencode
        obtain rfl := Except.ok.inj h
        have hmaps := maps_regionPages hsegs hpin hcover hlen (not_not.mp hcong) hpages
        obtain ⟨hcovers, -⟩ := pin_spec hsegs hpin
        obtain ⟨-, htotal, hfits⟩ := cover_spec hcovers
        have hfits := hfits (by omega)
        have hsmall : ∀ page ∈ pages.pas, page < 2 ^ 64 := by
          intro page hpage
          obtain ⟨k, hk, rfl⟩ := List.getElem_of_mem hpage
          obtain ⟨i, hi, hle⟩ := hmaps.page_le hk
          exact Nat.lt_of_le_of_lt hle (byteAddress_lt hfits (by omega))
        obtain ⟨-, -, -, -, -, -, hsize⟩ := mlxEncodeCreateMkey_fields hencode
        obtain ⟨hshift, haddr, hentries, hxlt, hactual⟩ := read_sentMkey hencode hstart hsmall
        refine ⟨?_, ?_, hxlt, hactual, hsize⟩
        · intro i hi
          have hbyte := hmaps.byte i hi
          obtain ⟨page, hpage, hsum⟩ := Option.map_eq_some_iff.mp hbyte
          obtain ⟨hk, rfl⟩ := List.getElem?_eq_some_iff.mp hpage
          rw [readTranslation, hshift, haddr, hentries _ hk]
          exact hsum
        · rw [hshift]
          exact hmaps.count

end

/-- A page and a half in two segments, the first of which begins in the middle of a page. -/
def splitWorld : RegMrWorld where
  quarantined := false
  memLen := 0x1800
  pinnedBytes := 0
  hostPage := 0x4000
  prepare := .ok [⟨0x90800, 0x800⟩, ⟨0x70000, 0x1000⟩]
  maxMttLogPageSize := 0
  allocated := true
  variant := 1

/-- The region of `splitWorld` is registered, and all of it translated. -/
theorem createMkey_translates_split : ∃ cmd, regMrCommand splitWorld ⟨7, 0x10800, 0x1800, 3⟩ = .ok cmd ∧
    ∀ i < 0x1800, readTranslation cmd.input (0x10800 + i) =
      byteAddress [⟨0x90800, 0x800⟩, ⟨0x70000, 0x1000⟩] i := by
  have hok : (regMrCommand splitWorld ⟨7, 0x10800, 0x1800, 3⟩).isOk = true := by decide +kernel
  cases hcmd : regMrCommand splitWorld ⟨7, 0x10800, 0x1800, 3⟩ with
  | error kr =>
      rw [hcmd] at hok
      cases hok
  | ok cmd =>
      exact ⟨cmd, rfl, (createMkey_translates (by decide) (by decide) rfl (by decide) hcmd).1⟩

end MelonDMA.Ib
