import MelonDMA.Core.Cmd
import MelonDMA.Lib.Chain
import Mathlib.Logic.Function.Basic

/-!
# Mailbox chains

`MlxCmd.cpp`, `ReleaseChain`, `AllocMailbox` and `SetMailboxSignature`: the chain of 576-byte blocks that
one direction of a command slot keeps between commands. Each block is at the start of a page of its own;
the firmware reaches a page by a bus address, which the IOMMU translates (`DmaMemory.dart`).

What the operating system answers to an allocation, to `PrepareForDMA` and to `Map` is an input
(`DmaAnswer`). `Chain.Ok` says that every block of a chain is reached by the bus address recorded for it,
and `allocMailbox_ok` that `AllocMailbox` keeps it so for both chains of a slot.
-/

namespace MelonDMA.Core

open MelonDMA.Lib

/-! ## Mailboxes -/

/-- `MLX_CMD_DATA_BLOCK_SIZE`. -/
def cmdDataBlockSize : ℕ := 512

/-- `MLX_CMD_MAX_BLOCKS`. -/
def cmdMaxBlocks : ℕ := 1024

/-- `MLX_CMD_CACHE_MAX_BLOCKS`. -/
def cmdCacheMaxBlocks : ℕ := 64

/-- One mailbox block; `next` and `blockNum` are stored in big-endian order.
Source: `MlxCmd.hpp`, `struct MlxCmdMailbox`. -/
structure MlxCmdMailbox where
  data : Block 512
  rsvd0 : Block 48
  next : ℕ
  blockNum : ℕ
  rsvd1 : Byte
  token : Byte
  ctrlSig : Byte
  sig : Byte

/-- A block of zeros. -/
def MlxCmdMailbox.zero : MlxCmdMailbox := ⟨.zero 512, .zero 48, 0, 0, 0, 0, 0, 0⟩

/-- The 576 bytes of a block. -/
def MlxCmdMailbox.bytes (mb : MlxCmdMailbox) : List Byte :=
  mb.data.bytes ++ mb.rsvd0.bytes ++ beBytes 8 mb.next ++ beBytes 4 mb.blockNum ++
    [mb.rsvd1, mb.token, mb.ctrlSig, mb.sig]

/-- Exclusive or of bytes.
Source: `MlxCmd.cpp`, `xor8`. -/
def xor8 (bytes : List Byte) : Byte := bytes.foldl (· ^^^ ·) 0

/-- Both checksums of a block.
Source: `MlxCmd.cpp`, `MlxCmd::SetMailboxSignature`. -/
def setMailboxSignature (mb : MlxCmdMailbox) : MlxCmdMailbox :=
  let mb := { mb with ctrlSig := ~~~xor8 ((mb.bytes.drop 512).take (576 - 512 - 2)) }
  { mb with sig := ~~~xor8 (mb.bytes.take (576 - 1)) }

/-- The accumulator of the loop comes in at the end. -/
lemma foldl_xor_eq (acc : Byte) (bytes : List Byte) :
    bytes.foldl (· ^^^ ·) acc = acc ^^^ xor8 bytes := by
  induction bytes generalizing acc with
  | nil => exact BitVec.xor_zero.symm
  | cons b bytes ih =>
      have hzero : (0 : Byte) ^^^ b = b := BitVec.zero_xor
      rw [xor8, List.foldl_cons, List.foldl_cons, ih, ih (0 ^^^ b), hzero, BitVec.xor_assoc]

lemma xor8_append (l r : List Byte) : xor8 (l ++ r) = xor8 l ^^^ xor8 r := by
  rw [xor8, List.foldl_append, foldl_xor_eq]
  rfl

lemma xor8_singleton (b : Byte) : xor8 [b] = b := BitVec.zero_xor

/-- A byte and its complement. -/
lemma xor_complement (b : Byte) : b ^^^ ~~~b = 0xff := by
  rw [← BitVec.not_xor_right, BitVec.xor_self]
  rfl

/-- The complement of a checksum closes the bytes it is computed over. -/
lemma xor8_sealed (l : List Byte) : xor8 (l ++ [~~~xor8 l]) = 0xff := by
  rw [xor8_append, xor8_singleton, xor_complement]

/-- The same for a byte in the middle that was zero. -/
lemma xor8_sealed_within (l r : List Byte) : xor8 (l ++ [~~~xor8 (l ++ [0] ++ r)] ++ r) = 0xff := by
  have hzero : xor8 (l ++ [0] ++ r) = xor8 l ^^^ xor8 r := by
    rw [xor8_append, xor8_append, xor8_singleton]
    exact congrArg (· ^^^ xor8 r) BitVec.xor_zero
  rw [hzero, xor8_append, xor8_append, xor8_singleton, BitVec.xor_assoc, BitVec.xor_comm _ (xor8 r),
    ← BitVec.xor_assoc, xor_complement]

/-- The bytes of a block before its checksums. -/
def MlxCmdMailbox.covered (mb : MlxCmdMailbox) : List Byte :=
  mb.data.bytes ++ mb.rsvd0.bytes ++ beBytes 8 mb.next ++ beBytes 4 mb.blockNum ++ [mb.rsvd1, mb.token]

lemma MlxCmdMailbox.bytes_eq (mb : MlxCmdMailbox) : mb.bytes = mb.covered ++ [mb.ctrlSig] ++ [mb.sig] := by
  rw [MlxCmdMailbox.bytes, MlxCmdMailbox.covered]
  simp only [List.append_assoc, List.cons_append, List.nil_append]

lemma MlxCmdMailbox.length_covered (mb : MlxCmdMailbox) : mb.covered.length = 574 := by
  simp only [MlxCmdMailbox.covered, List.length_append, mb.data.length_eq, mb.rsvd0.length_eq,
    length_beBytes, List.length_cons, List.length_nil]

/-- The bytes that the first checksum of a block is computed over. -/
lemma MlxCmdMailbox.control_eq (mb : MlxCmdMailbox) :
    (mb.bytes.drop 512).take 62 = mb.covered.drop 512 := by
  have hlength : (mb.covered.drop 512).length = 62 := by rw [List.length_drop, mb.length_covered]
  rw [mb.bytes_eq, List.append_assoc, List.drop_append_of_le_length (by rw [mb.length_covered]; omega)]
  exact List.take_left' hlength

/-- The same bytes with the checksum. -/
lemma MlxCmdMailbox.control_with_eq (mb : MlxCmdMailbox) :
    (mb.bytes.drop 512).take 63 = mb.covered.drop 512 ++ [mb.ctrlSig] := by
  have hlength : (mb.covered.drop 512 ++ [mb.ctrlSig]).length = 63 := by
    rw [List.length_append, List.length_drop, mb.length_covered, List.length_singleton]
  rw [mb.bytes_eq, List.append_assoc, List.drop_append_of_le_length (by rw [mb.length_covered]; omega),
    ← List.append_assoc]
  exact List.take_left' hlength

/-- The bytes that the second checksum of a block is computed over. -/
lemma MlxCmdMailbox.whole_eq (mb : MlxCmdMailbox) : mb.bytes.take 575 = mb.covered ++ [mb.ctrlSig] := by
  have hlength : (mb.covered ++ [mb.ctrlSig]).length = 575 := by
    rw [List.length_append, mb.length_covered, List.length_singleton]
  rw [mb.bytes_eq]
  exact List.take_left' hlength

/-- Both checksums of a block are right: over the bytes behind the data, with the checksum itself, and
over the whole block. -/
structure MlxCmdMailbox.Signed (mb : MlxCmdMailbox) : Prop where
  control : xor8 ((mb.bytes.drop 512).take 63) = 0xff
  whole : xor8 mb.bytes = 0xff

/-- A block is signed whatever it holds: the checksum over the whole block is computed last, and over the
other one as well. -/
lemma setMailboxSignature_signed (mb : MlxCmdMailbox) : (setMailboxSignature mb).Signed := by
  have hcovered : (setMailboxSignature mb).covered = mb.covered := rfl
  have hctrl : (setMailboxSignature mb).ctrlSig = ~~~xor8 (mb.covered.drop 512) :=
    congrArg (fun bytes => ~~~xor8 bytes) mb.control_eq
  have hsig : (setMailboxSignature mb).sig =
      ~~~xor8 (mb.covered ++ [(setMailboxSignature mb).ctrlSig]) :=
    congrArg (fun bytes => ~~~xor8 bytes)
      (MlxCmdMailbox.whole_eq { mb with ctrlSig := (setMailboxSignature mb).ctrlSig })
  constructor
  · rw [MlxCmdMailbox.control_with_eq, hcovered, hctrl]
    exact xor8_sealed _
  · rw [MlxCmdMailbox.bytes_eq, hcovered, hsig]
    exact xor8_sealed _

/-! ## DMA memory -/

/-- The block at the start of each page, and the page that each bus address names. -/
structure DmaMemory where
  page : ℕ → MlxCmdMailbox
  dart : ℕ → Option ℕ

/-- The operating system's answers about one buffer: what allocating, preparing and mapping it return,
the bus segments it was given and its pages in order. -/
structure DmaAnswer where
  allocKr : KernReturn
  prepareKr : KernReturn
  segments : List (ℕ × ℕ)
  mapKr : KernReturn
  mappedLength : ℕ
  pages : ℕ → ℕ

/-- The bus address of a byte of a buffer with these segments. -/
def busAt : List (ℕ × ℕ) → ℕ → Option ℕ
  | [], _ => none
  | (address, length) :: rest, offset =>
      if offset < length then some (address + offset) else busAt rest (offset - length)

/-- The translations once the first pages of a buffer are prepared. -/
def DmaAnswer.prepared (buf : DmaAnswer) (n : ℕ) (dart : ℕ → Option ℕ) (a : ℕ) : Option ℕ :=
  match (List.range n).find? fun i => busAt buf.segments (i * 4096) == some a with
  | some i => some (buf.pages i)
  | none => dart a

/-- The loop over the segments of the fast path: each starts where the one before ends. -/
def contiguous : List (ℕ × ℕ) → Bool
  | [] => false
  | [_] => true
  | first :: second :: rest => second.1 == first.1 + first.2 && contiguous (second :: rest)

/-- The bytes that segments span. -/
def segmentSpan (segments : List (ℕ × ℕ)) : ℕ := (segments.map Prod.snd).sum

/-! ## Chains -/

/-- One direction of a command slot.
Source: `MlxCmd.cpp`, `struct MlxCmdChain`. -/
structure MlxCmdChain where
  /-- The page of each block. -/
  box : ℕ → ℕ
  /-- The bus address of each block. -/
  iova : ℕ → ℕ
  /-- Blocks the current command uses. -/
  blocks : ℕ
  /-- Blocks allocated and kept for reuse. -/
  cached : ℕ
  /-- The blocks are one contiguous buffer. -/
  single : Bool

/-- No blocks. -/
def MlxCmdChain.zero : MlxCmdChain := ⟨fun _ => 0, fun _ => 0, 0, 0, false⟩

/-- The chain has this bus address. -/
def MlxCmdChain.hasAddress (c : MlxCmdChain) (a : ℕ) : Bool := (List.range c.cached).any (c.iova · == a)

/-- Give a chain's blocks back; in quarantine they stay prepared.
Source: `MlxCmd.cpp`, `MlxCmd::ReleaseChain`. -/
def releaseChain (keep : Bool) (c : MlxCmdChain) (m : DmaMemory) : MlxCmdChain × DmaMemory :=
  ({ box := fun i => if i < c.cached then 0 else c.box i
     iova := fun i => if i < c.cached then 0 else c.iova i
     blocks := 0
     cached := 0
     single := false },
   if keep then m else { m with dart := fun a => if c.hasAddress a then none else m.dart a })

/-- The blocks that a command of this many bytes needs beside its first 16. -/
def blocksFor (size : ℕ) : ℕ :=
  if size > 16 then (size - 16 + cmdDataBlockSize - 1) / cmdDataBlockSize else 0

/-- The fast path: one buffer whose bus addresses are contiguous. -/
def fastBlocks (buf : DmaAnswer) (n : ℕ) (c : MlxCmdChain) (m : DmaMemory) :
    Option (MlxCmdChain × DmaMemory) :=
  match buf.segments with
  | [] => none
  | (iovaBase, length) :: rest =>
      if buf.allocKr = .success ∧ buf.prepareKr = .success ∧
          contiguous ((iovaBase, length) :: rest) = true ∧
          segmentSpan ((iovaBase, length) :: rest) ≥ n * 4096 ∧
          buf.mapKr = .success ∧ buf.mappedLength ≥ n * 4096 then
        some
          ({ c with
              box := fun i => if i < n then buf.pages i else c.box i
              iova := fun i => if i < n then iovaBase + i * 4096 else c.iova i
              single := true
              cached := n
              blocks := n },
           { page := fun p => if (List.range n).any (buf.pages · == p) then .zero else m.page p
             dart := buf.prepared n m.dart })
      else none

/-- The result of an allocation. -/
structure AllocResult where
  kr : KernReturn
  chain : MlxCmdChain
  mem : DmaMemory

/-- An allocation that fails gives back what it has. -/
def allocFailed (kr : KernReturn) (keep : Bool) (c : MlxCmdChain) (m : DmaMemory) : AllocResult :=
  ⟨kr, (releaseChain keep c m).1, (releaseChain keep c m).2⟩

/-- The loop that allocates block by block, from block `i` on. -/
def slowBlocks (keep : Bool) (block : ℕ → DmaAnswer) : ℕ → ℕ → MlxCmdChain → DmaMemory → AllocResult
  | 0, i, c, m => ⟨.success, { c with cached := i, blocks := i }, m⟩
  | left + 1, i, c, m =>
      let buf := block i
      if buf.allocKr ≠ .success then allocFailed buf.allocKr keep { c with cached := i } m
      else if buf.prepareKr ≠ .success then allocFailed buf.prepareKr keep { c with cached := i } m
      else
        match buf.segments with
        | [] => allocFailed .noMemory keep { c with cached := i } m
        | (address, _) :: _ =>
            let c := { c with iova := Function.update c.iova i address }
            let m := { m with dart := buf.prepared 1 m.dart }
            if buf.mapKr ≠ .success then allocFailed buf.mapKr keep { c with cached := i + 1 } m
            else
              slowBlocks keep block left (i + 1) { c with box := Function.update c.box i (buf.pages 0) }
                { m with page := Function.update m.page (buf.pages 0) .zero }

/-- Make the chain hold at least `size` bytes of command data.
Source: `MlxCmd.cpp`, `MlxCmd::AllocMailbox`. -/
def allocMailbox (keep : Bool) (fast : DmaAnswer) (block : ℕ → DmaAnswer) (c : MlxCmdChain)
    (m : DmaMemory) (size : ℕ) : AllocResult :=
  let numBlocks := blocksFor size
  if numBlocks > cmdMaxBlocks then ⟨.noSpace, c, m⟩
  else
    let c := { c with blocks := 0 }
    if numBlocks = 0 then ⟨.success, c, m⟩
    else
      -- an oversized chain is not pinned
      let cm := if c.cached > cmdCacheMaxBlocks ∧ numBlocks < c.cached then releaseChain keep c m else (c, m)
      if numBlocks ≤ cm.1.cached then ⟨.success, { cm.1 with blocks := numBlocks }, cm.2⟩
      else
        let cm := releaseChain keep cm.1 cm.2
        match fastBlocks fast numBlocks cm.1 cm.2 with
        | some done => ⟨.success, done.1, done.2⟩
        | none => slowBlocks keep block numBlocks 0 cm.1 cm.2

/-! ## The chains of a slot -/

/-- Each block of a chain is on a page of its own, and its bus address names the page. -/
structure MlxCmdChain.Ok (c : MlxCmdChain) (m : DmaMemory) : Prop where
  mapped : ∀ i < c.cached, m.dart (c.iova i) = some (c.box i)
  distinct : ∀ i < c.cached, ∀ j < c.cached, c.box i = c.box j → i = j
  used : c.blocks ≤ c.cached

/-- Two chains share no page and no bus address. -/
structure MlxCmdChain.Apart (c other : MlxCmdChain) : Prop where
  box : ∀ i < c.cached, ∀ j < other.cached, c.box i ≠ other.box j
  iova : ∀ i < c.cached, ∀ j < other.cached, c.iova i ≠ other.iova j

/-- Pages and bus addresses that the operating system hands out are distinct, and not those of a chain
that is kept. -/
structure HandedOut (n : ℕ) (page : ℕ → ℕ) (address : ℕ → Option ℕ) (other : MlxCmdChain) : Prop where
  page_distinct : ∀ i < n, ∀ j < n, page i = page j → i = j
  page_apart : ∀ i < n, ∀ j < other.cached, page i ≠ other.box j
  address_distinct : ∀ i < n, ∀ j < n, ∀ a, address i = some a → address j = some a → i = j
  address_apart : ∀ i < n, ∀ j < other.cached, address i ≠ some (other.iova j)

/-- The operating system's answers to an allocation beside a chain that is kept: memory that is in use is
not handed out again, and no bus segment is empty. -/
structure Honest (fast : DmaAnswer) (block : ℕ → DmaAnswer) (n : ℕ) (other : MlxCmdChain) : Prop where
  fast_out : HandedOut n fast.pages (fun i => busAt fast.segments (i * 4096)) other
  block_out : HandedOut n (fun i => (block i).pages 0) (fun i => busAt (block i).segments 0) other
  block_nonempty : ∀ i < n, ∀ segment ∈ (block i).segments, 0 < segment.2

section Prepared

variable {buf : DmaAnswer} {n : ℕ} {dart : ℕ → Option ℕ} {a : ℕ}

/-- A bus address of the buffer names its page. -/
lemma DmaAnswer.prepared_of_eq {i : ℕ} (hi : i < n) (ha : busAt buf.segments (i * 4096) = some a)
    (hdistinct : ∀ i < n, ∀ j < n, ∀ a, busAt buf.segments (i * 4096) = some a →
      busAt buf.segments (j * 4096) = some a → i = j) :
    buf.prepared n dart a = some (buf.pages i) := by
  unfold DmaAnswer.prepared
  cases hfound : (List.range n).find? fun i => busAt buf.segments (i * 4096) == some a with
  | none =>
      rw [List.find?_eq_none] at hfound
      exact absurd (by simp [ha]) (hfound i (List.mem_range.mpr hi))
  | some j =>
      have hj := List.mem_range.mp (List.mem_of_find?_eq_some hfound)
      have hja := List.find?_some hfound
      rw [beq_iff_eq] at hja
      rw [hdistinct i hi j hj a ha hja]

/-- Other bus addresses name what they did. -/
lemma DmaAnswer.prepared_of_ne (h : ∀ i < n, busAt buf.segments (i * 4096) ≠ some a) :
    buf.prepared n dart a = dart a := by
  unfold DmaAnswer.prepared
  cases hfound : (List.range n).find? fun i => busAt buf.segments (i * 4096) == some a with
  | none => rfl
  | some j =>
      have hj := List.mem_range.mp (List.mem_of_find?_eq_some hfound)
      have hja := List.find?_some hfound
      rw [beq_iff_eq] at hja
      exact absurd hja (h j hj)

/-- In contiguous segments a byte is at its distance from the first one. -/
lemma busAt_of_contiguous {address length : ℕ} {rest : List (ℕ × ℕ)} {offset : ℕ}
    (hcontiguous : contiguous ((address, length) :: rest) = true)
    (hspan : offset < segmentSpan ((address, length) :: rest)) :
    busAt ((address, length) :: rest) offset = some (address + offset) := by
  induction rest generalizing address length offset with
  | nil =>
      have hlt : offset < length := by simpa [segmentSpan] using hspan
      rw [busAt, if_pos hlt]
  | cons second rest ih =>
      obtain ⟨address', length'⟩ := second
      rw [contiguous, Bool.and_eq_true, beq_iff_eq] at hcontiguous
      obtain ⟨hstart, hrest⟩ := hcontiguous
      dsimp only at hstart
      rw [busAt]
      by_cases hlt : offset < length
      · rw [if_pos hlt]
      · have hspan' : offset - length < segmentSpan ((address', length') :: rest) := by
          simp only [segmentSpan, List.map_cons, List.sum_cons] at hspan ⊢
          omega
        rw [if_neg hlt, ih hrest hspan', hstart]
        congr 1
        omega

/-- The first byte is where the first segment starts. -/
lemma busAt_zero {address length : ℕ} {rest : List (ℕ × ℕ)} (h : 0 < length) :
    busAt ((address, length) :: rest) 0 = some address := by
  rw [busAt, if_pos h, Nat.add_zero]

end Prepared

section Allocation

variable {keep : Bool} {fast : DmaAnswer} {block : ℕ → DmaAnswer} {c other : MlxCmdChain} {m : DmaMemory}
  {n : ℕ}

/-- A chain without blocks is in order. -/
lemma MlxCmdChain.Ok.of_empty (hcached : c.cached = 0) (hblocks : c.blocks = 0) : c.Ok m :=
  ⟨fun i hi => by omega, fun i hi => by omega, by omega⟩

lemma MlxCmdChain.Apart.of_empty (hcached : c.cached = 0) : c.Apart other :=
  ⟨fun i hi => by omega, fun i hi => by omega⟩

lemma MlxCmdChain.Apart.symm (h : c.Apart other) : other.Apart c :=
  ⟨fun i hi j hj => (h.box j hj i hi).symm, fun i hi j hj => (h.iova j hj i hi).symm⟩

/-- A release leaves the other chain alone. -/
lemma MlxCmdChain.Ok.release (h : other.Ok m)
    (hapart : ∀ i < c.cached, ∀ j < other.cached, c.iova i ≠ other.iova j) :
    other.Ok (releaseChain keep c m).2 := by
  refine ⟨fun j hj => ?_, h.distinct, h.used⟩
  unfold releaseChain
  by_cases hkeep : keep = true
  · rw [if_pos hkeep]
    exact h.mapped j hj
  · rw [if_neg hkeep]
    have hnot : ¬c.hasAddress (other.iova j) = true := by
      rw [MlxCmdChain.hasAddress, List.any_eq_true]
      rintro ⟨i, hi, heq⟩
      exact hapart i (List.mem_range.mp hi) j hj (beq_iff_eq.mp heq)
    show (if c.hasAddress (other.iova j) = true then none else m.dart (other.iova j)) = _
    rw [if_neg hnot]
    exact h.mapped j hj

/-- What an allocation leaves: both chains in order, and apart. -/
structure AllocResult.Good (r : AllocResult) (other : MlxCmdChain) : Prop where
  chain : r.chain.Ok r.mem
  kept : other.Ok r.mem
  apart : r.chain.Apart other

/-- An allocation that fails leaves no chain and the other one alone. -/
lemma allocFailed_good {kr : KernReturn} (h : other.Ok m)
    (hapart : ∀ i < c.cached, ∀ j < other.cached, c.iova i ≠ other.iova j) :
    (allocFailed kr keep c m).Good other :=
  ⟨.of_empty rfl rfl, h.release hapart, .of_empty rfl⟩

/-- The fast path gives a chain in order. -/
lemma fastBlocks_good {done : MlxCmdChain × DmaMemory} (hother : other.Ok m)
    (hout : HandedOut n fast.pages (fun i => busAt fast.segments (i * 4096)) other)
    (hdone : fastBlocks fast n c m = some done) :
    (AllocResult.mk .success done.1 done.2).Good other ∧ done.1.blocks = n := by
  unfold fastBlocks at hdone
  cases hsegments : fast.segments with
  | nil => rw [hsegments] at hdone; cases hdone
  | cons first rest =>
      obtain ⟨iovaBase, length⟩ := first
      rw [hsegments] at hdone
      dsimp only at hdone
      by_cases hok : fast.allocKr = .success ∧ fast.prepareKr = .success ∧
          contiguous ((iovaBase, length) :: rest) = true ∧
          segmentSpan ((iovaBase, length) :: rest) ≥ n * 4096 ∧
          fast.mapKr = .success ∧ fast.mappedLength ≥ n * 4096
      · rw [if_pos hok] at hdone
        obtain rfl := Option.some.inj hdone
        obtain ⟨-, -, hcontiguous, hspan, -⟩ := hok
        have haddress : ∀ i < n, busAt fast.segments (i * 4096) = some (iovaBase + i * 4096) := by
          intro i hi
          rw [hsegments]
          exact busAt_of_contiguous hcontiguous (by omega)
        refine ⟨⟨⟨fun i hi => ?_, fun i hi j hj heq => ?_, le_refl n⟩, ⟨fun j hj => ?_, hother.distinct,
          hother.used⟩, ⟨fun i hi j hj => ?_, fun i hi j hj => ?_⟩⟩, rfl⟩
        · have hi : i < n := hi
          show fast.prepared n m.dart (if i < n then _ else _) = some (if i < n then _ else _)
          rw [if_pos hi, if_pos hi]
          exact fast.prepared_of_eq hi (haddress i hi) hout.address_distinct
        · have hi : i < n := hi
          have hj : j < n := hj
          have heq : (if i < n then fast.pages i else _) = if j < n then fast.pages j else _ := heq
          rw [if_pos hi, if_pos hj] at heq
          exact hout.page_distinct i hi j hj heq
        · show fast.prepared n m.dart (other.iova j) = _
          rw [fast.prepared_of_ne fun i hi => hout.address_apart i hi j hj]
          exact hother.mapped j hj
        · have hi : i < n := hi
          show (if i < n then _ else _) ≠ _
          rw [if_pos hi]
          exact hout.page_apart i hi j hj
        · have hi : i < n := hi
          show (if i < n then _ else _) ≠ _
          rw [if_pos hi]
          rintro heq
          exact hout.address_apart i hi j hj (by rw [haddress i hi, heq])
      · rw [if_neg hok] at hdone
        cases hdone

/-- The blocks allocated one by one so far. -/
structure Allocated (block : ℕ → DmaAnswer) (i : ℕ) (c : MlxCmdChain) (m : DmaMemory) : Prop where
  box_eq : ∀ k < i, c.box k = (block k).pages 0
  iova_eq : ∀ k < i, busAt (block k).segments 0 = some (c.iova k)
  mapped : ∀ k < i, m.dart (c.iova k) = some (c.box k)

/-- Preparing a buffer of one page changes its own bus address alone. -/
lemma DmaAnswer.prepared_one {buf : DmaAnswer} {dart : ℕ → Option ℕ} {a : ℕ}
    (h : busAt buf.segments 0 ≠ some a) : buf.prepared 1 dart a = dart a := by
  apply buf.prepared_of_ne
  intro i hi
  obtain rfl : i = 0 := by omega
  exact h

/-- The loop gives a chain in order, or none. -/
lemma slowBlocks_good (left i : ℕ) (hn : i + left = n) (halloc : Allocated block i c m)
    (hother : other.Ok m)
    (hout : HandedOut n (fun i => (block i).pages 0) (fun i => busAt (block i).segments 0) other)
    (hnonempty : ∀ i < n, ∀ segment ∈ (block i).segments, 0 < segment.2) :
    (slowBlocks keep block left i c m).Good other ∧
      ((slowBlocks keep block left i c m).kr = .success →
        (slowBlocks keep block left i c m).chain.blocks = n) := by
  -- the bus addresses so far are not the other chain's
  have hapart : ∀ k < i, ∀ j < other.cached, c.iova k ≠ other.iova j := by
    intro k hk j hj heq
    exact hout.address_apart k (by omega) j hj (by rw [halloc.iova_eq k hk, heq])
  induction left generalizing i c m with
  | zero =>
      obtain rfl : i = n := by omega
      refine ⟨⟨⟨halloc.mapped, fun k hk l hl heq => ?_, le_refl i⟩, hother,
        ⟨fun k hk j hj => ?_, hapart⟩⟩, fun _ => rfl⟩
      · have heq : c.box k = c.box l := heq
        rw [halloc.box_eq k hk, halloc.box_eq l hl] at heq
        exact hout.page_distinct k hk l hl heq
      · show c.box k ≠ _
        rw [halloc.box_eq k hk]
        exact hout.page_apart k hk j hj
  | succ left ih =>
      have hi : i < n := by omega
      rw [slowBlocks]
      dsimp only
      by_cases hallocKr : (block i).allocKr ≠ .success
      · rw [if_pos hallocKr]
        exact ⟨allocFailed_good hother hapart, fun h => absurd h hallocKr⟩
      rw [if_neg hallocKr]
      by_cases hprepareKr : (block i).prepareKr ≠ .success
      · rw [if_pos hprepareKr]
        exact ⟨allocFailed_good hother hapart, fun h => absurd h hprepareKr⟩
      rw [if_neg hprepareKr]
      cases hsegments : (block i).segments with
      | nil => exact ⟨allocFailed_good hother hapart, by rintro ⟨⟩⟩
      | cons first rest =>
          obtain ⟨address, length⟩ := first
          have haddress : busAt (block i).segments 0 = some address := by
            have hpos := hnonempty i hi (address, length) (by rw [hsegments]; exact List.mem_cons_self ..)
            rw [hsegments]
            exact busAt_zero hpos
          have hfresh : ∀ k < i, busAt (block i).segments 0 ≠ some (c.iova k) := by
            intro k hk heq
            have := hout.address_distinct i hi k (by omega) _ heq (halloc.iova_eq k hk)
            omega
          have hother' : other.Ok { m with dart := (block i).prepared 1 m.dart } := by
            refine ⟨fun j hj => ?_, hother.distinct, hother.used⟩
            show (block i).prepared 1 m.dart (other.iova j) = _
            rw [DmaAnswer.prepared_one (hout.address_apart i hi j hj)]
            exact hother.mapped j hj
          have hiova : ∀ k < i, Function.update c.iova i address k = c.iova k :=
            fun k hk => Function.update_of_ne (by omega) ..
          have hapart' : ∀ k < i + 1, ∀ j < other.cached,
              Function.update c.iova i address k ≠ other.iova j := by
            intro k hk j hj
            by_cases hki : k = i
            · subst hki
              rw [Function.update_self]
              rintro rfl
              exact hout.address_apart k hi j hj haddress
            · rw [hiova k (by omega)]
              exact hapart k (by omega) j hj
          dsimp only
          by_cases hmapKr : (block i).mapKr ≠ .success
          · rw [if_pos hmapKr]
            exact ⟨allocFailed_good hother' hapart', fun h => absurd h hmapKr⟩
          · rw [if_neg hmapKr]
            refine ih (i + 1) (by omega) ⟨fun k hk => ?_, fun k hk => ?_, fun k hk => ?_⟩
              ⟨hother'.mapped, hother'.distinct, hother'.used⟩ hapart'
            · by_cases hki : k = i
              · subst hki
                exact Function.update_self ..
              · exact (Function.update_of_ne hki ..).trans (halloc.box_eq k (by omega))
            · show busAt (block k).segments 0 = some (Function.update c.iova i address k)
              by_cases hki : k = i
              · subst hki
                rw [Function.update_self, haddress]
              · rw [hiova k (by omega)]
                exact halloc.iova_eq k (by omega)
            · show (block i).prepared 1 m.dart (Function.update c.iova i address k) =
                some (Function.update c.box i ((block i).pages 0) k)
              by_cases hki : k = i
              · subst hki
                rw [Function.update_self, Function.update_self]
                exact (block k).prepared_of_eq (by omega) haddress fun x hx y hy _ _ _ => by omega
              · rw [hiova k (by omega), Function.update_of_ne hki,
                  DmaAnswer.prepared_one (hfresh k (by omega))]
                exact halloc.mapped k (by omega)

/-- `AllocMailbox` keeps both chains of a slot in order and apart; when it succeeds the chain uses the
blocks that the size needs. -/
theorem allocMailbox_good (keep : Bool) {size : ℕ} (hc : c.Ok m) (hother : other.Ok m) (hapart : c.Apart other)
    (honest : Honest fast block (blocksFor size) other) :
    (allocMailbox keep fast block c m size).Good other ∧
      ((allocMailbox keep fast block c m size).kr = .success →
        (allocMailbox keep fast block c m size).chain.blocks = blocksFor size) := by
  unfold allocMailbox
  dsimp only
  by_cases hmax : blocksFor size > cmdMaxBlocks
  · rw [if_pos hmax]
    exact ⟨⟨hc, hother, hapart⟩, by rintro ⟨⟩⟩
  rw [if_neg hmax]
  by_cases hzero : blocksFor size = 0
  · rw [if_pos hzero]
    exact ⟨⟨⟨hc.mapped, hc.distinct, Nat.zero_le _⟩, hother, ⟨hapart.box, hapart.iova⟩⟩,
      fun _ => hzero.symm⟩
  rw [if_neg hzero]
  -- whether or not an oversized chain was given back, what is left is in order
  obtain ⟨cm, hcm, hok, hother', hapart'⟩ : ∃ cm : MlxCmdChain × DmaMemory,
      cm = (if c.cached > cmdCacheMaxBlocks ∧ blocksFor size < c.cached then
        releaseChain keep { c with blocks := 0 } m else ({ c with blocks := 0 }, m)) ∧
      cm.1.Ok cm.2 ∧ other.Ok cm.2 ∧ cm.1.Apart other := by
    refine ⟨_, rfl, ?_⟩
    by_cases hbig : c.cached > cmdCacheMaxBlocks ∧ blocksFor size < c.cached
    · rw [if_pos hbig]
      exact ⟨.of_empty rfl rfl, hother.release hapart.iova, .of_empty rfl⟩
    · rw [if_neg hbig]
      exact ⟨⟨hc.mapped, hc.distinct, Nat.zero_le _⟩, hother, ⟨hapart.box, hapart.iova⟩⟩
  show AllocResult.Good (if blocksFor size ≤ _ then _ else _) other ∧ _
  rw [← hcm]
  by_cases hreuse : blocksFor size ≤ cm.1.cached
  · rw [if_pos hreuse]
    exact ⟨⟨⟨hok.mapped, hok.distinct, hreuse⟩, hother', ⟨hapart'.box, hapart'.iova⟩⟩, fun _ => rfl⟩
  rw [if_neg hreuse]
  have hother'' : other.Ok (releaseChain keep cm.1 cm.2).2 := hother'.release hapart'.iova
  cases hfast : fastBlocks fast (blocksFor size) (releaseChain keep cm.1 cm.2).1
      (releaseChain keep cm.1 cm.2).2 with
  | some done =>
      obtain ⟨hgood, hblocks⟩ := fastBlocks_good hother'' honest.fast_out hfast
      exact ⟨hgood, fun _ => hblocks⟩
  | none =>
      refine slowBlocks_good (blocksFor size) 0 (Nat.zero_add _) ⟨?_, ?_, ?_⟩ hother'' honest.block_out
        honest.block_nonempty <;>
      exact fun k hk => absurd hk (Nat.not_lt_zero k)

end Allocation

end MelonDMA.Core
