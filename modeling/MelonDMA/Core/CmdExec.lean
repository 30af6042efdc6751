import MelonDMA.Core.CmdMailbox
import MelonDMA.Lib.Runs

/-!
# Commands on a slot

`MlxCmd.cpp`, `ExecOnSlot`: a command's first 16 bytes go into its descriptor and the rest into the input
chain of the slot; the reply comes back the same way. The chains are kept between commands, so a block
holds what the last command, or the firmware, left there.

The firmware reads what it finds from the descriptor on (`DmaMemory.chain`), and may leave any memory
behind it. Whatever the history of the slot, it reads the bytes of this command and no others, and the
caller gets the bytes it wrote and no others (`command_data`). At the doorbell the descriptor and every
block carry checksums of what they hold (`command_signed`).
-/

namespace MelonDMA.Core

open MelonDMA.Lib

/-! ## The descriptor -/

/-- `MLX_CMD_MAX_SIZE`. -/
def cmdMaxSize : ℕ := 4112

/-- `MLX_CMD_MAX_INPUT_SIZE`. -/
def cmdMaxInputSize : ℕ := 16 + cmdMaxBlocks * cmdDataBlockSize

/-- A command descriptor; the lengths and the pointers are stored in big-endian order.
Source: `MlxCmd.hpp`, `struct MlxCmdLayout`. -/
structure MlxCmdLayout where
  type : Byte
  inlen : ℕ
  inPtr : ℕ
  /-- The first 16 bytes of the command. -/
  inData : Block 16
  /-- The first 16 bytes of the reply. -/
  out : Block 16
  outPtr : ℕ
  outlen : ℕ
  token : Byte
  sig : Byte
  /-- The delivery status and the ownership bit. -/
  statusOwn : Byte

/-- The 64 bytes of a descriptor. -/
def MlxCmdLayout.bytes (lay : MlxCmdLayout) : List Byte :=
  [lay.type] ++ zeroBytes 3 ++ beBytes 4 lay.inlen ++ beBytes 8 lay.inPtr ++ lay.inData.bytes ++
    lay.out.bytes ++ beBytes 8 lay.outPtr ++ beBytes 4 lay.outlen ++
    [lay.token, lay.sig, 0, lay.statusOwn]

/-- A descriptor of zeros. -/
def MlxCmdLayout.zero : MlxCmdLayout := ⟨0, 0, 0, .zero 16, .zero 16, 0, 0, 0, 0, 0⟩

/-! ## The slot -/

/-- A command slot with its descriptor and the memory it works on.
Source: `MlxCmd.cpp`, `struct MlxCmdSlot`. -/
structure CmdSlot where
  inChain : MlxCmdChain
  outChain : MlxCmdChain
  token : Byte
  lay : MlxCmdLayout
  mem : DmaMemory
  /-- A command timed out or was not delivered. -/
  quarantined : Bool

/-- A slot on its first use. -/
def CmdSlot.fresh (mem : DmaMemory) : CmdSlot := ⟨.zero, .zero, 1, .zero, mem, false⟩

/-- What the firmware does after the doorbell: nothing in time, or it hands the descriptor back with a
status and an outbox, and with any blocks in memory. -/
inductive CmdAnswer
  | timedOut
  | returned (statusOwn : Byte) (out : Block 16) (page : ℕ → MlxCmdMailbox)

/-- A command with everything it meets: its input, the room for its reply, the quarantine it finds at the
door and on giving blocks back, and the answers of the operating system and of the firmware. -/
structure CmdCall where
  input : List Byte
  outSize : ℕ
  dmaQuarantined : Bool
  keep : Bool
  inFast : DmaAnswer
  inBlock : ℕ → DmaAnswer
  outFast : DmaAnswer
  outBlock : ℕ → DmaAnswer
  answer : CmdAnswer

/-- Everything of `ExecOnSlot` before the descriptor is written: the checks and both chains. -/
def CmdSlot.prepare (s : CmdSlot) (call : CmdCall) : KernReturn × CmdSlot :=
  if call.input.length = 0 ∨ call.input.length > cmdMaxInputSize ∨ call.outSize < 8 ∨
      call.outSize > cmdMaxSize then (.badArgument, s)
  else if s.quarantined = true ∨ call.dmaQuarantined = true then (.notReady, s)
  else
    let r := allocMailbox call.keep call.inFast call.inBlock s.inChain s.mem call.input.length
    let s := { s with inChain := r.chain, mem := r.mem }
    if r.kr ≠ .success then (r.kr, s)
    else
      let r := allocMailbox call.keep call.outFast call.outBlock s.outChain s.mem call.outSize
      (r.kr, { s with outChain := r.chain, mem := r.mem })

/-- The input bytes of a block: the bytes that are left, with zeros after a short tail. -/
def inputBlock (input : List Byte) (i : ℕ) : Block 512 :=
  .ofPrefix 512 (input.drop (16 + i * cmdDataBlockSize))

/-- A block of a chain, rewritten for a command: its data, its link, its number, its token and its
checksums. -/
def linkBlock (c : MlxCmdChain) (token : Byte) (data : ℕ → Block 512) (i : ℕ) (mb : MlxCmdMailbox) :
    MlxCmdMailbox :=
  setMailboxSignature
    { mb with
      data := data i
      next := if i + 1 < c.blocks then c.iova (i + 1) else 0
      blockNum := i
      token := token }

/-- The loop over the blocks of a chain. -/
def fillChain (c : MlxCmdChain) (token : Byte) (data : ℕ → Block 512) : ℕ → DmaMemory → DmaMemory
  | 0, m => m
  | n + 1, m =>
      let m := fillChain c token data n m
      { m with page := Function.update m.page (c.box n) (linkBlock c token data n (m.page (c.box n))) }

/-- The descriptor and both chains are written, and the firmware owns them. -/
def CmdSlot.ring (s : CmdSlot) (call : CmdCall) : CmdSlot :=
  let m := fillChain s.inChain s.token (inputBlock call.input) s.inChain.blocks s.mem
  let m := fillChain s.outChain s.token (fun _ => .zero 512) s.outChain.blocks m
  let lay : MlxCmdLayout :=
    { MlxCmdLayout.zero with
      inData := .ofPrefix 16 call.input
      inPtr := if s.inChain.blocks ≠ 0 then s.inChain.iova 0 else 0
      inlen := call.input.length
      outPtr := if s.outChain.blocks ≠ 0 then s.outChain.iova 0 else 0
      outlen := call.outSize
      type := 0x7
      token := s.token
      statusOwn := 1 }
  { s with mem := m, lay := { lay with sig := ~~~xor8 lay.bytes }, token := s.token + 1 }

/-- The bytes of a descriptor before its checksum. -/
def MlxCmdLayout.front (lay : MlxCmdLayout) : List Byte :=
  [lay.type] ++ zeroBytes 3 ++ beBytes 4 lay.inlen ++ beBytes 8 lay.inPtr ++ lay.inData.bytes ++
    lay.out.bytes ++ beBytes 8 lay.outPtr ++ beBytes 4 lay.outlen ++ [lay.token]

lemma MlxCmdLayout.bytes_eq (lay : MlxCmdLayout) :
    lay.bytes = lay.front ++ [lay.sig] ++ [0, lay.statusOwn] := by
  rw [MlxCmdLayout.bytes, MlxCmdLayout.front, List.append_assoc _ [lay.sig], List.append_assoc _ [lay.token]]
  rfl

/-- A descriptor is signed whatever it holds: its checksum is computed last, with a zero in its place. -/
lemma MlxCmdLayout.xor8_signed (lay : MlxCmdLayout) (hsig : lay.sig = 0) :
    xor8 { lay with sig := ~~~xor8 lay.bytes : MlxCmdLayout }.bytes = 0xff := by
  rw [MlxCmdLayout.bytes_eq { lay with sig := ~~~xor8 lay.bytes }, lay.bytes_eq, hsig]
  exact xor8_sealed_within lay.front [0, lay.statusOwn]

/-- The result of a command: the return code, and the caller's buffer if it was written. -/
structure CmdResult where
  slot : CmdSlot
  kr : KernReturn
  outbox : Option (List Byte)

/-- The reply as it is copied out. -/
def CmdSlot.reply (s : CmdSlot) (outSize : ℕ) : List Byte :=
  s.lay.out.bytes.take (if outSize < 16 then outSize else 16) ++
    (List.range s.outChain.blocks).flatMap fun i =>
      let copied := 16 + i * cmdDataBlockSize
      let mbLen := if outSize - copied > cmdDataBlockSize then cmdDataBlockSize else outSize - copied
      (s.mem.page (s.outChain.box i)).data.bytes.take mbLen

/-- Everything of `ExecOnSlot` after the doorbell. -/
def CmdSlot.complete (s : CmdSlot) (call : CmdCall) : CmdResult :=
  match call.answer with
  | .timedOut => ⟨{ s with quarantined := true }, .timeout, none⟩
  | .returned statusOwn out page =>
      let s : CmdSlot :=
        { s with lay := { s.lay with out := out, statusOwn := statusOwn }, mem := { s.mem with page := page } }
      -- a delivery failure is not a confirmed outbox
      if (statusOwn >>> 1) &&& 0x7f ≠ 0 then ⟨{ s with quarantined := true }, .ioError, none⟩
      else ⟨s, fwStatusReturn (outboxStatus (s.reply call.outSize)), some (s.reply call.outSize)⟩

/-- A command on a slot.
Source: `MlxCmd.cpp`, `MlxCmd::ExecOnSlot`. -/
def CmdSlot.exec (s : CmdSlot) (call : CmdCall) : CmdResult :=
  let admitted := s.prepare call
  if admitted.1 ≠ .success then ⟨admitted.2, admitted.1, none⟩ else (admitted.2.ring call).complete call

/-- One command. -/
def CmdSlot.step (s : CmdSlot) (call : CmdCall) : Option CmdSlot := some (s.exec call).slot

/-! ## What the firmware reads -/

/-- The block at a bus address. -/
def DmaMemory.read (m : DmaMemory) (address : ℕ) : Option MlxCmdMailbox := (m.dart address).map m.page

/-- The link of the block at a bus address. -/
def DmaMemory.link (m : DmaMemory) (address : ℕ) : ℕ :=
  match m.read address with
  | some mb => mb.next
  | none => 0

/-- The bus addresses met from a pointer on, for as many blocks as the length requires. -/
def DmaMemory.chain (m : DmaMemory) (pointer length : ℕ) : List ℕ :=
  follow m.link (blocksFor length) pointer

/-- The blocks are numbered in order, carry the token, and the last one ends the chain. -/
def LinkedBlocks (token : Byte) (blocks : List MlxCmdMailbox) : Prop :=
  ∀ i mb, blocks[i]? = some mb →
    mb.blockNum = i ∧ mb.token = token ∧ (i + 1 = blocks.length → mb.next = 0)

/-- Both chains of the slot are in order, and apart. -/
structure CmdSlot.Ok (s : CmdSlot) : Prop where
  input : s.inChain.Ok s.mem
  output : s.outChain.Ok s.mem
  apart : s.inChain.Apart s.outChain

/-- The operating system hands out no memory that the slot holds. -/
structure CmdSlot.Honest (s : CmdSlot) (call : CmdCall) : Prop where
  input : Core.Honest call.inFast call.inBlock (blocksFor call.input.length) s.outChain
  output : Core.Honest call.outFast call.outBlock (blocksFor call.outSize)
    (allocMailbox call.keep call.inFast call.inBlock s.inChain s.mem call.input.length).chain

section Fill

variable {c other : MlxCmdChain} {token : Byte} {data : ℕ → Block 512} {m m' : DmaMemory} {n : ℕ}

@[simp] lemma linkBlock_data (i : ℕ) (mb : MlxCmdMailbox) : (linkBlock c token data i mb).data = data i := rfl

@[simp] lemma linkBlock_next (i : ℕ) (mb : MlxCmdMailbox) :
    (linkBlock c token data i mb).next = if i + 1 < c.blocks then c.iova (i + 1) else 0 := rfl

@[simp] lemma linkBlock_blockNum (i : ℕ) (mb : MlxCmdMailbox) :
    (linkBlock c token data i mb).blockNum = i := rfl

@[simp] lemma linkBlock_token (i : ℕ) (mb : MlxCmdMailbox) :
    (linkBlock c token data i mb).token = token := rfl

@[simp] lemma fillChain_dart : (fillChain c token data n m).dart = m.dart := by
  induction n with
  | zero => rfl
  | succ n ih => exact ih

/-- The loop rewrites no other page. -/
lemma fillChain_page_of_ne {p : ℕ} (h : ∀ i < n, c.box i ≠ p) :
    (fillChain c token data n m).page p = m.page p := by
  induction n with
  | zero => rfl
  | succ n ih =>
      rw [fillChain]
      refine (Function.update_of_ne (h n (Nat.lt_succ_self n)).symm ..).trans ?_
      exact ih fun i hi => h i (Nat.lt_succ_of_lt hi)

/-- The loop rewrites each block. -/
lemma fillChain_page (hdistinct : ∀ i < n, ∀ j < n, c.box i = c.box j → i = j) {i : ℕ} (hi : i < n) :
    (fillChain c token data n m).page (c.box i) = linkBlock c token data i (m.page (c.box i)) := by
  induction n with
  | zero => omega
  | succ n ih =>
      rw [fillChain]
      by_cases hin : i = n
      · subst hin
        refine (Function.update_self ..).trans ?_
        rw [fillChain_page_of_ne fun j hj heq => ?_]
        have := hdistinct j (by omega) i hi heq
        omega
      · have hne : c.box i ≠ c.box n := fun heq => hin (hdistinct i hi n (Nat.lt_succ_self n) heq)
        refine (Function.update_of_ne hne ..).trans ?_
        exact ih (fun j hj k hk => hdistinct j (by omega) k (by omega)) (by omega)

/-- From the pointer to a chain that is filled the firmware meets its blocks in order. -/
lemma chain_of_filled {length : ℕ} (hok : c.Ok m) (hblocks : c.blocks = blocksFor length)
    (hdart : m'.dart = m.dart)
    (hpage : ∀ i < c.blocks, m'.page (c.box i) = linkBlock c token data i (m.page (c.box i))) :
    m'.chain (if c.blocks ≠ 0 then c.iova 0 else 0) length = (List.range c.blocks).map c.iova := by
  have hread : ∀ i < c.blocks, m'.read (c.iova i) = some (linkBlock c token data i (m.page (c.box i))) := by
    intro i hi
    have hused := hok.used
    rw [DmaMemory.read, hdart, hok.mapped i (by omega), Option.map_some, hpage i hi]
  rw [DmaMemory.chain, ← hblocks]
  refine follow_eq_map (fun hpos => if_pos (by omega)) fun i hi => ?_
  rw [DmaMemory.link, hread i (by omega)]
  exact if_pos hi

end Fill

section Invariant

variable {s : CmdSlot} {call : CmdCall}

/-- What comes before the descriptor keeps the chains in order; a command that is let through has the blocks that its lengths need. -/
lemma CmdSlot.Ok.prepare (h : s.Ok) (honest : s.Honest call) :
    (s.prepare call).2.Ok ∧ ((s.prepare call).1 = .success →
      (s.prepare call).2.inChain.blocks = blocksFor call.input.length ∧
      (s.prepare call).2.outChain.blocks = blocksFor call.outSize ∧ (s.prepare call).2.token = s.token) := by
  obtain ⟨hin, hinBlocks⟩ :=
    allocMailbox_good call.keep h.input h.output h.apart honest.input
  unfold CmdSlot.prepare
  by_cases hargs : call.input.length = 0 ∨ call.input.length > cmdMaxInputSize ∨ call.outSize < 8 ∨
      call.outSize > cmdMaxSize
  · rw [if_pos hargs]
    exact ⟨h, by rintro ⟨⟩⟩
  rw [if_neg hargs]
  by_cases hdoor : s.quarantined = true ∨ call.dmaQuarantined = true
  · rw [if_pos hdoor]
    exact ⟨h, by rintro ⟨⟩⟩
  rw [if_neg hdoor]
  dsimp only
  by_cases hkr : (allocMailbox call.keep call.inFast call.inBlock s.inChain s.mem
      call.input.length).kr ≠ .success
  · rw [if_pos hkr]
    exact ⟨⟨hin.chain, hin.kept, hin.apart⟩, fun hsuccess => absurd hsuccess hkr⟩
  rw [if_neg hkr]
  obtain ⟨hout, houtBlocks⟩ :=
    allocMailbox_good call.keep hin.kept hin.chain hin.apart.symm honest.output
  refine ⟨⟨hout.kept, hout.chain, hout.apart.symm⟩, fun hsuccess => ?_⟩
  exact ⟨hinBlocks (not_not.mp hkr), houtBlocks hsuccess, rfl⟩

/-- The chains stay in order whatever blocks the memory holds. -/
lemma CmdSlot.Ok.of_dart (h : s.Ok) {s' : CmdSlot} (hin : s'.inChain = s.inChain)
    (hout : s'.outChain = s.outChain) (hdart : s'.mem.dart = s.mem.dart) : s'.Ok := by
  obtain ⟨hinOk, houtOk, hapart⟩ := h
  constructor
  · rw [hin]
    exact ⟨fun i hi => by rw [hdart]; exact hinOk.mapped i hi, hinOk.distinct, hinOk.used⟩
  · rw [hout]
    exact ⟨fun i hi => by rw [hdart]; exact houtOk.mapped i hi, houtOk.distinct, houtOk.used⟩
  · rw [hin, hout]
    exact hapart

@[simp] lemma CmdSlot.ring_dart : (s.ring call).mem.dart = s.mem.dart := by
  show (fillChain _ _ _ _ (fillChain _ _ _ _ s.mem)).dart = s.mem.dart
  rw [fillChain_dart, fillChain_dart]

/-- What the firmware does to memory leaves the chains in order. -/
lemma CmdSlot.Ok.complete (h : s.Ok) : (s.complete call).slot.Ok := by
  unfold CmdSlot.complete
  cases call.answer with
  | timedOut => exact h.of_dart rfl rfl rfl
  | returned statusOwn out page =>
      dsimp only
      split_ifs <;> exact h.of_dart rfl rfl rfl

/-- A command keeps the chains in order. -/
lemma CmdSlot.Ok.exec (h : s.Ok) (honest : s.Honest call) : (s.exec call).slot.Ok := by
  obtain ⟨hprep, -⟩ := h.prepare honest
  unfold CmdSlot.exec
  dsimp only
  by_cases hkr : (s.prepare call).1 ≠ .success
  · rw [if_pos hkr]
    exact hprep
  · rw [if_neg hkr]
    exact (hprep.of_dart rfl rfl ring_dart : ((s.prepare call).2.ring call).Ok).complete

/-- The chains of a slot are in order after every history of commands. -/
lemma CmdSlot.ok_of_reach {mem : DmaMemory} (run : Reach CmdSlot.step CmdSlot.Honest (.fresh mem) s) :
    s.Ok := by
  refine run.invariant CmdSlot.Ok ⟨.of_empty rfl rfl, .of_empty rfl rfl, .of_empty rfl⟩ ?_
  intro s s' call h honest hstep
  obtain rfl := Option.some.inj hstep
  exact h.exec honest

/-- A written slot: its blocks are the ones the loops wrote. -/
lemma CmdSlot.Ok.ring_page (h : s.Ok) (call : CmdCall) :
    (∀ i < s.inChain.blocks, (s.ring call).mem.page (s.inChain.box i) =
      linkBlock s.inChain s.token (inputBlock call.input) i (s.mem.page (s.inChain.box i))) ∧
    ∀ i < s.outChain.blocks, (s.ring call).mem.page (s.outChain.box i) =
      linkBlock s.outChain s.token (fun _ => .zero 512) i (s.mem.page (s.outChain.box i)) := by
  have hinUsed := h.input.used
  have houtUsed := h.output.used
  constructor
  · intro i hi
    show (fillChain _ _ _ _ (fillChain _ _ _ _ s.mem)).page _ = _
    rw [fillChain_page_of_ne fun j hj => (h.apart.box i (by omega) j (by omega)).symm]
    exact fillChain_page (fun j hj k hk => h.input.distinct j (by omega) k (by omega)) hi
  · intro i hi
    show (fillChain _ _ _ _ (fillChain _ _ _ _ s.mem)).page _ = _
    rw [fillChain_page (fun j hj k hk => h.output.distinct j (by omega) k (by omega)) hi,
      fillChain_page_of_ne fun j hj => h.apart.box j (by omega) i (by omega)]

end Invariant

/-! ## The bytes of a command and of its reply -/

/-- A command fits its first 16 bytes and its blocks. -/
lemma le_blocksFor (size : ℕ) : size ≤ 16 + 512 * blocksFor size := by
  unfold blocksFor cmdDataBlockSize
  split_ifs <;> omega

/-- The first bytes and the blocks make up the input, with zeros after it. -/
lemma bytes_of_input (input : List Byte) :
    (Block.ofPrefix 16 input).bytes ++
        (List.range (blocksFor input.length)).flatMap (fun i => (inputBlock input i).bytes) =
      input ++ zeroBytes (16 + 512 * blocksFor input.length - input.length) := by
  have hle := le_blocksFor input.length
  generalize blocksFor input.length = n at hle ⊢
  generalize hpad : 16 + 512 * n - input.length = pad
  have hfirst : (Block.ofPrefix 16 input).bytes = (input ++ zeroBytes pad).take 16 :=
    Block.bytes_ofPrefix_drop (k := 0) (by omega)
  have hblock : ∀ i ∈ List.range n, (inputBlock input i).bytes =
      blockOf 512 i ((input ++ zeroBytes pad).drop 16) := by
    intro i hi
    have hi := List.mem_range.mp hi
    have hdrop : (Block.ofPrefix 512 (input.drop (16 + i * 512))).bytes =
        ((input ++ zeroBytes pad).drop (16 + i * 512)).take 512 := Block.bytes_ofPrefix_drop (by omega)
    rw [inputBlock, cmdDataBlockSize, hdrop, blockOf, List.drop_drop, Nat.mul_comm]
  have hlength : ((input ++ zeroBytes pad).drop 16).length = 512 * n := by
    rw [List.length_drop, List.length_append, length_zeroBytes]
    omega
  rw [hfirst, List.flatMap_congr hblock, flatMap_blockOf hlength, List.take_append_drop]

/-- The reply copied out is the start of the outbox and the blocks in memory. -/
lemma CmdSlot.reply_eq (s : CmdSlot) (outSize : ℕ) :
    s.reply outSize =
      (s.lay.out.bytes ++ (List.range s.outChain.blocks).flatMap fun i =>
        (s.mem.page (s.outChain.box i)).data.bytes).take outSize := by
  have hfirst : s.lay.out.bytes.take (if outSize < 16 then outSize else 16) =
      s.lay.out.bytes.take outSize := by
    rw [List.take_eq_take_iff, s.lay.out.length_eq]
    split_ifs <;> omega
  rw [List.take_append, s.lay.out.length_eq,
    take_flatMap_blocks fun i _ => (s.mem.page (s.outChain.box i)).data.length_eq, CmdSlot.reply, hfirst]
  congr 1
  apply List.flatMap_congr
  intro i _
  dsimp only
  rw [List.take_eq_take_iff, (s.mem.page (s.outChain.box i)).data.length_eq]
  have hsize : cmdDataBlockSize = 512 := rfl
  by_cases hbig : outSize - (16 + i * cmdDataBlockSize) > cmdDataBlockSize
  · rw [if_pos hbig]
    rw [hsize] at hbig ⊢
    omega
  · rw [if_neg hbig]
    rw [hsize] at hbig ⊢
    omega

/-! ## Every history of a slot -/

/-- After any commands on a slot, for a command that is admitted: from the descriptor the firmware reads
the input of this command with zeros after it, in blocks that are numbered in order, carry the token of
the descriptor and end with the last one; and if it delivers a reply, the caller gets the bytes it left in
the descriptor and in the blocks that it reaches from the descriptor, as many as asked for. -/
theorem command_data {mem : DmaMemory} {s : CmdSlot}
    (run : Reach CmdSlot.step CmdSlot.Honest (.fresh mem) s) {call : CmdCall} (honest : s.Honest call)
    {admitted : CmdSlot} (hprep : s.prepare call = (.success, admitted)) :
    (∃ blocks : List MlxCmdMailbox,
      ((admitted.ring call).mem.chain (admitted.ring call).lay.inPtr (admitted.ring call).lay.inlen).map
        (admitted.ring call).mem.read = blocks.map some ∧
      (admitted.ring call).lay.inData.bytes ++ blocks.flatMap (·.data.bytes) =
        call.input ++ zeroBytes (16 + 512 * blocks.length - call.input.length) ∧
      LinkedBlocks (admitted.ring call).lay.token blocks) ∧
    ∃ pages : List ℕ,
      ((admitted.ring call).mem.chain (admitted.ring call).lay.outPtr (admitted.ring call).lay.outlen).map
        (admitted.ring call).mem.dart = pages.map some ∧
      ∀ statusOwn out page, call.answer = .returned statusOwn out page → (statusOwn >>> 1) &&& 0x7f = 0 →
        (s.exec call).outbox =
          some ((out.bytes ++ pages.flatMap fun p => (page p).data.bytes).take call.outSize) := by
  obtain ⟨hok, hsuccess⟩ := (CmdSlot.ok_of_reach run).prepare honest
  rw [hprep] at hok hsuccess
  dsimp only at hok hsuccess
  obtain ⟨hinBlocks, houtBlocks, -⟩ := hsuccess rfl
  obtain ⟨hinPage, houtPage⟩ := hok.ring_page call
  have hinChain := chain_of_filled hok.input hinBlocks CmdSlot.ring_dart hinPage
  have houtChain := chain_of_filled hok.output houtBlocks CmdSlot.ring_dart houtPage
  have hinUsed := hok.input.used
  have houtUsed := hok.output.used
  constructor
  · refine ⟨(List.range admitted.inChain.blocks).map fun i => (admitted.ring call).mem.page
      (admitted.inChain.box i), ?_, ?_, ?_⟩
    · refine (congrArg _ hinChain).trans ?_
      rw [List.map_map, List.map_map]
      apply List.map_congr_left
      intro i hi
      have hi := List.mem_range.mp hi
      show Option.map _ ((admitted.ring call).mem.dart _) = _
      rw [CmdSlot.ring_dart, hok.input.mapped i (by omega)]
      rfl
    · rw [List.length_map, List.length_range, List.flatMap_map, hinBlocks, ← bytes_of_input]
      congr 1
      apply List.flatMap_congr
      intro i hi
      have hi := List.mem_range.mp hi
      rw [hinPage i (by omega)]
      rfl
    · intro i mb hmb
      rw [List.getElem?_map, Option.map_eq_some_iff] at hmb
      obtain ⟨j, hj, rfl⟩ := hmb
      obtain ⟨hi, hj⟩ := List.getElem?_eq_some_iff.mp hj
      obtain rfl : i = j := by simpa using hj
      have hi : i < admitted.inChain.blocks := by simpa using hi
      rw [hinPage i hi]
      refine ⟨rfl, rfl, fun hlast => ?_⟩
      rw [List.length_map, List.length_range] at hlast
      rw [linkBlock_next, if_neg (by omega)]
  · refine ⟨(List.range admitted.outChain.blocks).map admitted.outChain.box, ?_, ?_⟩
    · refine (congrArg _ houtChain).trans ?_
      rw [List.map_map, List.map_map]
      apply List.map_congr_left
      intro i hi
      have hi := List.mem_range.mp hi
      show (admitted.ring call).mem.dart _ = _
      rw [CmdSlot.ring_dart, hok.output.mapped i (by omega)]
      rfl
    · intro statusOwn out page hanswer hdelivered
      have hexec : s.exec call = (admitted.ring call).complete call := by
        rw [CmdSlot.exec, hprep]
        exact if_neg (fun hne => hne rfl)
      rw [hexec, CmdSlot.complete, hanswer]
      dsimp only
      rw [if_neg (fun hne => hne hdelivered), CmdSlot.reply_eq, List.flatMap_map]
      rfl

/-- A buffer of 16 pages at one bus address. -/
def plainAnswer : DmaAnswer where
  allocKr := .success
  prepareKr := .success
  segments := [(0x10000, 0x10000)]
  mapKr := .success
  mappedLength := 0x10000
  pages := fun i => 100 + i

/-- A command with input of this many bytes and a reply of 16. -/
def plainCall (inSize : ℕ) : CmdCall where
  input := List.replicate inSize 7#8
  outSize := 16
  dmaQuarantined := false
  keep := false
  inFast := plainAnswer
  inBlock := fun i => { plainAnswer with segments := [(0x100000 + i * 4096, 4096)], pages := fun _ => 200 + i }
  outFast := plainAnswer
  outBlock := fun _ => plainAnswer
  answer := .returned 0 (.zero 16) fun _ => .zero

/-- A plain command is honest on a slot without a reply chain. -/
lemma honest_plainCall {s : CmdSlot} (inSize : ℕ) (h : s.outChain.cached = 0) :
    s.Honest (plainCall inSize) := by
  constructor
  · constructor
    · constructor
      · intro i _ j _ heq
        exact Nat.add_left_cancel heq
      · intro i _ j hj
        omega
      · intro i _ j _ a hi hj
        dsimp only [plainCall, plainAnswer, busAt] at hi hj
        split_ifs at hi hj
        injection hi with hi
        injection hj with hj
        omega
      · intro i _ j hj
        omega
    · constructor
      · intro i _ j _ heq
        exact Nat.add_left_cancel heq
      · intro i _ j hj
        omega
      · intro i _ j _ a hi hj
        injection hi with hi
        injection hj with hj
        omega
      · intro i _ j hj
        omega
    · intro i _ segment hsegment
      obtain rfl := List.mem_singleton.mp hsegment
      exact Nat.succ_pos _
  · have hnone : ∀ i, ¬i < blocksFor (plainCall inSize).outSize := fun i => Nat.not_lt_zero i
    constructor
    · constructor <;> exact fun i hi => absurd hi (hnone i)
    · constructor <;> exact fun i hi => absurd hi (hnone i)
    · exact fun i hi => absurd hi (hnone i)

/-- A command of 20 bytes in the block of a command of 40. -/
theorem command_data_after_longer :
    ∃ s admitted, Reach CmdSlot.step CmdSlot.Honest (.fresh ⟨fun _ => .zero, fun _ => none⟩) s ∧
      s.inChain.cached = 1 ∧ s.prepare (plainCall 20) = (.success, admitted) ∧
      ∃ blocks : List MlxCmdMailbox,
        (admitted.ring (plainCall 20)).lay.inData.bytes ++ blocks.flatMap (·.data.bytes) =
          (plainCall 20).input ++ zeroBytes (16 + 512 * blocks.length - (plainCall 20).input.length) := by
  have run : Reach CmdSlot.step CmdSlot.Honest (.fresh ⟨fun _ => .zero, fun _ => none⟩) _ :=
    Reach.start.step (honest_plainCall 40 rfl) rfl
  obtain ⟨⟨blocks, -, hdata, -⟩, -⟩ := command_data run (honest_plainCall 20 rfl) rfl
  exact ⟨_, _, run, rfl, rfl, blocks, hdata⟩

/-- When the doorbell is rung for a command, after any commands on the slot: the 64 bytes of the
descriptor add up to 0xff under exclusive or, and both checksums of every block of both chains are right
in the memory that the firmware reads. -/
theorem command_signed {mem : DmaMemory} {s : CmdSlot}
    (run : Reach CmdSlot.step CmdSlot.Honest (.fresh mem) s) {call : CmdCall} (honest : s.Honest call)
    {admitted : CmdSlot} (hprep : s.prepare call = (.success, admitted)) :
    xor8 (admitted.ring call).lay.bytes = 0xff ∧
    admitted.inChain.blocks = blocksFor call.input.length ∧
    admitted.outChain.blocks = blocksFor call.outSize ∧
    (∀ i < admitted.inChain.blocks, ((admitted.ring call).mem.page (admitted.inChain.box i)).Signed) ∧
    ∀ i < admitted.outChain.blocks, ((admitted.ring call).mem.page (admitted.outChain.box i)).Signed := by
  obtain ⟨hok, hsuccess⟩ := (CmdSlot.ok_of_reach run).prepare honest
  rw [hprep] at hok hsuccess
  obtain ⟨hinBlocks, houtBlocks, -⟩ := hsuccess rfl
  obtain ⟨hinPage, houtPage⟩ := hok.ring_page call
  refine ⟨MlxCmdLayout.xor8_signed _ rfl, hinBlocks, houtBlocks, fun i hi => ?_, fun i hi => ?_⟩
  · rw [hinPage i hi]
    exact setMailboxSignature_signed _
  · rw [houtPage i hi]
    exact setMailboxSignature_signed _

/-- The one block of a command of 40 bytes. -/
theorem command_signed_one_block :
    ∃ admitted, (CmdSlot.fresh ⟨fun _ => .zero, fun _ => none⟩).prepare (plainCall 40) = (.success, admitted) ∧
      admitted.inChain.blocks = 1 ∧
      ((admitted.ring (plainCall 40)).mem.page (admitted.inChain.box 0)).Signed := by
  obtain ⟨admitted, hprep⟩ : ∃ admitted,
      (CmdSlot.fresh ⟨fun _ => .zero, fun _ => none⟩).prepare (plainCall 40) = (.success, admitted) := ⟨_, rfl⟩
  obtain ⟨-, hblocks, -, hin, -⟩ := command_signed .start (honest_plainCall 40 rfl) hprep
  have hone : admitted.inChain.blocks = 1 := hblocks
  exact ⟨admitted, hprep, hone, hin 0 (by omega)⟩

end MelonDMA.Core
