import MelonDMA.Core.FwPages
import MelonDMA.Lib.BitFields

/-!
# Page messages

`MANAGE_PAGES` of `MlxP1Encoding.hpp`: the command has its count at bit `0x60`, the response at bit `0x40`, and
both have the page addresses from bit `0x80` on. Only a command that gives pages carries addresses.

* A command says what it was made of, and a response is decoded into the addresses that it lists. Whatever the
  firmware wrote, the decoder goes by the header, and not past what was asked for or the buffer
  (`pages_read_back`).
* The decoder is for responses: at a command it takes the number of the function for the count
  (`command_is_no_response`).
* `MlxFwPages::ManagePages` sends the addresses of its slots (`manageCommand_read`).
-/

namespace MelonDMA.Core.FwPages

open MelonDMA.Lib

/-! ## The command -/

/-- The number of an operation. Source: `MlxP1PageOpMod`. -/
def PagesOp.code : PagesOp → ℕ
  | .allocationFail => 0
  | .give => 1
  | .take => 2

/-- `0` for more pages than a command has room for. Source: `mlxP1ManagePagesSize`. -/
def mlxP1ManagePagesSize (count : ℕ) : ℕ := if count ≤ p1MaxManagePages then 16 + count * 8 else 0

/-- The fields of the header. -/
def manageHeader (opMod functionId : ℕ) (embedded : Bool) (count : ℕ) : List BitField :=
  [⟨0x00, 16, 0x108⟩, ⟨0x30, 16, opMod⟩, ⟨0x40, 1, embedded.toNat⟩, ⟨0x50, 16, functionId⟩, ⟨0x60, 32, count⟩]

/-- The command written over a buffer; no `pages` stand for a null pointer. Source: `mlxP1EncodeManagePages`. -/
def mlxP1EncodeManagePages (input : List Byte) (opMod functionId : ℕ) (embedded : Bool) (pages : List ℕ)
    (count : ℕ) : Option (List Byte) :=
  let needed := if opMod = PagesOp.give.code then mlxP1ManagePagesSize count else 16
  if needed = 0 ∨ input.length < needed ∨ p1MaxManagePages < count ∨ PagesOp.take.code < opMod ∨
      (opMod = PagesOp.give.code ∧ (pages = [] ∨ count = 0)) then none
  else
    let cleared := copyBytes input 0 (zeroBytes needed)
    some (writeFields cleared (manageHeader opMod functionId embedded count ++
      if opMod = PagesOp.give.code then rowFields 64 0x80 (pages.take count) else []))

/-- What a command says. -/
structure ManagePagesIn where
  opcode : ℕ
  opMod : ℕ
  embedded : ℕ
  functionId : ℕ
  count : ℕ
  pas : List ℕ
  deriving DecidableEq, Repr

/-- The addresses from bit `0x80` on. -/
def readPas (msg : List Byte) (count : ℕ) : List ℕ := (List.range count).map fun i => getBits msg (0x80 + i * 64) 64

@[simp] lemma length_readPas (msg : List Byte) (count : ℕ) : (readPas msg count).length = count := by
  rw [readPas, List.length_map, List.length_range]

lemma getElem_readPas (msg : List Byte) {count i : ℕ} (hi : i < (readPas msg count).length) :
    (readPas msg count)[i] = getBits msg (0x80 + i * 64) 64 := by
  simp only [readPas, List.getElem_map, List.getElem_range]

/-- What the firmware reads in a command. -/
def readManagePages (msg : List Byte) : ManagePagesIn where
  opcode := getBits msg 0x00 16
  opMod := getBits msg 0x30 16
  embedded := getBits msg 0x40 1
  functionId := getBits msg 0x50 16
  count := getBits msg 0x60 32
  pas := if getBits msg 0x30 16 = PagesOp.give.code then readPas msg (getBits msg 0x60 32) else []

/-! ## The response -/

/-- The fields of a response that lists pages. Source: `mlx5_ifc_manage_pages_out_bits`. -/
def responseFields (pages : List ℕ) : List BitField := ⟨0x40, 32, pages.length⟩ :: rowFields 64 0x80 pages

/-! ## `ManagePages` -/

/-- The addresses of slots. -/
def iovasOf (s : FwPages) (indices : List ℕ) : List ℕ :=
  indices.map fun slot => ((entry s.pages slot).map Page.iova).getD 0

/-- The command for a batch that passed the checks; `functionId` has 16 bits there. Source: `in` in
`MlxFwPages::ManagePages`. -/
def manageCommand (s : FwPages) (op : PagesOp) (indices : List ℕ) (functionId : ℕ) : Option (List Byte) :=
  mlxP1EncodeManagePages (zeroBytes (16 + indices.length * 8)) op.code (functionId % 2 ^ 16) false
    (s.iovasOf indices) indices.length

/-! ## Reading messages -/

section

variable {bytes : List Byte} {header : List BitField} {pages : List ℕ}

/-- A header and a row of addresses behind it. -/
lemma row_apart (hheader : header.Pairwise BitField.Apart) (hend : ∀ f ∈ header, f.offset + f.width ≤ 0x80)
    (pages : List ℕ) : (header ++ rowFields 64 0x80 pages).Pairwise BitField.Apart := by
  refine List.pairwise_append.mpr ⟨hheader, rowFields_apart, fun f hf g hg => .inl ?_⟩
  exact (hend f hf).trans (rowFields_offset hg).1

lemma row_fits (hend : ∀ f ∈ header, f.offset + f.width ≤ 0x80) (hsize : 16 + pages.length * 8 ≤ bytes.length) :
    ∀ f ∈ header ++ rowFields 64 0x80 pages, f.Fits bytes.length := by
  intro f hf
  unfold BitField.Fits
  rcases List.mem_append.mp hf with hin | hin
  · have hlast := hend f hin
    omega
  · have hlast := (rowFields_offset hin).2
    omega

/-- A field of the header of a message. -/
lemma getBits_header (hheader : header.Pairwise BitField.Apart) (hend : ∀ f ∈ header, f.offset + f.width ≤ 0x80)
    (hsize : 16 + pages.length * 8 ≤ bytes.length) {f : BitField} (hf : f ∈ header) :
    getBits (writeFields bytes (header ++ rowFields 64 0x80 pages)) f.offset f.width = f.value % 2 ^ f.width :=
  getBits_writeFields (row_fits hend hsize) (row_apart hheader hend pages) (List.mem_append_left _ hf)

/-- The addresses of a message. -/
lemma readPas_written (hheader : header.Pairwise BitField.Apart) (hend : ∀ f ∈ header, f.offset + f.width ≤ 0x80)
    (hsize : 16 + pages.length * 8 ≤ bytes.length) (hpages : ∀ page ∈ pages, page < 2 ^ 64) :
    readPas (writeFields bytes (header ++ rowFields 64 0x80 pages)) pages.length = pages :=
  map_getBits_rowFields (row_fits hend hsize) (row_apart hheader hend pages) hpages

end

section

variable {bytes out : List Byte} {pages : List ℕ} {functionId count length requested maxPas : ℕ}

lemma manageHeader_apart (opMod functionId : ℕ) (embedded : Bool) (count : ℕ) :
    (manageHeader opMod functionId embedded count).Pairwise BitField.Apart := by
  simp [manageHeader, BitField.Apart]

lemma manageHeader_end {opMod : ℕ} {embedded : Bool} :
    ∀ f ∈ manageHeader opMod functionId embedded count, f.offset + f.width ≤ 0x80 := by
  simp [manageHeader]

/-- A command that was written says what it was made of. -/
lemma readManagePages_written (op : PagesOp) (embedded : Bool) (hsize : 16 + pages.length * 8 ≤ bytes.length)
    (hfunction : functionId < 2 ^ 16) (hcount : count < 2 ^ 32) (hpages : ∀ page ∈ pages, page < 2 ^ 64)
    (hgive : op = .give → pages.length = count) (hnone : op ≠ .give → pages = []) :
    readManagePages (writeFields bytes
      (manageHeader op.code functionId embedded count ++ rowFields 64 0x80 pages)) =
      ⟨0x108, op.code, embedded.toNat, functionId, count, pages⟩ := by
  have hread : ∀ f ∈ manageHeader op.code functionId embedded count, getBits (writeFields bytes
      (manageHeader op.code functionId embedded count ++ rowFields 64 0x80 pages)) f.offset f.width =
      f.value % 2 ^ f.width :=
    fun f hf => getBits_header (manageHeader_apart ..) manageHeader_end hsize hf
  have hpas := readPas_written (manageHeader_apart op.code functionId embedded count) manageHeader_end hsize hpages
  obtain ⟨msg, hmsg⟩ : ∃ msg, msg = writeFields bytes
      (manageHeader op.code functionId embedded count ++ rowFields 64 0x80 pages) := ⟨_, rfl⟩
  rw [← hmsg] at hread hpas ⊢
  simp only [manageHeader, List.forall_mem_cons] at hread
  obtain ⟨hopcode, hopMod, hembedded, hid, hn, -⟩ := hread
  have hcode : op.code % 2 ^ 16 = op.code := by cases op <;> rfl
  have hbit : embedded.toNat % 2 ^ 1 = embedded.toNat := by cases embedded <;> rfl
  rw [hcode] at hopMod
  rw [hbit] at hembedded
  rw [Nat.mod_eq_of_lt hfunction] at hid
  rw [Nat.mod_eq_of_lt hcount] at hn
  unfold readManagePages
  rw [hopcode, hopMod, hembedded, hid, hn]
  congr 1
  by_cases hop : op = .give
  · rw [if_pos (by rw [hop]), ← hgive hop]
    exact hpas
  · rw [if_neg (by cases op <;> first | exact absurd rfl hop | decide), hnone hop]

/-- What the decoder gives. -/
lemma decodeManagePagesTake_eq (out : List Byte) (length requested maxPas : ℕ) :
    decodeManagePagesTake out length requested maxPas =
      if length < 16 ∨ p1MaxManagePages < requested ∨ requested < getBits out 0x40 32 ∨
          maxPas < getBits out 0x40 32 ∨ length < 16 + getBits out 0x40 32 * 8 then none
      else some (readPas out (getBits out 0x40 32)) := by
  unfold decodeManagePagesTake readPas
  dsimp only
  split_ifs <;> first | rfl | omega

/-- A command that the encoder makes says what it was given. -/
lemma encode_read {input : List Byte} (op : PagesOp) (embedded : Bool) (hfunction : functionId < 2 ^ 16)
    (hpages : ∀ page ∈ pages, page < 2 ^ 64) (hcount : count ≤ p1MaxManagePages)
    (hgive : op = .give → pages.length = count ∧ count ≠ 0)
    (hsize : (if op = .give then 16 + count * 8 else 16) ≤ input.length) :
    (mlxP1EncodeManagePages input op.code functionId embedded pages count).map readManagePages =
      some ⟨0x108, op.code, embedded.toNat, functionId, count, if op = .give then pages else []⟩ := by
  have hneeded : mlxP1ManagePagesSize count = 16 + count * 8 := if_pos hcount
  have hmost : count < 2 ^ 32 := Nat.lt_of_le_of_lt hcount (by decide)
  have hlength : ∀ n ≤ input.length, (copyBytes input 0 (zeroBytes n)).length = input.length := by
    intro n hn
    exact length_copyBytes (by rwa [length_zeroBytes, Nat.zero_add])
  unfold mlxP1EncodeManagePages
  dsimp only
  by_cases hop : op = .give
  · subst hop
    obtain ⟨hlen, hzero⟩ := hgive rfl
    rw [if_pos rfl] at hsize
    have hnil : pages ≠ [] := fun heq => hzero (by rw [← hlen, heq, List.length_nil])
    have hok : ¬(16 + count * 8 = 0 ∨ input.length < 16 + count * 8 ∨ p1MaxManagePages < count ∨
        PagesOp.take.code < PagesOp.give.code ∨
        (PagesOp.give.code = PagesOp.give.code ∧ (pages = [] ∨ count = 0))) := by
      rintro (hbad | hbad | hbad | hbad | ⟨-, hbad | hbad⟩)
      · omega
      · omega
      · omega
      · exact absurd hbad (by decide)
      · exact hnil hbad
      · exact hzero hbad
    have htake : pages.take count = pages := List.take_of_length_le (by omega)
    rw [if_pos rfl, if_pos rfl, if_pos rfl, hneeded, if_neg hok, htake, Option.map_some]
    exact congrArg some (readManagePages_written .give embedded (by rw [hlength _ hsize, hlen]; exact hsize)
      hfunction hmost hpages (fun _ => hlen) (fun hne => absurd rfl hne))
  · have hcode : op.code ≠ PagesOp.give.code := by
      cases op with
      | give => exact absurd rfl hop
      | _ => decide
    have hlast : op.code ≤ PagesOp.take.code := by cases op <;> decide
    rw [if_neg hop] at hsize
    have hok : ¬(16 = 0 ∨ input.length < 16 ∨ p1MaxManagePages < count ∨ PagesOp.take.code < op.code ∨
        (op.code = PagesOp.give.code ∧ (pages = [] ∨ count = 0))) := by
      rintro (hbad | hbad | hbad | hbad | ⟨hbad, -⟩)
      · cases hbad
      · omega
      · omega
      · omega
      · exact hcode hbad
    rw [if_neg hcode, if_neg hcode, if_neg hop, if_neg hok, Option.map_some]
    exact congrArg some (@readManagePages_written _ [] _ _ op embedded (by rw [hlength _ hsize]; exact hsize)
      hfunction hmost (fun _ hmem => absurd hmem List.not_mem_nil) (fun heq => absurd heq hop) (fun _ => rfl))

/-- A response is decoded into the addresses that it lists. -/
lemma decode_response (hpages : ∀ page ∈ pages, page < 2 ^ 64) (hrequested : pages.length ≤ requested)
    (hmost : requested ≤ p1MaxManagePages) (hroom : pages.length ≤ maxPas) (hsize : 16 + pages.length * 8 ≤ length)
    (hlength : length ≤ out.length) :
    decodeManagePagesTake (writeFields out (responseFields pages)) length requested maxPas = some pages := by
  have hend : ∀ f ∈ [(⟨0x40, 32, pages.length⟩ : BitField)], f.offset + f.width ≤ 0x80 := by simp
  have hapart := List.pairwise_singleton BitField.Apart ⟨0x40, 32, pages.length⟩
  have hcount := @getBits_header out _ _ hapart hend (hsize.trans hlength) _ List.mem_cons_self
  have hpas := @readPas_written out _ _ hapart hend (hsize.trans hlength) hpages
  change getBits (writeFields out (responseFields pages)) 0x40 32 = pages.length % 2 ^ 32 at hcount
  change readPas (writeFields out (responseFields pages)) pages.length = pages at hpas
  rw [Nat.mod_eq_of_lt (Nat.lt_of_le_of_lt (hrequested.trans hmost) (by decide))] at hcount
  rw [decodeManagePagesTake_eq, hcount, if_neg (by omega), hpas]

end

/-! ## Every message -/

/-- What an answer that is accepted comes to. -/
structure Taken (out : List Byte) (length requested maxPas : ℕ) (pas : List ℕ) : Prop where
  /-- The number in the header. -/
  count : pas.length = getBits out 0x40 32
  asked : pas.length ≤ requested
  room : pas.length ≤ maxPas
  inside : 16 + pas.length * 8 ≤ length
  /-- Each address is the number that its own eight bytes spell. -/
  entry : ∀ i (hi : i < pas.length), pas[i] = beNat ((out.drop (16 + 8 * i)).take 8)

/-- What is accepted goes by the header. -/
lemma taken_of_decode {out : List Byte} {length requested maxPas : ℕ} {pas : List ℕ} (hlength : length ≤ out.length)
    (h : decodeManagePagesTake out length requested maxPas = some pas) : Taken out length requested maxPas pas := by
  rw [decodeManagePagesTake_eq] at h
  split_ifs at h with hbad
  obtain rfl := Option.some.inj h
  have hcount := length_readPas out (getBits out 0x40 32)
  refine ⟨hcount, by omega, by omega, by omega, fun i hi => ?_⟩
  have hoffset : 0x80 + i * 64 = 8 * (16 + 8 * i) := by omega
  rw [getElem_readPas, hoffset]
  exact getBits_eq_beNat (show 16 + 8 * i + 8 ≤ out.length by omega)

/-- For every function, operation and list of pages up to the command's capacity, the command says what it was
made of, with the addresses in order when it gives pages. A response that lists addresses is decoded into these.
Whatever the bytes of a response, it is refused, or its addresses are as many as its header says, one from each
entry, and no more than were asked for or than the buffer holds. -/
theorem pages_read_back :
    (∀ (input : List Byte) (op : PagesOp) (functionId : ℕ) (embedded : Bool) (pages : List ℕ) (count : ℕ),
      functionId < 2 ^ 16 → (∀ page ∈ pages, page < 2 ^ 64) → count ≤ p1MaxManagePages →
      (op = .give → pages.length = count ∧ count ≠ 0) →
      (if op = .give then 16 + count * 8 else 16) ≤ input.length →
      (mlxP1EncodeManagePages input op.code functionId embedded pages count).map readManagePages =
        some ⟨0x108, op.code, embedded.toNat, functionId, count, if op = .give then pages else []⟩) ∧
    (∀ (out : List Byte) (pages : List ℕ) (length requested maxPas : ℕ), (∀ page ∈ pages, page < 2 ^ 64) →
      pages.length ≤ requested → requested ≤ p1MaxManagePages → pages.length ≤ maxPas →
      16 + pages.length * 8 ≤ length → length ≤ out.length →
      decodeManagePagesTake (writeFields out (responseFields pages)) length requested maxPas = some pages) ∧
    ∀ (out : List Byte) (length requested maxPas : ℕ), length ≤ out.length →
      decodeManagePagesTake out length requested maxPas = none ∨
        ∃ pas, decodeManagePagesTake out length requested maxPas = some pas ∧
          Taken out length requested maxPas pas := by
  refine ⟨fun input op functionId embedded pages count hfunction hpages hcount hgive hsize =>
      encode_read op embedded hfunction hpages hcount hgive hsize,
    fun out pages length requested maxPas hpages hrequested hmost hroom hsize hlength =>
      decode_response hpages hrequested hmost hroom hsize hlength, ?_⟩
  intro out length requested maxPas hlength
  rcases hdecode : decodeManagePagesTake out length requested maxPas with _ | pas
  · exact .inl rfl
  · exact .inr ⟨pas, rfl, taken_of_decode hlength hdecode⟩

/-- Two pages for function 3, and the same two in a response. -/
theorem pages_read_back_two :
    (mlxP1EncodeManagePages (zeroBytes 32) 1 3 false [0x1000, 0x2000] 2).map readManagePages =
        some ⟨0x108, 1, 0, 3, 2, [0x1000, 0x2000]⟩ ∧
      decodeManagePagesTake (writeFields (zeroBytes 32) (responseFields [0x1000, 0x2000])) 32 2 2 =
        some [0x1000, 0x2000] :=
  ⟨pages_read_back.1 (zeroBytes 32) .give 3 false [0x1000, 0x2000] 2 (by decide) (by decide) (by decide)
      (by decide) (by decide),
    pages_read_back.2.1 (zeroBytes 32) [0x1000, 0x2000] 32 2 2 (by decide) (by decide) (by decide) (by decide)
      (by decide) (by decide)⟩

/-- The decoder is not for commands: in one that gives a page for function 0 it finds none, and one that takes a
page back carries no address. -/
theorem command_is_no_response :
    (mlxP1EncodeManagePages (zeroBytes 24) 1 0 false [0x1000] 1).bind (decodeManagePagesTake · 24 1 1) = some [] ∧
      (mlxP1EncodeManagePages (zeroBytes 24) 2 0 false [0x1000] 1).map readManagePages =
        some ⟨0x108, 2, 0, 0, 1, []⟩ ∧
      (mlxP1EncodeManagePages (zeroBytes 24) 2 0 false [0x1000] 1).bind (decodeManagePagesTake · 24 1 1) = some [] := by
  refine ⟨?_, ?_, ?_⟩ <;> decide +kernel

/-! ## The commands of `ManagePages` -/

/-- A batch that passed the checks is sent exactly when it fits a command, and a command that gives pages has the
addresses of the slots in order. -/
theorem manageCommand_read (s : FwPages) (op : PagesOp) (indices : List ℕ) (functionId : ℕ) (hindices : indices ≠ [])
    (hiova : ∀ p, some p ∈ s.pages → p.iova < 2 ^ 64) :
    ((s.manageCommand op indices functionId).isSome ↔ indices.length ≤ p1MaxManagePages) ∧
      ∀ msg, s.manageCommand op indices functionId = some msg → readManagePages msg =
        ⟨0x108, op.code, 0, functionId % 2 ^ 16, indices.length, if op = .give then s.iovasOf indices else []⟩ := by
  have hlen : (s.iovasOf indices).length = indices.length := List.length_map _
  have hpages : ∀ page ∈ s.iovasOf indices, page < 2 ^ 64 := by
    intro page hpage
    obtain ⟨slot, -, rfl⟩ := List.mem_map.mp hpage
    rcases hentry : entry s.pages slot with _ | p
    · exact Nat.two_pow_pos 64
    · exact hiova p (mem_of_entry hentry)
  have hread : indices.length ≤ p1MaxManagePages → (s.manageCommand op indices functionId).map readManagePages =
      some ⟨0x108, op.code, 0, functionId % 2 ^ 16, indices.length,
        if op = .give then s.iovasOf indices else []⟩ := by
    intro hmost
    refine encode_read op false (Nat.mod_lt _ (by decide)) hpages hmost (fun _ => ⟨hlen, ?_⟩) ?_
    · exact fun hzero => hindices (List.length_eq_zero_iff.mp hzero)
    · rw [length_zeroBytes]
      split_ifs <;> omega
  have hmany : ¬indices.length ≤ p1MaxManagePages → s.manageCommand op indices functionId = none := by
    intro hmost
    unfold manageCommand mlxP1EncodeManagePages
    exact if_pos (.inr (.inr (.inl (by omega))))
  by_cases hmost : indices.length ≤ p1MaxManagePages
  · obtain ⟨msg, hmsg, heq⟩ := Option.map_eq_some_iff.mp (hread hmost)
    rw [hmsg]
    refine ⟨⟨fun _ => hmost, fun _ => rfl⟩, ?_⟩
    rintro _ ⟨⟩
    exact heq
  · rw [hmany hmost]
    exact ⟨⟨(by rintro ⟨⟩), fun h => absurd h hmost⟩, (by rintro _ ⟨⟩)⟩

end MelonDMA.Core.FwPages
