import MelonDMA.Lib.BitFields
import MelonDMA.Lib.Bytes
import MelonDMA.Lib.Counter
import MelonDMA.Lib.PageMap

/-!
# The command that creates a memory key

The helpers of `MlxP0Encoding.hpp` that choose a page size, count and list pages, and write the
`CREATE_MKEY` command, and what the firmware reads out of it. 64-bit arguments are numbers below
`2 ^ 64`; `1 << shift` is written `2 ^ shift`, and a mask `(1 << shift) - 1` a remainder.
-/

namespace MelonDMA.Hw

open MelonDMA.Lib

/-! ## Constants -/

/-- Source: `MLX_MTT_PAGE_SHIFT`. -/
def mttPageShift : ℕ := 12

/-- Source: `MLX_MTT_MAX_PAGE_SHIFT`. -/
def mttMaxPageShift : ℕ := 21

/-- Source: `MLX_CREATE_MKEY_FIXED_BYTES`. -/
def createMkeyFixedBytes : ℕ := 0x880 / 8

/-- Source: `MLX_CREATE_MKEY_ACTUAL_XLT_BIT_OFFSET`. -/
def createMkeyActualXltBitOffset : ℕ := 0x300

/-- A bit of the key context. Source: `MLX_CREATE_MKEY_MKC_BIT_OFFSET`. -/
def mkc (bit : ℕ) : ℕ := 0x80 + bit

/-- Source: `MLX_CMD_OP_CREATE_MKEY`. -/
def opCreateMkey : ℕ := 0x200

/-- Source: `MLX_MR_ACCESS_SUPPORTED`. -/
def mrAccessSupported : ℕ := 2 ^ 5 - 1

/-! ## Pages -/

/-- Source: `mlxMttPageCountShift`. -/
def mlxMttPageCountShift (startAddress length pageShift : ℕ) : ℕ :=
  if pageShift < mttPageShift ∨ 63 < pageShift then 0
  else
    let pageOffset := startAddress % 2 ^ pageShift
    if length = 0 ∨ 2 ^ 64 - 1 - startAddress < length ∨ 2 ^ 64 - 1 - pageOffset < length then 0
    else
      let span := pageOffset + length
      span / 2 ^ pageShift + if span % 2 ^ pageShift = 0 then 0 else 1

/-- The loop of `mlxPickMttPageShift`, from shift `mttPageShift + n - 1` down. -/
def pickLoop (startAddress iovaBase : ℕ) : ℕ → ℕ
  | 0 => 0
  | n + 1 =>
      if iovaBase % 2 ^ (mttPageShift + n) = startAddress % 2 ^ (mttPageShift + n) then mttPageShift + n
      else pickLoop startAddress iovaBase n

/-- Source: `mlxPickMttPageShift`. -/
def mlxPickMttPageShift (startAddress iovaBase maxShift : ℕ) : ℕ :=
  pickLoop startAddress iovaBase (min (max maxShift mttPageShift) mttMaxPageShift - mttPageShift + 1)

/-- Source: `mlxBuildContiguousPas`. -/
def mlxBuildContiguousPas (iovaBase startAddress length pageShift capacity : ℕ) : Option (List ℕ) :=
  if pageShift < mttPageShift ∨ 63 < pageShift then none
  else
    let npages := mlxMttPageCountShift startAddress length pageShift
    if npages = 0 ∨ capacity < npages then none
    else
      some ((List.range npages).map fun i =>
        add64 (pageBase pageShift iovaBase) (i * 2 ^ pageShift % 2 ^ 64))

/-- Source: `mlxMttOctwordCount`. -/
def mlxMttOctwordCount (pageCount : ℕ) : ℕ := (pageCount + 1) % 2 ^ 32 / 2

/-- Source: `mlxCreateMkeyInputSize`. -/
def mlxCreateMkeyInputSize (pageCount : ℕ) : ℕ :=
  (createMkeyFixedBytes + mlxMttOctwordCount pageCount * 16) % 2 ^ 32

/-! ## The command -/

/-- The fields of the command before its translation entries. -/
def mkeyFields (pageCount startAddress length accessFlags pd keyVariant pageShift : ℕ) : List BitField :=
  [⟨mkc 0x11, 1, accessFlags / 2 ^ 3 % 2⟩, ⟨mkc 0x12, 1, accessFlags / 2 ^ 1 % 2⟩,
    ⟨mkc 0x13, 1, accessFlags / 2 ^ 2 % 2⟩, ⟨mkc 0x14, 1, accessFlags / 2 ^ 0 % 2⟩, ⟨mkc 0x15, 1, 1⟩,
    ⟨mkc 0x16, 2, 1⟩, ⟨mkc 0x10, 1, 1⟩, ⟨mkc 0x20, 24, 0xffffff⟩, ⟨mkc 0x38, 8, keyVariant⟩,
    ⟨mkc 0x60, 1, 0⟩, ⟨mkc 0x68, 24, pd⟩, ⟨mkc 0x80, 64, startAddress⟩, ⟨mkc 0xc0, 64, length⟩,
    ⟨mkc 0x1a0, 32, mlxMttOctwordCount pageCount⟩, ⟨mkc 0x1da, 6, pageShift⟩,
    ⟨createMkeyActualXltBitOffset, 32, mlxMttOctwordCount pageCount⟩]

/-- The translation entries from number `i` on. -/
def entryFields : ℕ → List ℕ → List BitField
  | _, [] => []
  | i, page :: pages => ⟨0x880 + i * 64, 64, page⟩ :: entryFields (i + 1) pages

/-- The input with the fields written, and its size. Source: `mlxEncodeCreateMkey`. -/
def mlxEncodeCreateMkey (input : List Byte) (pages : List ℕ)
    (startAddress length accessFlags pd keyVariant pageShift : ℕ) : Option (List Byte × ℕ) :=
  let pageCount := pages.length
  if 2 ^ 20 < pageCount then none
  else if pageShift < mttPageShift ∨ 63 < pageShift then none
  else
    let size := mlxCreateMkeyInputSize pageCount
    if pageCount = 0 ∨ length = 0 ∨ keyVariant = 0 ∨ mrAccessSupported < accessFlags ∨
        0xffffff < pd ∨ mlxMttPageCountShift startAddress length pageShift ≠ pageCount ∨
        input.length < size then none
    else if ∃ page ∈ pages, page % 2 ^ pageShift ≠ 0 then none
    else
      some (writeFields input
        (mkeyFields pageCount startAddress length accessFlags pd keyVariant pageShift ++
          entryFields 0 pages), size)

/-! ## What the firmware reads -/

/-- The log of the page size. -/
def readPageShift (input : List Byte) : ℕ := getBits input (mkc 0x1da) 6

/-- The address that the key begins at. -/
def readStartAddress (input : List Byte) : ℕ := getBits input (mkc 0x80) 64

/-- A translation entry. -/
def readEntry (input : List Byte) (k : ℕ) : ℕ := getBits input (0x880 + k * 64) 64

/-- The device address that the key translates an address to. -/
def readTranslation (input : List Byte) (x : ℕ) : ℕ :=
  readEntry input (x / 2 ^ readPageShift input - readStartAddress input / 2 ^ readPageShift input) +
    x % 2 ^ readPageShift input

/-! ## Page sizes and counts -/

/-- What a page count other than zero is. -/
lemma pageCount_of_mlxMttPageCountShift {va len s : ℕ} (h : mlxMttPageCountShift va len s ≠ 0) :
    (mttPageShift ≤ s ∧ s ≤ 63) ∧ len ≠ 0 ∧ mlxMttPageCountShift va len s = pageCount s va len := by
  unfold mlxMttPageCountShift at h ⊢
  by_cases hshift : s < mttPageShift ∨ 63 < s
  · rw [if_pos hshift] at h
    exact absurd rfl h
  · rw [if_neg hshift] at h ⊢
    dsimp only at h ⊢
    by_cases hbad : len = 0 ∨ 2 ^ 64 - 1 - va < len ∨ 2 ^ 64 - 1 - va % 2 ^ s < len
    · rw [if_pos hbad] at h
      exact absurd rfl h
    · rw [if_neg hbad]
      obtain ⟨hlen, -⟩ := not_or.mp hbad
      refine ⟨by omega, hlen, ?_⟩
      have hpos := Nat.two_pow_pos s
      have hspan := Nat.div_add_mod (va % 2 ^ s + len) (2 ^ s)
      have hlt := Nat.mod_lt (va % 2 ^ s + len) hpos
      rw [pageCount_eq hlen]
      by_cases hwhole : (va % 2 ^ s + len) % 2 ^ s = 0
      · have hq : (va % 2 ^ s + len) / 2 ^ s ≠ 0 := by
          intro hzero
          rw [hzero, hwhole] at hspan
          omega
        obtain ⟨q, hq⟩ := Nat.exists_eq_succ_of_ne_zero hq
        rw [if_pos hwhole, hq]
        rw [hq, hwhole, Nat.mul_succ] at hspan
        have hsplit : va % 2 ^ s + (len - 1) = 2 ^ s * q + (2 ^ s - 1) := by omega
        rw [hsplit, Nat.mul_add_div hpos, Nat.div_eq_of_lt (show 2 ^ s - 1 < 2 ^ s by omega)]
      · have hsplit : va % 2 ^ s + (len - 1) = 2 ^ s * ((va % 2 ^ s + len) / 2 ^ s) +
            ((va % 2 ^ s + len) % 2 ^ s - 1) := by omega
        rw [if_neg hwhole, hsplit, Nat.mul_add_div hpos,
          Nat.div_eq_of_lt (show (va % 2 ^ s + len) % 2 ^ s - 1 < 2 ^ s by omega)]

lemma pickLoop_spec {va iova n : ℕ} (h : pickLoop va iova n ≠ 0) :
    iova % 2 ^ pickLoop va iova n = va % 2 ^ pickLoop va iova n ∧ pickLoop va iova n < mttPageShift + n := by
  induction n with
  | zero => exact absurd rfl h
  | succ n ih =>
      rw [pickLoop] at h ⊢
      by_cases hcong : iova % 2 ^ (mttPageShift + n) = va % 2 ^ (mttPageShift + n)
      · rw [if_pos hcong]
        exact ⟨hcong, by omega⟩
      · rw [if_neg hcong] at h ⊢
        obtain ⟨hcong', hlt⟩ := ih h
        exact ⟨hcong', by omega⟩

/-- A page size that was picked agrees with both addresses. -/
lemma mlxPickMttPageShift_spec {va iova maxShift : ℕ} (h : mlxPickMttPageShift va iova maxShift ≠ 0) :
    iova % 2 ^ mlxPickMttPageShift va iova maxShift = va % 2 ^ mlxPickMttPageShift va iova maxShift :=
  (pickLoop_spec h).1

/-- The pages of a contiguous range translate it, when the page size agrees with both addresses. -/
lemma maps_mlxBuildContiguousPas {iova va len s capacity : ℕ} {pages : List ℕ}
    (h : mlxBuildContiguousPas iova va len s capacity = some pages) (hcong : iova % 2 ^ s = va % 2 ^ s)
    (hend : iova + len < 2 ^ 64) : Maps s va pages (iova + ·) len := by
  unfold mlxBuildContiguousPas at h
  by_cases hshift : s < mttPageShift ∨ 63 < s
  · rw [if_pos hshift] at h
    cases h
  · rw [if_neg hshift] at h
    dsimp only at h
    by_cases hbad : mlxMttPageCountShift va len s = 0 ∨ capacity < mlxMttPageCountShift va len s
    · rw [if_pos hbad] at h
      cases h
    · rw [if_neg hbad] at h
      obtain rfl := Option.some.inj h
      obtain ⟨-, hlen, hcount⟩ := pageCount_of_mlxMttPageCountShift (not_or.mp hbad).1
      have hmaps := @maps_contiguous s va len _ hcong
      rw [hcount]
      have hsame : ((List.range (pageCount s va len)).map fun i =>
          add64 (pageBase s iova) (i * 2 ^ s % 2 ^ 64)) =
          (List.range (pageCount s va len)).map fun k => pageBase s iova + k * 2 ^ s := by
        apply List.map_congr_left
        intro k hk
        have hkle : k ≤ (va % 2 ^ s + (len - 1)) / 2 ^ s := by
          rw [List.mem_range, pageCount_eq hlen] at hk
          omega
        have hmul : k * 2 ^ s ≤ va % 2 ^ s + (len - 1) :=
          Nat.le_trans (Nat.mul_le_mul_right _ hkle) (Nat.div_mul_le_self _ _)
        have hbase := pageBase_add s iova
        rw [Nat.mod_eq_of_lt (show k * 2 ^ s < 2 ^ 64 by omega), add64_of_lt (by omega)]
      rw [hsame]
      exact hmaps

/-! ## Reading the command back -/

section

variable {input output : List Byte} {pages : List ℕ} {i va len accessFlags pd keyVariant s size : ℕ}

/-- The translation entries are a row of fields. -/
lemma entryFields_eq (i : ℕ) (pages : List ℕ) : entryFields i pages = rowFields 64 (0x880 + i * 64) pages := by
  induction pages generalizing i with
  | nil => rfl
  | cons page pages ih => rw [entryFields, rowFields, ih, Nat.succ_mul, Nat.add_assoc]

lemma entryFields_offset {f : BitField} (hf : f ∈ entryFields i pages) :
    0x880 + i * 64 ≤ f.offset ∧ f.offset + f.width ≤ 0x880 + (i + pages.length) * 64 := by
  rw [entryFields_eq] at hf
  have hrow := rowFields_offset hf
  omega

lemma entryFields_apart : (entryFields i pages).Pairwise BitField.Apart := by
  rw [entryFields_eq]
  exact rowFields_apart

lemma mem_entryFields {k : ℕ} (hk : k < pages.length) :
    ⟨0x880 + (i + k) * 64, 64, pages[k]⟩ ∈ entryFields i pages := by
  rw [entryFields_eq, Nat.add_mul, ← Nat.add_assoc]
  exact mem_rowFields hk

lemma mkeyFields_offset {n : ℕ} {f : BitField} (hf : f ∈ mkeyFields n va len accessFlags pd keyVariant s) :
    16 ≤ f.offset ∧ f.offset + f.width ≤ 0x880 := by
  revert f hf
  simp [mkeyFields, mkc, createMkeyActualXltBitOffset]

lemma mkeyFields_apart (n va len accessFlags pd keyVariant s : ℕ) :
    (mkeyFields n va len accessFlags pd keyVariant s).Pairwise BitField.Apart := by
  rw [pairwise_apart_iff]
  simp only [mkeyFields, List.map_cons, List.map_nil]
  decide

/-- The command as it is sent, its opcode written over it. -/
def sentMkey (output : List Byte) : List Byte := setBits output 0x00 16 opCreateMkey

/-- The fields of the command that is sent. -/
def sentFields (pages : List ℕ) (va len accessFlags pd keyVariant s : ℕ) : List BitField :=
  mkeyFields pages.length va len accessFlags pd keyVariant s ++ entryFields 0 pages ++
    [⟨0x00, 16, opCreateMkey⟩]

lemma sentFields_apart (pages : List ℕ) (va len accessFlags pd keyVariant s : ℕ) :
    (sentFields pages va len accessFlags pd keyVariant s).Pairwise BitField.Apart := by
  apply List.pairwise_append.mpr
  refine ⟨?_, List.pairwise_singleton _ _, ?_⟩
  · apply List.pairwise_append.mpr
    refine ⟨mkeyFields_apart .., entryFields_apart, ?_⟩
    intro f hf g hg
    have hmkc := mkeyFields_offset hf
    have hentry := entryFields_offset hg
    left
    omega
  · intro f hf g hg
    obtain rfl := List.mem_singleton.mp hg
    right
    dsimp only
    rcases List.mem_append.mp hf with hmkc | hentry
    · exact (mkeyFields_offset hmkc).1
    · have hoffset := entryFields_offset hentry
      omega

/-- A command that is encoded: its fields, their room, and its size. -/
lemma mlxEncodeCreateMkey_fields
    (h : mlxEncodeCreateMkey input pages va len accessFlags pd keyVariant s = some (output, size)) :
    sentMkey output = writeFields input (sentFields pages va len accessFlags pd keyVariant s) ∧
      (∀ f ∈ sentFields pages va len accessFlags pd keyVariant s, f.Fits input.length) ∧
      pages.length ≤ 2 ^ 20 ∧ s ≤ 63 ∧ mlxMttPageCountShift va len s = pages.length ∧
      pages.length ≠ 0 ∧ size = createMkeyFixedBytes + (pages.length + 1) / 2 * 16 := by
  unfold mlxEncodeCreateMkey at h
  dsimp only at h
  by_cases hmany : 2 ^ 20 < pages.length
  · rw [if_pos hmany] at h
    cases h
  · rw [if_neg hmany] at h
    by_cases hshift : s < mttPageShift ∨ 63 < s
    · rw [if_pos hshift] at h
      cases h
    · rw [if_neg hshift] at h
      split_ifs at h with hbad hpage
      obtain ⟨rfl, rfl⟩ := Prod.mk.inj (Option.some.inj h)
      push Not at hbad
      obtain ⟨hempty, -, -, -, -, hcount, hroom⟩ := hbad
      have hsize : mlxCreateMkeyInputSize pages.length =
          createMkeyFixedBytes + (pages.length + 1) / 2 * 16 := by
        unfold mlxCreateMkeyInputSize mlxMttOctwordCount createMkeyFixedBytes
        omega
      refine ⟨?_, ?_, by omega, by omega, hcount, hempty, hsize⟩
      · rw [sentMkey, sentFields, writeFields_concat]
      · intro f hf
        unfold BitField.Fits
        rw [hsize, createMkeyFixedBytes] at hroom
        rcases List.mem_append.mp hf with hbody | hop
        · rcases List.mem_append.mp hbody with hmkc | hentry
          · have hoffset := mkeyFields_offset hmkc
            omega
          · have hoffset := entryFields_offset hentry
            omega
        · obtain rfl := List.mem_singleton.mp hop
          dsimp only
          omega

/-- What the firmware reads is what was asked for. -/
theorem read_sentMkey
    (h : mlxEncodeCreateMkey input pages va len accessFlags pd keyVariant s = some (output, size))
    (hva : va < 2 ^ 64) (hpages : ∀ page ∈ pages, page < 2 ^ 64) :
    readPageShift (sentMkey output) = s ∧ readStartAddress (sentMkey output) = va ∧
      (∀ k, (hk : k < pages.length) → readEntry (sentMkey output) k = pages[k]) ∧
      getBits (sentMkey output) (mkc 0x1a0) 32 = (pages.length + 1) / 2 ∧
      getBits (sentMkey output) createMkeyActualXltBitOffset 32 = (pages.length + 1) / 2 := by
  obtain ⟨hsent, hfits, hmany, hshift, -, -, -⟩ := mlxEncodeCreateMkey_fields h
  have hread : ∀ f ∈ sentFields pages va len accessFlags pd keyVariant s,
      getBits (sentMkey output) f.offset f.width = f.value % 2 ^ f.width := by
    intro f hf
    rw [hsent]
    exact getBits_writeFields hfits (sentFields_apart pages va len accessFlags pd keyVariant s) hf
  have hmkc : ∀ f ∈ mkeyFields pages.length va len accessFlags pd keyVariant s,
      getBits (sentMkey output) f.offset f.width = f.value % 2 ^ f.width := by
    intro f hf
    exact hread f (List.mem_append_left _ (List.mem_append_left _ hf))
  have hoct : mlxMttOctwordCount pages.length = (pages.length + 1) / 2 := by
    unfold mlxMttOctwordCount
    omega
  refine ⟨?_, ?_, ?_, ?_, ?_⟩
  · have hfield := hmkc ⟨mkc 0x1da, 6, s⟩ (by simp [mkeyFields])
    exact hfield.trans (Nat.mod_eq_of_lt (show s < 2 ^ 6 by omega))
  · have hfield := hmkc ⟨mkc 0x80, 64, va⟩ (by simp [mkeyFields])
    exact hfield.trans (Nat.mod_eq_of_lt hva)
  · intro k hk
    have hmem := mem_entryFields (i := 0) hk
    rw [Nat.zero_add] at hmem
    have hfield := hread _ (List.mem_append_left _ (List.mem_append_right _ hmem))
    exact hfield.trans (Nat.mod_eq_of_lt (hpages _ (List.getElem_mem hk)))
  · have hfield := hmkc ⟨mkc 0x1a0, 32, mlxMttOctwordCount pages.length⟩ (by simp [mkeyFields])
    rw [hoct] at hfield
    exact hfield.trans (Nat.mod_eq_of_lt (show (pages.length + 1) / 2 < 2 ^ 32 by omega))
  · have hfield := hmkc ⟨createMkeyActualXltBitOffset, 32, mlxMttOctwordCount pages.length⟩
      (by simp [mkeyFields])
    rw [hoct] at hfield
    exact hfield.trans (Nat.mod_eq_of_lt (show (pages.length + 1) / 2 < 2 ^ 32 by omega))

end

end MelonDMA.Hw
