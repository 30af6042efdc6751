import MelonDMA.Hw.CreateMkey
import MelonDMA.Hw.WqeRoundTrip

/-!
# Indirect memory keys

A key that translates to ranges of other keys goes to the firmware in a `CREATE_MKEY` command
(`mlxEncodeCreateMkeyIndirect`) or in a UMR element (`mlxEncodeUmrKlmWqe`). Either one is read back as a
`KeyView`.

The encoders agree on what they lose (`KeyView.Renders`): the length of a range is cut to 32 bits, and the
length that the key is declared with is not held against the ranges. So a key is described whole exactly
when there was nothing to lose (`KeyView.Renders.describes_iff`).
-/

namespace MelonDMA.Hw

open MelonDMA.Lib

/-! ## The command -/

/-- Source: `MLX_CREATE_MKEY_MAX_KLM`. -/
def createMkeyMaxKlm : ℕ := (4112 - createMkeyFixedBytes) / klmEntryBytes

/-- Source: `mlxCreateMkeyIndirectInputSize`. -/
def mlxCreateMkeyIndirectInputSize (klmCount : ℕ) : ℕ := createMkeyFixedBytes + klmCount * klmEntryBytes

/-- The fields of the command before its translation entries. -/
def indirectFields (klmCount startAddress length accessFlags pd keyVariant : ℕ) : List BitField :=
  [⟨mkc 0x11, 1, accessFlags / 2 ^ 3 % 2⟩, ⟨mkc 0x12, 1, accessFlags / 2 ^ 1 % 2⟩,
    ⟨mkc 0x13, 1, accessFlags / 2 ^ 2 % 2⟩, ⟨mkc 0x14, 1, accessFlags / 2 ^ 0 % 2⟩, ⟨mkc 0x15, 1, 1⟩,
    ⟨mkc 0x16, 2, 2⟩, ⟨mkc 0x10, 1, 1⟩, ⟨mkc 0x20, 24, 0xffffff⟩, ⟨mkc 0x38, 8, keyVariant⟩,
    ⟨mkc 0x60, 1, 0⟩, ⟨mkc 0x68, 24, pd⟩, ⟨mkc 0x80, 64, startAddress⟩, ⟨mkc 0xc0, 64, length⟩,
    ⟨mkc 0x1a0, 32, klmCount⟩, ⟨createMkeyActualXltBitOffset, 32, klmCount⟩]

/-- The translation entries from number `i` on; the cast of the byte count to 32 bits is the width of its
field. -/
def klmFields : ℕ → List KlmEntry → List BitField
  | _, [] => []
  | i, klm :: klms =>
      ⟨0x880 + i * 128, 32, klm.byteCount⟩ :: ⟨0x880 + i * 128 + 0x20, 32, klm.mkey⟩ ::
        ⟨0x880 + i * 128 + 0x40, 64, klm.address⟩ :: klmFields (i + 1) klms

/-- The input with the fields written, and its size. Source: `mlxEncodeCreateMkeyIndirect`. -/
def mlxEncodeCreateMkeyIndirect (input : List Byte) (klms : List KlmEntry)
    (startAddress length accessFlags pd keyVariant : ℕ) : Option (List Byte × ℕ) :=
  let klmCount := klms.length
  if klmCount = 0 ∨ createMkeyMaxKlm < klmCount then none
  else
    let size := mlxCreateMkeyIndirectInputSize klmCount
    if length = 0 ∨ keyVariant = 0 ∨ mrAccessSupported < accessFlags ∨ 0xffffff < pd ∨
        input.length < size then none
    else if ∃ klm ∈ klms, klm.byteCount = 0 ∨ klm.mkey = 0 then none
    else
      some (writeFields input
        (indirectFields klmCount startAddress length accessFlags pd keyVariant ++ klmFields 0 klms), size)

/-! ## What the firmware reads -/

/-- An indirect key as the firmware reads it. -/
structure KeyView where
  startAddr : ℕ
  length : ℕ
  /-- The translation entries. -/
  entry : ℕ → KlmEntry
  /-- Each place that says how many units of 16 bytes the entries take. -/
  octowords : List ℕ

/-- The key of a command of a given size. -/
def readIndirectMkey (input : List Byte) (size : ℕ) : KeyView where
  startAddr := readStartAddress input
  length := getBits input (mkc 0xc0) 64
  entry k := ⟨getBits input (0x880 + k * 128 + 0x40) 64, getBits input (0x880 + k * 128) 32,
    getBits input (0x880 + k * 128 + 0x20) 32⟩
  octowords := [getBits input (mkc 0x1a0) 32, getBits input createMkeyActualXltBitOffset 32,
    (size - createMkeyFixedBytes) / 16]

/-- The key of a UMR element. -/
def readUmrKlm (m : Memory) : KeyView where
  startAddr := m.be 80 8
  length := m.be 88 8
  entry k := ⟨m.be (umrWqeFixedBytes + 16 * k + 8) 8, m.be (umrWqeFixedBytes + 16 * k) 4,
    m.be (umrWqeFixedBytes + 16 * k + 4) 4⟩
  octowords := [m.be 20 2, m.be 4 4 % 256 - umrWqeFixedBytes / 16]

/-- What is left of an entry. -/
def KlmEntry.cut (klm : KlmEntry) : KlmEntry := { klm with byteCount := klm.byteCount % 2 ^ 32 }

/-- The fields of `MlxKlmEntry` have their types. -/
structure KlmEntry.Typed (klm : KlmEntry) : Prop where
  address : klm.address < 2 ^ 64
  byteCount : klm.byteCount < 2 ^ 64
  mkey : klm.mkey < 2 ^ 32

namespace KeyView

/-- The key is described whole: its entries are the children in their order, nothing is behind them, every
count is right, and the entries reach as far as the key. -/
structure Describes (v : KeyView) (children : List KlmEntry) (startAddr length octowords : ℕ) : Prop where
  start : v.startAddr = startAddr
  declared : v.length = length
  entries : ∀ k, (hk : k < children.length) → v.entry k = children[k]
  padding : ∀ k, children.length ≤ k → k < octowords → v.entry k = ⟨0, 0, 0⟩
  counts : ∀ n ∈ v.octowords, n = octowords
  spans : length ≤ ((List.range children.length).map fun k => (v.entry k).byteCount).sum

/-- What the encoders write of a key. -/
structure Renders (v : KeyView) (children : List KlmEntry) (startAddr length octowords : ℕ) : Prop where
  start : v.startAddr = startAddr
  declared : v.length = length
  entries : ∀ k, (hk : k < children.length) → v.entry k = children[k].cut
  padding : ∀ k, children.length ≤ k → k < octowords → v.entry k = ⟨0, 0, 0⟩
  counts : ∀ n ∈ v.octowords, n = octowords

/-- No length is cut, and the children are as long as the key together. -/
def Whole (children : List KlmEntry) (length : ℕ) : Prop :=
  (∀ c ∈ children, c.byteCount < 2 ^ 32) ∧ length ≤ (children.map KlmEntry.byteCount).sum

instance (children : List KlmEntry) (length : ℕ) : Decidable (Whole children length) := by
  unfold Whole
  infer_instance

/-- The entries of a list are read one by one. -/
lemma map_range_getElem {α β : Type} (l : List α) (f : ℕ → β) (g : α → β)
    (h : ∀ k, (hk : k < l.length) → f k = g l[k]) : (List.range l.length).map f = l.map g := by
  apply List.ext_getElem
  · rw [List.length_map, List.length_map, List.length_range]
  · intro k hk hk'
    rw [List.length_map] at hk'
    rw [List.getElem_map, List.getElem_map, List.getElem_range, h k hk']

variable {v : KeyView} {children : List KlmEntry} {startAddr length octowords : ℕ}

/-- A key is described whole exactly when no length was cut and the children are long enough. -/
theorem Renders.describes_iff (h : v.Renders children startAddr length octowords) :
    v.Describes children startAddr length octowords ↔ Whole children length := by
  constructor
  · intro hd
    refine ⟨?_, ?_⟩
    · intro c hc
      obtain ⟨k, hk, rfl⟩ := List.mem_iff_getElem.mp hc
      have hsame := (hd.entries k hk).symm.trans (h.entries k hk)
      have hcount := congrArg KlmEntry.byteCount hsame
      rw [hcount]
      exact Nat.mod_lt _ (by decide)
    · have hspans := hd.spans
      rwa [map_range_getElem children _ KlmEntry.byteCount fun k hk => by rw [hd.entries k hk]] at hspans
  · rintro ⟨hshort, hlong⟩
    have hentries : ∀ k, (hk : k < children.length) → v.entry k = children[k] := by
      intro k hk
      rw [h.entries k hk, KlmEntry.cut, Nat.mod_eq_of_lt (hshort _ (List.getElem_mem hk))]
    refine ⟨h.start, h.declared, hentries, h.padding, h.counts, ?_⟩
    rwa [map_range_getElem children _ KlmEntry.byteCount fun k hk => by rw [hentries k hk]]

end KeyView

/-! ## Reading the command back -/

section

variable {input output : List Byte} {klms : List KlmEntry} {i n va len accessFlags pd keyVariant size : ℕ}

lemma klmFields_offset {f : BitField} (hf : f ∈ klmFields i klms) :
    0x880 + i * 128 ≤ f.offset ∧ f.offset + f.width ≤ 0x880 + (i + klms.length) * 128 := by
  induction klms generalizing i with
  | nil => cases hf
  | cons klm klms ih =>
      rw [List.length_cons]
      simp only [klmFields, List.mem_cons] at hf
      rcases hf with rfl | rfl | rfl | hin
      · dsimp only
        omega
      · dsimp only
        omega
      · dsimp only
        omega
      · have hrest := ih hin
        omega

lemma klmFields_apart : (klmFields i klms).Pairwise BitField.Apart := by
  induction klms generalizing i with
  | nil => exact List.Pairwise.nil
  | cons klm klms ih =>
      have hlater : ∀ f ∈ klmFields (i + 1) klms, 0x880 + i * 128 + 128 ≤ f.offset := by
        intro f hf
        have hoffset := klmFields_offset hf
        omega
      refine List.pairwise_cons.mpr ⟨?_, List.pairwise_cons.mpr ⟨?_, List.pairwise_cons.mpr ⟨?_, ih⟩⟩⟩
      · intro f hf
        left
        rcases List.mem_cons.mp hf with rfl | hf
        · exact le_rfl
        · rcases List.mem_cons.mp hf with rfl | hf
          · dsimp only
            omega
          · have hoffset := hlater f hf
            dsimp only
            omega
      · intro f hf
        left
        rcases List.mem_cons.mp hf with rfl | hf
        · exact le_rfl
        · have hoffset := hlater f hf
          dsimp only
          omega
      · intro f hf
        have hoffset := hlater f hf
        left
        dsimp only
        omega

/-- The three fields of an entry. -/
lemma mem_klmFields {k : ℕ} (hk : k < klms.length) :
    ⟨0x880 + (i + k) * 128, 32, klms[k].byteCount⟩ ∈ klmFields i klms ∧
      ⟨0x880 + (i + k) * 128 + 0x20, 32, klms[k].mkey⟩ ∈ klmFields i klms ∧
      ⟨0x880 + (i + k) * 128 + 0x40, 64, klms[k].address⟩ ∈ klmFields i klms := by
  induction klms generalizing i k with
  | nil => cases hk
  | cons klm klms ih =>
      cases k with
      | zero => simp [klmFields]
      | succ k =>
          have hin : k < klms.length := by
            rw [List.length_cons] at hk
            omega
          have hmem := ih (i := i + 1) hin
          rw [Nat.add_right_comm, Nat.add_assoc] at hmem
          obtain ⟨hcount, hkey, haddr⟩ := hmem
          simp only [klmFields, List.mem_cons]
          exact ⟨.inr (.inr (.inr hcount)), .inr (.inr (.inr hkey)), .inr (.inr (.inr haddr))⟩

lemma indirectFields_offset {f : BitField} (hf : f ∈ indirectFields n va len accessFlags pd keyVariant) :
    16 ≤ f.offset ∧ f.offset + f.width ≤ 0x880 := by
  revert f hf
  simp [indirectFields, mkc, createMkeyActualXltBitOffset]

lemma indirectFields_apart (n va len accessFlags pd keyVariant : ℕ) :
    (indirectFields n va len accessFlags pd keyVariant).Pairwise BitField.Apart := by
  rw [pairwise_apart_iff]
  simp only [indirectFields, List.map_cons, List.map_nil]
  decide

/-- The fields of the command that is sent. -/
def sentIndirect (klms : List KlmEntry) (va len accessFlags pd keyVariant : ℕ) : List BitField :=
  indirectFields klms.length va len accessFlags pd keyVariant ++ klmFields 0 klms ++
    [⟨0x00, 16, opCreateMkey⟩]

lemma sentIndirect_apart (klms : List KlmEntry) (va len accessFlags pd keyVariant : ℕ) :
    (sentIndirect klms va len accessFlags pd keyVariant).Pairwise BitField.Apart := by
  apply List.pairwise_append.mpr
  refine ⟨?_, List.pairwise_singleton _ _, ?_⟩
  · apply List.pairwise_append.mpr
    refine ⟨indirectFields_apart .., klmFields_apart, ?_⟩
    intro f hf g hg
    have hmkc := indirectFields_offset hf
    have hentry := klmFields_offset hg
    left
    omega
  · intro f hf g hg
    obtain rfl := List.mem_singleton.mp hg
    right
    dsimp only
    rcases List.mem_append.mp hf with hmkc | hentry
    · exact (indirectFields_offset hmkc).1
    · have hoffset := klmFields_offset hentry
      omega

/-- A command that is encoded: its fields, their room, and its size. -/
lemma mlxEncodeCreateMkeyIndirect_fields
    (h : mlxEncodeCreateMkeyIndirect input klms va len accessFlags pd keyVariant = some (output, size)) :
    sentMkey output = writeFields input (sentIndirect klms va len accessFlags pd keyVariant) ∧
      (∀ f ∈ sentIndirect klms va len accessFlags pd keyVariant, f.Fits input.length) ∧
      klms.length ≤ createMkeyMaxKlm ∧ size = createMkeyFixedBytes + klms.length * klmEntryBytes := by
  unfold mlxEncodeCreateMkeyIndirect at h
  dsimp only at h
  split_ifs at h with hcount hbad hklm
  obtain ⟨rfl, rfl⟩ := Prod.mk.inj (Option.some.inj h)
  rw [not_or] at hcount
  simp only [not_or] at hbad
  obtain ⟨-, -, -, -, hroom⟩ := hbad
  refine ⟨?_, ?_, by omega, rfl⟩
  · rw [sentMkey, sentIndirect, writeFields_concat]
  · intro f hf
    unfold BitField.Fits
    unfold mlxCreateMkeyIndirectInputSize createMkeyFixedBytes klmEntryBytes at hroom
    rcases List.mem_append.mp hf with hbody | hop
    · rcases List.mem_append.mp hbody with hmkc | hentry
      · have hoffset := indirectFields_offset hmkc
        omega
      · have hoffset := klmFields_offset hentry
        omega
    · obtain rfl := List.mem_singleton.mp hop
      dsimp only
      omega

/-- What the firmware reads out of the command. -/
theorem renders_indirectMkey
    (h : mlxEncodeCreateMkeyIndirect input klms va len accessFlags pd keyVariant = some (output, size))
    (hva : va < 2 ^ 64) (hlen : len < 2 ^ 64) (htyped : ∀ klm ∈ klms, klm.Typed) :
    (readIndirectMkey (sentMkey output) size).Renders klms va len klms.length := by
  obtain ⟨hsent, hfits, hmany, rfl⟩ := mlxEncodeCreateMkeyIndirect_fields h
  have hread : ∀ f ∈ sentIndirect klms va len accessFlags pd keyVariant,
      getBits (sentMkey output) f.offset f.width = f.value % 2 ^ f.width := by
    intro f hf
    rw [hsent]
    exact getBits_writeFields hfits (sentIndirect_apart klms va len accessFlags pd keyVariant) hf
  have hmkc : ∀ f ∈ indirectFields klms.length va len accessFlags pd keyVariant,
      getBits (sentMkey output) f.offset f.width = f.value % 2 ^ f.width := by
    intro f hf
    exact hread f (List.mem_append_left _ (List.mem_append_left _ hf))
  have hklm : ∀ f ∈ klmFields 0 klms,
      getBits (sentMkey output) f.offset f.width = f.value % 2 ^ f.width := by
    intro f hf
    exact hread f (List.mem_append_left _ (List.mem_append_right _ hf))
  have hsmall : klms.length < 2 ^ 32 := Nat.lt_of_le_of_lt hmany (by decide)
  refine ⟨?_, ?_, ?_, ?_, ?_⟩
  · have hfield := hmkc ⟨mkc 0x80, 64, va⟩ (by simp [indirectFields])
    exact hfield.trans (Nat.mod_eq_of_lt hva)
  · have hfield := hmkc ⟨mkc 0xc0, 64, len⟩ (by simp [indirectFields])
    exact hfield.trans (Nat.mod_eq_of_lt hlen)
  · intro k hk
    have hmem := mem_klmFields (i := 0) hk
    rw [Nat.zero_add] at hmem
    obtain ⟨hcount, hkey, haddr⟩ := hmem
    have hc := htyped _ (List.getElem_mem hk)
    have ha := (hklm _ haddr).trans (Nat.mod_eq_of_lt hc.address)
    have hm := (hklm _ hkey).trans (Nat.mod_eq_of_lt hc.mkey)
    have hb := hklm _ hcount
    dsimp only at ha hm hb
    show KlmEntry.mk _ _ _ = _
    rw [ha, hm, hb]
    rfl
  · intro k hk hlt
    omega
  · intro o ho
    have hfirst := (hmkc ⟨mkc 0x1a0, 32, klms.length⟩ (by simp [indirectFields])).trans
      (Nat.mod_eq_of_lt hsmall)
    have hsecond := (hmkc ⟨createMkeyActualXltBitOffset, 32, klms.length⟩ (by simp [indirectFields])).trans
      (Nat.mod_eq_of_lt hsmall)
    rcases List.mem_cons.mp ho with rfl | ho
    · exact hfirst
    · rcases List.mem_cons.mp ho with rfl | ho
      · exact hsecond
      · obtain rfl := List.mem_singleton.mp ho
        unfold klmEntryBytes
        omega

end

/-! ## Reading the element back -/

section

variable {klms : List KlmEntry} {capacity qpn wqeCounter mkey accessFlags va len : ℕ} {signaled : Bool}

/-- An entry of the list in an element has the layout of a data segment. -/
def KlmEntry.sge (klm : KlmEntry) : RcSge := ⟨klm.address, klm.byteCount, klm.mkey⟩

lemma klmSegs_eq (offset : ℕ) (klms : List KlmEntry) :
    klmSegs offset klms = udDataSegs offset (klms.map KlmEntry.sge) := by
  induction klms generalizing offset with
  | nil => rfl
  | cons klm klms ih =>
      rw [klmSegs, ih]
      rfl

lemma allWithin_klmSegs (offset : ℕ) (klms : List KlmEntry) :
    AllWithin (offset + 16 * klms.length) (klmSegs offset klms) := by
  induction klms generalizing offset with
  | nil => exact allWithin_nil _
  | cons klm klms ih =>
      rw [klmSegs, allWithin_append, List.length_cons]
      exact ⟨(allWithin_dataSeg offset _).mono (by omega), (ih (offset + 16)).mono (by omega)⟩

/-- The entries are there, each at its place. -/
lemma mem_klmSegs {offset k : ℕ} (hk : k < klms.length) {st : Store}
    (hst : st ∈ dataSeg (offset + 16 * k) klms[k].sge) : st ∈ klmSegs offset klms := by
  induction klms generalizing offset k with
  | nil => cases hk
  | cons klm klms ih =>
      cases k with
      | zero => exact List.mem_append_left _ hst
      | succ k =>
          have hin : k < klms.length := by
            rw [List.length_cons] at hk
            omega
          have hplace : offset + 16 * (k + 1) = offset + 16 + 16 * k := by omega
          rw [hplace] at hst
          exact List.mem_append_right _ (ih hin hst)

/-- The stores behind the control segment of a UMR element. -/
def umrRest (mkey accessFlags va len totalBytes : ℕ) (klms : List KlmEntry) : List Store :=
  [ctrlImm (beBytes 4 mkey), ⟨16, beBytes 1 (2 ^ 7)⟩,
    ⟨20, beBytes 2 ((totalBytes - umrWqeFixedBytes) / 16)⟩, ⟨24, beBytes 8 (umrMask accessFlags)⟩,
    ⟨64, beBytes 1 0⟩, ⟨66, beBytes 1 (umrAccess accessFlags)⟩, ⟨68, beBytes 4 (0xffffff00 + mkey % 256)⟩,
    ⟨80, beBytes 8 va⟩, ⟨88, beBytes 8 len⟩] ++ klmSegs umrWqeFixedBytes klms

lemma separate_umrRest (mkey accessFlags va len totalBytes : ℕ) (klms : List KlmEntry) :
    Separate (umrRest mkey accessFlags va len totalBytes klms) := by
  apply Separate.append (o := umrWqeFixedBytes)
  · simp [Separate, Store.Disjoint, Store.Apart, ctrlImm]
  · rw [klmSegs_eq]
    exact separate_udDataSegs _ _
  · simp [Store.Within, ctrlImm, umrWqeFixedBytes]
  · rw [klmSegs_eq]
    exact allFrom_udDataSegs _ _

lemma allFrom_umrRest (mkey accessFlags va len totalBytes : ℕ) (klms : List KlmEntry) :
    AllFrom 12 (umrRest mkey accessFlags va len totalBytes klms) := by
  apply allFrom_append.mpr
  refine ⟨by simp [ctrlImm], ?_⟩
  rw [klmSegs_eq]
  exact (allFrom_udDataSegs _ _).mono (by decide)

lemma allWithin_umrRest (mkey accessFlags va len totalBytes : ℕ) (klms : List KlmEntry) :
    AllWithin (umrWqeFixedBytes + 16 * klms.length) (umrRest mkey accessFlags va len totalBytes klms) := by
  apply allWithin_append.mpr
  have hwider : umrWqeFixedBytes ≤ umrWqeFixedBytes + 16 * klms.length := Nat.le_add_right _ _
  refine ⟨AllWithin.mono ?_ hwider, allWithin_klmSegs _ _⟩
  simp [Store.Within, ctrlImm, umrWqeFixedBytes]

/-- The size of an element that was encoded, and its stores. -/
lemma umr_accepted
    (h : (mlxEncodeUmrKlmWqe capacity qpn wqeCounter mkey accessFlags va len klms signaled).ds ≠ 0) :
    mlxEncodeUmrKlmWqe capacity qpn wqeCounter mkey accessFlags va len klms signaled =
      ⟨mlxUmrKlmWqeBytes klms.length / 16, element (mlxUmrKlmWqeBytes klms.length) qpn wqeCounter .umr
        (mlxUmrKlmWqeBytes klms.length / 16) (if signaled = true then 0x08 else 0)
        (umrRest mkey accessFlags va len (mlxUmrKlmWqeBytes klms.length) klms)⟩ := by
  revert h
  unfold mlxEncodeUmrKlmWqe
  dsimp only
  by_cases hreq : qpn = 0 ∨ mkey = 0 ∨ klms = []
  · rw [if_pos hreq]
    intro h
    exact absurd rfl h
  · rw [if_neg hreq]
    by_cases hfit : capacity < mlxUmrKlmWqeBytes klms.length
    · rw [if_pos hfit]
      intro h
      exact absurd rfl h
    · rw [if_neg hfit]
      intro _
      rw [element, umrRest, List.cons_append, List.cons_append, List.append_assoc]

lemma beNat_zeroBytes (n : ℕ) : beNat (zeroBytes n) = 0 := by
  induction n with
  | zero => rfl
  | succ n ih =>
      have hcons : zeroBytes (n + 1) = 0#8 :: zeroBytes n := rfl
      rw [hcons, beNat, ih]
      simp

/-- What the later stores leave of a zeroed buffer. -/
lemma be_of_zeroed (m : Memory) {l : List Store} {size o n : ℕ} (hle : o + n ≤ size)
    (hapart : ∀ st ∈ l, st.Apart o n) : (m.writeAll (⟨0, zeroBytes size⟩ :: l)).be o n = 0 := by
  have hslice : (m.writeAll (⟨0, zeroBytes size⟩ :: l)).slice o n = zeroBytes n := by
    rw [Memory.writeAll_cons, Memory.slice_writeAll_of_apart hapart,
      Memory.slice_write (Nat.zero_le _) (by rw [length_zeroBytes]; omega)]
    unfold zeroBytes
    rw [List.drop_replicate, List.take_replicate, Nat.sub_zero, Nat.min_eq_left (by omega)]
  rw [Memory.be, hslice, beNat_zeroBytes]

/-- The entries are padded to a whole number of blocks. -/
lemma umrBytes_eq (n : ℕ) : mlxUmrKlmWqeBytes n = umrWqeFixedBytes + 16 * ((n + 3) / 4 * 4) := by
  unfold mlxUmrKlmWqeBytes umrWqeFixedBytes klmEntryBytes umrKlmAlignBytes
  omega

/-- The units of an element: eight before the entries. -/
lemma umr_units {e : Encoded}
    (he : mlxEncodeUmrKlmWqe capacity qpn wqeCounter mkey accessFlags va len klms signaled = e)
    (h : e.ds ≠ 0) : e.ds = 8 + (klms.length + 3) / 4 * 4 := by
  subst he
  rw [umr_accepted h]
  dsimp only
  rw [umrBytes_eq]
  unfold umrWqeFixedBytes
  omega

/-- What the firmware reads out of the element. -/
theorem renders_umrKlm (m : Memory) (hcounter : wqeCounter < 2 ^ 16) (hva : va < 2 ^ 64) (hlen : len < 2 ^ 64)
    (htyped : ∀ klm ∈ klms, klm.Typed) (hmany : klms.length ≤ 240) {e : Encoded}
    (he : mlxEncodeUmrKlmWqe capacity qpn wqeCounter mkey accessFlags va len klms signaled = e)
    (h : e.ds ≠ 0) : (readUmrKlm (m.writeAll e.stores)).Renders klms va len ((klms.length + 3) / 4 * 4) := by
  subst he
  rw [umr_accepted h, umrBytes_eq]
  have hunits : (umrWqeFixedBytes + 16 * ((klms.length + 3) / 4 * 4)) / 16 =
      8 + (klms.length + 3) / 4 * 4 := by
    unfold umrWqeFixedBytes
    omega
  rw [hunits]
  generalize hpad : (klms.length + 3) / 4 * 4 = pad
  have hpadmax : klms.length ≤ pad ∧ pad ≤ 240 := by omega
  generalize hflags : (if signaled = true then 0x08 else 0) = flags
  have hflagsmax : flags < 256 := by
    subst hflags
    split_ifs <;> omega
  dsimp only
  obtain ⟨hctrl, hrest⟩ := holds_element m (umrWqeFixedBytes + 16 * pad) qpn wqeCounter .umr (8 + pad) flags
    (separate_umrRest mkey accessFlags va len (umrWqeFixedBytes + 16 * pad) klms)
    (allFrom_umrRest mkey accessFlags va len (umrWqeFixedBytes + 16 * pad) klms)
  generalize hm : m.writeAll (element (umrWqeFixedBytes + 16 * pad) qpn wqeCounter .umr (8 + pad) flags
    (umrRest mkey accessFlags va len (umrWqeFixedBytes + 16 * pad) klms)) = m' at hctrl hrest ⊢
  obtain ⟨-, hsize, -⟩ := be_of_ctrlSeg hctrl hcounter (by omega) hflagsmax
  refine ⟨?_, ?_, ?_, ?_, ?_⟩
  · have hfield : m'.be 80 8 = va % 256 ^ 8 := (hrest _ (by simp [umrRest])).be
    exact hfield.trans (Nat.mod_eq_of_lt (by omega))
  · have hfield : m'.be 88 8 = len % 256 ^ 8 := (hrest _ (by simp [umrRest])).be
    exact hfield.trans (Nat.mod_eq_of_lt (by omega))
  · intro k hk
    have hentry : ∀ st ∈ dataSeg (umrWqeFixedBytes + 16 * k) klms[k].sge, m'.Holds st := by
      intro st hst
      exact hrest st (List.mem_append_right _ (mem_klmSegs hk hst))
    have hc := htyped _ (List.getElem_mem hk)
    have hb : m'.be (umrWqeFixedBytes + 16 * k) 4 = klms[k].byteCount % 256 ^ 4 :=
      (hentry _ (by simp [dataSeg, KlmEntry.sge])).be
    have hkey : m'.be (umrWqeFixedBytes + 16 * k + 4) 4 = klms[k].mkey % 256 ^ 4 :=
      (hentry _ (by simp [dataSeg, KlmEntry.sge])).be
    have ha : m'.be (umrWqeFixedBytes + 16 * k + 8) 8 = klms[k].address % 256 ^ 8 :=
      (hentry _ (by simp [dataSeg, KlmEntry.sge])).be
    have haddr := hc.address
    have hmkey := hc.mkey
    rw [Nat.mod_eq_of_lt (by omega)] at hkey ha
    show KlmEntry.mk _ _ _ = _
    rw [ha, hkey, hb]
    rfl
  · intro k hk hlt
    -- the padding lies behind every store but the one that zeroes the element
    have hzero : ∀ d n, d + n ≤ 16 → m'.be (umrWqeFixedBytes + 16 * k + d) n = 0 := by
      intro d n hd
      rw [← hm, element]
      apply be_of_zeroed m (by omega)
      intro st hst
      left
      rcases List.mem_append.mp hst with hin | hin
      · have hwithin : st.offset + st.bytes.length ≤ 16 := allWithin_ctrlSeg qpn wqeCounter .umr (8 + pad) flags st hin
        unfold umrWqeFixedBytes
        omega
      · have hwithin : st.offset + st.bytes.length ≤ umrWqeFixedBytes + 16 * klms.length :=
          allWithin_umrRest mkey accessFlags va len _ klms st hin
        omega
    have hb := hzero 0 4 (by decide)
    have hkey := hzero 4 4 (by decide)
    have ha := hzero 8 8 (by decide)
    rw [Nat.add_zero] at hb
    show KlmEntry.mk _ _ _ = _
    rw [ha, hkey, hb]
  · intro o ho
    have hoct : m'.be 20 2 = (umrWqeFixedBytes + 16 * pad - umrWqeFixedBytes) / 16 % 256 ^ 2 :=
      (hrest _ (by simp [umrRest])).be
    rcases List.mem_cons.mp ho with rfl | ho
    · rw [hoct]
      omega
    · obtain rfl := List.mem_singleton.mp ho
      rw [hsize]
      unfold umrWqeFixedBytes
      omega

/-- The firmware reads no byte behind the padding. -/
lemma renders_of_same {m m' : Memory} {octowords : ℕ} (hmost : klms.length ≤ octowords)
    (hsame : ∀ o < umrWqeFixedBytes + 16 * octowords, m' o = m o)
    (h : (readUmrKlm m).Renders klms va len octowords) : (readUmrKlm m').Renders klms va len octowords := by
  have hbe : ∀ o n, o + n ≤ umrWqeFixedBytes + 16 * octowords → m'.be o n = m.be o n := by
    intro o n hle
    unfold Memory.be
    congr 1
    apply Memory.slice_congr
    intro i hi
    exact hsame _ (by omega)
  have hentry : ∀ k < octowords, (readUmrKlm m').entry k = (readUmrKlm m).entry k := by
    intro k hk
    show KlmEntry.mk _ _ _ = KlmEntry.mk _ _ _
    rw [hbe _ _ (by omega), hbe _ _ (by omega), hbe _ _ (by omega)]
  have hfixed : ∀ o n, o + n ≤ umrWqeFixedBytes → m'.be o n = m.be o n := fun o n hle => hbe o n (by omega)
  refine ⟨?_, ?_, ?_, ?_, ?_⟩
  · exact (hfixed 80 8 (by decide)).trans h.start
  · exact (hfixed 88 8 (by decide)).trans h.declared
  · intro k hk
    exact (hentry k (by omega)).trans (h.entries k hk)
  · intro k hk hlt
    exact (hentry k hlt).trans (h.padding k hk hlt)
  · intro o ho
    apply h.counts o
    unfold readUmrKlm at ho ⊢
    rwa [hfixed 20 2 (by decide), hfixed 4 4 (by decide)] at ho

end

end MelonDMA.Hw
