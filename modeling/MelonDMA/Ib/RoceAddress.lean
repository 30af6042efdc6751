import MelonDMA.Core.Cmd
import MelonDMA.Ib.GidTable
import MelonDMA.Lib.BitFields
import Mathlib.Tactic.SplitIfs

/-!
# Addresses in the firmware's table

`MlxGID::CmdSetRoceAddr` sends an address to the firmware, `SET_ROCE_ADDRESS`, and reads it back, `QUERY_ROCE_ADDRESS`,
through a layout of bit fields. The firmware is a parameter: what it keeps of a message is what a query of the same port
and index returns (`KeepsAddresses`), and its answers are arbitrary otherwise.

* The layout gives back the address that was put in it (`decode_setRoceAddress`), and the readback accepts an answer
  exactly when it carries the address (`readbackMatches_iff`).
* A run of calls is a run of updates of the table of addresses that the firmware's table stands for
  (`programs_update_table`). That is the table of `GidSystem`.

Source: `Sources/ib/MlxGID.cpp`.
-/

namespace MelonDMA.Ib

open MelonDMA.Lib MelonDMA.Core

/-! ## Messages -/

/-- The sizes of an address: its bytes and the fields that its other parts have. -/
structure RoceAddr.Fits (a : RoceAddr) : Prop where
  gid : a.gid.length = 16
  mac : a.mac.length = 6
  roceVersion : a.roceVersion < 2 ^ 8
  l3Type : a.l3Type < 2 ^ 4
  vlanId : a.vlanId < 2 ^ 12
  /-- The checks of `MlxGID::SetGID` refuse a VLAN that is not enabled. -/
  noVlan : a.vlanEn = false → a.vlanId = 0

/-- The head of both commands. -/
def roceAddressHead (opcode port index : ℕ) : List BitField :=
  [⟨0x00, 16, opcode⟩, ⟨0x40, 16, index⟩, ⟨0x5c, 4, port⟩]

/-- The two fields of the VLAN, and the last two. -/
def roceVlanFields (a : RoceAddr) : List BitField := [⟨0x103, 1, a.vlanEn.toNat⟩, ⟨0x104, 12, a.vlanId⟩]

def roceTypeFields (a : RoceAddr) : List BitField := [⟨0x154, 4, a.l3Type⟩, ⟨0x158, 8, a.roceVersion⟩]

/-- Source: `in` of `MlxGID::CmdSetRoceAddr`. -/
def setRoceAddress (port index : ℕ) (a : RoceAddr) : List Byte :=
  let head := writeFields (List.replicate 64 0#8) (roceAddressHead 0x761 port index)
  let vlan := writeFields (copyBytes head 0x10 a.gid) (roceVlanFields a)
  writeFields (copyBytes vlan 0x22 a.mac) (roceTypeFields a)

/-- The command as the firmware gets it. -/
def sentAddress (port index : ℕ) (a : RoceAddr) : List Byte := (setRoceAddress port index a).take 0x30

/-- Source: `qin`. -/
def queryRoceAddress (port index : ℕ) : List Byte :=
  writeFields (List.replicate 16 0#8) (roceAddressHead 0x760 port index)

/-- The address that a message has in the layout. Source: `rgid` to `rvlanId`. -/
def decodeRoceAddress (m : List Byte) : RoceAddr where
  gid := bytesAt m 0x10 16
  mac := bytesAt m 0x22 6
  roceVersion := getBits m 0x158 8
  l3Type := getBits m 0x154 4
  vlanEn := getBits m 0x103 1 = 1
  vlanId := getBits m 0x104 12

/-- Source: the strict comparison of `MlxGID::CmdSetRoceAddr`. -/
def readbackMatches (qout : List Byte) (a : RoceAddr) : Bool :=
  !(bytesAt qout 0x10 16 ≠ a.gid || bytesAt qout 0x22 6 ≠ a.mac || getBits qout 0x158 8 ≠ a.roceVersion ||
    getBits qout 0x154 4 ≠ a.l3Type || getBits qout 0x103 1 ≠ (if a.vlanEn = true then 1 else 0) ||
    getBits qout 0x104 12 ≠ (if a.vlanEn = true then a.vlanId else 0))

/-! ## The command -/

/-- The firmware: what each command does to it and answers. -/
structure RoceFirmware (δ : Type) where
  set : δ → List Byte → δ × KernReturn
  query : δ → List Byte → KernReturn × List Byte

/-- Source: `vhcaPort`. -/
def vhcaPort (numVhcaPorts : ℕ) : ℕ := if 0 < numVhcaPorts then 1 else 0

/-- Source: `MlxGID::CmdSetRoceAddr`. -/
def cmdSetRoceAddr {δ : Type} (fw : RoceFirmware δ) (port : ℕ) (d : δ) (index : ℕ) (a : RoceAddr) : δ × KernReturn :=
  let sent := fw.set d (sentAddress port index a)
  if sent.2 ≠ .success then sent
  else if a.roceVersion = 0 then (sent.1, .success)
  else
    let answer := fw.query sent.1 (queryRoceAddress port index)
    if answer.1 ≠ .success then (sent.1, answer.1)
    else if readbackMatches answer.2 a = true then (sent.1, .success)
    else (sent.1, .ioError)

/-! ## The layout -/

section Layout

variable {port index : ℕ} {a : RoceAddr}

lemma length_head (opcode : ℕ) :
    (writeFields (List.replicate 64 0#8) (roceAddressHead opcode port index)).length = 64 := by
  rw [length_writeFields, List.length_replicate]

lemma length_gid (ha : a.Fits) :
    (copyBytes (writeFields (List.replicate 64 0#8) (roceAddressHead 0x761 port index)) 0x10 a.gid).length = 64 := by
  rw [length_copyBytes (by rw [length_head, ha.gid]; decide), length_head]

lemma length_vlan (ha : a.Fits) :
    (writeFields (copyBytes (writeFields (List.replicate 64 0#8) (roceAddressHead 0x761 port index)) 0x10 a.gid)
      (roceVlanFields a)).length = 64 := by
  rw [length_writeFields, length_gid ha]

lemma vlanFields_fit (a : RoceAddr) : ∀ f ∈ roceVlanFields a, f.Fits 64 := by
  simp [roceVlanFields, BitField.Fits]

lemma typeFields_fit (a : RoceAddr) : ∀ f ∈ roceTypeFields a, f.Fits 64 := by
  simp [roceTypeFields, BitField.Fits]

/-- What lies before the last two fields and apart from the bytes of the MAC is as it was before these were written. -/
lemma getBits_beforeMac (ha : a.Fits) {offset width : ℕ} (h : offset + width ≤ 0x110) :
    getBits (setRoceAddress port index a) offset width =
      getBits (writeFields (copyBytes (writeFields (List.replicate 64 0#8) (roceAddressHead 0x761 port index)) 0x10
        a.gid) (roceVlanFields a)) offset width := by
  have hmac : 0x22 + a.mac.length ≤ 64 := by rw [ha.mac]; decide
  refine (getBits_writeFields_of_apart (f := ⟨offset, width, 0⟩) ?_ ?_).trans ?_
  · rw [length_copyBytes (by rw [length_vlan ha]; exact hmac), length_vlan ha]
    exact typeFields_fit a
  · simp [roceTypeFields, BitField.Apart]
    omega
  exact (getBits_copyBytes_of_apart (by rw [length_vlan ha]; exact hmac) (.inl h))

/-- The fields of the head stay what they are. -/
lemma getBits_head (ha : a.Fits) {offset width : ℕ} (h : offset + width ≤ 0x80) :
    getBits (setRoceAddress port index a) offset width =
      getBits (writeFields (List.replicate 64 0#8) (roceAddressHead 0x761 port index)) offset width := by
  rw [getBits_beforeMac ha (by omega)]
  refine (getBits_writeFields_of_apart (f := ⟨offset, width, 0⟩) ?_ ?_).trans ?_
  · rw [length_gid ha]
    exact vlanFields_fit a
  · simp [roceVlanFields, BitField.Apart]
    omega
  exact (getBits_copyBytes_of_apart (by rw [length_head, ha.gid]; decide) (.inl h))

lemma head_apart (opcode : ℕ) : (roceAddressHead opcode port index).Pairwise BitField.Apart := by
  simp [roceAddressHead, BitField.Apart]

/-- A command says which index it is for. -/
lemma setRoceAddress_names (port index : ℕ) (ha : a.Fits) :
    getBits (setRoceAddress port index a) 0x40 16 = index % 2 ^ 16 ∧
      getBits (setRoceAddress port index a) 0x5c 4 = port % 2 ^ 4 := by
  have hfits : ∀ f ∈ roceAddressHead 0x761 port index, f.Fits (List.replicate 64 0#8).length := by
    simp [roceAddressHead, BitField.Fits]
  rw [getBits_head ha (by decide), getBits_head ha (by decide)]
  exact ⟨getBits_writeFields (f := ⟨0x40, 16, index⟩) hfits (head_apart _) (by simp [roceAddressHead]),
    getBits_writeFields (f := ⟨0x5c, 4, port⟩) hfits (head_apart _) (by simp [roceAddressHead])⟩

lemma queryRoceAddress_names (port index : ℕ) : getBits (queryRoceAddress port index) 0x40 16 = index % 2 ^ 16 ∧
    getBits (queryRoceAddress port index) 0x5c 4 = port % 2 ^ 4 := by
  have hfits : ∀ f ∈ roceAddressHead 0x760 port index, f.Fits (List.replicate 16 0#8).length := by
    simp [roceAddressHead, BitField.Fits]
  exact ⟨getBits_writeFields (f := ⟨0x40, 16, index⟩) hfits (head_apart _) (by simp [roceAddressHead]),
    getBits_writeFields (f := ⟨0x5c, 4, port⟩) hfits (head_apart _) (by simp [roceAddressHead])⟩

/-- The layout gives back the address. -/
theorem decode_setRoceAddress (ha : a.Fits) : decodeRoceAddress (setRoceAddress port index a) = a := by
  have hlast : ∀ f ∈ roceTypeFields a, getBits (setRoceAddress port index a) f.offset f.width = f.value % 2 ^ f.width := by
    refine fun f hf => getBits_writeFields ?_ (by simp [roceTypeFields, BitField.Apart]) hf
    rw [length_copyBytes (by rw [length_vlan ha, ha.mac]; decide), length_vlan ha]
    exact typeFields_fit a
  have hvlan : ∀ f ∈ roceVlanFields a, f.offset + f.width ≤ 0x110 →
      getBits (setRoceAddress port index a) f.offset f.width = f.value % 2 ^ f.width := by
    intro f hf hbefore
    rw [getBits_beforeMac ha hbefore]
    exact getBits_writeFields (by rw [length_gid ha]; exact vlanFields_fit a)
      (by simp [roceVlanFields, BitField.Apart]) hf
  have hgid : bytesAt (setRoceAddress port index a) 0x10 16 = a.gid := by
    have hfits : 0x10 + a.gid.length ≤
        (writeFields (List.replicate 64 0#8) (roceAddressHead 0x761 port index)).length := by
      rw [length_head, ha.gid]
      decide
    have hcopied := bytesAt_copyBytes hfits
    rw [ha.gid] at hcopied
    refine (bytesAt_congr fun i hi => ?_).trans hcopied
    rw [getBits_beforeMac ha (by omega)]
    exact getBits_writeFields_of_apart (f := ⟨8 * (0x10 + i), 8, 0⟩) (by rw [length_gid ha]; exact vlanFields_fit a)
      (by simp [roceVlanFields, BitField.Apart]; omega)
  have hmac : bytesAt (setRoceAddress port index a) 0x22 6 = a.mac := by
    have hfits : 0x22 + a.mac.length ≤ (writeFields (copyBytes (writeFields (List.replicate 64 0#8)
        (roceAddressHead 0x761 port index)) 0x10 a.gid) (roceVlanFields a)).length := by
      rw [length_vlan ha, ha.mac]
      decide
    have hcopied := bytesAt_copyBytes hfits
    rw [ha.mac] at hcopied
    refine (bytesAt_congr fun i hi => ?_).trans hcopied
    exact getBits_writeFields_of_apart (f := ⟨8 * (0x22 + i), 8, 0⟩)
      (by rw [length_copyBytes hfits, length_vlan ha]; exact typeFields_fit a)
      (by simp [roceTypeFields, BitField.Apart]; omega)
  have hbit : ∀ b : Bool, decide (b.toNat % 2 ^ 1 = 1) = b := by decide
  have hversion := hlast ⟨0x158, 8, a.roceVersion⟩ (by simp [roceTypeFields])
  have hl3 := hlast ⟨0x154, 4, a.l3Type⟩ (by simp [roceTypeFields])
  have hvalid := hvlan ⟨0x103, 1, a.vlanEn.toNat⟩ (by simp [roceVlanFields]) (by dsimp only; decide)
  have hid := hvlan ⟨0x104, 12, a.vlanId⟩ (by simp [roceVlanFields]) (by dsimp only; decide)
  dsimp only at hversion hl3 hvalid hid
  unfold decodeRoceAddress
  rw [hgid, hmac, hversion, hl3, hvalid, hid, Nat.mod_eq_of_lt ha.roceVersion, Nat.mod_eq_of_lt ha.l3Type,
    Nat.mod_eq_of_lt ha.vlanId, hbit]

/-- The readback accepts an answer exactly when it carries the address. -/
theorem readbackMatches_iff (ha : a.Fits) (qout : List Byte) :
    readbackMatches qout a = true ↔ decodeRoceAddress qout = a := by
  have hvalid : getBits qout 0x103 1 < 2 := getBits_lt qout 0x103 1
  obtain ⟨gid, mac, version, l3, vlanEn, vlanId⟩ := a
  unfold readbackMatches decodeRoceAddress
  cases vlanEn
  · have hnone : vlanId = 0 := ha.noVlan rfl
    subst hnone
    simp [and_assoc]
    omega
  · simp [and_assoc]

/-- Messages have the same address. -/
def SameLayout (m m' : List Byte) : Prop :=
  ∀ offset width, 0x80 ≤ offset → offset + width ≤ 0x180 → getBits m offset width = getBits m' offset width

lemma SameLayout.decode_eq {m m' : List Byte} (h : SameLayout m m') : decodeRoceAddress m = decodeRoceAddress m' := by
  unfold decodeRoceAddress
  rw [bytesAt_congr (k := 0x10) (n := 16) fun i hi => h _ 8 (by omega) (by omega),
    bytesAt_congr (k := 0x22) (n := 6) fun i hi => h _ 8 (by omega) (by omega),
    h 0x158 8 (by decide) (by decide), h 0x154 4 (by decide) (by decide), h 0x103 1 (by decide) (by decide),
    h 0x104 12 (by decide) (by decide)]

end Layout

/-! ## Runs -/

/-- What the firmware does as documented: a command for an index leaves the others, a query returns what is kept for its
index, and a cleared index has no version, whatever else it has. -/
structure ServesAddresses {δ : Type} (fw : RoceFirmware δ) (kept : δ → ℕ → ℕ → List Byte) : Prop where
  other : ∀ d m port index, (port, index) ≠ (getBits m 0x5c 4, getBits m 0x40 16) →
    kept (fw.set d m).1 port index = kept d port index
  query : ∀ d q out, fw.query d q = (.success, out) →
    SameLayout out (kept d (getBits q 0x5c 4) (getBits q 0x40 16))
  clear : ∀ d m, (fw.set d m).2 = .success → getBits m 0x158 8 = 0 →
    getBits (kept (fw.set d m).1 (getBits m 0x5c 4) (getBits m 0x40 16)) 0x158 8 = 0

/-- What is known of an index. -/
inductive KnownAddr
  /-- The last command for it failed. -/
  | unknown
  | clear
  | addr (a : RoceAddr)
  deriving DecidableEq

/-- What a call says of its index. -/
def RoceAddr.known (a : RoceAddr) (kr : KernReturn) : KnownAddr :=
  if kr ≠ .success then .unknown else if a.roceVersion = 0 then .clear else .addr a

lemma RoceAddr.known_success {a : RoceAddr} (h : a.roceVersion ≠ 0) : a.known .success = .addr a := by
  unfold known
  rw [if_neg (not_not.mpr rfl), if_neg h]

/-- Calls one behind the other, with what is known of the table. -/
def programs {δ : Type} (fw : RoceFirmware δ) (port : ℕ) :
    δ → (ℕ → KnownAddr) → List (ℕ × RoceAddr) → δ × (ℕ → KnownAddr)
  | d, table, [] => (d, table)
  | d, table, (index, a) :: calls =>
      let r := cmdSetRoceAddr fw port d index a
      programs fw port r.1 (Function.update table index (a.known r.2)) calls

/-- The firmware's entry is what is known of it. -/
def KnownAddr.Holds (k : KnownAddr) (m : List Byte) : Prop :=
  match k with
  | .unknown => True
  | .clear => (decodeRoceAddress m).roceVersion = 0
  | .addr a => decodeRoceAddress m = a

lemma KnownAddr.holds_addr {a : RoceAddr} {m : List Byte} : (KnownAddr.addr a).Holds m ↔ decodeRoceAddress m = a :=
  Iff.rfl

/-- What the driver sends: a cleared entry, or an address that `SetGID` accepts, with the sizes that its types have. -/
def Sendable (roceVersions : ℕ) (a : RoceAddr) : Prop :=
  a = .zero ∨ a.gid.length = 16 ∧ a.mac.length = 6 ∧ a.setGidAccepts roceVersions = true

lemma Sendable.fits {roceVersions : ℕ} {a : RoceAddr} (h : Sendable roceVersions a) : a.Fits := by
  rcases h with rfl | ⟨hgid, hmac, haccepts⟩
  · exact ⟨rfl, rfl, by decide, by decide, by decide, fun _ => rfl⟩
  · unfold RoceAddr.setGidAccepts at haccepts
    simp only [Bool.and_eq_true, decide_eq_true_eq] at haccepts
    obtain ⟨⟨⟨⟨⟨⟨⟨hversion, -⟩, hl3⟩, -⟩, -⟩, -⟩, -⟩, hvlan⟩ := haccepts
    refine ⟨hgid, hmac, by rw [hversion]; decide, by omega, ?_, fun hen => ?_⟩
    · split_ifs at hvlan
      · exact Nat.lt_of_le_of_lt (of_decide_eq_true hvlan) (by decide)
      · rw [of_decide_eq_true hvlan]
        decide
    · rw [hen] at hvlan
      exact of_decide_eq_true hvlan

section Runs

variable {δ : Type} {fw : RoceFirmware δ} {kept : δ → ℕ → ℕ → List Byte} {d : δ} {port index roceVersions : ℕ} {a : RoceAddr}

lemma sentAddress_names (ha : a.Fits) (hport : port < 2 ^ 4) (hindex : index < 2 ^ 16) :
    getBits (sentAddress port index a) 0x40 16 = index ∧ getBits (sentAddress port index a) 0x5c 4 = port := by
  obtain ⟨hi, hp⟩ := setRoceAddress_names port index ha
  unfold sentAddress
  rw [getBits_take (by decide), getBits_take (by decide), hi, hp, Nat.mod_eq_of_lt hindex, Nat.mod_eq_of_lt hport]
  exact ⟨rfl, rfl⟩

lemma decode_sentAddress (port index : ℕ) (ha : a.Fits) : decodeRoceAddress (sentAddress port index a) = a := by
  have hsame : SameLayout (sentAddress port index a) (setRoceAddress port index a) :=
    fun offset width _ hle => getBits_take hle
  rw [hsame.decode_eq, decode_setRoceAddress ha]

/-- A call does to the firmware what its command does. -/
lemma cmdSetRoceAddr_fst : (cmdSetRoceAddr fw port d index a).1 = (fw.set d (sentAddress port index a)).1 := by
  unfold cmdSetRoceAddr
  dsimp only
  split_ifs <;> rfl

/-- A call that succeeds has put the address there, whatever the firmware did with the command. -/
lemma cmdSetRoceAddr_holds (hfw : ServesAddresses fw kept) (ha : a.Fits) (hport : port < 2 ^ 4) (hindex : index < 2 ^ 16) :
    (a.known (cmdSetRoceAddr fw port d index a).2).Holds
      (kept (fw.set d (sentAddress port index a)).1 port index) := by
  unfold RoceAddr.known
  split_ifs with hfailed hclear
  · trivial
  · -- a cleared entry is not read back
    obtain ⟨hi, hp⟩ := sentAddress_names ha hport hindex
    have hversion : getBits (sentAddress port index a) 0x158 8 = 0 := by
      have hdecoded := congrArg RoceAddr.roceVersion (decode_sentAddress port index ha)
      exact hdecoded.trans hclear
    have hset : (fw.set d (sentAddress port index a)).2 = .success := by
      by_contra hnot
      unfold cmdSetRoceAddr at hfailed
      dsimp only at hfailed
      rw [if_pos hnot] at hfailed
      exact hfailed hnot
    have hcleared := hfw.clear d _ hset hversion
    rw [hi, hp] at hcleared
    exact hcleared
  · unfold cmdSetRoceAddr at hfailed
    dsimp only at hfailed
    split_ifs at hfailed with hset hanswer hmatch
    · exact absurd hset hfailed
    · exact absurd hanswer hfailed
    · have hanswered : fw.query (fw.set d (sentAddress port index a)).1 (queryRoceAddress port index) =
          (.success, (fw.query (fw.set d (sentAddress port index a)).1 (queryRoceAddress port index)).2) :=
        Prod.ext (not_not.mp hanswer) rfl
      have hsame := hfw.query _ _ _ hanswered
      obtain ⟨hi, hp⟩ := queryRoceAddress_names port index
      rw [hi, hp, Nat.mod_eq_of_lt hindex, Nat.mod_eq_of_lt hport] at hsame
      exact hsame.decode_eq.symm.trans ((readbackMatches_iff ha _).mp hmatch)
    · exact absurd (fun h => by cases h) hfailed

/-- A call changes what is kept for its own index only. -/
lemma cmdSetRoceAddr_other (hfw : ServesAddresses fw kept) (ha : a.Fits) (hport : port < 2 ^ 4) (hindex : index < 2 ^ 16)
    {index' : ℕ} (hne : index' ≠ index) :
    kept (fw.set d (sentAddress port index a)).1 port index' = kept d port index' := by
  obtain ⟨hi, -⟩ := sentAddress_names ha hport hindex
  refine hfw.other d _ port index' fun heq => hne ?_
  rw [← hi]
  exact congrArg Prod.snd heq

lemma programs_hold (hfw : ServesAddresses fw kept) (hport : port < 2 ^ 4) (calls : List (ℕ × RoceAddr))
    (hcalls : ∀ c ∈ calls, c.1 < 2 ^ 16 ∧ c.2.Fits) (table : ℕ → KnownAddr)
    (hholds : ∀ i, (table i).Holds (kept d port i)) (i : ℕ) :
    ((programs fw port d table calls).2 i).Holds (kept (programs fw port d table calls).1 port i) := by
  induction calls generalizing d table with
  | nil => exact hholds i
  | cons c calls ih =>
      obtain ⟨index, a⟩ := c
      obtain ⟨hindex, ha⟩ := hcalls (index, a) List.mem_cons_self
      refine ih (fun c hc => hcalls c (List.mem_cons_of_mem _ hc)) _ fun j => ?_
      rw [cmdSetRoceAddr_fst]
      by_cases hj : j = index
      · rw [hj, Function.update_self]
        exact cmdSetRoceAddr_holds hfw ha hport hindex
      · rw [Function.update_of_ne hj, cmdSetRoceAddr_other hfw ha hport hindex hj]
        exact hholds j

/-- What is known of the table after a run of calls is what the firmware keeps, and when the firmware keeps what it is
sent, the readback lets the call succeed. -/
theorem programs_update_table (hfw : ServesAddresses fw kept) (numVhcaPorts : ℕ) (calls : List (ℕ × RoceAddr))
    (hcalls : ∀ c ∈ calls, c.1 < 2 ^ 16 ∧ Sendable roceVersions c.2) (table : ℕ → KnownAddr)
    (hholds : ∀ i, (table i).Holds (kept d (vhcaPort numVhcaPorts) i)) :
    (∀ i, ((programs fw (vhcaPort numVhcaPorts) d table calls).2 i).Holds
      (kept (programs fw (vhcaPort numVhcaPorts) d table calls).1 (vhcaPort numVhcaPorts) i)) ∧
      ∀ c ∈ calls, ∀ d d' out,
        fw.set d (sentAddress (vhcaPort numVhcaPorts) c.1 c.2) = (d', .success) →
        fw.query d' (queryRoceAddress (vhcaPort numVhcaPorts) c.1) = (.success, out) →
        SameLayout (kept d' (vhcaPort numVhcaPorts) c.1) (sentAddress (vhcaPort numVhcaPorts) c.1 c.2) →
        cmdSetRoceAddr fw (vhcaPort numVhcaPorts) d c.1 c.2 = (d', .success) := by
  have hport : vhcaPort numVhcaPorts < 2 ^ 4 := by
    unfold vhcaPort
    split_ifs <;> decide
  constructor
  · exact programs_hold hfw hport calls (fun c hc => ⟨(hcalls c hc).1, (hcalls c hc).2.fits⟩) table hholds
  · intro c hc d d' out hset hquery hkept
    obtain ⟨hindex, hsend⟩ := hcalls c hc
    have hsame := hfw.query _ _ _ hquery
    obtain ⟨hi, hp⟩ := queryRoceAddress_names (vhcaPort numVhcaPorts) c.1
    rw [hi, hp, Nat.mod_eq_of_lt hindex, Nat.mod_eq_of_lt hport] at hsame
    have hmatch : readbackMatches out c.2 = true := by
      rw [readbackMatches_iff hsend.fits, hsame.decode_eq, hkept.decode_eq, decode_sentAddress _ _ hsend.fits]
    unfold cmdSetRoceAddr
    dsimp only
    rw [hset]
    dsimp only
    rw [if_neg (not_not.mpr rfl), hquery]
    dsimp only
    rw [if_neg (not_not.mpr rfl), if_pos hmatch, ite_self]

/-- A firmware that keeps the messages. -/
def keepingFirmware : RoceFirmware (ℕ → ℕ → List Byte) where
  set d m := (fun p i => if p = getBits m 0x5c 4 ∧ i = getBits m 0x40 16 then m else d p i, .success)
  query d q := (.success, d (getBits q 0x5c 4) (getBits q 0x40 16))

lemma keepingFirmware_kept (d : ℕ → ℕ → List Byte) (m : List Byte) {port index : ℕ} (hindex : getBits m 0x40 16 = index)
    (hport : getBits m 0x5c 4 = port) : (keepingFirmware.set d m).1 port index = m :=
  if_pos ⟨hport.symm, hindex.symm⟩

lemma keepingFirmware_serves : ServesAddresses keepingFirmware fun d => d where
  other := fun d m p i hne => if_neg fun h => hne (Prod.ext h.1 h.2)
  query := fun d q out hquery offset width _ _ => by
    have hout : d (getBits q 0x5c 4) (getBits q 0x40 16) = out := congrArg Prod.snd hquery
    rw [hout]
  clear := fun d m _ hversion => by
    rw [keepingFirmware_kept d m rfl rfl]
    exact hversion

/-- The address of 10.0.0.1 on VLAN 7. -/
def vlanAddress : RoceAddr where
  gid := [0, 0, 0, 0, 0, 0, 0, 0, 0, 0, 0xff, 0xff, 10, 0, 0, 1]
  mac := [2, 0, 0, 0, 0, 1]
  roceVersion := 2
  l3Type := 0
  vlanEn := true
  vlanId := 7

/-- A new firmware. -/
def emptyTable : ℕ → ℕ → List Byte := fun _ _ => []

lemma programs_singleton {δ : Type} (fw : RoceFirmware δ) (port : ℕ) (d : δ) (table : ℕ → KnownAddr) (index : ℕ)
    (a : RoceAddr) : programs fw port d table [(index, a)] = ((cmdSetRoceAddr fw port d index a).1,
      Function.update table index (a.known (cmdSetRoceAddr fw port d index a).2)) := rfl

/-- A call for an address that the firmware keeps succeeds, and the table has it. -/
theorem programs_update_table_once :
    (cmdSetRoceAddr keepingFirmware (vhcaPort 0) emptyTable 5 vlanAddress).2 = .success ∧
      decodeRoceAddress ((programs keepingFirmware (vhcaPort 0) emptyTable (fun _ => .unknown)
        [(5, vlanAddress)]).1 (vhcaPort 0) 5) = vlanAddress := by
  have hsend : Sendable 2 vlanAddress := .inr ⟨rfl, rfl, by decide⟩
  have hcalls : ∀ c ∈ [(5, vlanAddress)], c.1 < 2 ^ 16 ∧ Sendable 2 c.2 := fun c hc => by
    rw [List.mem_singleton.mp hc]
    exact ⟨by decide, hsend⟩
  obtain ⟨hholds, hcall⟩ := programs_update_table (d := emptyTable) keepingFirmware_serves 0 [(5, vlanAddress)] hcalls
    (fun _ => .unknown) fun _ => trivial
  obtain ⟨hi, hp⟩ := @sentAddress_names (vhcaPort 0) 5 _ hsend.fits (by decide) (by decide)
  have hkept := keepingFirmware_kept emptyTable _ hi hp
  have hset : cmdSetRoceAddr keepingFirmware (vhcaPort 0) emptyTable 5 vlanAddress = (_, .success) :=
    hcall (5, vlanAddress) List.mem_cons_self emptyTable
      (keepingFirmware.set emptyTable (sentAddress (vhcaPort 0) 5 vlanAddress)).1 _ rfl rfl fun offset width _ _ => by
        rw [hkept]
  rw [programs_singleton] at hholds ⊢
  rw [hset] at hholds
  rw [hset]
  have hfive := hholds 5
  dsimp only at hfive ⊢
  rw [Function.update_self, RoceAddr.known_success (by decide), KnownAddr.holds_addr] at hfive
  exact ⟨rfl, hfive⟩

end Runs

end MelonDMA.Ib
