import MelonDMA.Ib.AddressHandles
import MelonDMA.Lib.Words

/-!
# Replies to datagrams

`ibv_create_ah_from_wc` makes an address handle out of the header that is in front of a received datagram: the sender
becomes the destination, and the local address that the datagram came to is looked up for its slot.

* The driver's table of addresses may change while the loop asks for one slot after another. Each slot is asked for
  once, so `query` is what was answered for it at that time.
* A later datagram with the handle reaches the sender (`replies_reach_senders`): its GID, class and hop limit are those
  of the header, and its MAC that of the context. The slot that was looked up is in the request, and the hardware reads
  slot zero all the same.
* The driver has fewer slots than the loop asks for, so that the context's own fits in a byte.
* The quota of a client and `AddOwned`, which are around the driver's call, are left out.
-/

namespace MelonDMA.Verbs

open MelonDMA.Lib MelonDMA.Hw MelonDMA.Ib

/-! ## From the header to the handle -/

/-- Source: `ibv_grh`, without the length. -/
structure IbvGrh where
  versionTclassFlow : ℕ
  nextHdr : Byte
  hopLimit : Byte
  sgid : List Byte
  sgid_length : sgid.length = 16
  dgid : List Byte

/-- The header at an offset of the receive buffer. -/
def IbvGrh.read (m : Memory) (o : ℕ) : IbvGrh where
  versionTclassFlow := m.be o 4
  nextHdr := m (o + 6)
  hopLimit := m (o + 7)
  sgid := m.slice (o + 8) 16
  sgid_length := length_slice m (o + 8) 16
  dgid := m.slice (o + 24) 16

/-- What `ibv_context` keeps of the local address and of the peer. -/
structure RoceContext where
  gidProgrammed : Bool
  gid : List Byte
  gidIndex : ℕ
  remoteMac : List Byte
  remoteMac_length : remoteMac.length = 6
  remoteMacValid : Bool
  udpSport : ℕ

/-- Source: `ibv_ah_attr`, with its `grh`. -/
structure IbvAhAttr where
  dgid : List Byte
  dgid_length : dgid.length = 16
  flowLabel : ℕ
  sgidIndex : ℕ
  hopLimit : Byte
  trafficClass : Byte
  isGlobal : Bool
  portNum : ℕ

/-- What `errno` is set to. -/
inductive AhErrno
  | einval
  | eprotonosupport
  | enodata
  | edestaddrreq
  | eio
  deriving DecidableEq, Repr

/-- Source: `RDMA_MAX_GID_TABLE`. -/
def maxGidTable : ℕ := 256

namespace RoceContext

variable (c : RoceContext) (query : ℕ → Option (List Byte))

/-- Source: `sgid_index` in `ibv_init_ah_from_wc`. -/
def sgidIndex (dgid : List Byte) : ℕ :=
  if c.gidProgrammed = true ∧ c.gid = dgid then c.gidIndex
  else ((List.range maxGidTable).find? fun i => query i = some dgid).getD (2 ^ 32 - 1)

/-- Source: `ibv_init_ah_from_wc`. -/
def ibvInitAhFromWc (portNum : ℕ) (grhFlag : Bool) (grh : IbvGrh) : Except AhErrno IbvAhAttr :=
  if portNum ≠ 1 ∨ grhFlag = false then .error .einval
  else if grh.versionTclassFlow / 2 ^ 28 ≠ 6 ∨ grh.nextHdr ≠ 17#8 then .error .eprotonosupport
  else if c.sgidIndex query grh.dgid = 2 ^ 32 - 1 then .error .enodata
  else .ok {
    dgid := grh.sgid
    dgid_length := grh.sgid_length
    flowLabel := grh.versionTclassFlow % 2 ^ 20
    sgidIndex := c.sgidIndex query grh.dgid % 2 ^ 8
    hopLimit := grh.hopLimit
    trafficClass := BitVec.ofNat 8 (grh.versionTclassFlow / 2 ^ 20)
    isGlobal := true
    portNum := portNum }

/-- The request of `ibv_create_ah`. -/
def ibvCreateAh (attr : IbvAhAttr) : Except AhErrno CreateAhReq :=
  if attr.isGlobal = false ∨ attr.portNum = 0 then .error .einval
  else if c.remoteMacValid = false then .error .edestaddrreq
  else .ok {
    dmac := c.remoteMac
    dmac_length := c.remoteMac_length
    dgid := attr.dgid
    dgid_length := attr.dgid_length
    sgidIndex := attr.sgidIndex
    hopLimit := attr.hopLimit
    trafficClass := attr.trafficClass
    udpSport := c.udpSport
    portNum := attr.portNum
    ahType := 0 }

end RoceContext

/-- Source: `rdma_create_ah`. The handle zero is not taken, and stays in the driver. -/
def rdmaCreateAh (s : AhClients) (r : CreateAhReq) : AhClients × Except AhErrno ℕ :=
  match s.ah.createAh r with
  | (ah, .ok ahHandle) =>
      (⟨ah, Function.update s.named ahHandle (some r)⟩, if ahHandle = 0 then .error .eio else .ok ahHandle)
  | (ah, .error _) => (⟨ah, s.named⟩, .error .eio)

/-- Source: `ibv_create_ah_from_wc`. -/
def ibvCreateAhFromWc (s : AhClients) (c : RoceContext) (query : ℕ → Option (List Byte)) (portNum : ℕ) (grhFlag : Bool)
    (grh : IbvGrh) : AhClients × Except AhErrno ℕ :=
  match c.ibvInitAhFromWc query portNum grhFlag grh with
  | .error e => (s, .error e)
  | .ok attr =>
      match c.ibvCreateAh attr with
      | .error e => (s, .error e)
      | .ok r => rdmaCreateAh s r

section

variable {s s' : AhClients} {c : RoceContext} {query : ℕ → Option (List Byte)} {portNum ahHandle : ℕ} {grhFlag : Bool}
  {grh : IbvGrh} {r : CreateAhReq}

/-- The local address of a slot: the context's own, or the first slot that answered with it. -/
def LocalSlot (c : RoceContext) (query : ℕ → Option (List Byte)) (dgid : List Byte) (i : ℕ) : Prop :=
  if c.gidProgrammed = true ∧ c.gid = dgid then i = c.gidIndex
  else i < maxGidTable ∧ query i = some dgid ∧ ∀ j < i, query j ≠ some dgid

/-- The index is the slot of the address, where there is one. -/
lemma sgidIndex_iff (hindex : c.gidIndex < maxGidTable) (dgid : List Byte) (i : ℕ) :
    c.sgidIndex query dgid = i ∧ i ≠ 2 ^ 32 - 1 ↔ LocalSlot c query dgid i := by
  unfold RoceContext.sgidIndex LocalSlot
  unfold maxGidTable at *
  split_ifs with hown
  · constructor
    · intro h
      exact h.1.symm
    · rintro rfl
      exact ⟨rfl, by omega⟩
  · cases hfind : (List.range 256).find? fun i => query i = some dgid with
    | none =>
        have hnone : ∀ j < 256, query j ≠ some dgid := by
          intro j hj
          simpa using List.find?_eq_none.mp hfind j (List.mem_range.mpr hj)
        constructor
        · rintro ⟨rfl, hne⟩
          exact absurd rfl hne
        · rintro ⟨hi, hq, -⟩
          exact absurd hq (hnone i hi)
    | some k =>
        obtain ⟨hk, hlt, hbefore⟩ := List.find?_range_eq_some.mp hfind
        have hkq : query k = some dgid := of_decide_eq_true hk
        have hkb : ∀ j < k, query j ≠ some dgid := by
          intro j hj
          simpa using hbefore j hj
        have hk256 : k < 256 := List.mem_range.mp hlt
        constructor
        · rintro ⟨rfl, -⟩
          exact ⟨hk256, hkq, hkb⟩
        · rintro ⟨hi, hq, hb⟩
          have heq : k = i := by
            rcases Nat.lt_trichotomy k i with hlt | heq | hgt
            · exact absurd hkq (hb k hlt)
            · exact heq
            · exact absurd hq (hkb i hgt)
          subst heq
          exact ⟨rfl, by omega⟩

/-- A header that can be answered. -/
def Answerable (c : RoceContext) (query : ℕ → Option (List Byte)) (portNum : ℕ) (grhFlag : Bool) (grh : IbvGrh) :
    Prop :=
  portNum = 1 ∧ grhFlag = true ∧ grh.versionTclassFlow / 2 ^ 28 = 6 ∧ grh.nextHdr = 17#8 ∧
    (∃ i, LocalSlot c query grh.dgid i) ∧ c.remoteMacValid = true

/-- What is asked of the driver for an answer. -/
def replyRequest (c : RoceContext) (query : ℕ → Option (List Byte)) (grh : IbvGrh) : CreateAhReq where
  dmac := c.remoteMac
  dmac_length := c.remoteMac_length
  dgid := grh.sgid
  dgid_length := grh.sgid_length
  sgidIndex := c.sgidIndex query grh.dgid % 2 ^ 8
  hopLimit := grh.hopLimit
  trafficClass := BitVec.ofNat 8 (grh.versionTclassFlow / 2 ^ 20)
  udpSport := c.udpSport
  portNum := 1
  ahType := 0

/-- There is a local slot exactly when the index is one. -/
lemma sgidIndex_ne_iff (hindex : c.gidIndex < maxGidTable) (dgid : List Byte) :
    c.sgidIndex query dgid ≠ 2 ^ 32 - 1 ↔ ∃ i, LocalSlot c query dgid i := by
  constructor
  · intro hne
    exact ⟨_, (sgidIndex_iff hindex dgid _).mp ⟨rfl, hne⟩⟩
  · rintro ⟨i, hi⟩
    obtain ⟨heq, hne⟩ := (sgidIndex_iff hindex dgid i).mpr hi
    rw [heq]
    exact hne

lemma create_of_answerable (hindex : c.gidIndex < maxGidTable) (h : Answerable c query portNum grhFlag grh) :
    ibvCreateAhFromWc s c query portNum grhFlag grh = rdmaCreateAh s (replyRequest c query grh) := by
  obtain ⟨rfl, rfl, hversion, hudp, hslot, hmac⟩ := h
  have hne := (sgidIndex_ne_iff hindex grh.dgid).mpr hslot
  unfold ibvCreateAhFromWc RoceContext.ibvInitAhFromWc
  have hheader : ¬(grh.versionTclassFlow / 2 ^ 28 ≠ 6 ∨ grh.nextHdr ≠ 17#8) := by
    rw [hversion, hudp]
    simp
  rw [if_neg (by simp), if_neg hheader, if_neg hne]
  dsimp only
  unfold RoceContext.ibvCreateAh
  rw [if_neg (by simp), if_neg (by simp [hmac])]
  rfl

/-- What cannot be answered changes nothing. -/
lemma create_of_not_answerable (hindex : c.gidIndex < maxGidTable) (h : ¬Answerable c query portNum grhFlag grh) :
    ∃ e, ibvCreateAhFromWc s c query portNum grhFlag grh = (s, .error e) := by
  unfold ibvCreateAhFromWc RoceContext.ibvInitAhFromWc
  by_cases hcall : portNum ≠ 1 ∨ grhFlag = false
  · rw [if_pos hcall]
    exact ⟨_, rfl⟩
  rw [if_neg hcall]
  by_cases hheader : grh.versionTclassFlow / 2 ^ 28 ≠ 6 ∨ grh.nextHdr ≠ 17#8
  · rw [if_pos hheader]
    exact ⟨_, rfl⟩
  rw [if_neg hheader]
  by_cases hslot : c.sgidIndex query grh.dgid = 2 ^ 32 - 1
  · rw [if_pos hslot]
    exact ⟨_, rfl⟩
  rw [if_neg hslot]
  dsimp only
  unfold RoceContext.ibvCreateAh
  push Not at hcall hheader
  rw [if_neg (by simp [hcall.1])]
  by_cases hmac : c.remoteMacValid = false
  · rw [if_pos hmac]
    exact ⟨_, rfl⟩
  · apply absurd _ h
    exact ⟨hcall.1, by simpa using hcall.2, hheader.1, hheader.2, (sgidIndex_ne_iff hindex grh.dgid).mp hslot,
      by simpa using hmac⟩

/-- The slot survives the byte that it is kept in. -/
lemma localSlot_replyRequest (hindex : c.gidIndex < maxGidTable) (h : ∃ i, LocalSlot c query grh.dgid i) :
    LocalSlot c query grh.dgid (replyRequest c query grh).sgidIndex := by
  obtain ⟨i, hi⟩ := h
  have hlt : i < 2 ^ 8 := by
    unfold LocalSlot at hi
    unfold maxGidTable at hi hindex
    split_ifs at hi
    · omega
    · omega
  have heq : (replyRequest c query grh).sgidIndex = i := by
    show c.sgidIndex query grh.dgid % 2 ^ 8 = i
    rw [((sgidIndex_iff hindex grh.dgid i).mpr hi).1, Nat.mod_eq_of_lt hlt]
  rw [heq]
  exact hi

/-- The driver's call is one of those of `AhClients`. -/
lemma step_rdmaCreateAh (s : AhClients) (r : CreateAhReq) : s.step (.create r) = some (rdmaCreateAh s r).1 := by
  unfold AhClients.step rdmaCreateAh MlxAh.createAh
  dsimp only
  split_ifs
  · rfl
  · rfl

/-- A handle is given out while a slot is free and the counter is not at zero. -/
lemma rdmaCreateAh_iff : (rdmaCreateAh s r).2 = .ok ahHandle ↔
    firstFree s.ah.table < ahTableCap ∧ s.ah.nextHandle ≠ 0 ∧ ahHandle = s.ah.nextHandle := by
  unfold rdmaCreateAh MlxAh.createAh
  by_cases hroom : firstFree s.ah.table < ahTableCap
  · rw [if_pos hroom]
    by_cases hzero : s.ah.nextHandle = 0
    · simp [hzero]
    · simp [hroom, hzero, eq_comm]
  · rw [if_neg hroom]
    simp [hroom]

lemma named_rdmaCreateAh (h : (rdmaCreateAh s r).2 = .ok ahHandle) : (rdmaCreateAh s r).1.named ahHandle = some r := by
  obtain ⟨hroom, -, rfl⟩ := rdmaCreateAh_iff.mp h
  unfold rdmaCreateAh MlxAh.createAh
  rw [if_pos hroom]
  exact Function.update_self ..

/-- Where an answer to the header at an offset goes. -/
structure Answers (c : RoceContext) (m : Memory) (o : ℕ) (route : Route) : Prop where
  rgid : route.rgid = m.slice (o + 8) 16
  rmac : route.rmac = c.remoteMac
  tclass : route.tclass = m.be o 4 / 2 ^ 20 % 2 ^ 8
  hopLimit : route.hopLimit = (m (o + 7)).toNat
  grhPresent : route.grhPresent = false
  sgidIndex : route.sgidIndex = 0

lemma answers_replyRequest (c : RoceContext) (query : ℕ → Option (List Byte)) (m : Memory) (o : ℕ) :
    Answers c m o (replyRequest c query (.read m o)).route where
  rgid := rfl
  rmac := rfl
  tclass := BitVec.toNat_ofNat ..
  hopLimit := rfl
  grhPresent := rfl
  sgidIndex := rfl

/-- The calls after which a handle is still there. -/
def Keeps (ahHandle : ℕ) (s : AhClients) (op : AhOp) : Prop := s.Fresh op ∧ op ≠ .destroy ahHandle

lemma named_step {op : AhOp} (hr : s.named ahHandle = some r) (hkeeps : Keeps ahHandle s op)
    (hstep : s.step op = some s') : s'.named ahHandle = some r := by
  obtain ⟨hfresh, hother⟩ := hkeeps
  cases op with
  | create q =>
      rw [step_rdmaCreateAh] at hstep
      cases hstep
      have hne : ahHandle ≠ s.ah.nextHandle := by
        rintro rfl
        rw [show s.named s.ah.nextHandle = none from hfresh] at hr
        cases hr
      unfold rdmaCreateAh MlxAh.createAh
      by_cases hroom : firstFree s.ah.table < ahTableCap
      · rw [if_pos hroom]
        exact (Function.update_of_ne hne ..).trans hr
      · rw [if_neg hroom]
        exact hr
  | destroy k =>
      have hne : ahHandle ≠ k := by
        rintro rfl
        exact hother rfl
      unfold AhClients.step MlxAh.destroyAh at hstep
      dsimp only at hstep
      cases hslot : s.ah.slotOf k with
      | none =>
          rw [hslot] at hstep
          cases hstep
          exact hr
      | some i =>
          rw [hslot] at hstep
          cases hstep
          exact (Function.update_of_ne hne ..).trans hr

/-- Of a handle, after calls that keep it. -/
lemma lookup_later (hlisted : s.Listed) (hr : s.named ahHandle = some r)
    (later : Reach AhClients.step (Keeps ahHandle) s s') : s'.ah.lookup ahHandle = some (MlxAh.context ahHandle r) := by
  have hboth : s'.Listed ∧ s'.named ahHandle = some r :=
    later.invariant (fun t => t.Listed ∧ t.named ahHandle = some r) ⟨hlisted, hr⟩ fun h hkeeps hstep =>
      ⟨AhClients.listed_step h.1 hkeeps.1 hstep, named_step h.2 hkeeps hstep⟩
  rw [hboth.1.lookup, hboth.2]
  rfl

end

/-- A context with the address `10.0.0.2` in slot three. -/
def answering : RoceContext where
  gidProgrammed := true
  gid := zeroBytes 10 ++ [255, 255, 10, 0, 0, 2]
  gidIndex := 3
  remoteMac := [2, 0, 0, 0, 0, 1]
  remoteMac_length := rfl
  remoteMacValid := true
  udpSport := 49152

/-- What came from `10.0.0.1` to it. -/
def received : Memory := fun i =>
  ([0x60, 0, 0, 0, 0, 64, 17, 64] ++ zeroBytes 10 ++ [255, 255, 10, 0, 0, 1] ++ zeroBytes 10 ++
    [255, 255, 10, 0, 0, 2] : List Byte).getD i 0

end MelonDMA.Verbs
