import MelonDMA.Lib.BitFields
import MelonDMA.Lib.Chain

/-!
# The context of a queue pair

The encoders of `MlxP0Encoding.hpp` that fill a queue pair's context (QPC) for the three transitions of a
connected pair, what `QueryQP` reads back, and the places of the fields in the context. Offsets count bits
from the most significant bit of the first byte, and those of the primary path (`ads`) from the start of the
path.

A field of a request has 32 bits and comes as a number; the fields of a path have the widths of
`MlxRocePathFields`.
-/

namespace MelonDMA.Hw

open MelonDMA.Lib

/-! ## The layout -/

/-- Source: `MLX_QPC_BYTES`. -/
def mlxQpcBytes : ℕ := 0x740 / 8

/-- A bit of the primary path. Source: `MLX_QPC_PRIMARY_PATH_BIT_OFFSET`. -/
def ads (bit : ℕ) : ℕ := 0xc0 + bit

/-- The fields of the context that the driver writes or reads. -/
inductive QpcField
  | state
  | st
  | pmState
  | mtu
  | logMsgMax
  | counterSetId
  | remoteQpn
  | pkeyIndex
  | ackTimeout
  | srcAddrIndex
  | hopLimit
  | tclass
  | rgid
  | dscp
  | udpSport
  | ethPrio
  | portNum
  | rmac
  | logSraMax
  | retryCount
  | rnrRetry
  | nextSendPsn
  | cqnSnd
  | logRraMax
  | atomicMode
  | rre
  | rwe
  | rae
  | minRnrNak
  | nextRcvPsn
  | cqnRcv
  deriving DecidableEq, Repr

namespace QpcField

/-- The offset and the width of a field. -/
def place : QpcField → ℕ × ℕ
  | state => (0x00, 4)
  | st => (0x08, 8)
  | pmState => (0x13, 2)
  | mtu => (0x40, 3)
  | logMsgMax => (0x43, 5)
  | counterSetId => (0x60, 8)
  | remoteQpn => (0xa8, 24)
  | pkeyIndex => (0xd0, 16)
  | ackTimeout => (0x100, 5)
  | srcAddrIndex => (0x108, 8)
  | hopLimit => (0x118, 8)
  | tclass => (0x124, 8)
  | rgid => (0x140, 128)
  | dscp => (0x1ca, 6)
  | udpSport => (0x1d0, 16)
  | ethPrio => (0x1e1, 3)
  | portNum => (0x1e8, 8)
  | rmac => (0x1f0, 48)
  | logSraMax => (0x388, 3)
  | retryCount => (0x38d, 3)
  | rnrRetry => (0x390, 3)
  | nextSendPsn => (0x3c8, 24)
  | cqnSnd => (0x3e8, 24)
  | logRraMax => (0x488, 3)
  | atomicMode => (0x48c, 4)
  | rre => (0x490, 1)
  | rwe => (0x491, 1)
  | rae => (0x492, 1)
  | minRnrNak => (0x4a3, 5)
  | nextRcvPsn => (0x4a8, 24)
  | cqnRcv => (0x4e8, 24)

/-- Every field. -/
def all : List QpcField :=
  [state, st, pmState, mtu, logMsgMax, counterSetId, remoteQpn, pkeyIndex, ackTimeout, srcAddrIndex, hopLimit,
    tclass, rgid, dscp, udpSport, ethPrio, portNum, rmac, logSraMax, retryCount, rnrRetry, nextSendPsn, cqnSnd,
    logRraMax, atomicMode, rre, rwe, rae, minRnrNak, nextRcvPsn, cqnRcv]

lemma mem_all (f : QpcField) : f ∈ all := by
  cases f <;> decide

/-- What a field of a context holds. -/
def read (f : QpcField) (qpc : List Byte) : ℕ := getBits qpc f.place.1 f.place.2

/-- The bytes of a field of whole bytes. -/
def bytes (f : QpcField) (qpc : List Byte) : List ℕ := readBytes qpc f.place.1 (f.place.2 / 8)

/-- The fields have no bit in common. -/
def Apart (f g : QpcField) : Prop :=
  f.place.1 + f.place.2 ≤ g.place.1 ∨ g.place.1 + g.place.2 ≤ f.place.1

instance (f g : QpcField) : Decidable (f.Apart g) := inferInstanceAs (Decidable (_ ∨ _))

/-- No two fields have a bit in common. -/
lemma apart (f g : QpcField) (h : f ≠ g) : f.Apart g := by
  have hall : ∀ f ∈ all, ∀ g ∈ all, f ≠ g → f.Apart g := by decide +kernel
  exact hall f (mem_all f) g (mem_all g) h

/-- Every field is inside the context. -/
lemma fits (f : QpcField) : f.place.1 + f.place.2 ≤ 8 * mlxQpcBytes := by
  have hall : ∀ f ∈ all, f.place.1 + f.place.2 ≤ 8 * mlxQpcBytes := by decide
  exact hall f (mem_all f)

end QpcField

/-- The answer of `QUERY_QP`. Source: `mlx_query_qp_resp`, as `MlxQP::QueryQP` fills it from the context. -/
structure QueryQpResp where
  state : ℕ
  pathMtu : ℕ
  destQpn : ℕ
  sqPsn : ℕ
  rqPsn : ℕ
  sendCq : ℕ
  recvCq : ℕ
  trafficClass : ℕ
  dscp : ℕ
  sl : ℕ
  deriving DecidableEq, Repr

/-- Source: `MlxQP::QueryQP`. -/
def queryQp (qpc : List Byte) : QueryQpResp where
  state := getBits qpc 0x00 4
  pathMtu := getBits qpc 0x40 3
  destQpn := getBits qpc 0xa8 24
  sqPsn := getBits qpc 0x3c8 24
  rqPsn := getBits qpc 0x4a8 24
  sendCq := getBits qpc 0x3e8 24
  recvCq := getBits qpc 0x4e8 24
  trafficClass := getBits qpc (ads 0x64) 8
  dscp := getBits qpc (ads 0x10a) 6
  sl := getBits qpc (ads 0x121) 3

/-! ## The encoders -/

/-- The loop of `mlxLog2PowerOfTwo`, which a 32-bit value leaves before it turns 32 times. -/
def log2Loop : ℕ → ℕ → ℕ
  | 0, _ => 0
  | turns + 1, value => if 1 < value then log2Loop turns (value / 2) + 1 else 0

/-- Source: `mlxLog2PowerOfTwo`. -/
def mlxLog2PowerOfTwo (value : ℕ) : ℕ := log2Loop 32 value

/-- Source: `MLX_QP_OPTPAR_RRE`, `MLX_QP_OPTPAR_RWE`, `MLX_QP_OPTPAR_RAE`. -/
def optparRre : ℕ := 2 ^ 1
def optparRae : ℕ := 2 ^ 2
def optparRwe : ℕ := 2 ^ 3

/-- The context and the mask of optional parameters. Source: `mlxEncodeRst2InitQpc`. -/
def mlxEncodeRst2InitQpc (qpc : List Byte) (pkeyIndex portNum serviceType counterSetId : ℕ) :
    Option (List Byte × ℕ) :=
  if qpc.length < mlxQpcBytes ∨ 0xffff < pkeyIndex ∨ portNum = 0 ∨ 0xff < portNum ∨ 0xff < serviceType then none
  else
    some (writeFields qpc
      [⟨0x08, 8, serviceType⟩, ⟨0x13, 2, 3⟩, ⟨ads 0x10, 16, pkeyIndex⟩, ⟨ads 0x128, 8, portNum⟩,
        ⟨0x60, 8, counterSetId % 256⟩], 0)

/-- Source: `MlxRocePathFields`. -/
structure MlxRocePathFields where
  dmac : Block 6
  dgid : Block 16
  sgidIndex : ℕ
  hopLimit : BitVec 8
  trafficClass : BitVec 8
  udpSport : BitVec 16
  pkeyIndex : BitVec 16
  portNum : BitVec 8
  sl : BitVec 8

/-- The hop limit that is used. Source: `path->hopLimit ? path->hopLimit : 64`. -/
def MlxRocePathFields.usedHopLimit (path : MlxRocePathFields) : ℕ :=
  if path.hopLimit ≠ 0#8 then path.hopLimit.toNat else 64

/-- The fields of a path that are numbers. -/
def pathFields (path : MlxRocePathFields) : List BitField :=
  [⟨ads 0x10, 16, path.pkeyIndex.toNat⟩, ⟨ads 0x48, 8, path.sgidIndex⟩, ⟨ads 0x58, 8, path.usedHopLimit⟩,
    ⟨ads 0x64, 8, path.trafficClass.toNat⟩, ⟨ads 0x10a, 6, path.trafficClass.toNat / 4⟩,
    ⟨ads 0x110, 16, path.udpSport.toNat⟩, ⟨ads 0x121, 3, path.sl.toNat⟩, ⟨ads 0x128, 8, path.portNum.toNat⟩]

/-- Source: `mlxEncodeRocePrimaryPath`. -/
def mlxEncodeRocePrimaryPath (qpc : List Byte) (path : MlxRocePathFields) : Option (List Byte) :=
  if qpc.length < mlxQpcBytes ∨ 0xff < path.sgidIndex ∨ path.portNum = 0#8 ∨ 7 < path.sl.toNat then none
  else
    let qpc := writeFields qpc (pathFields path)
    let qpc := copyBytes qpc (ads 0x80 / 8) path.dgid.bytes
    some (copyBytes qpc (ads 0x130 / 8) path.dmac.bytes)

/-- What `INIT2RTR` asks for, besides the path. -/
structure RtrParams where
  destQpn : ℕ
  pathMtu : ℕ
  rqPsn : ℕ
  minRnrTimer : ℕ
  maxDestRdAtomic : ℕ
  atomicMode : ℕ
  logMaxMsg : ℕ
  deriving DecidableEq, Repr

/-- The fields written before the path. -/
def rtrFields (p : RtrParams) : List BitField :=
  [⟨0x08, 8, 0⟩, ⟨0x13, 2, 3⟩, ⟨0x40, 3, p.pathMtu⟩, ⟨0x43, 5, p.logMaxMsg⟩, ⟨0xa8, 24, p.destQpn⟩,
    ⟨0x4a3, 5, p.minRnrTimer⟩, ⟨0x4a8, 24, p.rqPsn⟩]

/-- The fields written behind it, when the peer may read. -/
def responderFields (p : RtrParams) : List BitField :=
  if p.maxDestRdAtomic = 0 then []
  else
    [⟨0x488, 3, mlxLog2PowerOfTwo p.maxDestRdAtomic⟩, ⟨0x490, 1, 1⟩, ⟨0x491, 1, 1⟩] ++
      if p.atomicMode = 0 then [] else [⟨0x48c, 4, p.atomicMode⟩, ⟨0x492, 1, 1⟩]

/-- The mask of optional parameters. -/
def responderMask (p : RtrParams) : ℕ :=
  if p.maxDestRdAtomic = 0 then 0
  else optparRre + optparRwe + if p.atomicMode = 0 then 0 else optparRae

/-- The parameters that `mlxEncodeInit2RtrQpc` takes. -/
def RtrParams.Valid (p : RtrParams) : Prop :=
  p.destQpn ≤ 0xffffff ∧ p.pathMtu ≠ 0 ∧ p.pathMtu ≤ 5 ∧ p.rqPsn ≤ 0xffffff ∧ p.minRnrTimer ≤ 0x1f ∧
    p.maxDestRdAtomic ≤ 128 ∧ p.atomicMode ≤ 8 ∧ p.logMaxMsg ≠ 0 ∧ p.logMaxMsg ≤ 31 ∧
    p.maxDestRdAtomic &&& (p.maxDestRdAtomic - 1) = 0

instance (p : RtrParams) : Decidable p.Valid := inferInstanceAs (Decidable (_ ∧ _))

/-- Source: `mlxEncodeInit2RtrQpc`. -/
def mlxEncodeInit2RtrQpc (qpc : List Byte) (path : MlxRocePathFields) (p : RtrParams) :
    Option (List Byte × ℕ) :=
  if qpc.length < mlxQpcBytes ∨ ¬p.Valid then none
  else
    (mlxEncodeRocePrimaryPath (writeFields qpc (rtrFields p)) path).map fun qpc =>
      (writeFields qpc (responderFields p), responderMask p)

/-- What `RTR2RTS` asks for. -/
structure RtsParams where
  sqPsn : ℕ
  maxRdAtomic : ℕ
  ackTimeout : ℕ
  retryCount : ℕ
  rnrRetry : ℕ
  deriving DecidableEq, Repr

/-- The parameters that `mlxEncodeRtr2RtsQpc` takes. -/
def RtsParams.Valid (p : RtsParams) : Prop :=
  p.sqPsn ≤ 0xffffff ∧ p.maxRdAtomic ≤ 128 ∧ p.maxRdAtomic &&& (p.maxRdAtomic - 1) = 0 ∧
    p.ackTimeout ≤ 0x1f ∧ p.retryCount ≤ 7 ∧ p.rnrRetry ≤ 7

instance (p : RtsParams) : Decidable p.Valid := inferInstanceAs (Decidable (_ ∧ _))

/-- The fields written. -/
def rtsFields (p : RtsParams) : List BitField :=
  [⟨0x08, 8, 0⟩, ⟨0x13, 2, 3⟩, ⟨0x3c8, 24, p.sqPsn⟩, ⟨ads 0x40, 5, p.ackTimeout⟩, ⟨0x38d, 3, p.retryCount⟩,
    ⟨0x390, 3, p.rnrRetry⟩] ++
    if p.maxRdAtomic = 0 then [] else [⟨0x388, 3, mlxLog2PowerOfTwo p.maxRdAtomic⟩]

/-- Source: `mlxEncodeRtr2RtsQpc`. -/
def mlxEncodeRtr2RtsQpc (qpc : List Byte) (p : RtsParams) : Option (List Byte × ℕ) :=
  if qpc.length < mlxQpcBytes ∨ ¬p.Valid then none else some (writeFields qpc (rtsFields p), 0)

/-! ## Limits and logarithms -/

/-- A limit that the encoders take is a power of two, and its logarithm has three bits. -/
lemma two_pow_mlxLog2PowerOfTwo {x : ℕ} (hzero : x ≠ 0) (hle : x ≤ 128) (hpow : x &&& (x - 1) = 0) :
    2 ^ mlxLog2PowerOfTwo x = x ∧ mlxLog2PowerOfTwo x < 2 ^ 3 := by
  have hall : ∀ x < 129, x ≠ 0 → x &&& (x - 1) = 0 →
      2 ^ mlxLog2PowerOfTwo x = x ∧ mlxLog2PowerOfTwo x < 2 ^ 3 := by decide +kernel
  exact hall x (by omega) hzero hpow

/-! ## Reading a context back -/

namespace QpcField

/-- A value for a field. -/
def put (f : QpcField) (value : ℕ) : BitField := ⟨f.place.1, f.place.2, value⟩

section Written

variable {f g : QpcField} {qpc : List Byte} {writes : List (QpcField × ℕ)} {value : ℕ}

/-- The fields that are written, with their values, as places of the context. -/
def puts (writes : List (QpcField × ℕ)) : List BitField := writes.map fun w => w.1.put w.2

lemma puts_fit (hsize : mlxQpcBytes ≤ qpc.length) : ∀ b ∈ puts writes, b.Fits qpc.length := by
  intro b hb
  obtain ⟨w, -, rfl⟩ := List.mem_map.mp hb
  have := w.1.fits
  show w.1.place.1 + w.1.place.2 ≤ 8 * qpc.length
  omega

/-- A field that is not among those written keeps its value. -/
lemma read_puts_of_not_mem (hsize : mlxQpcBytes ≤ qpc.length) (hf : f ∉ writes.map Prod.fst) :
    f.read (writeFields qpc (puts writes)) = f.read qpc := by
  refine getBits_writeFields_of_apart (puts_fit hsize) (f := f.put 0) fun b hb => ?_
  obtain ⟨w, hw, rfl⟩ := List.mem_map.mp hb
  exact f.apart w.1 fun heq => hf (List.mem_map.mpr ⟨w, hw, heq.symm⟩)

/-- A field that is written once holds what was written, when it fits. -/
lemma read_puts (hsize : mlxQpcBytes ≤ qpc.length) (hnodup : (writes.map Prod.fst).Nodup)
    (hf : (f, value) ∈ writes) (hfits : value < 2 ^ f.place.2) :
    f.read (writeFields qpc (puts writes)) = value := by
  have hapart : (puts writes).Pairwise BitField.Apart := by
    refine List.pairwise_map.mpr ((List.pairwise_map.mp hnodup).imp fun {w w'} hne => ?_)
    exact w.1.apart w'.1 hne
  have hmem : f.put value ∈ puts writes := List.mem_map.mpr ⟨(f, value), hf, rfl⟩
  have hread := getBits_writeFields (puts_fit hsize) hapart hmem
  exact hread.trans (Nat.mod_eq_of_lt hfits)

/-- The field is one of whole bytes. -/
def WholeBytes (f : QpcField) : Prop := f.place.1 % 8 = 0 ∧ f.place.2 % 8 = 0

instance (f : QpcField) : Decidable f.WholeBytes := inferInstanceAs (Decidable (_ ∧ _))

lemma copy_fits {src : List Byte} (hsize : mlxQpcBytes ≤ qpc.length) (hwhole : g.WholeBytes)
    (hlen : 8 * src.length = g.place.2) : g.place.1 / 8 + src.length ≤ qpc.length := by
  have := g.fits
  have := hwhole.1
  omega

/-- Bytes copied into one field leave the others. -/
lemma read_copyBytes {src : List Byte} (hsize : mlxQpcBytes ≤ qpc.length) (hwhole : g.WholeBytes)
    (hlen : 8 * src.length = g.place.2) (hne : f ≠ g) :
    f.read (copyBytes qpc (g.place.1 / 8) src) = f.read qpc := by
  have hwhole' := hwhole.1
  refine getBits_copyBytes_of_apart (copy_fits hsize hwhole hlen) ?_
  rcases f.apart g hne with h | h <;> omega

/-- Bytes copied into a field are its bytes. -/
lemma bytes_copyBytes {src : List Byte} (hsize : mlxQpcBytes ≤ qpc.length) (hwhole : g.WholeBytes)
    (hlen : 8 * src.length = g.place.2) :
    g.bytes (copyBytes qpc (g.place.1 / 8) src) = src.map BitVec.toNat := by
  have hread := readBytes_copyBytes (copy_fits hsize hwhole hlen)
  rw [Nat.mul_div_cancel' (Nat.dvd_of_mod_eq_zero hwhole.1)] at hread
  unfold bytes
  rw [← hlen, Nat.mul_div_cancel_left _ (by decide)]
  exact hread

/-- The bytes of a field that is not among those written stay. -/
lemma bytes_puts_of_not_mem (hsize : mlxQpcBytes ≤ qpc.length) (hf : f ∉ writes.map Prod.fst) :
    f.bytes (writeFields qpc (puts writes)) = f.bytes qpc := by
  refine readBytes_congr fun i hi => ?_
  refine getBits_writeFields_of_apart (puts_fit hsize) (f := ⟨f.place.1 + 8 * i, 8, 0⟩) fun b hb => ?_
  obtain ⟨w, hw, rfl⟩ := List.mem_map.mp hb
  have hne : f ≠ w.1 := fun heq => hf (List.mem_map.mpr ⟨w, hw, heq.symm⟩)
  show f.place.1 + 8 * i + 8 ≤ w.1.place.1 ∨ w.1.place.1 + w.1.place.2 ≤ f.place.1 + 8 * i
  rcases f.apart w.1 hne with h | h <;> omega

/-- Bytes copied into one field leave the bytes of another. -/
lemma bytes_copyBytes_of_ne {src : List Byte} (hsize : mlxQpcBytes ≤ qpc.length) (hwhole : g.WholeBytes)
    (hlen : 8 * src.length = g.place.2) (hne : f ≠ g) :
    f.bytes (copyBytes qpc (g.place.1 / 8) src) = f.bytes qpc := by
  have hwhole' := hwhole.1
  refine readBytes_congr fun i hi => ?_
  refine getBits_copyBytes_of_apart (copy_fits hsize hwhole hlen) ?_
  rcases f.apart g hne with h | h <;> omega

end Written

/-- The value fits the field. -/
def Holds (f : QpcField) (value : ℕ) : Prop := value < 2 ^ f.place.2

instance (f : QpcField) (value : ℕ) : Decidable (f.Holds value) := inferInstanceAs (Decidable (_ < _))

end QpcField

open QpcField

/-! ## From reset to init -/

/-- What the context of the first transition says. -/
structure InitReadBack (qpc out : List Byte) (pkeyIndex portNum serviceType counterSetId : ℕ) : Prop where
  serviceType : st.read out = serviceType
  pmState : pmState.read out = 3
  pkeyIndex : QpcField.pkeyIndex.read out = pkeyIndex
  portNum : QpcField.portNum.read out = portNum
  counterSetId : QpcField.counterSetId.read out = counterSetId % 256
  others : ∀ f ∉ [st, .pmState, .pkeyIndex, .portNum, .counterSetId], f.read out = f.read qpc

section RstInit

variable {qpc out : List Byte} {pkey port service counter mask : ℕ}

/-- What the encoder writes. -/
def initWrites (pkey port service counter : ℕ) : List (QpcField × ℕ) :=
  [(st, service), (pmState, 3), (pkeyIndex, pkey), (portNum, port), (counterSetId, counter % 256)]

lemma mlxEncodeRst2InitQpc_eq_some (h : mlxEncodeRst2InitQpc qpc pkey port service counter = some (out, mask)) :
    mlxQpcBytes ≤ qpc.length ∧ pkeyIndex.Holds pkey ∧ portNum.Holds port ∧ st.Holds service ∧
      out = writeFields qpc (puts (initWrites pkey port service counter)) := by
  unfold mlxEncodeRst2InitQpc at h
  split_ifs at h with hbad
  obtain ⟨rfl, -⟩ := Prod.mk.inj (Option.some.inj h)
  simp only [not_or, not_lt] at hbad
  obtain ⟨hsize, hpkey, -, hport, hservice⟩ := hbad
  exact ⟨hsize, Nat.lt_succ_of_le hpkey, Nat.lt_succ_of_le hport, Nat.lt_succ_of_le hservice, rfl⟩

lemma initReadBack (h : mlxEncodeRst2InitQpc qpc pkey port service counter = some (out, mask)) :
    InitReadBack qpc out pkey port service counter := by
  obtain ⟨hsize, hpkey, hport, hservice, rfl⟩ := mlxEncodeRst2InitQpc_eq_some h
  have hread : ∀ f v, (f, v) ∈ initWrites pkey port service counter → f.Holds v →
      f.read (writeFields qpc (puts (initWrites pkey port service counter))) = v := fun f v =>
    read_puts hsize (show [st, pmState, pkeyIndex, portNum, counterSetId].Nodup by decide)
  exact
    { serviceType := hread _ _ (by simp [initWrites]) hservice
      pmState := hread _ _ (by simp [initWrites]) (by decide)
      pkeyIndex := hread _ _ (by simp [initWrites]) hpkey
      portNum := hread _ _ (by simp [initWrites]) hport
      counterSetId := hread _ _ (by simp [initWrites]) (Nat.mod_lt _ (by decide))
      others := fun f hf => read_puts_of_not_mem hsize hf }

end RstInit

/-! ## From ready to receive to ready to send -/

/-- What the context of the last transition says. The limit is in it by its logarithm. -/
structure RtsReadBack (qpc out : List Byte) (p : RtsParams) : Prop where
  serviceType : st.read out = 0
  pmState : pmState.read out = 3
  sqPsn : (queryQp out).sqPsn = p.sqPsn
  ackTimeout : QpcField.ackTimeout.read out = p.ackTimeout
  retryCount : QpcField.retryCount.read out = p.retryCount
  rnrRetry : QpcField.rnrRetry.read out = p.rnrRetry
  maxRdAtomic : p.maxRdAtomic ≠ 0 → 2 ^ logSraMax.read out = p.maxRdAtomic
  noLimit : p.maxRdAtomic = 0 → logSraMax.read out = logSraMax.read qpc
  others : ∀ f ∉ [st, .pmState, nextSendPsn, .ackTimeout, .retryCount, .rnrRetry, logSraMax],
    f.read out = f.read qpc

/-- The values that fit their fields. -/
structure RtsParams.Fits (p : RtsParams) : Prop where
  sqPsn : nextSendPsn.Holds p.sqPsn
  ackTimeout : QpcField.ackTimeout.Holds p.ackTimeout
  retryCount : QpcField.retryCount.Holds p.retryCount
  rnrRetry : QpcField.rnrRetry.Holds p.rnrRetry
  maxRdAtomic : p.maxRdAtomic ≠ 0 → ∃ k, logSraMax.Holds k ∧ p.maxRdAtomic = 2 ^ k

lemma RtsParams.Valid.fits {p : RtsParams} (h : p.Valid) : p.Fits := by
  obtain ⟨hpsn, hlimit, hpow, hack, hretry, hrnr⟩ := h
  refine ⟨Nat.lt_succ_of_le hpsn, Nat.lt_succ_of_le hack, Nat.lt_succ_of_le hretry, Nat.lt_succ_of_le hrnr,
    fun hzero => ?_⟩
  obtain ⟨heq, hlt⟩ := two_pow_mlxLog2PowerOfTwo hzero hlimit hpow
  exact ⟨_, hlt, heq.symm⟩

section RtrRts

variable {qpc out : List Byte} {p : RtsParams} {mask : ℕ}

/-- What the encoder writes. -/
def rtsWrites (p : RtsParams) : List (QpcField × ℕ) :=
  [(st, 0), (pmState, 3), (nextSendPsn, p.sqPsn), (ackTimeout, p.ackTimeout), (retryCount, p.retryCount),
    (rnrRetry, p.rnrRetry)] ++
    if p.maxRdAtomic = 0 then [] else [(logSraMax, mlxLog2PowerOfTwo p.maxRdAtomic)]

lemma puts_rtsWrites (p : RtsParams) : puts (rtsWrites p) = rtsFields p := by
  unfold rtsWrites rtsFields
  by_cases hzero : p.maxRdAtomic = 0
  · rw [if_pos hzero, if_pos hzero]
    rfl
  · rw [if_neg hzero, if_neg hzero]
    rfl

lemma map_fst_rtsWrites (p : RtsParams) : (rtsWrites p).map Prod.fst =
    [st, pmState, nextSendPsn, ackTimeout, retryCount, rnrRetry] ++
      if p.maxRdAtomic = 0 then [] else [logSraMax] := by
  unfold rtsWrites
  by_cases hzero : p.maxRdAtomic = 0
  · rw [if_pos hzero, if_pos hzero]
    rfl
  · rw [if_neg hzero, if_neg hzero]
    rfl

lemma mlxEncodeRtr2RtsQpc_eq_some (h : mlxEncodeRtr2RtsQpc qpc p = some (out, mask)) :
    mlxQpcBytes ≤ qpc.length ∧ p.Valid ∧ out = writeFields qpc (puts (rtsWrites p)) := by
  unfold mlxEncodeRtr2RtsQpc at h
  split_ifs at h with hbad
  obtain ⟨rfl, -⟩ := Prod.mk.inj (Option.some.inj h)
  rw [not_or, not_lt, not_not] at hbad
  exact ⟨hbad.1, hbad.2, by rw [puts_rtsWrites]⟩

lemma rtsReadBack (h : mlxEncodeRtr2RtsQpc qpc p = some (out, mask)) : RtsReadBack qpc out p := by
  obtain ⟨hsize, hvalid, rfl⟩ := mlxEncodeRtr2RtsQpc_eq_some h
  have hfits := hvalid.fits
  have hnodup : ((rtsWrites p).map Prod.fst).Nodup := by
    rw [map_fst_rtsWrites]
    split_ifs <;> decide
  have hread : ∀ f v, (f, v) ∈ rtsWrites p → f.Holds v →
      f.read (writeFields qpc (puts (rtsWrites p))) = v := fun f v => read_puts hsize hnodup
  refine
    { serviceType := hread _ _ (by simp [rtsWrites]) (by decide)
      pmState := hread _ _ (by simp [rtsWrites]) (by decide)
      sqPsn := hread nextSendPsn _ (by simp [rtsWrites]) hfits.sqPsn
      ackTimeout := hread _ _ (by simp [rtsWrites]) hfits.ackTimeout
      retryCount := hread _ _ (by simp [rtsWrites]) hfits.retryCount
      rnrRetry := hread _ _ (by simp [rtsWrites]) hfits.rnrRetry
      maxRdAtomic := fun hzero => ?_
      noLimit := fun hzero => ?_
      others := fun f hf => ?_ }
  · obtain ⟨heq, hlt⟩ := two_pow_mlxLog2PowerOfTwo hzero hvalid.2.1 hvalid.2.2.1
    rw [hread logSraMax (mlxLog2PowerOfTwo p.maxRdAtomic) (by simp [rtsWrites, hzero]) hlt, heq]
  · refine read_puts_of_not_mem hsize ?_
    rw [map_fst_rtsWrites, if_pos hzero]
    decide
  · refine read_puts_of_not_mem hsize fun hmem => hf ?_
    rw [map_fst_rtsWrites] at hmem
    split_ifs at hmem
    · rw [List.append_nil] at hmem
      exact List.mem_append_left [logSraMax] hmem
    · exact hmem

end RtrRts

/-! ## From init to ready to receive -/

/-- What the context of the second transition says. The limit is in it by its logarithm, and the rights of the
peer are written with it. -/
structure RtrReadBack (qpc out : List Byte) (path : MlxRocePathFields) (p : RtrParams) : Prop where
  serviceType : st.read out = 0
  pmState : QpcField.pmState.read out = 3
  pathMtu : (queryQp out).pathMtu = p.pathMtu
  logMaxMsg : logMsgMax.read out = p.logMaxMsg
  destQpn : (queryQp out).destQpn = p.destQpn
  minRnrTimer : minRnrNak.read out = p.minRnrTimer
  rqPsn : (queryQp out).rqPsn = p.rqPsn
  pkeyIndex : QpcField.pkeyIndex.read out = path.pkeyIndex.toNat
  sgidIndex : srcAddrIndex.read out = path.sgidIndex
  hopLimit : QpcField.hopLimit.read out = path.usedHopLimit
  trafficClass : (queryQp out).trafficClass = path.trafficClass.toNat
  dscp : (queryQp out).dscp = path.trafficClass.toNat / 4
  udpSport : QpcField.udpSport.read out = path.udpSport.toNat
  sl : (queryQp out).sl = path.sl.toNat
  portNum : QpcField.portNum.read out = path.portNum.toNat
  dgid : rgid.bytes out = path.dgid.bytes.map BitVec.toNat
  dmac : rmac.bytes out = path.dmac.bytes.map BitVec.toNat
  maxDestRdAtomic : p.maxDestRdAtomic ≠ 0 →
    2 ^ logRraMax.read out = p.maxDestRdAtomic ∧ rre.read out = 1 ∧ rwe.read out = 1
  atomicMode : p.maxDestRdAtomic ≠ 0 → p.atomicMode ≠ 0 →
    QpcField.atomicMode.read out = p.atomicMode ∧ rae.read out = 1
  noLimit : p.maxDestRdAtomic = 0 → ∀ f ∈ [logRraMax, rre, rwe], f.read out = f.read qpc
  noAtomics : p.maxDestRdAtomic = 0 ∨ p.atomicMode = 0 →
    ∀ f ∈ [QpcField.atomicMode, rae], f.read out = f.read qpc
  others : ∀ f ∈ [state, counterSetId, ackTimeout, logSraMax, retryCount, rnrRetry, nextSendPsn, cqnSnd, cqnRcv],
    f.read out = f.read qpc

/-- The values that fit their fields. -/
structure RtrParams.Fits (p : RtrParams) (path : MlxRocePathFields) : Prop where
  pathMtu : mtu.Holds p.pathMtu
  logMaxMsg : logMsgMax.Holds p.logMaxMsg
  destQpn : remoteQpn.Holds p.destQpn
  minRnrTimer : minRnrNak.Holds p.minRnrTimer
  rqPsn : nextRcvPsn.Holds p.rqPsn
  atomicMode : QpcField.atomicMode.Holds p.atomicMode
  maxDestRdAtomic : p.maxDestRdAtomic ≠ 0 → ∃ k, logRraMax.Holds k ∧ p.maxDestRdAtomic = 2 ^ k
  sgidIndex : srcAddrIndex.Holds path.sgidIndex
  sl : ethPrio.Holds path.sl.toNat

section InitRtr

variable {qpc out : List Byte} {path : MlxRocePathFields} {p : RtrParams} {mask : ℕ}

/-- What is written before the addresses. -/
def rtrWrites (p : RtrParams) (path : MlxRocePathFields) : List (QpcField × ℕ) :=
  [(st, 0), (pmState, 3), (mtu, p.pathMtu), (logMsgMax, p.logMaxMsg), (remoteQpn, p.destQpn),
    (minRnrNak, p.minRnrTimer), (nextRcvPsn, p.rqPsn), (pkeyIndex, path.pkeyIndex.toNat),
    (srcAddrIndex, path.sgidIndex), (hopLimit, path.usedHopLimit), (tclass, path.trafficClass.toNat),
    (dscp, path.trafficClass.toNat / 4), (udpSport, path.udpSport.toNat), (ethPrio, path.sl.toNat),
    (portNum, path.portNum.toNat)]

/-- The fields that are written before the addresses. -/
def rtrWritten : List QpcField :=
  [st, pmState, mtu, logMsgMax, remoteQpn, minRnrNak, nextRcvPsn, pkeyIndex, srcAddrIndex, hopLimit, tclass, dscp,
    udpSport, ethPrio, portNum]

/-- What is written behind them. -/
def responderWrites (p : RtrParams) : List (QpcField × ℕ) :=
  if p.maxDestRdAtomic = 0 then []
  else
    [(logRraMax, mlxLog2PowerOfTwo p.maxDestRdAtomic), (rre, 1), (rwe, 1)] ++
      if p.atomicMode = 0 then [] else [(atomicMode, p.atomicMode), (rae, 1)]

/-- The fields that are written behind them. -/
def responderWritten (p : RtrParams) : List QpcField :=
  if p.maxDestRdAtomic = 0 then []
  else [logRraMax, rre, rwe] ++ if p.atomicMode = 0 then [] else [atomicMode, rae]

lemma puts_rtrWrites (p : RtrParams) (path : MlxRocePathFields) :
    writeFields qpc (puts (rtrWrites p path)) =
      writeFields (writeFields qpc (rtrFields p)) (pathFields path) := by
  have hsplit : puts (rtrWrites p path) = rtrFields p ++ pathFields path := rfl
  rw [hsplit, writeFields, List.foldl_append]
  rfl

lemma puts_responderWrites (p : RtrParams) : puts (responderWrites p) = responderFields p := by
  unfold responderWrites responderFields
  split_ifs <;> rfl

lemma map_fst_responderWrites (p : RtrParams) : (responderWrites p).map Prod.fst = responderWritten p := by
  unfold responderWrites responderWritten
  split_ifs <;> rfl

lemma nodup_responderWritten (p : RtrParams) : (responderWritten p).Nodup := by
  unfold responderWritten
  split_ifs <;> decide

lemma mem_responderWritten {f : QpcField} (h : f ∈ responderWritten p) :
    f ∈ [logRraMax, rre, rwe, atomicMode, rae] := by
  unfold responderWritten at h
  split_ifs at h
  · cases h
  · rw [List.append_nil] at h
    exact List.mem_append_left [atomicMode, rae] h
  · exact h

/-- The context with the addresses in place. -/
def addressed (qpc : List Byte) (path : MlxRocePathFields) : List Byte :=
  copyBytes (copyBytes qpc (rgid.place.1 / 8) path.dgid.bytes) (rmac.place.1 / 8) path.dmac.bytes

lemma mlxEncodeInit2RtrQpc_eq_some (h : mlxEncodeInit2RtrQpc qpc path p = some (out, mask)) :
    mlxQpcBytes ≤ qpc.length ∧ p.Valid ∧ srcAddrIndex.Holds path.sgidIndex ∧ ethPrio.Holds path.sl.toNat ∧
      out = writeFields (addressed (writeFields qpc (puts (rtrWrites p path))) path)
        (puts (responderWrites p)) := by
  unfold mlxEncodeInit2RtrQpc at h
  split_ifs at h with hbad
  rw [not_or, not_lt, not_not] at hbad
  obtain ⟨qpc', hpath, heq⟩ := Option.map_eq_some_iff.mp h
  unfold mlxEncodeRocePrimaryPath at hpath
  split_ifs at hpath with hrefused
  simp only [not_or, not_lt] at hrefused
  obtain ⟨-, hsgid, -, hsl⟩ := hrefused
  refine ⟨hbad.1, hbad.2, Nat.lt_succ_of_le hsgid, Nat.lt_succ_of_le hsl, ?_⟩
  have hdgid : rgid.place.1 / 8 = ads 0x80 / 8 := rfl
  have hdmac : rmac.place.1 / 8 = ads 0x130 / 8 := rfl
  rw [← (Prod.mk.inj heq).1, ← Option.some.inj hpath, puts_responderWrites, addressed, puts_rtrWrites, hdgid,
    hdmac]

lemma RtrParams.Valid.fits (h : p.Valid) (hsgid : srcAddrIndex.Holds path.sgidIndex)
    (hsl : ethPrio.Holds path.sl.toNat) : p.Fits path := by
  obtain ⟨hdest, -, hmtu, hpsn, hrnr, hlimit, hatomic, -, hmsg, hpow⟩ := h
  refine ⟨lt_of_le_of_lt hmtu (by decide), Nat.lt_succ_of_le hmsg, Nat.lt_succ_of_le hdest,
    Nat.lt_succ_of_le hrnr, Nat.lt_succ_of_le hpsn, lt_of_le_of_lt hatomic (by decide), fun hzero => ?_,
    hsgid, hsl⟩
  obtain ⟨heq, hlt⟩ := two_pow_mlxLog2PowerOfTwo hzero hlimit hpow
  exact ⟨_, hlt, heq.symm⟩

lemma usedHopLimit_holds (path : MlxRocePathFields) : hopLimit.Holds path.usedHopLimit := by
  unfold MlxRocePathFields.usedHopLimit
  split_ifs
  · exact path.hopLimit.isLt
  · decide

/-! ### Through the addresses -/

lemma length_copied_dgid (hsize : mlxQpcBytes ≤ qpc.length) (path : MlxRocePathFields) :
    (copyBytes qpc (rgid.place.1 / 8) path.dgid.bytes).length = qpc.length :=
  length_copyBytes (copy_fits hsize (by decide) (by rw [path.dgid.length_eq]; rfl))

lemma length_addressed (hsize : mlxQpcBytes ≤ qpc.length) (path : MlxRocePathFields) :
    (addressed qpc path).length = qpc.length := by
  have hdgid := length_copied_dgid hsize path
  refine (length_copyBytes ?_).trans hdgid
  exact copy_fits (by rwa [hdgid]) (by decide) (by rw [path.dmac.length_eq]; rfl)

lemma read_addressed (hsize : mlxQpcBytes ≤ qpc.length) {f : QpcField} (hgid : f ≠ rgid) (hmac : f ≠ rmac) :
    f.read (addressed qpc path) = f.read qpc := by
  unfold addressed
  rw [read_copyBytes (by rwa [length_copied_dgid hsize]) (by decide) (by rw [path.dmac.length_eq]; rfl) hmac,
    read_copyBytes hsize (by decide) (by rw [path.dgid.length_eq]; rfl) hgid]

lemma rmac_addressed (hsize : mlxQpcBytes ≤ qpc.length) :
    rmac.bytes (addressed qpc path) = path.dmac.bytes.map BitVec.toNat :=
  bytes_copyBytes (by rwa [length_copied_dgid hsize]) (by decide) (by rw [path.dmac.length_eq]; rfl)

lemma rgid_addressed (hsize : mlxQpcBytes ≤ qpc.length) :
    rgid.bytes (addressed qpc path) = path.dgid.bytes.map BitVec.toNat := by
  unfold addressed
  rw [bytes_copyBytes_of_ne (by rwa [length_copied_dgid hsize]) (by decide)
    (by rw [path.dmac.length_eq]; rfl) (by decide)]
  exact bytes_copyBytes hsize (by decide) (by rw [path.dgid.length_eq]; rfl)

/-- No field is written twice, and none of those that hold numbers is an address. -/
lemma rtrWritten_fresh {f : QpcField} (hf : f ∈ (rtrWrites p path).map Prod.fst) :
    f ∉ (responderWrites p).map Prod.fst ∧ f ≠ rgid ∧ f ≠ rmac := by
  have hall : ∀ f ∈ rtrWritten, f ∉ [logRraMax, rre, rwe, atomicMode, rae] ∧ f ≠ rgid ∧ f ≠ rmac := by decide
  obtain ⟨hother, hgid, hmac⟩ := hall f hf
  refine ⟨fun hmem => hother (mem_responderWritten (p := p) ?_), hgid, hmac⟩
  rwa [map_fst_responderWrites] at hmem

lemma rtrReadBack (h : mlxEncodeInit2RtrQpc qpc path p = some (out, mask)) : RtrReadBack qpc out path p := by
  obtain ⟨hsize, hvalid, hsgid, hsl, rfl⟩ := mlxEncodeInit2RtrQpc_eq_some h
  have hfits := hvalid.fits hsgid hsl
  have hbase : mlxQpcBytes ≤ (writeFields qpc (puts (rtrWrites p path))).length := by rwa [length_writeFields]
  have haddr : mlxQpcBytes ≤ (addressed (writeFields qpc (puts (rtrWrites p path))) path).length := by
    rwa [length_addressed hbase]
  have hnodup : ((responderWrites p).map Prod.fst).Nodup := by
    rw [map_fst_responderWrites]
    exact nodup_responderWritten p
  -- What is written last does not touch the fields and the addresses before it.
  have hread : ∀ f v, (f, v) ∈ rtrWrites p path → f.Holds v →
      f.read (writeFields (addressed (writeFields qpc (puts (rtrWrites p path))) path)
        (puts (responderWrites p))) = v := by
    intro f v hmem hholds
    obtain ⟨hother, hgid, hmac⟩ := rtrWritten_fresh (List.mem_map.mpr ⟨(f, v), hmem, rfl⟩)
    rw [read_puts_of_not_mem haddr hother, read_addressed hbase hgid hmac]
    exact read_puts hsize (show rtrWritten.Nodup by decide) hmem hholds
  have hlast : ∀ f v, (f, v) ∈ responderWrites p → f.Holds v →
      f.read (writeFields (addressed (writeFields qpc (puts (rtrWrites p path))) path)
        (puts (responderWrites p))) = v := fun f v => read_puts haddr hnodup
  have hkept : ∀ f, f ∉ rtrWritten → f ∉ responderWritten p → f ≠ rgid → f ≠ rmac →
      f.read (writeFields (addressed (writeFields qpc (puts (rtrWrites p path))) path)
        (puts (responderWrites p))) = f.read qpc := by
    intro f hfirst hother hgid hmac
    rw [← map_fst_responderWrites] at hother
    rw [read_puts_of_not_mem haddr hother, read_addressed hbase hgid hmac, read_puts_of_not_mem hsize hfirst]
  have haddress : ∀ f ∈ [rgid, rmac], f ∉ (responderWrites p).map Prod.fst := by
    intro f hf hmem
    rw [map_fst_responderWrites] at hmem
    have hall : ∀ f ∈ [rgid, rmac], f ∉ [logRraMax, rre, rwe, atomicMode, rae] := by decide
    exact hall f hf (mem_responderWritten hmem)
  refine
    { serviceType := hread _ _ (by simp [rtrWrites]) (by decide)
      pmState := hread _ _ (by simp [rtrWrites]) (by decide)
      pathMtu := hread mtu _ (by simp [rtrWrites]) hfits.pathMtu
      logMaxMsg := hread _ _ (by simp [rtrWrites]) hfits.logMaxMsg
      destQpn := hread remoteQpn _ (by simp [rtrWrites]) hfits.destQpn
      minRnrTimer := hread _ _ (by simp [rtrWrites]) hfits.minRnrTimer
      rqPsn := hread nextRcvPsn _ (by simp [rtrWrites]) hfits.rqPsn
      pkeyIndex := hread _ _ (by simp [rtrWrites]) path.pkeyIndex.isLt
      sgidIndex := hread _ _ (by simp [rtrWrites]) hsgid
      hopLimit := hread _ _ (by simp [rtrWrites]) (usedHopLimit_holds path)
      trafficClass := hread tclass _ (by simp [rtrWrites]) path.trafficClass.isLt
      dscp := hread QpcField.dscp _ (by simp [rtrWrites]) ?_
      udpSport := hread _ _ (by simp [rtrWrites]) path.udpSport.isLt
      sl := hread ethPrio _ (by simp [rtrWrites]) hsl
      portNum := hread _ _ (by simp [rtrWrites]) path.portNum.isLt
      dgid := ?_
      dmac := ?_
      maxDestRdAtomic := fun hzero => ⟨?_, ?_, ?_⟩
      atomicMode := fun hzero hmode => ⟨?_, ?_⟩
      noLimit := fun hzero f hf => ?_
      noAtomics := fun hnone f hf => ?_
      others := fun f hf => ?_ }
  · have hlt : path.trafficClass.toNat < 256 := path.trafficClass.isLt
    show path.trafficClass.toNat / 4 < 64
    omega
  · rw [bytes_puts_of_not_mem haddr (haddress _ (by decide)), rgid_addressed hbase]
  · rw [bytes_puts_of_not_mem haddr (haddress _ (by decide)), rmac_addressed hbase]
  · obtain ⟨heq, hlt⟩ := two_pow_mlxLog2PowerOfTwo hzero hvalid.2.2.2.2.2.1 hvalid.2.2.2.2.2.2.2.2.2
    rw [hlast logRraMax _ (by simp [responderWrites, hzero]) hlt, heq]
  · exact hlast _ _ (by simp [responderWrites, hzero]) (by decide)
  · exact hlast _ _ (by simp [responderWrites, hzero]) (by decide)
  · exact hlast _ _ (by simp [responderWrites, hzero, hmode]) hfits.atomicMode
  · exact hlast _ _ (by simp [responderWrites, hzero, hmode]) (by decide)
  · have hall : ∀ f ∈ [logRraMax, rre, rwe], f ∉ rtrWritten ∧ f ≠ rgid ∧ f ≠ rmac := by decide
    obtain ⟨hfirst, hgid, hmac⟩ := hall f hf
    refine hkept f hfirst ?_ hgid hmac
    rw [responderWritten, if_pos hzero]
    exact List.not_mem_nil
  · have hall : ∀ f ∈ [atomicMode, rae],
        f ∉ rtrWritten ∧ f ∉ [logRraMax, rre, rwe] ∧ f ≠ rgid ∧ f ≠ rmac := by decide
    obtain ⟨hfirst, hright, hgid, hmac⟩ := hall f hf
    refine hkept f hfirst (fun hmem => ?_) hgid hmac
    unfold responderWritten at hmem
    split_ifs at hmem with hzero hmode
    · cases hmem
    · rw [List.append_nil] at hmem
      exact hright hmem
    · exact hnone.elim hzero hmode
  · have hall : ∀ f ∈ [state, counterSetId, ackTimeout, logSraMax, retryCount, rnrRetry, nextSendPsn, cqnSnd,
        cqnRcv], f ∉ rtrWritten ∧ f ∉ [logRraMax, rre, rwe, atomicMode, rae] ∧ f ≠ rgid ∧ f ≠ rmac := by decide
    obtain ⟨hfirst, hright, hgid, hmac⟩ := hall f hf
    exact hkept f hfirst (fun hmem => hright (mem_responderWritten hmem)) hgid hmac

end InitRtr

/-! ## All three -/

/-- A context that an encoder filled says what was asked for, its fields stay apart, and what does not fit is
refused. A hop limit of zero is written as 64, the number of the counter set by its low byte, and a limit of zero
is not written. -/
theorem connection_read_back :
    (∀ (qpc out : List Byte) (pkey port service counter mask : ℕ),
      mlxEncodeRst2InitQpc qpc pkey port service counter = some (out, mask) →
        InitReadBack qpc out pkey port service counter) ∧
    (∀ (qpc out : List Byte) (path : MlxRocePathFields) (p : RtrParams) (mask : ℕ),
      mlxEncodeInit2RtrQpc qpc path p = some (out, mask) → RtrReadBack qpc out path p) ∧
    (∀ (qpc out : List Byte) (p : RtsParams) (mask : ℕ),
      mlxEncodeRtr2RtsQpc qpc p = some (out, mask) → RtsReadBack qpc out p) ∧
    (∀ f g : QpcField, f ≠ g → f.Apart g) ∧
    (∀ (qpc : List Byte) (pkey port service counter : ℕ),
      ¬(pkeyIndex.Holds pkey ∧ portNum.Holds port ∧ st.Holds service) →
        mlxEncodeRst2InitQpc qpc pkey port service counter = none) ∧
    (∀ (qpc : List Byte) (path : MlxRocePathFields) (p : RtrParams),
      ¬p.Fits path → mlxEncodeInit2RtrQpc qpc path p = none) ∧
    (∀ (qpc : List Byte) (p : RtsParams), ¬p.Fits → mlxEncodeRtr2RtsQpc qpc p = none) := by
  refine ⟨fun _ _ _ _ _ _ _ => initReadBack, fun _ _ _ _ _ => rtrReadBack, fun _ _ _ _ => rtsReadBack, apart,
    fun qpc pkey port service counter hnot => ?_, fun qpc path p hnot => ?_, fun qpc p hnot => ?_⟩
  · refine Option.eq_none_iff_forall_ne_some.mpr fun r h => hnot ?_
    obtain ⟨-, hpkey, hport, hservice, -⟩ := mlxEncodeRst2InitQpc_eq_some h
    exact ⟨hpkey, hport, hservice⟩
  · refine Option.eq_none_iff_forall_ne_some.mpr fun r h => hnot ?_
    obtain ⟨-, hvalid, hsgid, hsl, -⟩ := mlxEncodeInit2RtrQpc_eq_some h
    exact hvalid.fits hsgid hsl
  · refine Option.eq_none_iff_forall_ne_some.mpr fun r h => hnot ?_
    exact (mlxEncodeRtr2RtsQpc_eq_some h).2.1.fits

/-- A path without a hop limit. -/
def zeroHopPath : MlxRocePathFields := ⟨.zero 6, .zero 16, 3, 0#8, 104#8, 0xc000#16, 0#16, 1#8, 5#8⟩

theorem connection_read_back_rts :
    ∃ out mask, mlxEncodeRtr2RtsQpc (zeroBytes mlxQpcBytes) ⟨0xabcdef, 16, 14, 7, 6⟩ = some (out, mask) ∧
      (queryQp out).sqPsn = 0xabcdef ∧ 2 ^ logSraMax.read out = 16 ∧
      mlxEncodeRtr2RtsQpc (zeroBytes mlxQpcBytes) ⟨0x1000000, 16, 14, 7, 6⟩ = none := by
  obtain ⟨⟨out, mask⟩, henc⟩ := Option.isSome_iff_exists.mp
    (show (mlxEncodeRtr2RtsQpc (zeroBytes mlxQpcBytes) ⟨0xabcdef, 16, 14, 7, 6⟩).isSome by decide +kernel)
  obtain ⟨-, -, hrts, -, -, -, hrefused⟩ := connection_read_back
  have hread := hrts _ _ _ _ henc
  exact ⟨out, mask, henc, hread.sqPsn, hread.maxRdAtomic (by decide),
    hrefused _ _ fun hfits => absurd hfits.sqPsn (by decide)⟩

/-- What is accepted and not read back: a counter set with nine bits, no hop limit, atomics without a limit, and
limits of zero and one, which give one context. -/
theorem accepted_changed :
    (mlxEncodeRst2InitQpc (zeroBytes mlxQpcBytes) 0 1 0 256).map (fun r => counterSetId.read r.1) = some 0 ∧
    (mlxEncodeInit2RtrQpc (zeroBytes mlxQpcBytes) zeroHopPath ⟨5, 3, 9, 12, 0, 1, 30⟩).map
      (fun r => (hopLimit.read r.1, atomicMode.read r.1)) = some (64, 0) ∧
    (mlxEncodeRtr2RtsQpc (zeroBytes mlxQpcBytes) ⟨0, 0, 14, 7, 6⟩).isSome ∧
    mlxEncodeRtr2RtsQpc (zeroBytes mlxQpcBytes) ⟨0, 0, 14, 7, 6⟩ =
      mlxEncodeRtr2RtsQpc (zeroBytes mlxQpcBytes) ⟨0, 1, 14, 7, 6⟩ :=
  ⟨by decide +kernel, by decide +kernel, by decide +kernel, by decide +kernel⟩

end MelonDMA.Hw
