import MelonDMA.Hw.QpcEncoding
import MelonDMA.Ib.QpCounters

/-!
# The states of a pair

`MlxQP::ModifyQP` as a whole: the checks of a request, the context that the command carries, the answers of the
firmware, and what the pair records of the request. Error entries and `MlxQP::ResetQP` move the pair as well.

* A request names its states by number, and its other fields are numbers of 32 bits.
* The words that a log prints are left out, and so is the clearing of the rings.
* The device answers each command as it likes.
-/

namespace MelonDMA.Ib

open MelonDMA.Lib MelonDMA.Core MelonDMA.Hw

namespace QpModify

/-! ## Numbers -/

/-- Source: `MLX_QP_STATE_*`. -/
def number : QpState → ℕ
  | .rst => 0
  | .init => 1
  | .rtr => 2
  | .rts => 3
  | .sqer => 4
  | .sqd => 5
  | .err => 6

lemma number_injective {s t : QpState} (h : number s = number t) : s = t := by
  cases s <;> cases t <;> first | rfl | cases h

/-- Source: `MLX_QP_ST_*`. -/
def serviceNumber : ServiceType → ℕ
  | .rc => 0
  | .uc => 1
  | .ud => 2

/-- The commands that move a pair. Source: `MLX_CMD_OP_*`. -/
inductive Transition
  | rst2Init
  | init2Rtr
  | rtr2Rts
  | toErr
  | toRst
  deriving DecidableEq, Repr

namespace Transition

/-- The number of the command. -/
def opcode : Transition → ℕ
  | rst2Init => 0x502
  | init2Rtr => 0x503
  | rtr2Rts => 0x504
  | toErr => 0x507
  | toRst => 0x50a

/-- The state that the command leads to. -/
def target : Transition → QpState
  | rst2Init => .init
  | init2Rtr => .rtr
  | rtr2Rts => .rts
  | toErr => .err
  | toRst => .rst

end Transition

/-- Source: the switch of `MlxQP::ModifyQP`. -/
def transition (cur : QpState) (newState : ℕ) : Except KernReturn Transition :=
  match cur with
  | .rst => if newState = number .init then .ok .rst2Init else .error .notPermitted
  | .init => if newState = number .rtr then .ok .init2Rtr else .error .notPermitted
  | .rtr => if newState = number .rts then .ok .rtr2Rts else .error .notPermitted
  | _ =>
      if newState = number .err then .ok .toErr
      else if newState = number .rst then .ok .toRst
      else .error .unsupported

/-! ## Requests and answers -/

/-- Source: `mlx_modify_qp_req`. -/
structure Request where
  curState : ℕ
  newState : ℕ
  destQpn : ℕ := 0
  pathMtu : ℕ := 0
  rqPsn : ℕ := 0
  sqPsn : ℕ := 0
  pkeyIndex : ℕ := 0
  portNum : ℕ := 0
  ahDmac : Block 6 := .zero 6
  ahDgid : Block 16 := .zero 16
  ahSgidIndex : ℕ := 0
  ahHopLimit : BitVec 8 := 0
  ahTrafficClass : BitVec 8 := 0
  ahUdpSport : BitVec 16 := 0
  minRnrTimer : ℕ := 0
  maxDestRdAtomic : ℕ := 0
  maxRdAtomic : ℕ := 0
  ackTimeout : ℕ := 0
  retryCount : ℕ := 0
  rnrRetry : ℕ := 0
  sl : ℕ := 0
  qkey : ℕ := 0

/-- How a command ends, with what `LastFwStatus` and `LastSyndrome` say then. -/
structure FwAnswer where
  kr : KernReturn
  status : ℕ := 0
  syndrome : ℕ := 0

/-- What a request finds in the rest of the driver, and how the device answers it. -/
structure Env where
  /-- `MlxGID::IsProgrammed`. -/
  isProgrammed : ℕ → Bool := fun _ => true
  /-- The capabilities `roceMinSrcUdpPort`, `atomicMode` and `logMaxMsg`. -/
  roceMinSrcUdpPort : ℕ := 0
  atomicMode : ℕ := 0
  logMaxMsg : ℕ := 30
  /-- `QCounterSet`. -/
  qCounterSet : ℕ := 0
  /-- `Exec` of the command that is tried as number `v`, on its input. -/
  exec : ℕ → List Byte → FwAnswer
  /-- `QUERY_QP`: how it ends, and the context it answers with. -/
  query : KernReturn × List Byte

/-- A queue pair with what it records of its requests. Source: `MlxQPContext`. -/
structure Context extends QpContext where
  /-- For a datagram pair: the key that a receiver must match. -/
  qkey : ℕ := 0
  lastFwStatus : ℕ := 0
  lastFwSyndrome : ℕ := 0
  udMaskTried : ℕ := 0
  udMaskUsed : ℕ := 0
  ahDmac : Block 6 := .zero 6
  ahDgid : Block 16 := .zero 16
  ahSgidIndex : ℕ := 0
  ahHopLimit : BitVec 8 := 0
  ahTrafficClass : BitVec 8 := 0
  ahUdpSport : BitVec 16 := 0
  pkeyIndex : BitVec 16 := 0
  portNum : BitVec 8 := 0
  destQpn : ℕ := 0
  rqPsn : ℕ := 0
  sqPsn : ℕ := 0

/-! ## The path of a request -/

/-- Source: `mlxQpBytesAreZero`. -/
def mlxQpBytesAreZero (bytes : List Byte) : Bool := bytes.all (· = 0#8)

/-- Source: `mlxQpIsIpv4Mapped`. -/
def mlxQpIsIpv4Mapped (gid : List Byte) : Bool :=
  (gid.take 10).all (· = 0#8) && gid.getD 10 0#8 = 0xff#8 && gid.getD 11 0#8 = 0xff#8

/-- Source: `mlxQpStandardUdpSport`. -/
def mlxQpStandardUdpSport (localQpn remoteQpn : ℕ) : BitVec 16 :=
  let value := localQpn * remoteQpn % 2 ^ 64
  let value := value ^^^ (value / 2 ^ 20)
  let value := value ^^^ (value / 2 ^ 40)
  let flowLabel := value % 2 ^ 20
  let low := flowLabel &&& 0x3fff
  let high := flowLabel &&& 0xfc000
  BitVec.ofNat 16 ((low ^^^ (high / 2 ^ 14)) ||| 0xc000)

/-- The checks of `INIT2RTR` for a connected pair. -/
def pathAccepted (env : Env) (req : Request) : Bool :=
  let minUdpSport := max env.roceMinSrcUdpPort 0xc000
  let dgid := req.ahDgid.bytes
  env.isProgrammed req.ahSgidIndex && !mlxQpBytesAreZero dgid && dgid.getD 0 0#8 != 0xff#8 &&
    !(mlxQpIsIpv4Mapped dgid && (dgid.getD 12 0#8 = 0#8 || 224 ≤ (dgid.getD 12 0#8).toNat)) &&
    !mlxQpBytesAreZero req.ahDmac.bytes && !(req.ahDmac.bytes.getD 0 0#8).getLsbD 0 &&
    !(req.ahUdpSport != 0#16 && req.ahUdpSport.toNat < minUdpSport) && req.sl ≤ 7

/-- The path of the command. -/
def pathOf (ctx : Context) (req : Request) : MlxRocePathFields where
  dmac := req.ahDmac
  dgid := req.ahDgid
  sgidIndex := req.ahSgidIndex
  hopLimit := req.ahHopLimit
  trafficClass := req.ahTrafficClass
  udpSport := if req.ahUdpSport ≠ 0#16 then req.ahUdpSport else mlxQpStandardUdpSport ctx.qpNum req.destQpn
  pkeyIndex := ctx.pkeyIndex
  portNum := ctx.portNum
  sl := BitVec.ofNat 8 req.sl

/-! ## The command -/

/-- Source: `MLX_QP_MODIFY_IN_BYTES`, around the context at `MLX_QPC_BIT_OFFSET`. -/
def modifyInput (t : Transition) (qpn optParamMask : ℕ) (qpc : List Byte) : List Byte :=
  writeFields (zeroBytes (0xc0 / 8) ++ qpc ++ zeroBytes (0x880 / 8 - 0xc0 / 8 - mlxQpcBytes))
    [⟨0x00, 16, t.opcode⟩, ⟨0x48, 24, qpn⟩, ⟨0x80, 32, optParamMask⟩]

/-- Source: `kIOReturnNotAligned`. -/
def notAligned : KernReturn := .other 0xe00002d0

/-- Source: `kIOReturnBadMedia`. -/
def badMedia : KernReturn := .other 0xe00002d1

/-- What an encoder answers, as a code. -/
def encoded (out : Option (List Byte × ℕ)) : Except KernReturn (List Byte × ℕ) :=
  match out with
  | some r => .ok r
  | none => .error .badArgument

/-- The context of `RST2INIT`, and its mask. -/
def encodeRst2Init (env : Env) (ctx : Context) (req : Request) : Except KernReturn (List Byte × ℕ) :=
  if req.portNum = 0 ∨ 0xff < req.portNum then .error notAligned
  else if 0xffff < req.pkeyIndex then .error badMedia
  else
    encoded <| (mlxEncodeRst2InitQpc (zeroBytes mlxQpcBytes) req.pkeyIndex req.portNum (serviceNumber ctx.st)
      env.qCounterSet).map fun r =>
        if ctx.st = .ud then (writeFields r.1 [⟨0x540, 32, req.qkey⟩], r.2) else r

/-- The context of `INIT2RTR`, and its mask. -/
def encodeInit2Rtr (env : Env) (ctx : Context) (req : Request) : Except KernReturn (List Byte × ℕ) :=
  if ctx.st = .ud then
    .ok (writeFields (zeroBytes mlxQpcBytes) [⟨0x08, 8, serviceNumber ctx.st⟩, ⟨0x13, 2, 3⟩], 0)
  else if pathAccepted env req = false then .error .badArgument
  else
    let uc : Bool := ctx.st = .uc
    encoded <| (mlxEncodeInit2RtrQpc (zeroBytes mlxQpcBytes) (pathOf ctx req)
      { destQpn := req.destQpn, pathMtu := req.pathMtu, rqPsn := req.rqPsn
        minRnrTimer := if uc = true then 0 else req.minRnrTimer
        maxDestRdAtomic := if uc = true then 0 else req.maxDestRdAtomic
        atomicMode := if uc = true then 0 else env.atomicMode
        logMaxMsg := env.logMaxMsg }).map fun r =>
          if uc = true then
            (writeFields r.1 [⟨0x08, 8, serviceNumber .uc⟩, ⟨0x488, 3, 0⟩, ⟨0x48c, 4, 0⟩, ⟨0x490, 1, 0⟩,
              ⟨0x492, 1, 0⟩, ⟨0x491, 1, 1⟩], optparRwe)
          else r

/-- The context of `RTR2RTS`, and its mask. -/
def encodeRtr2Rts (ctx : Context) (req : Request) : Except KernReturn (List Byte × ℕ) :=
  if ctx.st = .ud then
    .ok (writeFields (zeroBytes mlxQpcBytes)
      [⟨0x08, 8, serviceNumber ctx.st⟩, ⟨0x13, 2, 3⟩, ⟨0x3c8, 24, req.sqPsn⟩], 0)
  else
    let uc : Bool := ctx.st = .uc
    encoded <| (mlxEncodeRtr2RtsQpc (zeroBytes mlxQpcBytes)
      { sqPsn := req.sqPsn
        maxRdAtomic := if uc = true then 0 else req.maxRdAtomic
        ackTimeout := if uc = true then 0 else req.ackTimeout
        retryCount := if uc = true then 0 else req.retryCount
        rnrRetry := if uc = true then 0 else req.rnrRetry }).map fun r =>
          if uc = true then (writeFields r.1 [⟨0x08, 8, serviceNumber .uc⟩, ⟨0x491, 1, 1⟩], r.2) else r

/-- The context of a command, and its mask. -/
def encode (env : Env) (ctx : Context) (req : Request) : Transition → Except KernReturn (List Byte × ℕ)
  | .rst2Init => encodeRst2Init env ctx req
  | .init2Rtr => encodeInit2Rtr env ctx req
  | .rtr2Rts => encodeRtr2Rts ctx req
  | .toErr => .ok (zeroBytes mlxQpcBytes, 0)
  | .toRst => .ok (zeroBytes mlxQpcBytes, 0)

/-! ## A request -/

/-- Keep why the firmware refused. -/
def Context.noteRefusal (ctx : Context) (a : FwAnswer) : Context :=
  { ctx with lastFwStatus := a.status, lastFwSyndrome := a.syndrome }

/-- What a pair records of a request that was carried out. -/
def Context.record (ctx : Context) (req : Request) : Transition → Context
  | .rst2Init =>
      { ctx with pkeyIndex := BitVec.ofNat 16 req.pkeyIndex, portNum := BitVec.ofNat 8 req.portNum }
  | .init2Rtr =>
      { ctx with
        ahDmac := req.ahDmac, ahDgid := req.ahDgid, ahSgidIndex := req.ahSgidIndex
        ahHopLimit := req.ahHopLimit, ahTrafficClass := req.ahTrafficClass, ahUdpSport := req.ahUdpSport
        destQpn := req.destQpn, rqPsn := req.rqPsn }
  | .rtr2Rts => { ctx with sqPsn := req.sqPsn }
  | .toErr => ctx
  | .toRst => { ctx with toQpContext := ctx.toQpContext.resetCounters }

/-- Source: `MLX_QP_OPTPAR_Q_KEY`, `MLX_QP_OPTPAR_PKEY_INDEX`, `MLX_QP_OPTPAR_PRI_PORT`. -/
def optparQKey : ℕ := 2 ^ 5
def optparPkeyIndex : ℕ := 2 ^ 4
def optparPriPort : ℕ := 2 ^ 16

/-- Source: `masks`. -/
def udMasks : List ℕ :=
  [optparQKey, 0, optparQKey ||| optparPkeyIndex ||| optparPriPort, optparPkeyIndex ||| optparPriPort]

/-- Try the masks from number `v` on. -/
def udWalk (env : Env) (qpc : List Byte) : ℕ → List ℕ → Context → Context × KernReturn
  | _, [], ctx => (ctx, .badArgument)
  | v, mask :: masks, ctx =>
      let a := env.exec v (modifyInput .rst2Init ctx.qpNum mask qpc)
      if a.kr = .success then
        ({ ctx with udMaskUsed := mask, udMaskTried := v + 1, state := .init }, .success)
      else udWalk env qpc (v + 1) masks { ctx.noteRefusal a with udMaskTried := v + 1 }

/-- Issue the command, and believe it when the device says that the pair has moved. -/
def issue (env : Env) (ctx : Context) (req : Request) (t : Transition) (qpc : List Byte) (mask : ℕ) :
    Context × KernReturn :=
  let a := env.exec 0 (modifyInput t ctx.qpNum mask qpc)
  if a.kr ≠ .success then (ctx.noteRefusal a, a.kr)
  else if env.query.1 ≠ .success then (ctx, env.query.1)
  else if (queryQp env.query.2).state ≠ req.newState then (ctx, .ioError)
  else ({ ctx.record req t with state := t.target }, .success)

/-- Source: `MlxQP::ModifyQP`. -/
def modifyQp (env : Env) (ctx : Context) (req : Request) : Context × KernReturn :=
  if number ctx.state ≠ req.curState then (ctx, .notPermitted)
  else
    match transition ctx.state req.newState with
    | .error kr => (ctx, kr)
    | .ok t =>
        match encode env ctx req t with
        | .error kr => (ctx, kr)
        | .ok (qpc, mask) =>
            if t = .rst2Init ∧ ctx.st = .ud then
              udWalk env qpc 0 udMasks { ctx with qkey := req.qkey, udMaskTried := 0 }
            else issue env ctx req t qpc mask

/-! ## Operations -/

/-- What moves a pair: a request, an entry of its completion queue, and a reset that the driver asks for itself
when it takes the pair down. -/
inductive Op
  | modify (env : Env) (req : Request)
  | completeCqe (cqe : Cqe) (shadow : Option QpContext.Shadow) (resultAt : ℕ → Option ℕ)
  | resetQp (kr : KernReturn)

/-- The pair after an operation. -/
def Context.after (ctx : Context) : Op → Context
  | .modify env req => (modifyQp env ctx req).1
  | .completeCqe cqe shadow resultAt =>
      { ctx with toQpContext := (ctx.toQpContext.completeCqe cqe shadow resultAt).1 }
  | .resetQp kr => { ctx with toQpContext := (ctx.toQpContext.resetQp kr).1 }

/-- One operation. -/
def step (ctx : Context) (op : Op) : Option Context := some (ctx.after op)

/-! ## What a pair records -/

/-- The path and the sequence numbers. -/
structure Recorded where
  ahDmac : Block 6
  ahDgid : Block 16
  ahSgidIndex : ℕ
  ahHopLimit : BitVec 8
  ahTrafficClass : BitVec 8
  ahUdpSport : BitVec 16
  pkeyIndex : BitVec 16
  portNum : BitVec 8
  destQpn : ℕ
  rqPsn : ℕ
  sqPsn : ℕ

/-- What the pair has recorded. -/
def Context.recorded (ctx : Context) : Recorded :=
  ⟨ctx.ahDmac, ctx.ahDgid, ctx.ahSgidIndex, ctx.ahHopLimit, ctx.ahTrafficClass, ctx.ahUdpSport, ctx.pkeyIndex,
    ctx.portNum, ctx.destQpn, ctx.rqPsn, ctx.sqPsn⟩

/-- The context is as it was, up to what was noted of a refusal. -/
structure Unchanged (s s' : Context) : Prop where
  context : s'.toQpContext = s.toQpContext
  recorded : s'.recorded = s.recorded
  qkey : s'.qkey = s.qkey

/-- A datagram pair that leaves its first state. -/
def LeavesReset (s : Context) : Prop := s.state = .rst ∧ s.st = .ud

instance (s : Context) : Decidable (LeavesReset s) := inferInstanceAs (Decidable (_ ∧ _))

/-! ## The edges -/

/-- The edges that requests follow. -/
inductive Edge : QpState → QpState → Prop
  | rstInit : Edge .rst .init
  | initRtr : Edge .init .rtr
  | rtrRts : Edge .rtr .rts
  | rtsErr : Edge .rts .err
  | rtsRst : Edge .rts .rst
  | errErr : Edge .err .err
  | errRst : Edge .err .rst

/-- The firmware accepted the command of the request. -/
def Accepted (env : Env) (s : Context) (req : Request) (t : Transition) : Prop :=
  ∃ qpc mask, encode env s req t = .ok (qpc, mask) ∧
    ∃ v mask', (mask' = mask ∨ LeavesReset s) ∧
      (env.exec v (modifyInput t s.qpNum mask' qpc)).kr = .success

/-- The device says that the pair is in the state asked for. -/
def Confirmed (env : Env) (req : Request) : Prop :=
  env.query.1 = .success ∧ (queryQp env.query.2).state = req.newState

/-- A request that was carried out. -/
structure CarriedOut (env : Env) (s s' : Context) (req : Request) : Prop where
  current : number s.state = req.curState
  requested : number s'.state = req.newState
  edge : Edge s.state s'.state
  accepted : ∃ t : Transition, s'.state = t.target ∧ Accepted env s req t
  confirmed : ¬LeavesReset s → Confirmed env req

/-- A request that failed. -/
structure Refused (s s' : Context) : Prop where
  state : s'.state = s.state
  recorded : s'.recorded = s.recorded
  qkey : ¬LeavesReset s → s'.qkey = s.qkey

/-! ## One request -/

section Request

variable {env : Env} {s : Context} {req : Request} {t : Transition} {qpc : List Byte} {mask : ℕ}

lemma Unchanged.refl (s : Context) : Unchanged s s := ⟨rfl, rfl, rfl⟩

lemma Unchanged.trans {s₁ s₂ s₃ : Context} (h : Unchanged s₁ s₂) (h' : Unchanged s₂ s₃) : Unchanged s₁ s₃ :=
  ⟨h'.context.trans h.context, h'.recorded.trans h.recorded, h'.qkey.trans h.qkey⟩

lemma unchanged_noteRefusal (s : Context) (a : FwAnswer) : Unchanged s (s.noteRefusal a) := ⟨rfl, rfl, rfl⟩

/-- The masks are tried until one is accepted. -/
lemma udWalk_outcome (env : Env) (qpc : List Byte) (masks : List ℕ) (v : ℕ) (s : Context) :
    ((udWalk env qpc v masks s).2 = .success ∧ (udWalk env qpc v masks s).1.state = .init ∧
        ∃ v' mask, (env.exec v' (modifyInput .rst2Init s.qpNum mask qpc)).kr = .success) ∨
      ((udWalk env qpc v masks s).2 = .badArgument ∧ Unchanged s (udWalk env qpc v masks s).1) := by
  induction masks generalizing v s with
  | nil => exact .inr ⟨rfl, .refl s⟩
  | cons mask masks ih =>
      rw [udWalk]
      by_cases hok : (env.exec v (modifyInput .rst2Init s.qpNum mask qpc)).kr = .success
      · rw [if_pos hok]
        exact .inl ⟨rfl, rfl, v, mask, hok⟩
      · rw [if_neg hok]
        have hnote : Unchanged s
            { s.noteRefusal (env.exec v (modifyInput .rst2Init s.qpNum mask qpc)) with udMaskTried := v + 1 } :=
          ⟨rfl, rfl, rfl⟩
        rcases ih (v + 1) { s.noteRefusal (env.exec v (modifyInput .rst2Init s.qpNum mask qpc)) with
          udMaskTried := v + 1 } with hdone | ⟨hkr, hsame⟩
        · exact .inl hdone
        · exact .inr ⟨hkr, hnote.trans hsame⟩

/-- A command is believed when the device says so. -/
lemma issue_outcome (env : Env) (s : Context) (req : Request) (t : Transition) (qpc : List Byte) (mask : ℕ) :
    ((issue env s req t qpc mask).2 = .success ∧ (issue env s req t qpc mask).1.state = t.target ∧
        (env.exec 0 (modifyInput t s.qpNum mask qpc)).kr = .success ∧ Confirmed env req) ∨
      ((issue env s req t qpc mask).2 ≠ .success ∧ Unchanged s (issue env s req t qpc mask).1) := by
  unfold issue
  dsimp only
  split_ifs with hexec hquery hstate
  · exact .inr ⟨hexec, unchanged_noteRefusal s _⟩
  · exact .inr ⟨hquery, .refl s⟩
  · exact .inr ⟨KernReturn.noConfusion, .refl s⟩
  · exact .inl ⟨rfl, rfl, not_not.mp hexec, not_not.mp hquery, not_not.mp hstate⟩

/-- The state that a request asks for is the one its command leads to. -/
lemma number_target (h : transition s.state req.newState = .ok t) : number t.target = req.newState := by
  unfold transition at h
  split at h
  · split_ifs at h with hnew
    cases h
    exact hnew.symm
  · split_ifs at h with hnew
    cases h
    exact hnew.symm
  · split_ifs at h with hnew
    cases h
    exact hnew.symm
  · split_ifs at h with herr hrst <;> cases h
    · exact herr.symm
    · exact hrst.symm

/-- The command follows an edge, from a state that the driver uses. -/
lemma edge_of_transition (husual : s.state ≠ .sqer ∧ s.state ≠ .sqd)
    (h : transition s.state req.newState = .ok t) : Edge s.state t.target := by
  obtain ⟨hsqer, hsqd⟩ := husual
  unfold transition at h
  cases hstate : s.state <;> rw [hstate] at h <;> dsimp only at h <;> split_ifs at h <;> cases h
  · exact .rstInit
  · exact .initRtr
  · exact .rtrRts
  · exact .rtsErr
  · exact .rtsRst
  · exact absurd hstate hsqer
  · exact absurd hstate hsqer
  · exact absurd hstate hsqd
  · exact absurd hstate hsqd
  · exact .errErr
  · exact .errRst

lemma Unchanged.refused {s s' : Context} (h : Unchanged s s') : Refused s s' :=
  ⟨congrArg QpContext.state h.context, h.recorded, fun _ => h.qkey⟩

/-- No check and no encoder refuses with the code of success. -/
lemma encode_ne_success {kr : KernReturn} (h : encode env s req t = .error kr) : kr ≠ .success := by
  have hencoded : ∀ {out : Option (List Byte × ℕ)}, encoded out = .error kr → kr ≠ .success := by
    intro out hout
    cases out with
    | none =>
        obtain rfl := Except.error.inj hout
        decide
    | some r => cases hout
  cases t with
  | rst2Init =>
      rw [encode, encodeRst2Init] at h
      split_ifs at h
      · obtain rfl := Except.error.inj h
        decide
      · obtain rfl := Except.error.inj h
        decide
      · exact hencoded h
      · exact hencoded h
  | init2Rtr =>
      rw [encode, encodeInit2Rtr] at h
      split_ifs at h
      · obtain rfl := Except.error.inj h
        decide
      · exact hencoded h
  | rtr2Rts =>
      rw [encode, encodeRtr2Rts] at h
      split_ifs at h
      exact hencoded h
  | toErr => cases h
  | toRst => cases h

/-- A request is refused before a command is issued, or its command is tried. -/
lemma modifyQp_cases (env : Env) (s : Context) (req : Request) :
    (∃ kr, kr ≠ .success ∧ modifyQp env s req = (s, kr)) ∨
      ∃ t qpc mask, number s.state = req.curState ∧ transition s.state req.newState = .ok t ∧
        encode env s req t = .ok (qpc, mask) ∧
        modifyQp env s req =
          if t = .rst2Init ∧ s.st = .ud then
            udWalk env qpc 0 udMasks { s with qkey := req.qkey, udMaskTried := 0 }
          else issue env s req t qpc mask := by
  unfold modifyQp
  by_cases hcur : number s.state ≠ req.curState
  · rw [if_pos hcur]
    exact .inl ⟨.notPermitted, KernReturn.noConfusion, rfl⟩
  rw [if_neg hcur]
  cases htrans : transition s.state req.newState with
  | error kr =>
      refine .inl ⟨kr, ?_, rfl⟩
      unfold transition at htrans
      split at htrans <;> split_ifs at htrans <;> cases htrans <;> exact KernReturn.noConfusion
  | ok t =>
      dsimp only
      cases hencode : encode env s req t with
      | error kr => exact .inl ⟨kr, encode_ne_success hencode, rfl⟩
      | ok out => exact .inr ⟨t, out.1, out.2, not_not.mp hcur, rfl, hencode, rfl⟩

/-- What becomes of a request. -/
theorem modifyQp_outcome (husual : s.state ≠ .sqer ∧ s.state ≠ .sqd) (env : Env) (req : Request) :
    ((modifyQp env s req).2 = .success ∧ CarriedOut env s (modifyQp env s req).1 req) ∨
      ((modifyQp env s req).2 ≠ .success ∧ Refused s (modifyQp env s req).1) := by
  rcases modifyQp_cases env s req with ⟨kr, hkr, heq⟩ | ⟨t, qpc, mask, hcur, htrans, hencode, heq⟩
  · rw [heq]
    exact .inr ⟨hkr, (Unchanged.refl s).refused⟩
  have hedge := edge_of_transition husual htrans
  have htarget := number_target htrans
  rw [heq]
  by_cases hleaves : t = .rst2Init ∧ s.st = .ud
  · -- A datagram pair: the key is recorded before any mask is tried.
    rw [if_pos hleaves]
    have hreset : LeavesReset s := by
      refine ⟨?_, hleaves.2⟩
      rw [hleaves.1] at hedge
      generalize s.state = old at hedge
      cases hedge
      rfl
    rcases udWalk_outcome env qpc udMasks 0 { s with qkey := req.qkey, udMaskTried := 0 } with
      ⟨hkr, hinit, v, mask', hexec⟩ | ⟨hkr, hkept⟩
    · rw [hleaves.1] at htarget hedge hencode
      refine .inl ⟨hkr, hcur, by rw [hinit]; exact htarget, by rw [hinit]; exact hedge, ?_,
        fun hnot => absurd hreset hnot⟩
      exact ⟨.rst2Init, hinit, qpc, mask, hencode, v, mask', .inr hreset, hexec⟩
    · exact .inr ⟨by rw [hkr]; exact KernReturn.noConfusion, congrArg QpContext.state hkept.context,
        hkept.recorded, fun hnot => absurd hreset hnot⟩
  · rw [if_neg hleaves]
    rcases issue_outcome env s req t qpc mask with ⟨hkr, hstate, hexec, hconfirmed⟩ | ⟨hkr, hkept⟩
    · refine .inl ⟨hkr, hcur, by rw [hstate]; exact htarget, by rw [hstate]; exact hedge, ?_,
        fun _ => hconfirmed⟩
      exact ⟨t, hstate, qpc, mask, hencode, 0, mask, .inl rfl, hexec⟩
    · exact .inr ⟨hkr, hkept.refused⟩

end Request

/-! ## The counters

A request of this module does to the counters what `QpContext.modifyQp` says. -/

section Counters

variable {env : Env} {s : Context} {req : Request} {t : Transition} {qpc : List Byte} {mask : ℕ}

/-- What the switch lets through. -/
lemma transition_number (cur new : QpState) : transition cur (number new) =
    match QpContext.transitionAllowed cur new with
    | some kr => .error kr
    | none => .ok (match new with
        | .init => .rst2Init
        | .rtr => .init2Rtr
        | .rts => .rtr2Rts
        | .err => .toErr
        | _ => .toRst) := by
  cases cur <;> cases new <;> rfl

lemma target_of_transition {cur new : QpState} {t : Transition} (h : transition cur (number new) = .ok t) :
    t.target = new ∧ QpContext.transitionAllowed cur new = none := by
  rw [transition_number] at h
  cases cur <;> cases new <;> cases h <;> exact ⟨rfl, rfl⟩

/-- The context without its records, after a command that was carried out. -/
lemma toQpContext_record (s : Context) (req : Request) (t : Transition) : (s.record req t).toQpContext =
    if t.target = .rst then s.toQpContext.resetCounters else s.toQpContext := by
  cases t <;> rfl

lemma toQpContext_udWalk (env : Env) (qpc : List Byte) (masks : List ℕ) (v : ℕ) (s : Context) :
    (udWalk env qpc v masks s).1.toQpContext =
      if (udWalk env qpc v masks s).2 = .success then { s.toQpContext with state := .init }
      else s.toQpContext := by
  induction masks generalizing v s with
  | nil => rfl
  | cons mask masks ih =>
      rw [udWalk]
      by_cases hok : (env.exec v (modifyInput .rst2Init s.qpNum mask qpc)).kr = .success
      · rw [if_pos hok]
        rfl
      · rw [if_neg hok]
        exact ih (v + 1) _

lemma rst2Init_iff {cur : QpState} {n : ℕ} {t : Transition} (h : transition cur n = .ok t) :
    t = .rst2Init ↔ cur = .rst := by
  unfold transition at h
  cases cur <;> dsimp only at h <;> split_ifs at h <;> cases h <;> decide

/-- What the device says of a pair, as a state. -/
def seenState (env : Env) (new : QpState) : QpState :=
  if (queryQp env.query.2).state = number new then new else if new = .rst then .err else .rst

lemma seenState_eq_iff (env : Env) (new : QpState) :
    seenState env new = new ↔ (queryQp env.query.2).state = number new := by
  unfold seenState
  constructor
  · intro h
    by_contra hother
    rw [if_neg hother] at h
    cases new <;> cases h
  · intro h
    rw [if_pos h]

/-- The walk of a datagram pair, as the context sees it. -/
lemma toQpContext_leaves (hcur : s.state = .rst) (hst : s.st = .ud) (qpc : List Byte) {r : QpContext.ModifyRequest}
    (hr : r = ⟨.rst, .init, none, (udWalk env qpc 0 udMasks
      { s with qkey := req.qkey, udMaskTried := 0 }).2, .ok .init⟩) :
    ((udWalk env qpc 0 udMasks { s with qkey := req.qkey, udMaskTried := 0 }).1.toQpContext,
      (udWalk env qpc 0 udMasks { s with qkey := req.qkey, udMaskTried := 0 }).2) = s.toQpContext.modifyQp r := by
  subst hr
  have hallowed : QpContext.transitionAllowed s.state .init = none := by
    rw [hcur]
    rfl
  unfold QpContext.modifyQp
  rw [if_neg (not_not.mpr hcur), hallowed]
  dsimp only
  rw [if_pos ⟨hcur, hst⟩, toQpContext_udWalk]
  rcases udWalk_outcome env qpc udMasks 0 { s with qkey := req.qkey, udMaskTried := 0 } with
    ⟨hkr, -⟩ | ⟨hkr, -⟩
  · rw [hkr, if_pos rfl, if_pos rfl]
  · rw [hkr, if_neg KernReturn.noConfusion, if_neg KernReturn.noConfusion]

/-- A command of another pair, as the context sees it. -/
lemma toQpContext_issue {new : QpState} (hnew : req.newState = number new) (htarget : t.target = new)
    (hallowed : QpContext.transitionAllowed s.state new = none) (hleaves : ¬(s.state = .rst ∧ s.st = .ud))
    {r : QpContext.ModifyRequest}
    (hr : r = ⟨s.state, new, none, (env.exec 0 (modifyInput t s.qpNum mask qpc)).kr,
      if env.query.1 ≠ .success then .error env.query.1 else .ok (seenState env new)⟩) :
    ((issue env s req t qpc mask).1.toQpContext, (issue env s req t qpc mask).2) = s.toQpContext.modifyQp r := by
  subst hr
  unfold QpContext.modifyQp issue
  rw [if_neg (not_not.mpr rfl), hallowed]
  dsimp only
  rw [if_neg hleaves, hnew]
  by_cases hexec : (env.exec 0 (modifyInput t s.qpNum mask qpc)).kr ≠ .success
  · rw [if_pos hexec, if_pos hexec]
    rfl
  rw [if_neg hexec, if_neg hexec]
  by_cases hquery : env.query.1 ≠ .success
  · rw [if_pos hquery, if_pos hquery]
  rw [if_neg hquery, if_neg hquery]
  dsimp only
  by_cases hseen : (queryQp env.query.2).state = number new
  · rw [if_neg (not_not.mpr hseen), if_neg (not_not.mpr ((seenState_eq_iff env new).mpr hseen)), toQpContext_record,
      htarget]
    split_ifs <;> rfl
  · rw [if_pos hseen, if_pos fun h => hseen ((seenState_eq_iff env new).mp h)]

/-- A request between states that have names is, for the context, one of the requests of `QpContext.modifyQp`. -/
theorem toQpContext_modifyQp (env : Env) (s : Context) (req : Request) {cur new : QpState}
    (hcur : req.curState = number cur) (hnew : req.newState = number new) :
    ∃ r : QpContext.ModifyRequest, r.curState = cur ∧ r.newState = new ∧
      ((modifyQp env s req).1.toQpContext, (modifyQp env s req).2) = s.toQpContext.modifyQp r := by
  unfold modifyQp
  rw [hcur]
  by_cases hstate : s.state = cur
  swap
  · refine ⟨⟨cur, new, none, .success, .ok new⟩, rfl, rfl, ?_⟩
    rw [if_pos fun h => hstate (number_injective h), QpContext.modifyQp, if_pos hstate]
  rw [if_neg (not_not.mpr (congrArg number hstate)), hnew]
  cases htrans : transition s.state (number new) with
  | error kr =>
      refine ⟨⟨cur, new, none, .success, .ok new⟩, rfl, rfl, ?_⟩
      rw [QpContext.modifyQp, if_neg (not_not.mpr hstate)]
      rw [transition_number] at htrans
      cases hallowed : QpContext.transitionAllowed s.state new with
      | some kr' =>
          rw [hallowed] at htrans
          cases htrans
          rfl
      | none =>
          rw [hallowed] at htrans
          cases htrans
  | ok t =>
      obtain ⟨htarget, hallowed⟩ := target_of_transition htrans
      dsimp only
      cases hencode : encode env s req t with
      | error kr =>
          refine ⟨⟨cur, new, some kr, .success, .ok new⟩, rfl, rfl, ?_⟩
          rw [QpContext.modifyQp, if_neg (not_not.mpr hstate), hallowed]
      | ok out =>
          dsimp only
          by_cases hleaves : t = .rst2Init ∧ s.st = .ud
          · have hrst := (rst2Init_iff htrans).mp hleaves.1
            rw [hleaves.1] at htarget
            rw [if_pos hleaves]
            exact ⟨_, hrst.symm.trans hstate, htarget, toQpContext_leaves hrst hleaves.2 out.1 rfl⟩
          · rw [if_neg hleaves]
            rw [rst2Init_iff htrans] at hleaves
            exact ⟨_, hstate, rfl, toQpContext_issue hnew htarget hallowed hleaves rfl⟩

end Counters

/-! ## Runs -/

section Runs

variable {s₀ s : Context}

lemma state_after_completeCqe (s : Context) (cqe : Cqe) (shadow : Option QpContext.Shadow)
    (resultAt : ℕ → Option ℕ) :
    (s.after (.completeCqe cqe shadow resultAt)).state = if cqe.isError = true then .err else s.state :=
  QpContext.completeCqe_state s.toQpContext cqe shadow resultAt

lemma state_after_resetQp (s : Context) (kr : KernReturn) :
    (s.after (.resetQp kr)).state = if kr = .success then .rst else s.state := by
  show (s.toQpContext.resetQp kr).1.state = _
  unfold QpContext.resetQp
  split_ifs <;> rfl

/-- The driver never puts a pair into the two states between. -/
lemma usual_of_reach (hinit : s₀.state = .rst) (hrun : Reach step Unguarded s₀ s) :
    s.state ≠ .sqer ∧ s.state ≠ .sqd := by
  refine hrun.invariant (fun s => s.state ≠ .sqer ∧ s.state ≠ .sqd) (by rw [hinit]; decide) ?_
  rintro s s' op husual - hstep
  obtain rfl : s.after op = s' := Option.some.inj hstep
  cases op with
  | modify env req =>
      rcases modifyQp_outcome husual env req with ⟨-, hdone⟩ | ⟨-, hrefused⟩
      · have hedge := hdone.edge
        show (modifyQp env s req).1.state ≠ .sqer ∧ (modifyQp env s req).1.state ≠ .sqd
        generalize (modifyQp env s req).1.state = new at hedge ⊢
        generalize s.state = old at hedge
        cases hedge <;> decide
      · show (modifyQp env s req).1.state ≠ .sqer ∧ (modifyQp env s req).1.state ≠ .sqd
        rw [hrefused.state]
        exact husual
  | completeCqe cqe shadow resultAt =>
      rw [state_after_completeCqe]
      split_ifs
      · decide
      · exact husual
  | resetQp kr =>
      rw [state_after_resetQp]
      split_ifs
      · decide
      · exact husual

/-- In every run from a new pair: a request that is carried out follows an edge, to the state that it asked for,
after the firmware accepted its command and, but for a datagram pair that leaves its first state, `QUERY_QP`
confirmed it; a request that fails leaves the state and the records alone, but for the key of such a pair; an
error entry puts the pair in error and a reset that was accepted puts it back, and both leave the records alone. -/
theorem states_follow_edges (hinit : s₀.state = .rst) (hrun : Reach step Unguarded s₀ s) :
    (∀ env req, (modifyQp env s req).2 = .success → CarriedOut env s (modifyQp env s req).1 req) ∧
    (∀ env req, (modifyQp env s req).2 ≠ .success → Refused s (modifyQp env s req).1) ∧
    (∀ cqe shadow resultAt, (s.after (.completeCqe cqe shadow resultAt)).state =
        (if cqe.isError = true then .err else s.state) ∧
      (s.after (.completeCqe cqe shadow resultAt)).recorded = s.recorded ∧
      (s.after (.completeCqe cqe shadow resultAt)).qkey = s.qkey) ∧
    (∀ kr, (s.after (.resetQp kr)).state = (if kr = .success then .rst else s.state) ∧
      (s.after (.resetQp kr)).recorded = s.recorded ∧ (s.after (.resetQp kr)).qkey = s.qkey) := by
  have husual := usual_of_reach hinit hrun
  refine ⟨fun env req hkr => ?_, fun env req hkr => ?_,
    fun cqe shadow resultAt => ⟨state_after_completeCqe s cqe shadow resultAt, rfl, rfl⟩,
    fun kr => ⟨state_after_resetQp s kr, rfl, rfl⟩⟩
  · rcases modifyQp_outcome husual env req with ⟨-, hdone⟩ | ⟨hfailed, -⟩
    · exact hdone
    · exact absurd hkr hfailed
  · rcases modifyQp_outcome husual env req with ⟨hdone, -⟩ | ⟨-, hrefused⟩
    · exact absurd hdone hkr
    · exact hrefused

end Runs

lemma leastRing_least : 6 ≤ 6 := by decide

lemma leastRing_most : 6 ≤ 15 := by decide

/-- A ring of 64 slots. -/
def leastRing : RingSize := ⟨6, leastRing_least, leastRing_most⟩

/-- A new pair. -/
def newPair (st : ServiceType) : Context := { qpNum := 9, st := st, sq := leastRing, rq := leastRing }

/-- A device that ends every command so, and then says that the pair is in the state of this number. -/
def device (kr : KernReturn) (state : ℕ) : Env where
  exec _ _ := ⟨kr, 3, 0⟩
  query := (.success, [BitVec.ofNat 8 (16 * state)])

/-- A request for the second state. -/
def initRequest : Request := { curState := 0, newState := 1, portNum := 1, qkey := 5 }

/-- A request for the third state. -/
def rtrRequest : Request := { curState := 1, newState := 2 }

theorem states_follow_edges_init :
    Edge (newPair .rc).state (modifyQp (device .success 1) (newPair .rc) initRequest).1.state ∧
      (modifyQp (device .success 1) (modifyQp (device .success 1) (newPair .rc) initRequest).1 rtrRequest).2 =
        .badArgument ∧
      Refused (modifyQp (device .success 1) (newPair .rc) initRequest).1
        (modifyQp (device .success 1) (modifyQp (device .success 1) (newPair .rc) initRequest).1 rtrRequest).1 := by
  have hreach : Reach step Unguarded (newPair .rc)
      ((newPair .rc).after (.modify (device .success 1) initRequest)) := .step .start trivial rfl
  obtain ⟨hdone, -⟩ := states_follow_edges (show (newPair .rc).state = .rst from rfl) .start
  obtain ⟨-, hrefused, -⟩ := states_follow_edges (show (newPair .rc).state = .rst from rfl) hreach
  have hkr : (modifyQp (device .success 1) (modifyQp (device .success 1) (newPair .rc) initRequest).1
      rtrRequest).2 = .badArgument := by decide +kernel
  exact ⟨(hdone _ _ (by decide +kernel)).edge, hkr, hrefused _ _ fun hok => absurd (hkr.symm.trans hok) (by decide)⟩

/-- What leaves the edges and the rules: a reset of a pair in its second state, the key of a datagram pair whose
request fails, and a datagram pair that is put into its second state while the device says that it is in its
first. -/
theorem edges_left :
    (Reach step Unguarded (newPair .rc) ((newPair .rc).after (.modify (device .success 1) initRequest)) ∧
      ((newPair .rc).after (.modify (device .success 1) initRequest)).state = .init ∧
      (((newPair .rc).after (.modify (device .success 1) initRequest)).after (.resetQp .success)).state = .rst ∧
      ¬Edge .init .rst) ∧
    ((modifyQp (device .badArgument 0) (newPair .ud) initRequest).2 = .badArgument ∧
      (newPair .ud).qkey = 0 ∧ (modifyQp (device .badArgument 0) (newPair .ud) initRequest).1.qkey = 5) ∧
    ((modifyQp (device .success 0) (newPair .ud) initRequest).2 = .success ∧
      (modifyQp (device .success 0) (newPair .ud) initRequest).1.state = .init ∧
      (queryQp (device .success 0).query.2).state = number .rst) := by
  refine ⟨⟨.step .start trivial rfl, by decide +kernel, by decide +kernel, fun h => by cases h⟩,
    ⟨by decide +kernel, rfl, by decide +kernel⟩, by decide +kernel, by decide +kernel, by decide +kernel⟩

end QpModify

end MelonDMA.Ib
