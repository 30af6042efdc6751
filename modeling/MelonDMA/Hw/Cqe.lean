import MelonDMA.Lib.Bits
import Mathlib.Tactic.Common

/-!
# Completion queue entries and work completions

The fields of `MlxCqe64` that the two decoders read, and the completion they make of them. The kernel's
`mlx_work_completion` and the shim's `rdma_wc` have the same fields and the same numbers.

* An error entry carries its pair and its counter where the other entries do, so they are one field.
-/

namespace MelonDMA.Hw

/-! ## Entries -/

/-- The upper half of `op_own`. Source: `MLX_CQE_*`. -/
inductive CqeOpcode
  | req
  | respWrImm
  | resp
  | respSendImm
  | respSendInv
  | resizeCq
  | sigErr
  | reqErr
  | respErr
  | invalid
  /-- A code without a name. -/
  | other (code : ℕ)
  deriving DecidableEq, Repr

/-- An entry. Source: `MlxCqe64`. -/
structure Cqe where
  opcode : CqeOpcode
  /-- The phase bit, `MLX_CQE_OWNER_MASK`. -/
  owner : Bool := false
  /-- `sop_drop_qpn`, low 24 bits. -/
  qpn : ℕ
  wqeCounter : ℕ
  byteCnt : ℕ := 0
  /-- `imm_inval_pkey`, as it is loaded. -/
  immInval : ℕ := 0
  vendorErrSynd : ℕ := 0
  syndrome : ℕ := 0
  deriving DecidableEq, Repr

/-- `MLX_CQE_REQ_ERR` or `MLX_CQE_RESP_ERR`. -/
def Cqe.isError (cqe : Cqe) : Bool := cqe.opcode = .reqErr || cqe.opcode = .respErr

/-- `MLX_CQE_REQ` or `MLX_CQE_REQ_ERR`. -/
def Cqe.isSend (cqe : Cqe) : Bool := cqe.opcode = .req || cqe.opcode = .reqErr

/-- The bytes of a 32-bit number in the other order. Source: `OSSwapBigToHostInt32`. -/
def bswap32 (v : ℕ) : ℕ :=
  v % 256 * 2 ^ 24 + v / 256 % 256 * 2 ^ 16 + v / 2 ^ 16 % 256 * 2 ^ 8 + v / 2 ^ 24 % 256

/-! ## Completions -/

/-- Source: `MLX_UC_WC_SUCCESS` to `MLX_UC_WC_GENERAL`, `RDMA_WC_SUCCESS` to `RDMA_WC_GENERAL`. -/
inductive WcStatus
  | success
  | locLen
  | locQpOp
  | wrFlush
  | remAccess
  | retryExc
  | rnrRetry
  | general
  deriving DecidableEq, Repr

/-- Source: `MLX_UC_WC_SEND` to `MLX_UC_WC_COMP_SWAP`, `RDMA_WC_SEND` to `RDMA_WC_COMP_SWAP`. -/
inductive WcOpcode
  | send
  | rdmaWrite
  | rdmaRead
  | recv
  | umrKlm
  | fetchAdd
  | compSwap
  deriving DecidableEq, Repr

/-- Source: `MLX_UC_WC_WITH_IMM`, `WITH_ATOMIC`, `GRH`, `WITH_INV`. -/
structure WcFlags where
  withImm : Bool := false
  withAtomic : Bool := false
  grh : Bool := false
  withInv : Bool := false
  deriving DecidableEq, Repr

/-- Source: `mlx_work_completion`, `rdma_wc`. -/
structure WorkCompletion where
  wrId : ℕ := 0
  status : WcStatus := .success
  opcode : WcOpcode := .send
  byteLen : ℕ := 0
  qpNum : ℕ := 0
  immData : ℕ := 0
  wcFlags : WcFlags := {}
  vendorError : ℕ := 0
  wqeCounter : ℕ := 0
  atomicResult : ℕ := 0
  deriving DecidableEq, Repr

/-- Source: `MlxSyndromeToWcStatus`, and `rdma_error_cqe_status` of the shim. -/
def mlxSyndromeToWcStatus (syndrome : ℕ) : WcStatus :=
  if syndrome = 0x01 then .locLen
  else if syndrome = 0x02 then .locQpOp
  else if syndrome = 0x05 then .wrFlush
  else if syndrome = 0x13 then .remAccess
  else if syndrome = 0x15 then .retryExc
  else if syndrome = 0x16 then .rnrRetry
  else .general

/-- The fields of a completion that no table is asked for. -/
def Cqe.completion (cqe : Cqe) : WorkCompletion where
  qpNum := cqe.qpn
  wqeCounter := cqe.wqeCounter
  byteLen := if cqe.isError = true then 0 else cqe.byteCnt
  status := if cqe.isError = true then mlxSyndromeToWcStatus cqe.syndrome else .success
  vendorError := if cqe.isError = true then cqe.vendorErrSynd * 256 + cqe.syndrome else 0

/-- The immediate or the invalidated key of a receive. An immediate stays in the order of the wire, and
an error entry carries neither. -/
def Cqe.recvImm (cqe : Cqe) (wc : WorkCompletion) : WorkCompletion :=
  if cqe.opcode = .respWrImm ∨ cqe.opcode = .respSendImm then
    { wc with immData := cqe.immInval, wcFlags := { wc.wcFlags with withImm := true } }
  else if cqe.opcode = .respSendInv then
    { wc with immData := bswap32 cqe.immInval, wcFlags := { wc.wcFlags with withInv := true } }
  else wc

end MelonDMA.Hw
