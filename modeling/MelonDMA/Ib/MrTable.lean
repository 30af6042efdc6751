import MelonDMA.Core.Cmd
import MelonDMA.Ib.QpPost
import MelonDMA.Lib.SlotTable

/-!
# Memory regions and windows

The table of `MlxMR.cpp`: direct regions, indirect regions that name other regions as their children, and
windows that are bound to a region. Each entry counts what depends on it, and a region with dependents is
not deregistered.

* A call runs from its start to its end: the lock is released around firmware commands, but no other call
  runs then.
* How the memory of a region is pinned and translated is left out; pinning and the firmware commands enter
  by how they end. The table has at most 4096 slots and a region at most 240 children, so the 32-bit counts
  do not wrap.
* The index by remote key finds the entry that has the key.
-/

namespace MelonDMA.Ib

open MelonDMA.Lib MelonDMA.Core

/-! ## Keys and access flags -/

/-- Source: `mlxComposeMkey`. -/
def mlxComposeMkey (index variant : ℕ) : ℕ := index <<< 8 ||| variant

/-- Source: `mlxMkeyIndex`. -/
def mlxMkeyIndex (key : ℕ) : ℕ := key >>> 8

/-- Source: `MLX_MR_ACCESS_LOCAL_WRITE`. -/
def mrLocalWrite (flags : ℕ) : Bool := flags.testBit 0

/-- `MLX_MR_ACCESS_REMOTE_WRITE` or `MLX_MR_ACCESS_REMOTE_ATOMIC`. -/
def mrRemoteChanges (flags : ℕ) : Bool := flags.testBit 1 || flags.testBit 3

/-- Source: `MLX_MR_ACCESS_MW_BIND`. -/
def mrBindable (flags : ℕ) : Bool := flags.testBit 4

/-! ## The table -/

/-- A region or a window. Source: `MlxMRContext`. -/
structure MrEntry where
  mrHandle : ℕ
  pd : ℕ
  /-- A window has none. -/
  lkey : ℕ := 0
  rkey : ℕ
  startAddr : ℕ := 0
  length : ℕ := 0
  accessFlags : ℕ := 0
  /-- `childHandles`, as many as `childCount`. -/
  childHandles : List ℕ := []
  dependentCount : ℕ := 0
  invalidated : Bool := false
  isWindow : Bool := false
  /-- The region that a window is bound to, or `0`. -/
  boundMrHandle : ℕ := 0
  boundQpn : ℕ := 0
  deriving DecidableEq, Repr

/-- Source: `MlxMR::State`. -/
structure MrTable where
  table : List (Option MrEntry)
  variant : ℕ

/-- The first slot in use whose entry has a property. -/
def slotWhere (t : List (Option MrEntry)) (q : MrEntry → Bool) : Option ℕ := t.findIdx? (Option.any q)

/-- Change the entry that a handle finds. -/
def updateEntry (t : List (Option MrEntry)) (handle : ℕ) (g : MrEntry → MrEntry) : List (Option MrEntry) :=
  match slotWhere t (·.mrHandle = handle) with
  | some i => t.modify i (Option.map g)
  | none => t

/-- `dependentCount++` on the region that a handle finds. -/
def addDependent (t : List (Option MrEntry)) (handle : ℕ) : List (Option MrEntry) :=
  updateEntry t handle fun e => { e with dependentCount := e.dependentCount + 1 }

/-- `dependentCount--`, but not below `0`. -/
def dropDependent (t : List (Option MrEntry)) (handle : ℕ) : List (Option MrEntry) :=
  updateEntry t handle fun e => { e with dependentCount := e.dependentCount - 1 }

/-- Source: `mlx_reg_mr_req`. -/
structure RegMrReq where
  pd : ℕ
  startAddr : ℕ
  length : ℕ
  accessFlags : ℕ
  deriving DecidableEq, Repr

/-- Source: `mlx_bind_mw_req`. -/
structure BindReq where
  mwHandle : ℕ
  qpn : ℕ
  mrHandle : ℕ
  bindRkey : ℕ
  accessFlags : ℕ
  addr : ℕ
  length : ℕ
  deriving DecidableEq, Repr

namespace MrTable

variable (s : MrTable)

/-- Source: `MlxMR::Lookup`. -/
def lookup (handle : ℕ) : Option MrEntry := (slotWhere s.table (·.mrHandle = handle)).bind (entry s.table)

/-- Source: `MlxMR::LookupByRkey`. -/
def lookupByRkey (rkey : ℕ) : Option MrEntry := (slotWhere s.table (·.rkey = rkey)).bind (entry s.table)

/-- `variant++`, which skips `0`. -/
def nextVariant : MrTable := { s with variant := if (s.variant + 1) % 256 = 0 then 1 else (s.variant + 1) % 256 }

/-- No slot is free. -/
def full : Bool := s.table.length ≤ firstFree s.table

/-- Source: `MlxMR::RegMR`; `pin` is how the pinning ends and `exec` the index that `CREATE_MKEY` gives. -/
def regMr (req : RegMrReq) (pin : KernReturn) (exec : Except KernReturn ℕ) : MrTable × KernReturn :=
  if pin ≠ .success then (s, pin)
  else
    let key := fun index => mlxComposeMkey index s.variant
    let s := s.nextVariant
    match exec with
    | .error kr => (s, kr)
    | .ok index =>
        if s.full = true then (s, .noMemory)
        else
          ({ s with
            table := put s.table (firstFree s.table)
              { mrHandle := index, pd := req.pd, lkey := key index, rkey := key index
                startAddr := req.startAddr, length := req.length, accessFlags := req.accessFlags } }, .success)

/-- The children are counted by their handles, one after the other. Source: `MlxMR::RegMRIndirect`. -/
def regMrIndirect (req : RegMrReq) (childHandles : List ℕ) (exec : Except KernReturn ℕ) :
    MrTable × KernReturn :=
  if childHandles = [] ∨ ucMaxIndirectChildren < childHandles.length ∨ req.length = 0 then (s, .badArgument)
  else if childHandles.any (fun h => (s.lookup h).isNone) = true then (s, .notFound)
  else
    let key := fun index => mlxComposeMkey index s.variant
    let s := s.nextVariant
    match exec with
    | .error kr => (s, kr)
    | .ok index =>
        if s.full = true then (s, .noMemory)
        else
          ({ s with
            table := put (childHandles.foldl addDependent s.table) (firstFree s.table)
              { mrHandle := index, pd := req.pd, lkey := key index, rkey := key index
                startAddr := req.startAddr, length := req.length, accessFlags := req.accessFlags
                childHandles := childHandles } }, .success)

/-- Empty the slot that a handle finds. -/
def release (t : List (Option MrEntry)) (handle : ℕ) : List (Option MrEntry) :=
  match slotWhere t (·.mrHandle = handle) with
  | some i => clear t i
  | none => t

/-- A window goes at once and what it was bound to is not told. Source: `MlxMR::DeregMR`; `exec` is how
`DESTROY_MKEY` ends. -/
def deregMr (mrHandle : ℕ) (quarantined : Bool) (exec : KernReturn) : MrTable × KernReturn :=
  if quarantined = true then (s, .notReady)
  else
    match s.lookup mrHandle with
    | none => (s, .notFound)
    | some target =>
        if target.isWindow = true then ({ s with table := release s.table mrHandle }, .success)
        else if target.dependentCount ≠ 0 then (s, .busy)
        else if exec ≠ .success then (s, exec)
        else
          ({ s with table := release (target.childHandles.foldl dropDependent s.table) mrHandle }, .success)

/-- Source: `MlxMR::AllocMW`. -/
def allocMw (pd type : ℕ) (exec : Except KernReturn ℕ) : MrTable × KernReturn :=
  if type ≠ 2 ∨ pd = 0 then (s, .badArgument)
  else if s.full = true then (s, .noMemory)
  else
    let key := fun index => mlxComposeMkey index s.variant
    let s := s.nextVariant
    match exec with
    | .error kr => (s, kr)
    | .ok index =>
        if index = 0 then (s, .ioError)
        else
          ({ s with
            table := put s.table (firstFree s.table)
              { mrHandle := index, pd := pd, rkey := key index, isWindow := true } }, .success)

/-- Source: `MlxMR::DeallocMW`. -/
def deallocMw (handle : ℕ) (quarantined : Bool) (exec : KernReturn) : MrTable × KernReturn :=
  if handle = 0 then (s, .badArgument)
  else if quarantined = true then (s, .notReady)
  else
    match s.lookup handle with
    | none => (s, .notFound)
    | some mw =>
        if mw.isWindow = false then (s, .notFound)
        else if exec ≠ .success then (s, exec)
        else
          let table := if mw.boundMrHandle ≠ 0 then dropDependent s.table mw.boundMrHandle else s.table
          ({ s with table := release table handle }, .success)

/-- The window and the region do not fit, or the region does not allow it. Source: the checks of
`MlxMR::BindMW` under the lock. -/
def bindRefused (mw mr : MrEntry) (req : BindReq) : Bool :=
  !mw.isWindow || mw.rkey ≠ req.bindRkey || mr.isWindow || mw.pd ≠ mr.pd || mr.invalidated ||
    req.addr < mr.startAddr || mr.length < req.length ||
    sub64 (add64 mr.startAddr mr.length) req.length < req.addr || !mrBindable mr.accessFlags ||
    (mrRemoteChanges req.accessFlags && !mrLocalWrite mr.accessFlags)

/-- A window leaves the region it was bound to for the new one, and gets a new key. Source:
`MlxMR::BindMW`. -/
def bindMw (req : BindReq) : MrTable × KernReturn :=
  if req.mwHandle = 0 ∨ req.qpn = 0 ∨ req.mrHandle = 0 ∨ req.bindRkey = 0 ∨ req.length = 0 ∨
      req.accessFlags / 32 ≠ 0 then (s, .badArgument)
  else
    match s.lookup req.mwHandle, s.lookup req.mrHandle with
    | some mw, some mr =>
        if bindRefused mw mr req = true then (s, .notPermitted)
        else
          let old := mw.boundMrHandle
          let table := if old ≠ 0 ∧ old ≠ req.mrHandle then dropDependent s.table old else s.table
          let table := if old ≠ req.mrHandle then addDependent table req.mrHandle else table
          ({ s.nextVariant with
            table := updateEntry table req.mwHandle fun e =>
              { e with
                startAddr := req.addr, length := req.length, accessFlags := req.accessFlags
                invalidated := false, boundMrHandle := req.mrHandle, boundQpn := req.qpn
                rkey := mlxComposeMkey (mlxMkeyIndex e.rkey) s.variant } }, .success)
    | _, _ => (s, .notPermitted)

/-- The region that the key's window was bound to is not told. Source: `MlxMR::InvalidateKey`. -/
def invalidateKey (rkey : ℕ) : MrTable × KernReturn :=
  if rkey = 0 then (s, .badArgument)
  else
    match slotWhere s.table (·.rkey = rkey) with
    | none => (s, .notFound)
    | some i =>
        ({ s with
          table := s.table.modify i
            (Option.map fun e => { e with invalidated := true, boundMrHandle := 0, boundQpn := 0 }) }, .success)

/-- The tables that posts read, with these regions. -/
def world (w : World) : World :=
  { w with lookup := fun handle => (s.lookup handle).map fun e =>
      ⟨e.lkey, e.accessFlags, e.startAddr, e.length, e.isWindow⟩ }

end MrTable

end MelonDMA.Ib
