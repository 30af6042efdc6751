import Mathlib.Algebra.Ring.Nat
import Mathlib.Tactic.Common

/-!
# Choosing a blue-flame register

A client's queue pairs post through blue-flame registers of the client's UAR pages. A new pair gets the
least loaded register of the pool; when every register is taken the pool grows by a page, and when it
cannot grow the pair shares. The response says so (`bfFlags`) to the pair that shares, and only to that one.

* The table rows are those of the pairs of one client, one whose bundle exists: `bundle` is not null.
* A register of the pool is named by its slot and its offset inside the page, or by the flat offset of both
  that crosses to the client.
-/

namespace MelonDMA.Ib.BfRegister

/-! ## Registers of a page -/

/-- Source: `MLX_BF_OFFSET`. -/
def mlxBfOffset : ℕ := 0x800

/-- Source: `MLX_BF_MAX_REGS`. -/
def mlxBfMaxRegs : ℕ := 64

/-- Source: `MLX_UAR_ADAPTER_PAGE_SIZE`. -/
def mlxUarAdapterPageSize : ℕ := 4096

/-- Source: `MLX_CLIENT_MAX_UAR`. -/
def mlxClientMaxUar : ℕ := 4

/-- What the device reports: `logBfRegSize` (`0`: no registers) and the size of a UAR page. -/
structure Caps where
  logBfRegSize : ℕ
  uarPageSize : ℕ

/-- Bytes of a register. Source: `logBf && logBf < 13 ? (1u << logBf) : 0`. -/
def Caps.bfRegSize (caps : Caps) : ℕ :=
  if caps.logBfRegSize ≠ 0 ∧ caps.logBfRegSize < 13 then 2 ^ caps.logBfRegSize else 0

/-- Source: `mlxUarRegisterWindow`. -/
def mlxUarRegisterWindow (uarPageSize : ℕ) : ℕ :=
  if uarPageSize < mlxUarAdapterPageSize then uarPageSize else mlxUarAdapterPageSize

/-- Source: `mlxBfRegsPerUar`. -/
def mlxBfRegsPerUar (uarPageSize bfRegSize : ℕ) : ℕ :=
  if bfRegSize = 0 ∨ mlxUarRegisterWindow uarPageSize ≤ mlxBfOffset then 0
  else min ((mlxUarRegisterWindow uarPageSize - mlxBfOffset) / bfRegSize) mlxBfMaxRegs

/-- Source: `mlxBfRegOffset`. -/
def mlxBfRegOffset (index bfRegSize : ℕ) : ℕ := mlxBfOffset + index * bfRegSize

/-- Source: `mlxBfRegIndex`. -/
def mlxBfRegIndex (offset uarPageSize bfRegSize : ℕ) : ℕ :=
  if bfRegSize = 0 ∨ offset < mlxBfOffset ∨ mlxUarRegisterWindow uarPageSize ≤ offset ∨
      (offset - mlxBfOffset) % bfRegSize ≠ 0 then
    mlxBfMaxRegs
  else (offset - mlxBfOffset) / bfRegSize

/-- Source: `mlxFlatOffset`. -/
def mlxFlatOffset (page pageSize within : ℕ) : ℕ := page * pageSize + within

/-- Source: `mlxFlatPage`. -/
def mlxFlatPage (flat pageSize : ℕ) : ℕ := if pageSize = 0 then 0 else flat / pageSize

/-- Source: `mlxFlatWithin`. -/
def mlxFlatWithin (flat pageSize : ℕ) : ℕ := if pageSize = 0 then flat else flat % pageSize

/-- A flat offset gives back its page and its offset in the page. -/
theorem mlxFlat_flatOffset {page pageSize within : ℕ} (h : within < pageSize) :
    mlxFlatPage (mlxFlatOffset page pageSize within) pageSize = page ∧
      mlxFlatWithin (mlxFlatOffset page pageSize within) pageSize = within := by
  have hpos : 0 < pageSize := Nat.lt_of_le_of_lt (Nat.zero_le _) h
  have hne : pageSize ≠ 0 := Nat.ne_of_gt hpos
  unfold mlxFlatPage mlxFlatWithin mlxFlatOffset
  rw [if_neg hne, if_neg hne, Nat.mul_comm page, Nat.mul_add_div hpos,
    Nat.mul_add_mod, Nat.div_eq_of_lt h, Nat.mod_eq_of_lt h]
  exact ⟨rfl, rfl⟩

/-- The registers of a page have a size and end inside the page's window. -/
lemma mlxBfRegOffset_fits {index uarPageSize bfRegSize : ℕ}
    (h : index < mlxBfRegsPerUar uarPageSize bfRegSize) :
    bfRegSize ≠ 0 ∧ index < mlxBfMaxRegs ∧
      mlxBfRegOffset index bfRegSize + bfRegSize ≤ mlxUarRegisterWindow uarPageSize := by
  unfold mlxBfRegsPerUar at h
  by_cases hnone : bfRegSize = 0 ∨ mlxUarRegisterWindow uarPageSize ≤ mlxBfOffset
  · rw [if_pos hnone] at h
    omega
  · rw [if_neg hnone] at h
    obtain ⟨hsize, hwindow⟩ := not_or.mp hnone
    obtain ⟨hroom, hmax⟩ := Nat.lt_min.mp h
    have hend := (Nat.le_div_iff_mul_le (Nat.pos_of_ne_zero hsize)).mp hroom
    rw [Nat.succ_mul] at hend
    refine ⟨hsize, hmax, ?_⟩
    unfold mlxBfRegOffset
    omega

/-- An offset belongs to a register of the page exactly when it is that register's start. -/
lemma mlxBfRegIndex_eq_iff {offset index uarPageSize bfRegSize : ℕ}
    (h : index < mlxBfRegsPerUar uarPageSize bfRegSize) :
    mlxBfRegIndex offset uarPageSize bfRegSize = index ↔
      offset = mlxBfRegOffset index bfRegSize := by
  obtain ⟨hsize, hmax, hend⟩ := mlxBfRegOffset_fits h
  have hpos := Nat.pos_of_ne_zero hsize
  unfold mlxBfRegIndex
  constructor
  · intro heq
    by_cases hnone : bfRegSize = 0 ∨ offset < mlxBfOffset ∨
        mlxUarRegisterWindow uarPageSize ≤ offset ∨ (offset - mlxBfOffset) % bfRegSize ≠ 0
    · rw [if_pos hnone] at heq
      omega
    · rw [if_neg hnone] at heq
      obtain ⟨_, hnone⟩ := not_or.mp hnone
      obtain ⟨hlow, hnone⟩ := not_or.mp hnone
      obtain ⟨_, hstart⟩ := not_or.mp hnone
      rw [not_not] at hstart
      have := Nat.div_add_mod (offset - mlxBfOffset) bfRegSize
      rw [hstart, heq, Nat.mul_comm] at this
      unfold mlxBfRegOffset
      omega
  · rintro rfl
    have hsub : mlxBfRegOffset index bfRegSize - mlxBfOffset = index * bfRegSize :=
      Nat.add_sub_cancel_left ..
    rw [if_neg, hsub, Nat.mul_div_cancel _ hpos]
    rw [hsub, Nat.mul_mod_left]
    unfold mlxBfRegOffset at hend ⊢
    omega

/-! ## The table and the pool -/

/-- A pair's row of the driver's table: the pair, the firmware's index of its UAR page, the register's
offset in that page, and the page's slot in the client's pool. Source: `MlxQPContext`. -/
structure QpRow where
  id : ℕ
  uarPage : ℕ
  bfOffset : ℕ
  bfUarSlot : ℕ
  deriving DecidableEq, Repr

/-- Source: `ClientUarIndex`. -/
def clientUarIndex (pool : List ℕ) (slot : ℕ) : ℕ := pool.getD slot 0

/-- `granted` is the firmware's answer with the mapping made. Source: `AllocClientUar`. -/
def allocClientUar (pool : List ℕ) (granted : Option ℕ) : Option (List ℕ) :=
  if mlxClientMaxUar ≤ pool.length then none else granted.map fun index => pool ++ [index]

/-- The pairs on a register. Source: `counts[r]`. -/
def load (caps : Caps) (table : List QpRow) (pool : List ℕ) (slot index : ℕ) : ℕ :=
  table.countP fun row => decide (row.uarPage = clientUarIndex pool slot ∧
    mlxBfRegIndex row.bfOffset caps.uarPageSize caps.bfRegSize = index)

/-- A choice of the scan. -/
structure Choice where
  best : ℕ
  bfUarSlot : ℕ
  bfIndex : ℕ

/-- The registers of the pool, in the order the scan visits them. -/
def registers (caps : Caps) (pool : List ℕ) : List (ℕ × ℕ) :=
  (List.range pool.length).flatMap fun slot =>
    (List.range (mlxBfRegsPerUar caps.uarPageSize caps.bfRegSize)).map fun index => (slot, index)

/-- Keep the less loaded one, the earlier one of two alike. -/
def lessLoaded (loadOf : ℕ × ℕ → ℕ) (choice : Choice) (register : ℕ × ℕ) : Choice :=
  if loadOf register < choice.best then ⟨loadOf register, register.1, register.2⟩ else choice

/-- Source: the scan of one attempt in `CreateQP`. -/
def leastLoaded (caps : Caps) (table : List QpRow) (pool : List ℕ) : Choice :=
  (registers caps pool).foldl (lessLoaded fun register => load caps table pool register.1 register.2)
    ⟨0xffffffff, 0, 0⟩

/-- Source: `bfPeers = best == 0xffffffffu ? 0 : best`. -/
def Choice.bfPeers (choice : Choice) : ℕ := if choice.best = 0xffffffff then 0 else choice.best

/-- The register of a new pair and the pool afterwards. Source: the register selection of `CreateQP`. -/
def selectRegister (caps : Caps) (table : List QpRow) (pool : List ℕ) (granted : Option ℕ) :
    Choice × List ℕ :=
  if mlxBfRegsPerUar caps.uarPageSize caps.bfRegSize = 0 then (⟨0xffffffff, 0, 0⟩, pool)
  else
    let first := leastLoaded caps table pool
    if first.bfPeers = 0 then (first, pool)
    else
      match allocClientUar pool granted with
      | none => (first, pool)
      | some grown => (leastLoaded caps table grown, grown)

/-- Source: `bfWithin`. -/
def Choice.bfWithin (caps : Caps) (choice : Choice) : ℕ :=
  if mlxBfRegsPerUar caps.uarPageSize caps.bfRegSize = 0 then mlxBfOffset
  else mlxBfRegOffset choice.bfIndex caps.bfRegSize

/-- What the client learns about the register. Source: `mlx_create_qp_resp`. -/
structure BfResponse where
  bfOffset : ℕ
  bfBufSize : ℕ
  bfShared : Bool
  deriving DecidableEq, Repr

/-- Source: the response of `CreateQP`. -/
def respond (caps : Caps) (choice : Choice) : BfResponse where
  bfOffset := mlxFlatOffset choice.bfUarSlot caps.uarPageSize (choice.bfWithin caps)
  bfBufSize := caps.bfRegSize / 2
  bfShared := decide (choice.bfPeers ≠ 0)

/-- The row of the new pair. -/
def rowOf (caps : Caps) (pool : List ℕ) (choice : Choice) (id : ℕ) : QpRow where
  id := id
  uarPage := clientUarIndex pool choice.bfUarSlot
  bfOffset := choice.bfWithin caps
  bfUarSlot := choice.bfUarSlot

/-- The register a row names, as the client names it. -/
def QpRow.register (caps : Caps) (row : QpRow) : ℕ :=
  mlxFlatOffset row.bfUarSlot caps.uarPageSize row.bfOffset

/-! ## What the scan finds -/

lemma mem_registers {caps : Caps} {pool : List ℕ} {register : ℕ × ℕ} :
    register ∈ registers caps pool ↔
      register.1 < pool.length ∧
        register.2 < mlxBfRegsPerUar caps.uarPageSize caps.bfRegSize := by
  unfold registers
  simp only [List.mem_flatMap, List.mem_map, List.mem_range]
  constructor
  · rintro ⟨slot, hslot, index, hindex, rfl⟩
    exact ⟨hslot, hindex⟩
  · rintro ⟨hslot, hindex⟩
    exact ⟨register.1, hslot, register.2, hindex, rfl⟩

/-- Folding `lessLoaded` keeps the choice or takes a register with its load, and is below every load. -/
lemma foldl_lessLoaded (loadOf : ℕ × ℕ → ℕ) (candidates : List (ℕ × ℕ)) (choice : Choice) :
    let found := candidates.foldl (lessLoaded loadOf) choice
    (found = choice ∨ ∃ register ∈ candidates,
      found = ⟨loadOf register, register.1, register.2⟩) ∧
      found.best ≤ choice.best ∧ ∀ register ∈ candidates, found.best ≤ loadOf register := by
  induction candidates generalizing choice with
  | nil => exact ⟨.inl rfl, Nat.le_refl _, fun _ h => absurd h List.not_mem_nil⟩
  | cons head rest ih =>
      rw [List.foldl_cons]
      obtain ⟨hfrom, hle, hall⟩ := ih (lessLoaded loadOf choice head)
      have hstep : (lessLoaded loadOf choice head).best ≤ choice.best ∧
          (lessLoaded loadOf choice head).best ≤ loadOf head := by
        unfold lessLoaded
        by_cases hless : loadOf head < choice.best
        · rw [if_pos hless]
          exact ⟨Nat.le_of_lt hless, Nat.le_refl _⟩
        · rw [if_neg hless]
          exact ⟨Nat.le_refl _, Nat.not_lt.mp hless⟩
      refine ⟨?_, Nat.le_trans hle hstep.1, ?_⟩
      · rcases hfrom with hkept | ⟨register, hmem, hfound⟩
        · rw [hkept]
          unfold lessLoaded
          by_cases hless : loadOf head < choice.best
          · rw [if_pos hless]
            exact .inr ⟨head, List.mem_cons_self, rfl⟩
          · rw [if_neg hless]
            exact .inl rfl
        · exact .inr ⟨register, List.mem_cons_of_mem _ hmem, hfound⟩
      · intro register hmem
        rcases List.mem_cons.mp hmem with rfl | hrest
        · exact Nat.le_trans hle hstep.2
        · exact hall register hrest

variable {caps : Caps} {table : List QpRow} {pool : List ℕ}

lemma load_le_length (caps : Caps) (table : List QpRow) (pool : List ℕ) (slot index : ℕ) :
    load caps table pool slot index ≤ table.length := List.countP_le_length

/-- The scan of a pool with registers finds one of them, counts the pairs on it, and no other register of
the pool has fewer. -/
theorem leastLoaded_spec (hregs : mlxBfRegsPerUar caps.uarPageSize caps.bfRegSize ≠ 0)
    (hpool : pool ≠ []) (hshort : table.length < 0xffffffff) :
    let choice := leastLoaded caps table pool
    choice.bfUarSlot < pool.length ∧
      choice.bfIndex < mlxBfRegsPerUar caps.uarPageSize caps.bfRegSize ∧
      choice.bfPeers = load caps table pool choice.bfUarSlot choice.bfIndex ∧
      ∀ slot < pool.length, ∀ index < mlxBfRegsPerUar caps.uarPageSize caps.bfRegSize,
        choice.bfPeers ≤ load caps table pool slot index := by
  intro choice
  obtain ⟨hfrom, _, hall⟩ := foldl_lessLoaded
    (fun register => load caps table pool register.1 register.2) (registers caps pool)
    ⟨0xffffffff, 0, 0⟩
  have hfirst : (0, 0) ∈ registers caps pool :=
    mem_registers.mpr ⟨List.length_pos_iff.mpr hpool, Nat.pos_of_ne_zero hregs⟩
  have hbest : choice.best < 0xffffffff :=
    Nat.lt_of_le_of_lt (Nat.le_trans (hall _ hfirst) (load_le_length ..)) hshort
  have hpeers : choice.bfPeers = choice.best := if_neg (Nat.ne_of_lt hbest)
  rcases hfrom with hkept | ⟨register, hmem, hfound⟩
  · have : choice.best = 0xffffffff := congrArg Choice.best hkept
    omega
  · obtain ⟨hslot, hindex⟩ := mem_registers.mp hmem
    have hchoice : choice = ⟨load caps table pool register.1 register.2, register.1, register.2⟩ :=
      hfound
    refine ⟨?_, ?_, ?_, ?_⟩
    · rw [hchoice]
      exact hslot
    · rw [hchoice]
      exact hindex
    · rw [hpeers, hchoice]
    · intro slot hslot' index hindex'
      rw [hpeers]
      exact hall (slot, index) (mem_registers.mpr ⟨hslot', hindex'⟩)

/-- A pair is told that it shares exactly when a pair of the client is on the register it gets. -/
theorem bfShared_iff (hregs : mlxBfRegsPerUar caps.uarPageSize caps.bfRegSize ≠ 0)
    (hpool : pool ≠ []) (hshort : table.length < 0xffffffff) (granted : Option ℕ) :
    let selected := selectRegister caps table pool granted
    (respond caps selected.1).bfShared = true ↔
      ∃ row ∈ table, row.uarPage = clientUarIndex selected.2 selected.1.bfUarSlot ∧
        row.bfOffset = selected.1.bfWithin caps := by
  intro selected
  have hscan : ∃ pool', pool' ≠ [] ∧ selected = (leastLoaded caps table pool', pool') := by
    show ∃ pool', pool' ≠ [] ∧ selectRegister caps table pool granted = _
    unfold selectRegister
    rw [if_neg hregs]
    dsimp only
    by_cases hfree : (leastLoaded caps table pool).bfPeers = 0
    · rw [if_pos hfree]
      exact ⟨pool, hpool, rfl⟩
    · rw [if_neg hfree]
      cases hgrow : allocClientUar pool granted with
      | none => exact ⟨pool, hpool, rfl⟩
      | some grown =>
          refine ⟨grown, ?_, rfl⟩
          rintro rfl
          unfold allocClientUar at hgrow
          obtain ⟨_, hmap⟩ := Option.ite_none_left_eq_some.mp hgrow
          obtain ⟨index, _, happend⟩ := Option.map_eq_some_iff.mp hmap
          exact absurd happend (by simp)
  obtain ⟨pool', hpool', hselected⟩ := hscan
  obtain ⟨_, hindex, hpeers, _⟩ := leastLoaded_spec hregs hpool' hshort
  rw [hselected]
  show decide ((leastLoaded caps table pool').bfPeers ≠ 0) = true ↔ _
  rw [decide_eq_true_eq, hpeers, ← Nat.pos_iff_ne_zero, load, List.countP_pos_iff]
  unfold Choice.bfWithin
  rw [if_neg hregs]
  constructor
  · rintro ⟨row, hrow, hon⟩
    obtain ⟨hpage, hreg⟩ := of_decide_eq_true hon
    exact ⟨row, hrow, hpage, (mlxBfRegIndex_eq_iff hindex).mp hreg⟩
  · rintro ⟨row, hrow, hpage, hoffset⟩
    exact ⟨row, hrow, decide_eq_true ⟨hpage, (mlxBfRegIndex_eq_iff hindex).mpr hoffset⟩⟩

end MelonDMA.Ib.BfRegister
