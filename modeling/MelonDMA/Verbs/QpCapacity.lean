import MelonDMA.Ib.QpPost
import MelonDMA.Shim.PostRecv

/-!
# What a pair reports

`ibv_create_qp` of `verbs_compat.c` writes the capacities of the new pair back to its caller.

* A depth is rounded up to a power of two, and not past 2048 (`le_roundQueueDepth`).
* The numbers of entries that are reported do not depend on the request, and the inline data is reported as it was
  asked for (`covers_iff`).
-/

namespace MelonDMA.Verbs.QpCapacity

open MelonDMA.Ib MelonDMA.Shim

/-! ## Creating a pair -/

/-- Source: `struct ibv_qp_cap`. -/
structure QpCap where
  maxSendWr : ℕ
  maxRecvWr : ℕ
  maxSendSge : ℕ
  maxRecvSge : ℕ
  maxInlineData : ℕ
  deriving DecidableEq, Repr

/-- The loop of `round_queue_depth`, with a bound on its turns. -/
def roundLoop (depth : ℕ) : ℕ → ℕ → ℕ
  | 0, rounded => rounded
  | fuel + 1, rounded => if rounded < depth ∧ rounded < 2048 then roundLoop depth fuel (rounded * 2) else rounded

/-- The loop doubles eleven times at most (`roundQueueDepth_ends`). Source: `round_queue_depth`. -/
def roundQueueDepth (depth : ℕ) : ℕ := roundLoop (if depth < 64 then 64 else depth) 11 1

/-- The sizes that `MlxQP::CreateQP` admits. -/
def sizesOk (sqSize rqSize maxInlineData : ℕ) : Bool :=
  !(sqSize < 64 || rqSize < 64 || ucMaxInlineData < maxInlineData || sqSize &&& (sqSize - 1) ≠ 0 ||
    rqSize &&& (rqSize - 1) ≠ 0 || 15 < Nat.log2 sqSize || 15 < Nat.log2 rqSize)

/-- The capacities written back, `none` when the pair is not created. `multiSge` says that
`rdma_query_abi` succeeds with `RDMA_FEATURE_MULTI_SGE`, `admitted` that all is well which does not depend on the
capacities. Source: `ibv_create_qp`. -/
def ibvCreateQp (multiSge admitted : Bool) (cap : QpCap) : Option QpCap :=
  if rdmaMaxSge < cap.maxSendSge ∨ rdmaMaxRecvSge < cap.maxRecvSge then none
  else
    let sqSize := roundQueueDepth cap.maxSendWr
    let rqSize := roundQueueDepth cap.maxRecvWr
    if sizesOk sqSize rqSize cap.maxInlineData = false ∨ admitted = false then none
    else
      some
        { maxSendWr := sqSize
          maxRecvWr := rqSize
          maxSendSge := if multiSge = true then rdmaMaxSge else 1
          maxRecvSge := if multiSge = true then rdmaMaxRecvSge else 1
          maxInlineData := cap.maxInlineData }

/-! ## Depths -/

/-- From a power of two, the loop comes to the first power that is not below the depth, or to 2048. -/
lemma roundLoop_spec (depth : ℕ) : ∀ fuel i, i + fuel = 11 →
    ∃ j, i ≤ j ∧ j ≤ 11 ∧ roundLoop depth fuel (2 ^ i) = 2 ^ j ∧ (depth ≤ 2 ^ j ∨ j = 11) := by
  intro fuel
  induction fuel with
  | zero => exact fun i hi => ⟨i, le_refl i, by omega, rfl, .inr (by omega)⟩
  | succ fuel ih =>
      intro i hi
      rw [roundLoop]
      split_ifs with hless
      · obtain ⟨j, hle, hmax, heq, hends⟩ := ih (i + 1) (by omega)
        exact ⟨j, by omega, hmax, by rw [← Nat.pow_succ, heq], hends⟩
      · refine ⟨i, le_refl i, by omega, rfl, ?_⟩
        rw [not_and_or, not_lt, not_lt] at hless
        refine hless.imp_right fun hbig => ?_
        have hlog : 2 ^ 11 ≤ 2 ^ i := hbig
        have := (Nat.pow_le_pow_iff_right (by decide)).mp hlog
        omega

/-- A depth is rounded to a power of two from 64 to 2048, and up as long as it is not past the last one. -/
lemma roundQueueDepth_spec (depth : ℕ) :
    ∃ j, 6 ≤ j ∧ j ≤ 11 ∧ roundQueueDepth depth = 2 ^ j ∧ (depth ≤ 2 ^ j ∨ j = 11) := by
  obtain ⟨j, -, hmax, heq, hends⟩ := roundLoop_spec (if depth < 64 then 64 else depth) 11 0 rfl
  refine ⟨j, ?_, hmax, heq, hends.imp_left fun h => ?_⟩
  · rcases hends with hdepth | rfl
    · have hleast : 2 ^ 6 ≤ 2 ^ j := Nat.le_trans (by split_ifs <;> omega) hdepth
      exact (Nat.pow_le_pow_iff_right (by decide)).mp hleast
    · decide
  · split_ifs at h <;> omega

/-- The loop has ended by itself. -/
theorem roundQueueDepth_ends (depth : ℕ) :
    ¬(roundQueueDepth depth < (if depth < 64 then 64 else depth) ∧ roundQueueDepth depth < 2048) := by
  obtain ⟨j, -, -, heq, hends⟩ := roundLoop_spec (if depth < 64 then 64 else depth) 11 0 rfl
  unfold roundQueueDepth
  rw [show roundLoop (if depth < 64 then 64 else depth) 11 1 = 2 ^ j from heq]
  rcases hends with h | rfl
  · omega
  · omega

/-- A depth that is not met is one past 2048. -/
theorem le_roundQueueDepth {depth : ℕ} : depth ≤ roundQueueDepth depth ↔ depth ≤ 2048 := by
  obtain ⟨j, -, hmax, heq, hends⟩ := roundQueueDepth_spec depth
  rw [heq]
  have hle : 2 ^ j ≤ 2 ^ 11 := Nat.pow_le_pow_right (by decide) hmax
  constructor
  · exact fun h => Nat.le_trans h hle
  · intro h
    rcases hends with hdepth | rfl
    · exact hdepth
    · exact h

/-- A rounded depth is a size that the driver admits. -/
lemma roundQueueDepth_admitted (depth : ℕ) : 64 ≤ roundQueueDepth depth ∧
    roundQueueDepth depth &&& (roundQueueDepth depth - 1) = 0 ∧ (roundQueueDepth depth).log2 ≤ 15 := by
  obtain ⟨j, hleast, hmax, heq, -⟩ := roundQueueDepth_spec depth
  have hpowers : ∀ j < 12, 6 ≤ j → 64 ≤ 2 ^ j ∧ 2 ^ j &&& (2 ^ j - 1) = 0 := by decide
  obtain ⟨hbig, hpower⟩ := hpowers j (by omega) hleast
  rw [heq, Nat.log2_two_pow]
  exact ⟨hbig, hpower, by omega⟩

/-- What the driver refuses of the sizes is the inline data. -/
theorem sizesOk_rounded (send recv maxInlineData : ℕ) :
    sizesOk (roundQueueDepth send) (roundQueueDepth recv) maxInlineData =
      decide (maxInlineData ≤ ucMaxInlineData) := by
  obtain ⟨hsend, hsend', hsend''⟩ := roundQueueDepth_admitted send
  obtain ⟨hrecv, hrecv', hrecv''⟩ := roundQueueDepth_admitted recv
  unfold sizesOk
  simp [not_lt.mpr, hsend, hsend', hsend'', hrecv, hrecv', hrecv'', ← decide_not]

/-! ## What is reported -/

/-- The reported capacities are at least those asked for. -/
structure Covers (cap caps : QpCap) : Prop where
  maxSendWr : cap.maxSendWr ≤ caps.maxSendWr
  maxRecvWr : cap.maxRecvWr ≤ caps.maxRecvWr
  maxSendSge : cap.maxSendSge ≤ caps.maxSendSge
  maxRecvSge : cap.maxRecvSge ≤ caps.maxRecvSge
  maxInlineData : cap.maxInlineData ≤ caps.maxInlineData

variable {multiSge admitted : Bool} {cap caps : QpCap}

/-- What is written back, and that it is within the bounds of the interface. -/
lemma ibvCreateQp_eq_some (h : ibvCreateQp multiSge admitted cap = some caps) :
    cap.maxSendSge ≤ rdmaMaxSge ∧ cap.maxRecvSge ≤ rdmaMaxRecvSge ∧
      caps = { maxSendWr := roundQueueDepth cap.maxSendWr
               maxRecvWr := roundQueueDepth cap.maxRecvWr
               maxSendSge := if multiSge = true then rdmaMaxSge else 1
               maxRecvSge := if multiSge = true then rdmaMaxRecvSge else 1
               maxInlineData := cap.maxInlineData } := by
  unfold ibvCreateQp at h
  by_cases hsge : rdmaMaxSge < cap.maxSendSge ∨ rdmaMaxRecvSge < cap.maxRecvSge
  · rw [if_pos hsge] at h
    cases h
  · rw [if_neg hsge] at h
    dsimp only at h
    by_cases hsizes : sizesOk (roundQueueDepth cap.maxSendWr) (roundQueueDepth cap.maxRecvWr)
        cap.maxInlineData = false ∨ admitted = false
    · rw [if_pos hsizes] at h
      cases h
    · rw [if_neg hsizes] at h
      push Not at hsge
      exact ⟨hsge.1, hsge.2, (Option.some.inj h).symm⟩

/-- A pair is created for every request within the bounds of the interface and the driver. -/
theorem ibvCreateQp_ne_none : ibvCreateQp multiSge admitted cap ≠ none ↔
    cap.maxSendSge ≤ rdmaMaxSge ∧ cap.maxRecvSge ≤ rdmaMaxRecvSge ∧ cap.maxInlineData ≤ ucMaxInlineData ∧
      admitted = true := by
  unfold ibvCreateQp
  by_cases hsge : rdmaMaxSge < cap.maxSendSge ∨ rdmaMaxRecvSge < cap.maxRecvSge
  · rw [if_pos hsge]
    refine iff_of_false (fun h => h rfl) ?_
    rintro ⟨hs, hr, -⟩
    omega
  · rw [if_neg hsge]
    dsimp only
    rw [sizesOk_rounded]
    push Not at hsge
    by_cases hadmitted : cap.maxInlineData ≤ ucMaxInlineData ∧ admitted = true
    · rw [if_neg (by simp [hadmitted])]
      exact iff_of_true (by simp) ⟨hsge.1, hsge.2, hadmitted⟩
    · rw [if_pos (by simpa [imp_iff_not_or] using hadmitted)]
      exact iff_of_false (fun h => h rfl) fun h => hadmitted h.2.2

/-- The capacities are met when a depth is not past 2048 and several entries are asked for where the interface
has them. -/
lemma covers_iff (h : ibvCreateQp multiSge admitted cap = some caps) : Covers cap caps ↔
    (cap.maxSendWr ≤ 2048 ∧ cap.maxRecvWr ≤ 2048) ∧
      (multiSge = true ∨ cap.maxSendSge ≤ 1 ∧ cap.maxRecvSge ≤ 1) := by
  obtain ⟨hsend, hrecv, rfl⟩ := ibvCreateQp_eq_some h
  constructor
  · rintro ⟨h1, h2, h3, h4, -⟩
    refine ⟨⟨le_roundQueueDepth.mp h1, le_roundQueueDepth.mp h2⟩, ?_⟩
    dsimp only at h3 h4
    split_ifs at h3 h4 with hmulti
    · exact .inl hmulti
    · exact .inr ⟨h3, h4⟩
  · rintro ⟨⟨h1, h2⟩, hsge⟩
    refine ⟨le_roundQueueDepth.mpr h1, le_roundQueueDepth.mpr h2, ?_, ?_, le_refl _⟩
    · dsimp only
      split_ifs with hmulti
      · exact hsend
      · exact (hsge.resolve_left hmulti).1
    · dsimp only
      split_ifs with hmulti
      · exact hrecv
      · exact (hsge.resolve_left hmulti).2

end MelonDMA.Verbs.QpCapacity
