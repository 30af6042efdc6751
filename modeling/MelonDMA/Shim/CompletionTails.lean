import MelonDMA.Ib.QpComplete
import MelonDMA.Shim.RdmaQp

/-!
# Tails from completions

A completion names an element by the low 16 bits of its position. The driver (`mlxQpExpandCounter`) and the
client (`rdma_poll_cq_direct`) take the position to be the last one with these bits that the producer has come to.

* A position fewer than `2 ^ 16` behind the producer comes back.
* When the producer is below the counter there is no such position, and the difference goes below zero: the result
  is past the producer (`expand_counter_iff`), and so is the tail (`completeRecv_past`).
* Both sides move their tails alike (`directRecv_alike`, `directSend_alike`).

The rest of a completion on the client's side is left out.
-/

namespace MelonDMA.Shim

open MelonDMA.Lib MelonDMA.Ib

/-! ## The two sides -/

/-- Source: `mlxQpExpandCounter`. -/
def mlxQpExpandCounter (producer : BitVec 64) (counter : BitVec 16) : BitVec 64 :=
  let value := producer &&& ~~~0xffff#64 ||| counter.setWidth 64
  if producer < value then value - 0x10000#64 else value

/-- Source: `done` in `rdma_poll_cq_direct` and `rdma_poll_cq`, which spell it out. -/
def directDone (head : BitVec 64) (counter : BitVec 16) : BitVec 64 := mlxQpExpandCounter head counter

namespace RdmaQp

/-- Drop the notes of the elements from `oldTail` on. Each turn goes on by one slot at least, so as many turns as
slots are enough. Source: `while (old_tail < tail)`. -/
def retireLoop (tail : ℕ) : ℕ → ℕ → RdmaQp → RdmaQp
  | 0, _, qp => qp
  | turns + 1, oldTail, qp =>
      if oldTail < tail then
        let retired := QpContext.slot qp.sq oldTail
        let span := qp.sqSpan retired
        retireLoop tail turns (oldTail + if span = 0 then 1 else span)
          { qp with
            sqSpan := Function.update qp.sqSpan retired 0
            sqWrid := Function.update qp.sqWrid retired 0
            sqOpcode := Function.update qp.sqOpcode retired 0
            sqAtomicResult := Function.update qp.sqAtomicResult retired 0 }
      else qp

/-- Move the send tail behind the element that a completion names. -/
def directSend (qp : RdmaQp) (counter : ℕ) : RdmaQp :=
  let done := (directDone (BitVec.ofNat 64 qp.sqHead) (BitVec.ofNat 16 counter)).toNat
  let tail := add64 done (qp.sqSpan (QpContext.slot qp.sq counter))
  if qp.sqTail < tail then retireLoop tail (tail - qp.sqTail) qp.sqTail { qp with sqTail := tail } else qp

/-- Move the receive tail behind the element that a completion names. -/
def directRecv (qp : RdmaQp) (counter : ℕ) : RdmaQp :=
  let done := (directDone (BitVec.ofNat 64 qp.rqHead) (BitVec.ofNat 16 counter)).toNat
  if qp.rqTail < add64 done 1 then { qp with rqTail := add64 done 1 } else qp

end RdmaQp

/-- The positions that a counter can stand for. -/
structure StandsFor (producer : BitVec 64) (counter : BitVec 16) (i : BitVec 64) : Prop where
  le : i ≤ producer
  near : producer - i < 65536#64
  low : i.setWidth 16 = counter

/-- What a position that was made of a counter should be. -/
structure Expanded (producer : BitVec 64) (counter : BitVec 16) (result : BitVec 64) : Prop where
  recovers : ∀ i, StandsFor producer counter i → result = i
  below : (¬∃ i, StandsFor producer counter i) → result ≤ producer

/-! ## Positions -/

section

variable (producer : BitVec 64) (counter : BitVec 16)

lemma toNat_high_or_low : (producer &&& ~~~0xffff#64 ||| counter.setWidth 64).toNat =
    producer.toNat / 2 ^ 16 * 2 ^ 16 + counter.toNat := by
  have hcounter := counter.isLt
  have hproducer := producer.isLt
  have hmask : ~~~0xffff#64 = BitVec.allOnes 64 <<< 16 := by decide
  have hhigh : (producer &&& ~~~0xffff#64).toNat = (producer.toNat / 2 ^ 16) <<< 16 := by
    rw [hmask, ← BitVec.shiftLeft_ushiftRight, BitVec.toNat_shiftLeft, BitVec.toNat_ushiftRight,
      Nat.shiftRight_eq_div_pow, Nat.shiftLeft_eq]
    omega
  rw [BitVec.toNat_or, hhigh, BitVec.toNat_setWidth, Nat.mod_eq_of_lt (by omega),
    ← Nat.shiftLeft_add_eq_or_of_lt hcounter, Nat.shiftLeft_eq]

/-- The word that the driver computes is the position of the library. -/
lemma toNat_mlxQpExpandCounter :
    (mlxQpExpandCounter producer counter).toNat = expand16 producer.toNat counter.toNat := by
  have hvalue := toNat_high_or_low producer counter
  unfold mlxQpExpandCounter expand16
  rw [← hvalue]
  dsimp only
  by_cases hpast : producer < producer &&& ~~~0xffff#64 ||| counter.setWidth 64
  · rw [if_pos hpast, if_pos (BitVec.lt_def.mp hpast), BitVec.toNat_sub]
    unfold sub64
    rw [Nat.add_comm]
    rfl
  · rw [if_neg hpast, if_neg (mt BitVec.lt_def.mpr hpast)]

/-- A counter stands for a position exactly when the producer is not below it. -/
lemma exists_standsFor_iff : (∃ i, StandsFor producer counter i) ↔ counter.toNat ≤ producer.toNat := by
  have hcounter := counter.isLt
  have hproducer := producer.isLt
  constructor
  · rintro ⟨i, h⟩
    have hle := BitVec.le_def.mp h.le
    have hlow := congrArg BitVec.toNat h.low
    rw [BitVec.toNat_setWidth] at hlow
    omega
  · intro hle
    have hvalue := toNat_mlxQpExpandCounter producer counter
    obtain ⟨value, hresult⟩ : ∃ value, value = mlxQpExpandCounter producer counter := ⟨_, rfl⟩
    rw [← hresult] at hvalue
    have hnear : value.toNat ≤ producer.toNat ∧ producer.toNat - value.toNat < 65536 ∧
        value.toNat % 2 ^ 16 = counter.toNat := by
      rw [hvalue]
      unfold expand16 sub64
      split_ifs <;> omega
    refine ⟨value, BitVec.le_def.mpr hnear.1, ?_, BitVec.eq_of_toNat_eq ?_⟩
    · rw [BitVec.lt_def, BitVec.toNat_sub_of_le (BitVec.le_def.mpr hnear.1)]
      exact hnear.2.1
    · rw [BitVec.toNat_setWidth]
      exact hnear.2.2

/-- A position that a counter stands for comes back. -/
lemma mlxQpExpandCounter_eq {i : BitVec 64} (h : StandsFor producer counter i) :
    mlxQpExpandCounter producer counter = i := by
  have hle := BitVec.le_def.mp h.le
  have hnear := BitVec.lt_def.mp h.near
  rw [BitVec.toNat_sub_of_le h.le] at hnear
  have hlow := congrArg BitVec.toNat h.low
  rw [BitVec.toNat_setWidth] at hlow
  refine BitVec.eq_of_toNat_eq ?_
  rw [toNat_mlxQpExpandCounter, ← hlow]
  exact expand16_eq hle (by change _ < 65536 at hnear; omega) producer.isLt

/-- When the producer is below the counter, the difference goes below zero. -/
lemma toNat_mlxQpExpandCounter_of_lt (hlt : producer.toNat < counter.toNat) :
    (mlxQpExpandCounter producer counter).toNat = 2 ^ 64 - 2 ^ 16 + counter.toNat := by
  rw [toNat_mlxQpExpandCounter, expand16_of_lt hlt counter.isLt]

end

/-! ## Every completion -/

/-- For every producer and every counter: the position is the one that the counter stands for, or not past the
producer when it stands for none, exactly when the producer is not below the counter. The client computes what the
driver does. -/
theorem expand_counter_iff (producer : BitVec 64) (counter : BitVec 16) :
    (Expanded producer counter (mlxQpExpandCounter producer counter) ↔ counter.toNat ≤ producer.toNat) ∧
      (Expanded producer counter (directDone producer counter) ↔ counter.toNat ≤ producer.toNat) := by
  have hdriver : Expanded producer counter (mlxQpExpandCounter producer counter) ↔
      counter.toNat ≤ producer.toNat := by
    constructor
    · intro h
      by_contra hpast
      have hnone : ¬∃ i, StandsFor producer counter i := mt (exists_standsFor_iff producer counter).mp hpast
      have hle := BitVec.le_def.mp (h.below hnone)
      rw [toNat_mlxQpExpandCounter_of_lt producer counter (by omega)] at hle
      have hcounter := counter.isLt
      omega
    · intro hle
      refine ⟨fun i hi => mlxQpExpandCounter_eq producer counter hi, fun hnone => ?_⟩
      exact absurd ((exists_standsFor_iff producer counter).mpr hle) hnone
  exact ⟨hdriver, hdriver⟩

/-- An entry of the second element on a pair that was reset. -/
theorem reset_pair_expands_past : ¬Expanded 0#64 1#16 (mlxQpExpandCounter 0#64 1#16) := by
  intro h
  have hnone : ¬∃ i, StandsFor 0#64 1#16 i := mt (exists_standsFor_iff 0#64 1#16).mp (by decide)
  exact absurd (h.below hnone) (by decide)

/-! ## Tails -/

section

variable {qp : RdmaQp} {ctx : QpContext} {counter : ℕ}

lemma toNat_directDone {head : ℕ} (hhead : head < 2 ^ 64) (hcounter : counter < 2 ^ 16) :
    (directDone (BitVec.ofNat 64 head) (BitVec.ofNat 16 counter)).toNat = expand16 head counter := by
  rw [directDone, toNat_mlxQpExpandCounter, BitVec.toNat_ofNat, BitVec.toNat_ofNat, Nat.mod_eq_of_lt hhead,
    Nat.mod_eq_of_lt hcounter]

@[simp] lemma retireLoop_sqTail (tail turns oldTail : ℕ) (qp : RdmaQp) :
    (qp.retireLoop tail turns oldTail).sqTail = qp.sqTail := by
  induction turns generalizing oldTail qp with
  | zero => rfl
  | succ turns ih =>
      rw [RdmaQp.retireLoop]
      split_ifs
      · exact ih _ _
      · rfl

/-- Both sides move a receive tail alike. -/
theorem directRecv_alike (hhead : qp.rqHead = ctx.rqHead) (htail : qp.rqTail = ctx.rqTail)
    (hbound : ctx.rqHead < 2 ^ 64) (hcounter : counter < 2 ^ 16) :
    (qp.directRecv counter).rqTail = (ctx.completeRecv counter).rqTail := by
  rw [RdmaQp.directRecv, QpContext.completeRecv, hhead, htail, toNat_directDone hbound hcounter]
  split_ifs
  · rfl
  · exact htail

/-- Both sides move a send tail alike, over an element that both have the span of. -/
theorem directSend_alike (hsq : qp.sq = ctx.sq) (hhead : qp.sqHead = ctx.sqHead) (htail : qp.sqTail = ctx.sqTail)
    (hspan : qp.sqSpan (QpContext.slot ctx.sq counter) = ctx.sqSpan (QpContext.slot ctx.sq counter))
    (hposted : ctx.sqSpan (QpContext.slot ctx.sq counter) ≠ 0) (hbound : ctx.sqHead < 2 ^ 64)
    (hcounter : counter < 2 ^ 16) :
    (qp.directSend counter).sqTail = (ctx.completeSend counter).sqTail := by
  have hspanAt : ctx.spanAt (QpContext.slot ctx.sq counter) = ctx.sqSpan (QpContext.slot ctx.sq counter) :=
    if_neg hposted
  rw [RdmaQp.directSend, QpContext.completeSend, hsq, hhead, htail, toNat_directDone hbound hcounter, hspan, hspanAt]
  split_ifs
  · exact retireLoop_sqTail ..
  · exact htail

/-- An entry past all receives takes the tail past the head. -/
theorem completeRecv_past (htail : ctx.rqTail ≤ ctx.rqHead) (hpast : ctx.rqHead < counter)
    (hcounter : counter < 2 ^ 16 - 1) : ctx.rqHead < (ctx.completeRecv counter).rqTail := by
  have hdone : add64 (expand16 ctx.rqHead counter) 1 = 2 ^ 64 - 2 ^ 16 + counter + 1 := by
    rw [expand16_of_lt hpast (by omega), add64_of_lt (by omega)]
  rw [QpContext.completeRecv, hdone, if_pos (by omega)]
  dsimp only
  omega

end

end MelonDMA.Shim
