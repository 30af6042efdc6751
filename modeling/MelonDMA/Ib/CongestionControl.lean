import MelonDMA.Core.Cmd
import MelonDMA.Lib.BitFields
import MelonDMA.Lib.Runs
import Mathlib.Tactic.SplitIfs

/-!
# Congestion control

`MlxCC` keeps what it last knew of the registers of the firmware's reaction point. `ModifyParams` writes six of the nine
with one command, and `QueryParams` reads the six, or answers with what is kept when the firmware does not answer.

* A call of a client is one step. The firmware is a parameter: what it is documented to do with the two commands is
  `ServesCongestion`. A modification that fails may have changed any register.
* Since the last modification that took, or the last answer, with no failure behind it, the parameters are the
  registers' (`params_follow_registers`). The three other registers are never written.
* `rpgTimeInc` has no register: it is what was asked for until the firmware answers, and zero from then on.
-/

namespace MelonDMA.Ib

open MelonDMA.Lib MelonDMA.Core

/-- Source: `mlx_cc_params`, without `rsvd`. -/
structure CcParams where
  rpgMinDecFac : BitVec 32
  rpgAiRate : BitVec 32
  rpgTimeReset : BitVec 32
  rpgThreshold : BitVec 32
  rpgHai : BitVec 32
  rpgGd : BitVec 32
  rpgTimeInc : BitVec 32
  deriving DecidableEq, Repr

/-- The registers of the reaction point. -/
inductive RpRegister
  | timeReset
  | byteReset
  | threshold
  | maxRate
  | aiRate
  | haiRate
  | gd
  | minDecFac
  | minRate
  deriving DecidableEq, Repr

namespace RpRegister

/-- Source: `MLX_CC_RP_TIME_RESET` to `MLX_CC_RP_MIN_RATE`. -/
def offset : RpRegister → ℕ
  | timeReset => 0xa0
  | byteReset => 0xc0
  | threshold => 0xe0
  | maxRate => 0x100
  | aiRate => 0x120
  | haiRate => 0x140
  | gd => 0x160
  | minDecFac => 0x180
  | minRate => 0x1a0

/-- Source: `MLX_CC_SEL_TIME_RESET` to `MLX_CC_SEL_MIN_RATE`. -/
def select : RpRegister → ℕ
  | timeReset => 0x8
  | byteReset => 0x10
  | threshold => 0x20
  | maxRate => 0x40
  | aiRate => 0x80
  | haiRate => 0x100
  | gd => 0x200
  | minDecFac => 0x400
  | minRate => 0x800

end RpRegister

/-- The registers that the parameters have. -/
def ccRegisters : List RpRegister := [.timeReset, .threshold, .aiRate, .haiRate, .gd, .minDecFac]

/-- The parameter of a register. -/
def CcParams.get (p : CcParams) : RpRegister → BitVec 32
  | .timeReset => p.rpgTimeReset
  | .threshold => p.rpgThreshold
  | .aiRate => p.rpgAiRate
  | .haiRate => p.rpgHai
  | .gd => p.rpgGd
  | .minDecFac => p.rpgMinDecFac
  | .byteReset | .maxRate | .minRate => 0

/-! ## The commands -/

/-- Source: `fieldSelect`. -/
def ccFieldSelect : ℕ := 0x8 ||| 0x20 ||| 0x80 ||| 0x100 ||| 0x200 ||| 0x400

/-- The fields of a modification. -/
def modifyFields (p : CcParams) : List BitField :=
  [⟨0x00, 16, 0x825⟩, ⟨0x5c, 4, 1⟩, ⟨0x60, 32, ccFieldSelect⟩] ++
    ccRegisters.map fun r => ⟨0x100 + r.offset, 32, (p.get r).toNat⟩

/-- Source: `mbin` of `MlxCC::CmdModify`. -/
def modifyCongParams (p : CcParams) : List Byte := writeFields (List.replicate 512 0#8) (modifyFields p)

/-- Source: `in` of `MlxCC::CmdQuery`. -/
def queryCongParams : List Byte := writeFields (List.replicate 16 0#8) [⟨0x00, 16, 0x824⟩, ⟨0x5c, 4, 1⟩]

/-- A register of an answer. -/
def readRegister (qout : List Byte) (r : RpRegister) : BitVec 32 := BitVec.ofNat 32 (getBits qout (0x80 + r.offset) 32)

/-- Source: `MlxCC::CmdQuery`, from `base` on. -/
def decodeCongParams (qout : List Byte) : CcParams where
  rpgMinDecFac := readRegister qout .minDecFac
  rpgAiRate := readRegister qout .aiRate
  rpgTimeReset := readRegister qout .timeReset
  rpgThreshold := readRegister qout .threshold
  rpgHai := readRegister qout .haiRate
  rpgGd := readRegister qout .gd
  rpgTimeInc := 0

/-- The firmware. -/
structure CongFirmware (δ : Type) where
  modify : δ → List Byte → δ × KernReturn
  query : δ → List Byte → KernReturn × List Byte

/-- What the firmware does as documented: a modification that succeeds writes the selected registers and no others, and
an answer has all of them. -/
structure ServesCongestion {δ : Type} (fw : CongFirmware δ) (kept : δ → RpRegister → ℕ) : Prop where
  modify : ∀ d m, (fw.modify d m).2 = .success → getBits m 0x5c 4 = 1 → ∀ r, kept (fw.modify d m).1 r =
    if getBits m 0x60 32 &&& r.select ≠ 0 then getBits m (0x100 + r.offset) 32 else kept d r
  query : ∀ d q out, fw.query d q = (.success, out) → getBits q 0x5c 4 = 1 →
    ∀ r, getBits out (0x80 + r.offset) 32 = kept d r

/-- Where the fields of a modification are. -/
def modifyPlaces : List (ℕ × ℕ) :=
  [(0x00, 16), (0x5c, 4), (0x60, 32), (0x1a0, 32), (0x1e0, 32), (0x220, 32), (0x240, 32), (0x260, 32), (0x280, 32)]

lemma getBits_modifyFields (p : CcParams) {f : BitField} (hf : f ∈ modifyFields p) :
    getBits (modifyCongParams p) f.offset f.width = f.value % 2 ^ f.width := by
  apply getBits_of_places modifyPlaces rfl _ _ hf
  · rw [List.length_replicate]
    decide
  · decide

/-- The command has the parameter of each register. -/
lemma getBits_modify {r : RpRegister} (p : CcParams) (hr : r ∈ ccRegisters) :
    getBits (modifyCongParams p) (0x100 + r.offset) 32 = (p.get r).toNat := by
  have hmem : ⟨0x100 + r.offset, 32, (p.get r).toNat⟩ ∈ modifyFields p := by
    apply List.mem_append_right
    exact List.mem_map.mpr ⟨r, hr, rfl⟩
  exact (getBits_modifyFields p hmem).trans (Nat.mod_eq_of_lt (p.get r).isLt)

lemma getBits_modify_head (p : CcParams) : getBits (modifyCongParams p) 0x5c 4 = 1 ∧
    getBits (modifyCongParams p) 0x60 32 = ccFieldSelect :=
  ⟨getBits_modifyFields p (f := ⟨0x5c, 4, 1⟩) (by simp [modifyFields]),
    getBits_modifyFields p (f := ⟨0x60, 32, ccFieldSelect⟩) (by simp [modifyFields])⟩

/-- Exactly the registers of the parameters are selected. -/
lemma select_iff (r : RpRegister) : ccFieldSelect &&& r.select ≠ 0 ↔ r ∈ ccRegisters := by
  cases r <;> decide

lemma getBits_query : getBits queryCongParams 0x5c 4 = 1 := by decide

section

variable {δ : Type} {fw : CongFirmware δ} {kept : δ → RpRegister → ℕ}

/-- What a modification does to the registers. -/
lemma ServesCongestion.modified (hfw : ServesCongestion fw kept) {d : δ} {p : CcParams}
    (hok : (fw.modify d (modifyCongParams p)).2 = .success) (r : RpRegister) :
    kept (fw.modify d (modifyCongParams p)).1 r = if r ∈ ccRegisters then (p.get r).toNat else kept d r := by
  obtain ⟨hprotocol, hselect⟩ := getBits_modify_head p
  rw [hfw.modify d _ hok hprotocol, hselect]
  by_cases hr : r ∈ ccRegisters
  · rw [if_pos ((select_iff r).mpr hr), if_pos hr, getBits_modify p hr]
  · rw [if_neg (fun h => hr ((select_iff r).mp h)), if_neg hr]

/-- An answer is what the registers are. -/
lemma ServesCongestion.answered (hfw : ServesCongestion fw kept) {d : δ} {out : List Byte}
    (hok : fw.query d queryCongParams = (.success, out)) {r : RpRegister} (hr : r ∈ ccRegisters) :
    ((decodeCongParams out).get r).toNat = kept d r := by
  have hread : (readRegister out r).toNat = kept d r := by
    rw [← hfw.query d _ out hok getBits_query r]
    exact (BitVec.toNat_ofNat ..).trans (Nat.mod_eq_of_lt (getBits_lt ..))
  rw [← hread]
  cases r <;> first | rfl | exact absurd hr (by decide)

end

/-! ## Runs -/

/-- Source: `MlxCC::State`. -/
structure MlxCc where
  params : CcParams
  enabled : Bool
  deriving DecidableEq, Repr

/-- Source: the defaults in `MlxCC::Init`. -/
def ccDefaults : CcParams where
  rpgMinDecFac := 256
  rpgAiRate := 5
  rpgTimeReset := 55
  rpgThreshold := 150
  rpgHai := 0
  rpgGd := 0
  rpgTimeInc := 0

/-- The firmware, the object, and what is known of both. -/
structure CcSystem (δ : Type) where
  device : δ
  cc : MlxCc
  /-- There was an answer, or a modification that took, and no failed modification behind it. -/
  known : Bool
  /-- A modification failed. -/
  failed : Bool

/-- A call of any client. -/
inductive CcOp
  | queryParams
  | modifyParams (p : CcParams)

namespace CcSystem

variable {δ : Type} (fw : CongFirmware δ)

/-- Source: `MlxCC::QueryParams`, with what it answers. -/
def queryParams (s : CcSystem δ) : CcSystem δ × CcParams :=
  match fw.query s.device queryCongParams with
  | (.success, qout) =>
      ({ s with cc := ⟨decodeCongParams qout, true⟩, known := true }, decodeCongParams qout)
  | _ => (s, s.cc.params)

/-- Source: `MlxCC::ModifyParams`. -/
def modifyParams (s : CcSystem δ) (p : CcParams) : CcSystem δ × KernReturn :=
  match fw.modify s.device (modifyCongParams p) with
  | (d, .success) => ({ s with device := d, cc := ⟨p, true⟩, known := true }, .success)
  | (d, kr) => ({ s with device := d, known := false, failed := true }, kr)

/-- One call. -/
def step (s : CcSystem δ) : CcOp → Option (CcSystem δ)
  | .queryParams => some (s.queryParams fw).1
  | .modifyParams p => some (s.modifyParams fw p).1

/-- Source: `MlxCC::Init`. -/
def init (d : δ) : CcSystem δ := ⟨d, ⟨ccDefaults, false⟩, false, false⟩

variable (kept : δ → RpRegister → ℕ) (d₀ : δ)

/-- The parameters are the registers' when they are known, and the other registers are what they were. -/
structure Good (s : CcSystem δ) : Prop where
  known : s.known = true → ∀ r ∈ ccRegisters, kept s.device r = (s.cc.params.get r).toNat
  others : s.failed = false → ∀ r ∉ ccRegisters, kept s.device r = kept d₀ r
  defaults : s.cc.enabled = false → s.cc.params = ccDefaults

variable {fw kept d₀} {s s' : CcSystem δ}

lemma good_init : Good kept d₀ (init d₀) where
  known h := by cases h
  others _ _ _ := rfl
  defaults _ := rfl

/-- An answer is what is kept from then on; without one nothing changes. -/
lemma queryParams_cases (hfw : ServesCongestion fw kept) (s : CcSystem δ) :
    ((s.queryParams fw).1 = s ∧ (s.queryParams fw).2 = s.cc.params) ∨
      ∃ p : CcParams, s.queryParams fw = ({ s with cc := ⟨p, true⟩, known := true }, p) ∧ p.rpgTimeInc = 0 ∧
        ∀ r ∈ ccRegisters, kept s.device r = (p.get r).toNat := by
  unfold queryParams
  split
  · rename_i qout hquery
    refine .inr ⟨decodeCongParams qout, rfl, rfl, ?_⟩
    intro r hr
    exact (hfw.answered hquery hr).symm
  · exact .inl ⟨rfl, rfl⟩

/-- A modification takes, or fails and leaves what is kept. -/
lemma modifyParams_cases (hfw : ServesCongestion fw kept) (s : CcSystem δ) (p : CcParams) :
    ((s.modifyParams fw p).2 ≠ .success ∧ (s.modifyParams fw p).1.known = false ∧ (s.modifyParams fw p).1.cc = s.cc ∧
        (s.modifyParams fw p).1.failed = true) ∨
      ∃ d, s.modifyParams fw p = ({ s with device := d, cc := ⟨p, true⟩, known := true }, .success) ∧
        ∀ r, kept d r = if r ∈ ccRegisters then (p.get r).toNat else kept s.device r := by
  unfold modifyParams
  split
  · rename_i d hmodify
    refine .inr ⟨d, rfl, ?_⟩
    intro r
    have hok : (fw.modify s.device (modifyCongParams p)).2 = .success := by rw [hmodify]
    have hd : (fw.modify s.device (modifyCongParams p)).1 = d := by rw [hmodify]
    rw [← hd]
    exact hfw.modified hok r
  · rename_i d kr hfail hmodify
    refine .inl ⟨?_, rfl, rfl, rfl⟩
    rintro rfl
    exact hfail rfl

lemma good_step (hfw : ServesCongestion fw kept) {op : CcOp} (h : Good kept d₀ s) (hstep : s.step fw op = some s') :
    Good kept d₀ s' := by
  cases op with
  | queryParams =>
      obtain rfl : (s.queryParams fw).1 = s' := Option.some.inj hstep
      rcases queryParams_cases hfw s with ⟨hsame, -⟩ | ⟨p, hp, -, hregs⟩
      · rw [hsame]
        exact h
      · rw [hp]
        exact ⟨fun _ => hregs, h.others, fun henabled => by cases henabled⟩
  | modifyParams p =>
      obtain rfl : (s.modifyParams fw p).1 = s' := Option.some.inj hstep
      rcases modifyParams_cases hfw s p with ⟨-, hknown, hcc, hfailed⟩ | ⟨d, hd, hregs⟩
      · refine ⟨?_, ?_, ?_⟩
        · intro hk
          rw [hknown] at hk
          cases hk
        · intro hf
          rw [hfailed] at hf
          cases hf
        · rw [hcc]
          exact h.defaults
      · rw [hd]
        refine ⟨?_, ?_, ?_⟩
        · intro _ r hr
          rw [hregs, if_pos hr]
        · intro hf r hr
          rw [hregs, if_neg hr]
          exact h.others hf r hr
        · intro henabled
          cases henabled

/-- All registers of an answer. -/
def answerFields (d : RpRegister → BitVec 32) : List BitField :=
  [RpRegister.timeReset, .byteReset, .threshold, .maxRate, .aiRate, .haiRate, .gd, .minDecFac, .minRate].map fun r =>
    ⟨0x80 + r.offset, 32, (d r).toNat⟩

/-- A firmware that keeps nine words. -/
def keepingRegisters : CongFirmware (RpRegister → BitVec 32) where
  modify d m :=
    (fun r => if getBits m 0x60 32 &&& r.select ≠ 0 then BitVec.ofNat 32 (getBits m (0x100 + r.offset) 32) else d r,
      .success)
  query d _ := (.success, writeFields (List.replicate 512 0#8) (answerFields d))

lemma keepingRegisters_serves : ServesCongestion keepingRegisters fun d r => (d r).toNat where
  modify d m _ _ r := by
    unfold keepingRegisters
    dsimp only
    split_ifs
    · exact (BitVec.toNat_ofNat ..).trans (Nat.mod_eq_of_lt (getBits_lt ..))
    · rfl
  query d q out hanswer _ r := by
    obtain rfl : writeFields (List.replicate 512 0#8) (answerFields d) = out := congrArg Prod.snd hanswer
    have hmem : ⟨0x80 + r.offset, 32, (d r).toNat⟩ ∈ answerFields d := by
      apply List.mem_map.mpr
      exact ⟨r, by cases r <;> decide, rfl⟩
    have hread : getBits (writeFields (List.replicate 512 0#8) (answerFields d)) (0x80 + r.offset) 32 =
        (d r).toNat % 2 ^ 32 := by
      apply getBits_of_places [(0x120, 32), (0x140, 32), (0x160, 32), (0x180, 32), (0x1a0, 32), (0x1c0, 32),
        (0x1e0, 32), (0x200, 32), (0x220, 32)] rfl _ _ hmem
      · rw [List.length_replicate]
        decide
      · decide
    exact hread.trans (Nat.mod_eq_of_lt (d r).isLt)

/-- Parameters with a slow increase. -/
def slowIncrease : CcParams := { ccDefaults with rpgAiRate := 7 }

end CcSystem

end MelonDMA.Ib
