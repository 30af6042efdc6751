import MelonDMA.Hw.IndirectMkey
import MelonDMA.Ib.MrTable
import MelonDMA.Ib.QpAccepts

/-!
# Indirect regions handed to the firmware

`MlxMR::RegMRIndirect` hands the children of a region over in a command, `MlxQP::PostUmrKlm` in an element
of the send ring. Either call accepts children of any length, and any length for the region: the firmware
gets the region whole exactly when every child is shorter than `2 ^ 32` bytes and the children are as long
as the region together (`indirect_described_iff`).
-/

namespace MelonDMA.Ib

open MelonDMA.Lib MelonDMA.Core MelonDMA.Hw

/-! ## The calls -/

namespace MrTable

variable (s : MrTable)

/-- The entries of the children. Source: the loops over `childHandles` in `MlxMR::RegMRIndirect` and
`MlxQP::PostUmrKlm`. -/
def klms (childHandles : List ℕ) : Option (List KlmEntry) :=
  childHandles.mapM fun h => (s.lookup h).map fun e => ⟨e.startAddr, e.length, e.lkey⟩

/-- The buffer of the command, zeroed. -/
def indirectInput : List Byte := zeroBytes (createMkeyFixedBytes + ucMaxIndirectChildren * klmEntryBytes)

/-- The command that `MlxMR::RegMRIndirect` sends, and its size. -/
def indirectCommand (req : RegMrReq) (childHandles : List ℕ) : Option (List Byte × ℕ) :=
  (s.klms childHandles).bind fun klms =>
    (mlxEncodeCreateMkeyIndirect indirectInput klms req.startAddr req.length (req.accessFlags % 2 ^ 5) req.pd
      s.variant).map fun p => (sentMkey p.1, p.2)

/-- `MlxMR::RegMRIndirect` with a device that answers the command; an encoder that refuses ends it. -/
def regMrIndirectOn (device : List Byte → Except KernReturn ℕ) (req : RegMrReq) (childHandles : List ℕ) :
    MrTable × KernReturn :=
  s.regMrIndirect req childHandles
    (match s.indirectCommand req childHandles with
      | none => .error .badArgument
      | some (input, size) => device (input.take size))

/-- The entries have the types of the fields of `MlxMRContext`. -/
def Typed : Prop :=
  ∀ o ∈ s.table, ∀ e ∈ o, e.startAddr < 2 ^ 64 ∧ e.length < 2 ^ 64 ∧ e.lkey < 2 ^ 32

instance : Decidable s.Typed := by
  unfold Typed
  infer_instance

end MrTable

/-- A call that hands an indirect region to the firmware. -/
inductive IndirectCall
  | regMrIndirect (device : List Byte → Except KernReturn ℕ) (req : RegMrReq) (childHandles : List ℕ)
  | postUmrKlm (w : World) (ctx : QpContext) (ring : Memory) (req : UmrKlmReq)

namespace IndirectCall

variable (s : MrTable)

/-- The call succeeds. -/
def Accepted : IndirectCall → Prop
  | .regMrIndirect device req childHandles => (s.regMrIndirectOn device req childHandles).2 = .success
  | .postUmrKlm w ctx _ req => (ctx.postUmrKlm (s.world w) req).kr = .success

/-- The children, in the order of the request. -/
def children : IndirectCall → List KlmEntry
  | .regMrIndirect _ _ childHandles => (s.klms childHandles).getD []
  | .postUmrKlm _ _ _ req => (s.klms req.childHandles).getD []

/-- Where the region begins, and how long it is declared to be. -/
def declared : IndirectCall → ℕ × ℕ
  | .regMrIndirect _ req _ => (req.startAddr, req.length)
  | .postUmrKlm _ _ _ req =>
      match s.lookup req.mrHandle with
      | some e => (e.startAddr, e.length)
      | none => (0, 0)

/-- The units of 16 bytes that the entries take: one each, and in an element whole blocks. -/
def octowords : IndirectCall → ℕ
  | .regMrIndirect _ _ childHandles => childHandles.length
  | .postUmrKlm _ _ _ req => (req.childHandles.length + 3) / 4 * 4

/-- What the firmware reads: the command, or the element in the ring. -/
def view : IndirectCall → Option KeyView
  | .regMrIndirect _ req childHandles => (s.indirectCommand req childHandles).map fun p =>
      readIndirectMkey p.1 p.2
  | .postUmrKlm w ctx ring req => some (readUmrKlm
      (elementAt ctx.sq (ring.writeAll (ctx.postUmrKlm (s.world w) req).sqStores) ctx.sqHead))

/-- The arguments have the types of the request. -/
def Typed : IndirectCall → Prop
  | .regMrIndirect _ req _ => req.startAddr < 2 ^ 64 ∧ req.length < 2 ^ 64
  | .postUmrKlm .. => True

/-- The firmware is told of the region whole. -/
def Described (c : IndirectCall) : Prop :=
  ∃ v, c.view s = some v ∧
    v.Describes (c.children s) (c.declared s).1 (c.declared s).2 c.octowords

end IndirectCall

/-! ## What is handed over -/

section

variable {s : MrTable} {w : World} {ctx : QpContext}

lemma lookup_world (handle : ℕ) : (s.world w).lookup handle =
    (s.lookup handle).map fun e => ⟨e.lkey, e.accessFlags, e.startAddr, e.length, e.isWindow⟩ := rfl

lemma klmList_world (childHandles : List ℕ) :
    QpContext.klmList (s.world w) childHandles = s.klms childHandles := by
  unfold QpContext.klmList MrTable.klms MrTable.world
  dsimp only
  congr 1
  funext h
  rw [Option.map_map]
  rfl

/-- The children of a typed table are typed. -/
lemma typed_klms (hs : s.Typed) {childHandles : List ℕ} {klms : List KlmEntry}
    (h : s.klms childHandles = some klms) :
    klms.length = childHandles.length ∧ ∀ klm ∈ klms, klm.Typed := by
  unfold MrTable.klms at h
  induction childHandles generalizing klms with
  | nil =>
      obtain rfl : [] = klms := by simpa using h
      exact ⟨rfl, fun klm hklm => absurd hklm List.not_mem_nil⟩
  | cons c cs ih =>
      rw [List.mapM_cons] at h
      obtain ⟨klm, hfirst, hrest⟩ := Option.bind_eq_some_iff.mp h
      obtain ⟨klms', htail, hcons⟩ := Option.bind_eq_some_iff.mp hrest
      obtain rfl : klm :: klms' = klms := by simpa using hcons
      obtain ⟨hlength, hlater⟩ := ih htail
      obtain ⟨e, he, rfl⟩ := Option.map_eq_some_iff.mp hfirst
      obtain ⟨i, -, hentry⟩ := Option.bind_eq_some_iff.mp he
      obtain ⟨hstart, hlen, hkey⟩ := hs _ (mem_of_entry hentry) e rfl
      refine ⟨by rw [List.length_cons, List.length_cons, hlength], ?_⟩
      intro klm hklm
      rcases List.mem_cons.mp hklm with rfl | hin
      · exact ⟨hstart, hlen, hkey⟩
      · exact hlater klm hin

/-- The copy loop copies whole blocks, one to each slot. -/
lemma umrCopy_eq (r : RingSize) (flat : Memory) (head k : ℕ) {n j fuel : ℕ} (hfuel : n ≤ fuel)
    (hend : j + n = k) :
    QpContext.umrCopy r flat (k * 64) fuel (j * 64) (QpContext.slot r (head + j)) =
      (List.range n).map fun i => ⟨QpContext.slot r (head + (j + i)) * 64, flat.slice ((j + i) * 64) 64⟩ := by
  induction n generalizing j fuel with
  | zero =>
      cases fuel with
      | zero => rfl
      | succ fuel =>
          rw [QpContext.umrCopy, if_pos (by omega)]
          rfl
  | succ n ih =>
      obtain ⟨fuel, rfl⟩ : ∃ f, fuel = f + 1 := ⟨fuel - 1, by omega⟩
      have hchunk : min (k * 64 - j * 64) 64 = 64 := by omega
      have hnext : j * 64 + 64 = (j + 1) * 64 := by omega
      have hslot : QpContext.slot r (QpContext.slot r (head + j) + 1) = QpContext.slot r (head + (j + 1)) := by
        unfold QpContext.slot
        rw [Nat.mod_add_mod, Nat.add_assoc]
      rw [QpContext.umrCopy, if_neg (by omega), List.range_succ_eq_map, List.map_cons, List.map_map]
      dsimp only
      rw [hchunk, hnext, hslot, ih (by omega) (by omega), Nat.add_zero]
      congr 1
      apply List.map_congr_left
      intro i _
      rw [Function.comp_apply, Nat.succ_eq_add_one, Nat.add_right_comm, Nat.add_assoc j i 1]

/-- A region that was registered: its command was encoded. -/
lemma command_of_success {device : List Byte → Except KernReturn ℕ} {req : RegMrReq} {childHandles : List ℕ}
    (h : (s.regMrIndirectOn device req childHandles).2 = .success) :
    ∃ klms input size, s.klms childHandles = some klms ∧
      mlxEncodeCreateMkeyIndirect MrTable.indirectInput klms req.startAddr req.length
        (req.accessFlags % 2 ^ 5) req.pd s.variant = some (input, size) ∧
      s.indirectCommand req childHandles = some (sentMkey input, size) := by
  rcases hcommand : s.indirectCommand req childHandles with _ | command
  · -- without a command the call ends with an error
    unfold MrTable.regMrIndirectOn MrTable.regMrIndirect at h
    rw [hcommand] at h
    dsimp only at h
    split_ifs at h
  · obtain ⟨klms, hklms, hencode⟩ := Option.bind_eq_some_iff.mp hcommand
    obtain ⟨⟨input, size⟩, hinput, rfl⟩ := Option.map_eq_some_iff.mp hencode
    exact ⟨klms, input, size, hklms, hinput, rfl⟩

/-- A post that was accepted: its element was encoded, fits the ring, and is in it. -/
lemma element_of_success {ring : Memory} {req : UmrKlmReq}
    (h : (ctx.postUmrKlm (s.world w) req).kr = .success) :
    ∃ mkey klms e, s.lookup req.mrHandle = some mkey ∧ s.klms req.childHandles = some klms ∧
      req.childHandles.length ≤ ucMaxIndirectChildren ∧
      mlxEncodeUmrKlmWqe (umrWqeFixedBytes + ucMaxIndirectChildren * klmEntryBytes) ctx.qpNum
        (ctx.sqHead % 2 ^ 16) mkey.lkey mkey.accessFlags mkey.startAddr mkey.length klms true = e ∧
      e.ds ≠ 0 ∧ ∀ o < wqeSpan e.ds * 64,
        elementAt ctx.sq (ring.writeAll (ctx.postUmrKlm (s.world w) req).sqStores) ctx.sqHead o =
          e.flat o := by
  unfold QpContext.postUmrKlm at h ⊢
  rw [klmList_world, lookup_world] at h ⊢
  by_cases hchildren : req.childHandles = [] ∨ ucMaxIndirectChildren < req.childHandles.length
  · rw [if_pos hchildren] at h
    cases h
  · rw [if_neg hchildren] at h ⊢
    rcases hmkey : s.lookup req.mrHandle with _ | mkey
    · rw [hmkey] at h
      cases h
    rcases hklms : s.klms req.childHandles with _ | klms
    · rw [hmkey, hklms] at h
      cases h
    rw [hmkey, hklms] at h
    dsimp only [Option.map_some] at h ⊢
    generalize henc : mlxEncodeUmrKlmWqe (umrWqeFixedBytes + ucMaxIndirectChildren * klmEntryBytes)
      ctx.qpNum (ctx.sqHead % 2 ^ 16) mkey.lkey mkey.accessFlags mkey.startAddr mkey.length klms true = e
      at h ⊢
    split_ifs at h with hqpn hready hst hempty hds hroom hring
    all_goals try cases h
    case neg => exact absurd h hring
    have hspan : e.ds * 16 = wqeSpan e.ds * 64 := by
      rw [umr_units henc hds, wqeSpan]
      omega
    refine ⟨mkey, klms, e, rfl, rfl, by omega, henc, hds, ?_⟩
    intro o ho
    have hfuel : wqeSpan e.ds ≤ wqeSpan e.ds * 64 := by omega
    have hcopy := umrCopy_eq ctx.sq e.flat ctx.sqHead (wqeSpan e.ds) (n := wqeSpan e.ds) (j := 0) hfuel
      (Nat.zero_add _)
    simp only [Nat.zero_mul, Nat.zero_add, Nat.add_zero] at hcopy
    rw [if_neg hqpn, if_neg hready, if_neg hst, if_neg hempty, if_neg hds, if_neg hroom, hspan]
    show elementAt ctx.sq (ring.writeAll (QpContext.umrCopy ctx.sq e.flat (wqeSpan e.ds * 64)
      (wqeSpan e.ds * 64) 0 (QpContext.slot ctx.sq ctx.sqHead))) ctx.sqHead o = e.flat o
    rw [hcopy]
    exact QpContext.elementAt_copyBlocks (by omega) ho

end

/-! ## Whole regions -/

section

variable {s : MrTable} {c : IndirectCall}

/-- What an accepted call hands over: the children with their lengths cut, and every count right. -/
theorem renders_of_accepted (hs : s.Typed) (hc : c.Typed) (haccepted : c.Accepted s) :
    ∃ v, c.view s = some v ∧ v.Renders (c.children s) (c.declared s).1 (c.declared s).2 c.octowords := by
  cases c with
  | regMrIndirect device req childHandles =>
      obtain ⟨klms, input, size, hklms, hencode, hcommand⟩ := command_of_success haccepted
      obtain ⟨hlength, htyped⟩ := typed_klms hs hklms
      have hrenders := renders_indirectMkey hencode hc.1 hc.2 htyped
      have hview : (IndirectCall.regMrIndirect device req childHandles).view s =
          some (readIndirectMkey (sentMkey input) size) := by
        unfold IndirectCall.view
        dsimp only
        rw [hcommand, Option.map_some]
      refine ⟨_, hview, ?_⟩
      unfold IndirectCall.children IndirectCall.declared IndirectCall.octowords
      dsimp only
      rw [hklms, Option.getD_some, ← hlength]
      exact hrenders
  | postUmrKlm w ctx ring req =>
      obtain ⟨mkey, klms, e, hmkey, hklms, hmany, hencode, hds, hring⟩ := element_of_success haccepted
      obtain ⟨hlength, htyped⟩ := typed_klms hs hklms
      obtain ⟨i, -, hentry⟩ := Option.bind_eq_some_iff.mp hmkey
      obtain ⟨hstart, hlen, -⟩ := hs _ (mem_of_entry hentry) mkey rfl
      unfold ucMaxIndirectChildren at hmany
      have hrenders := renders_umrKlm Memory.zero (Nat.mod_lt _ (by decide)) hstart hlen htyped (by omega)
        hencode hds
      refine ⟨_, rfl, ?_⟩
      unfold IndirectCall.children IndirectCall.declared IndirectCall.octowords
      dsimp only
      rw [hmkey, hklms, Option.getD_some, ← hlength]
      refine renders_of_same (by omega) ?_ hrenders
      intro o ho
      apply hring
      rw [wqeSpan, umr_units hencode hds]
      unfold umrWqeFixedBytes at ho
      omega

/-- A region that the firmware is told of whole had nothing to lose. -/
lemma whole_of_described (hs : s.Typed) (hc : c.Typed) (haccepted : c.Accepted s) (h : c.Described s) :
    KeyView.Whole (c.children s) (c.declared s).2 := by
  obtain ⟨v, hview, hrenders⟩ := renders_of_accepted hs hc haccepted
  obtain ⟨v', hview', hdescribes⟩ := h
  obtain rfl := Option.some.inj (hview.symm.trans hview')
  exact hrenders.describes_iff.mp hdescribes

/-- The firmware is told of a region whole exactly when every child is shorter than `2 ^ 32` bytes and the
children are as long as the region together. -/
theorem indirect_described_iff (hs : s.Typed) (hc : c.Typed) (haccepted : c.Accepted s) :
    c.Described s ↔ KeyView.Whole (c.children s) (c.declared s).2 := by
  refine ⟨whole_of_described hs hc haccepted, ?_⟩
  intro hwhole
  obtain ⟨v, hview, hrenders⟩ := renders_of_accepted hs hc haccepted
  exact ⟨v, hview, hrenders.describes_iff.mpr hwhole⟩

end

/-- A table with one region of 4096 bytes, handle 5. -/
def oneRegion : MrTable :=
  ((⟨List.replicate 4 none, 1⟩ : MrTable).regMr ⟨1, 0x10000, 4096, 7⟩ .success (.ok 5)).1

/-- The call that makes an indirect region out of others. -/
def makeRegion (length : ℕ) (childHandles : List ℕ) (index : ℕ) : IndirectCall :=
  .regMrIndirect (fun _ => .ok index) ⟨1, 0x20000, length, 7⟩ childHandles

/-- The table with a second region over the first, which is declared to have `2 ^ 32` bytes; handle 6. -/
def longRegion : MrTable := (oneRegion.regMrIndirectOn (fun _ => .ok 6) ⟨1, 0x20000, 2 ^ 32, 7⟩ [5]).1

/-- Twice the region of 4096 bytes makes one of 8192. -/
theorem indirect_described_twice : (makeRegion 8192 [5, 5] 6).Described oneRegion := by
  have hs : oneRegion.Typed := by decide +kernel
  have hc : (makeRegion 8192 [5, 5] 6).Typed := by
    unfold makeRegion IndirectCall.Typed
    decide
  have haccepted : (makeRegion 8192 [5, 5] 6).Accepted oneRegion := by
    unfold makeRegion IndirectCall.Accepted
    decide +kernel
  exact (indirect_described_iff hs hc haccepted).mpr (by decide +kernel)

/-- A region of `2 ^ 32` bytes is made of the one of 4096, and as a child of a third region it is handed over
with no bytes at all. -/
theorem indirect_not_described :
    ((makeRegion (2 ^ 32) [5] 6).Accepted oneRegion ∧ ¬(makeRegion (2 ^ 32) [5] 6).Described oneRegion) ∧
      (makeRegion (2 ^ 32) [6] 7).Accepted longRegion ∧
      ¬(makeRegion (2 ^ 32) [6] 7).Described longRegion := by
  have hc : ∀ childHandles index, (makeRegion (2 ^ 32) childHandles index).Typed := by
    intro childHandles index
    exact ⟨show 0x20000 < 2 ^ 64 by decide, show 2 ^ 32 < 2 ^ 64 by decide⟩
  have hshort : (makeRegion (2 ^ 32) [5] 6).Accepted oneRegion := by
    unfold makeRegion IndirectCall.Accepted
    decide +kernel
  have hlong : (makeRegion (2 ^ 32) [6] 7).Accepted longRegion := by
    unfold makeRegion IndirectCall.Accepted
    decide +kernel
  refine ⟨⟨hshort, ?_⟩, hlong, ?_⟩
  · intro h
    exact absurd (whole_of_described (by decide +kernel) (hc _ _) hshort h) (by decide +kernel)
  · intro h
    exact absurd (whole_of_described (by decide +kernel) (hc _ _) hlong h) (by decide +kernel)

end MelonDMA.Ib
