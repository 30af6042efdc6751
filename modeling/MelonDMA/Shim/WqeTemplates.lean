import MelonDMA.Hw.WqeUnits
import MelonDMA.Shim.SendElement

/-!
# The templates of a pair

A pair keeps a template for each opcode of one entry and each choice of flags. It is encoded when it is
first needed, and later elements are copies of it with the fields of the request patched in. Whatever the
pair encoded before, that gives the element that the encoder would (`encodeCached_same`).
-/

namespace MelonDMA.Shim

open MelonDMA.Lib MelonDMA.Hw MelonDMA.Ib

/-! ## The cache -/

/-- The opcodes that have templates. Source: `kind` in `rdma_encode_prebuilt_wqe64`. -/
inductive TemplateKind
  | send
  | write
  | read
  deriving DecidableEq, Repr

/-- The opcode of a kind. -/
def TemplateKind.opcode : TemplateKind → HwOpcode
  | .send => .send
  | .write => .rdmaWrite
  | .read => .rdmaRead

/-- Source: `kind` in `rdma_encode_prebuilt_wqe64`. -/
def templateKind (opcode : HwOpcode) : Option TemplateKind :=
  if opcode = .send then some .send
  else if opcode = .rdmaWrite then some .write
  else if opcode = .rdmaRead then some .read
  else none

/-- Source: `key` in `rdma_encode_prebuilt_wqe64`. -/
def templateKey (flags : ℕ) : ℕ :=
  (if signaledFlag flags = true then 1 else 0) + (if fenceFlag flags = true then 2 else 0) +
    (if solicitedFlag flags = true then 4 else 0)

/-- The templates of a pair. -/
structure WqeTemplates where
  /-- One bit for each choice of flags. Source: `wqe_template_valid`. -/
  valid : TemplateKind → ℕ
  /-- Source: `wqe_template`. -/
  bytes : TemplateKind → ℕ → Memory

namespace WqeTemplates

/-- The record of a new pair is zeroed. -/
def init : WqeTemplates := ⟨fun _ => 0, fun _ _ => Memory.zero⟩

/-- The seed of a template. -/
def seed (hwQpn key : ℕ) (kind : TemplateKind) : Encoded :=
  mlxEncodeRcSendWqe 64 hwQpn 0 kind.opcode [⟨1, 1, 1⟩] 1 1 (key.testBit 0) (key.testBit 1) (key.testBit 2)

/-- Encode a template in its place and note it, unless the encoder refuses. -/
def fill (t : WqeTemplates) (hwQpn key : ℕ) (kind : TemplateKind) : Option WqeTemplates :=
  if (t.valid kind).testBit key = true then some t
  else if (seed hwQpn key kind).ds = 0 then none
  else
    some ⟨Function.update t.valid kind (t.valid kind ||| 2 ^ key),
      Function.update t.bytes kind (Function.update (t.bytes kind) key
        ((t.bytes kind key).writeAll (seed hwQpn key kind).stores))⟩

/-- The templates after, and what is written to the slot. Source: `rdma_encode_prebuilt_wqe64`. -/
def encode (t : WqeTemplates) (hwQpn producer : ℕ) (opcode : HwOpcode) (sge : RcSge)
    (remoteAddr rkey flags : ℕ) : WqeTemplates × Encoded :=
  if sge.length = 0 then (t, .refused)
  else
    match templateKind opcode with
    | none => (t, .refused)
    | some kind =>
        match t.fill hwQpn (templateKey flags) kind with
        | none => (t, .refused)
        | some t =>
            (t, ⟨if kind = .send then 2 else 3,
              ⟨0, (t.bytes kind (templateKey flags)).slice 0 64⟩ ::
                ⟨0, beBytes 4 (producer * 256 + opcode.code)⟩ ::
                (if kind = .send then dataSeg 16 sge
                 else raddrSeg 16 remoteAddr rkey ++ dataSeg 32 sge)⟩)

end WqeTemplates

/-- The arguments of a call. -/
structure PrebuiltCall where
  producer : ℕ
  opcode : HwOpcode
  sge : RcSge
  remoteAddr : ℕ
  rkey : ℕ
  flags : ℕ

namespace WqeTemplates

/-- A call on a pair of this number. -/
def call (hwQpn : ℕ) (t : WqeTemplates) (c : PrebuiltCall) : WqeTemplates × Encoded :=
  t.encode hwQpn c.producer c.opcode c.sge c.remoteAddr c.rkey c.flags

/-- The templates after the calls of a pair's life. -/
def after (hwQpn : ℕ) (calls : List PrebuiltCall) : WqeTemplates :=
  calls.foldl (fun t c => (t.call hwQpn c).1) init

/-! ## What is cached -/

/-- A noted template is the element of the seed. -/
def Fresh (t : WqeTemplates) (hwQpn : ℕ) : Prop :=
  ∀ kind key, (t.valid kind).testBit key = true →
    (seed hwQpn key kind).ds ≠ 0 ∧ (t.bytes kind key).slice 0 64 = (seed hwQpn key kind).flat.slice 0 64

variable {t t' : WqeTemplates} {hwQpn key : ℕ} {kind : TemplateKind}

lemma fresh_init : init.Fresh hwQpn := by
  intro kind key hvalid
  exact absurd hvalid (by simp [init])

/-- The seed writes over the whole place of the template. -/
lemma slice_seed (m : Memory) (hds : (seed hwQpn key kind).ds ≠ 0) :
    (m.writeAll (seed hwQpn key kind).stores).slice 0 64 = (seed hwQpn key kind).flat.slice 0 64 := by
  have hcleared : (⟨0, zeroBytes 64⟩ : Store) ∈ (seed hwQpn key kind).stores := by
    unfold seed at hds ⊢
    rw [(mlxEncodeRcSendWqe_accepted hds).2.2]
    cases kind <;> exact List.mem_cons_self
  unfold Memory.slice Encoded.flat
  apply List.map_congr_left
  intro i hi
  apply Memory.writeAll_of_covered
  refine ⟨_, hcleared, Nat.zero_le _, ?_⟩
  have := List.mem_range.mp hi
  rw [length_zeroBytes]
  omega

lemma fresh_fill (h : t.Fresh hwQpn) (hfill : t.fill hwQpn key kind = some t') : t'.Fresh hwQpn := by
  unfold fill at hfill
  split_ifs at hfill with hvalid hds
  · obtain rfl := Option.some.inj hfill
    exact h
  · obtain rfl := Option.some.inj hfill
    intro kind' key' hvalid'
    dsimp only at hvalid' ⊢
    by_cases hkind : kind' = kind
    · subst hkind
      rw [Function.update_self] at hvalid' ⊢
      by_cases hkey : key' = key
      · subst hkey
        rw [Function.update_self]
        exact ⟨hds, slice_seed _ hds⟩
      · rw [Function.update_of_ne hkey]
        rw [Nat.testBit_or, Nat.testBit_two_pow_of_ne (Ne.symm hkey), Bool.or_false] at hvalid'
        exact h kind' key' hvalid'
    · rw [Function.update_of_ne hkind] at hvalid' ⊢
      exact h kind' key' hvalid'

/-- What was needed is noted. -/
lemma valid_fill (hfill : t.fill hwQpn key kind = some t') : (t'.valid kind).testBit key = true := by
  unfold fill at hfill
  split_ifs at hfill with hvalid hds
  · obtain rfl := Option.some.inj hfill
    exact hvalid
  · obtain rfl := Option.some.inj hfill
    dsimp only
    rw [Function.update_self, Nat.testBit_or, Nat.testBit_two_pow_self, Bool.or_true]

lemma fresh_call (h : t.Fresh hwQpn) (c : PrebuiltCall) : (t.call hwQpn c).1.Fresh hwQpn := by
  unfold call encode
  split_ifs
  · exact h
  · cases templateKind c.opcode with
    | none => exact h
    | some kind =>
        dsimp only
        cases hfill : t.fill hwQpn (templateKey c.flags) kind with
        | none => exact h
        | some t' => exact fresh_fill h hfill

lemma fresh_foldl (h : t.Fresh hwQpn) (calls : List PrebuiltCall) :
    (calls.foldl (fun t c => (t.call hwQpn c).1) t).Fresh hwQpn := by
  induction calls generalizing t with
  | nil => exact h
  | cons c calls ih => exact ih (fresh_call h c)

/-- Whatever the pair encoded, its templates are elements of their seeds. -/
lemma fresh_after (hwQpn : ℕ) (calls : List PrebuiltCall) : (after hwQpn calls).Fresh hwQpn :=
  fresh_foldl fresh_init calls

/-! ## Cached and encoded elements -/

lemma templateKey_testBit (flags : ℕ) :
    (templateKey flags).testBit 0 = signaledFlag flags ∧ (templateKey flags).testBit 1 = fenceFlag flags ∧
      (templateKey flags).testBit 2 = solicitedFlag flags := by
  unfold templateKey
  cases signaledFlag flags <;> cases fenceFlag flags <;> cases solicitedFlag flags <;> decide

lemma templateKind_eq_some {opcode : HwOpcode} {kind : TemplateKind} :
    templateKind opcode = some kind ↔ opcode = kind.opcode := by
  cases opcode <;> cases kind <;> decide

lemma templateKind_eq_none {opcode : HwOpcode} : templateKind opcode = none ↔
    opcode ≠ .send ∧ opcode ≠ .rdmaWrite ∧ opcode ≠ .rdmaRead := by
  cases opcode <;> decide

/-- A call on fresh templates writes what it would write without them. -/
lemma encode_eq (h : t.Fresh hwQpn) (producer : ℕ) (opcode : HwOpcode) (sge : RcSge)
    (remoteAddr rkey flags : ℕ) :
    (t.encode hwQpn producer opcode sge remoteAddr rkey flags).2 =
      encodePrebuiltWqe64 hwQpn producer opcode sge remoteAddr rkey flags := by
  obtain ⟨hsignaled, hfence, hsolicited⟩ := templateKey_testBit flags
  unfold encode encodePrebuiltWqe64
  by_cases hempty : sge.length = 0
  · rw [if_pos hempty, if_pos (Or.inl hempty)]
  · rw [if_neg hempty]
    cases hkind : templateKind opcode with
    | none => rw [if_pos (Or.inr (templateKind_eq_none.mp hkind))]
    | some kind =>
        obtain rfl := templateKind_eq_some.mp hkind
        have hsend : kind.opcode = .send ↔ kind = .send := by cases kind <;> decide
        have hseed : mlxEncodeRcSendWqe 64 hwQpn 0 kind.opcode [⟨1, 1, 1⟩] 1 1 (signaledFlag flags)
            (fenceFlag flags) (solicitedFlag flags) = seed hwQpn (templateKey flags) kind := by
          rw [seed, hsignaled, hfence, hsolicited]
        rw [if_neg (by cases kind <;> simp [TemplateKind.opcode, hempty])]
        dsimp only
        rw [hseed]
        cases hfill : t.fill hwQpn (templateKey flags) kind with
        | none =>
            unfold fill at hfill
            split_ifs at hfill with hvalid hds
            rw [if_pos hds]
        | some t' =>
            obtain ⟨hds, hbytes⟩ := fresh_fill h hfill kind _ (valid_fill hfill)
            rw [if_neg hds]
            dsimp only
            rw [hbytes]
            simp only [hsend]
            rfl

end WqeTemplates

/-- The size of a patched template is that of the element. -/
lemma encodePrebuiltWqe64_ds {hwQpn producer : ℕ} {opcode : HwOpcode} {sge : RcSge}
    {remoteAddr rkey flags : ℕ}
    (h : (encodePrebuiltWqe64 hwQpn producer opcode sge remoteAddr rkey flags).ds ≠ 0) :
    (encodePrebuiltWqe64 hwQpn producer opcode sge remoteAddr rkey flags).ds = rcSendDs opcode 1 := by
  unfold encodePrebuiltWqe64 at h ⊢
  dsimp only at h ⊢
  split_ifs at h ⊢ with hreq hseed hsend
  · exact absurd rfl h
  · exact absurd rfl h
  · rw [hsend]
    rfl
  · have hop : opcode = .rdmaWrite ∨ opcode = .rdmaRead := by tauto
    rcases hop with rfl | rfl <;> rfl

/-- Whatever calls came before on the pair, a request that the encoder accepts is written to a slot the
same way from the templates, whatever the slot holds, and its size is the same. -/
theorem encodeCached_same (hwQpn : ℕ) (calls : List PrebuiltCall) (c : PrebuiltCall) (slot : Memory)
    (hop : c.opcode = .send ∨ c.opcode = .rdmaWrite ∨ c.opcode = .rdmaRead)
    (haccepted : (mlxEncodeRcSendWqe 64 hwQpn c.producer c.opcode [c.sge] c.remoteAddr c.rkey
      (signaledFlag c.flags) (fenceFlag c.flags) (solicitedFlag c.flags)).ds ≠ 0) :
    let cached := ((WqeTemplates.after hwQpn calls).call hwQpn c).2
    let encoded := mlxEncodeRcSendWqe 64 hwQpn c.producer c.opcode [c.sge] c.remoteAddr c.rkey
      (signaledFlag c.flags) (fenceFlag c.flags) (solicitedFlag c.flags)
    cached.ds = encoded.ds ∧
      (slot.writeAll cached.stores).slice 0 64 = (slot.writeAll encoded.stores).slice 0 64 := by
  intro cached encoded
  have hcached : cached = encodePrebuiltWqe64 hwQpn c.producer c.opcode c.sge c.remoteAddr c.rkey c.flags :=
    WqeTemplates.encode_eq (WqeTemplates.fresh_after hwQpn calls) ..
  obtain ⟨-, haccepts, helement⟩ := mlxEncodeRcSendWqe_accepted haccepted
  have hencoded : encoded = rcElement hwQpn c.producer c.opcode [c.sge] c.remoteAddr c.rkey
    (signaledFlag c.flags) (fenceFlag c.flags) (solicitedFlag c.flags) := helement
  have hne : c.opcode ≠ .localInval := by rcases hop with h | h | h <;> rw [h] <;> decide
  have hlen : c.sge.length ≠ 0 := (rcSendBody_accepts hne).mp haccepts c.sge (List.mem_singleton_self _)
  have hqpn : hwQpn ≠ 0 := by
    rintro rfl
    rw [mlxEncodeRcSendWqe, if_pos (Or.inl rfl)] at haccepted
    exact haccepted rfl
  have hone := @encodePrebuiltWqe64_accepts hwQpn c.producer c.opcode c.sge c.remoteAddr c.rkey c.flags hqpn
    hlen hop
  rw [← hcached] at hone
  obtain ⟨hds, st, hst, hoffset, hfull⟩ := hone
  refine ⟨?_, ?_⟩
  · rw [hcached] at hds ⊢
    rw [encodePrebuiltWqe64_ds hds, hencoded]
    rfl
  · apply List.map_congr_left
    intro i hi
    have hi : i < 64 := List.mem_range.mp hi
    have hflat : cached.flat i = encoded.flat i := by
      rw [hcached, hencoded]
      exact flat_encodePrebuiltWqe64 hqpn hlen hop hi
    have hcleared : (⟨0, zeroBytes (wqebbBytes (rcSendDs c.opcode 1))⟩ : Store) ∈ encoded.stores := by
      rw [hencoded]
      exact List.mem_cons_self
    have hblock : wqebbBytes (rcSendDs c.opcode 1) = 64 := by
      rcases hop with h | h | h <;> rw [h] <;> rfl
    rw [hblock] at hcleared
    calc slot.writeAll cached.stores (0 + i)
        = cached.flat i := by
          rw [Nat.zero_add]
          refine Memory.writeAll_of_covered ⟨st, hst, ?_⟩
          rw [Store.Covers, hoffset, hfull]
          omega
      _ = encoded.flat i := hflat
      _ = slot.writeAll encoded.stores (0 + i) := by
          rw [Nat.zero_add]
          refine Memory.writeAll_of_covered ⟨_, hcleared, Nat.zero_le _, ?_⟩
          rw [length_zeroBytes]
          omega

/-- A write that follows a read with the same flags and a write with others. -/
theorem encodeCached_same_write :
    let calls : List PrebuiltCall := [⟨1, .rdmaRead, ⟨4096, 8, 3⟩, 64, 9, 1⟩, ⟨2, .rdmaWrite, ⟨4096, 8, 3⟩, 64, 9, 3⟩]
    ((WqeTemplates.after 5 calls).call 5 ⟨3, .rdmaWrite, ⟨8192, 16, 4⟩, 128, 7, 1⟩).2.ds =
      (mlxEncodeRcSendWqe 64 5 3 .rdmaWrite [⟨8192, 16, 4⟩] 128 7 true false false).ds :=
  (encodeCached_same 5 [⟨1, .rdmaRead, ⟨4096, 8, 3⟩, 64, 9, 1⟩, ⟨2, .rdmaWrite, ⟨4096, 8, 3⟩, 64, 9, 3⟩]
    ⟨3, .rdmaWrite, ⟨8192, 16, 4⟩, 128, 7, 1⟩ Memory.zero (by decide) (by decide)).1

end MelonDMA.Shim
