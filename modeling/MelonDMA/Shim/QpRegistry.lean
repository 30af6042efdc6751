import MelonDMA.Lib.Runs
import MelonDMA.Lib.Spine
import MelonDMA.Shim.PollRuns

/-!
# The pairs of a device

The client keeps its pairs in a list through `next` and in 256 chains through `hash_next`, by a hash of their numbers.
The pairs are nodes of both; their addresses come from the allocator, which hands out none that is in use.

* A walk along a chain finds the newest pair with a number, as a walk along the list would (`finds_newest`). So the
  poll, which asks the chains, and the corrections, which walk the list, mean the same pairs.
* A pair is found from its creation until its destruction, and not after it, also when its address or its number is
  used again.
-/

namespace MelonDMA.Shim

open MelonDMA.Lib MelonDMA.Ib

/-! ## The registry -/

/-- Source: `RDMA_QP_HASH_SIZE`. -/
def rdmaQpHashSize : ℕ := 256

/-- Source: `rdma_qpn_hash`. -/
def rdmaQpnHash (qpn : ℕ) : ℕ := qpn * 2654435761 % 2 ^ 32 % rdmaQpHashSize

/-- The lists of a device; `qp` is the memory of the pairs. Source: `qps` and `qpn_buckets` of `rdma_device`, `next`
and `hash_next` of `rdma_qp`. -/
structure QpRegistry where
  qp : ℕ → RdmaQp
  qps : Option ℕ := none
  next : ℕ → Option ℕ
  qpnBuckets : ℕ → Option ℕ := fun _ => none
  hashNext : ℕ → Option ℕ
  /-- The addresses of the pairs that there are, the newest first. -/
  live : List ℕ := []

/-- What is done with the pairs of a device. -/
inductive RegistryOp
  /-- The end of `rdma_create_qp`. -/
  | create (addr : ℕ) (qp : RdmaQp)
  /-- `rdma_destroy_qp`; `released` says that the driver destroyed the pair, `fuel` is how long the walks may be. -/
  | destroy (addr : ℕ) (released : Bool) (fuel : ℕ)
  /-- Anything else that is done to a pair. -/
  | change (addr : ℕ) (f : RdmaQp → RdmaQp)

namespace QpRegistry

variable (s : QpRegistry)

/-- The bucket of a pair. -/
def bucket (addr : ℕ) : ℕ := rdmaQpnHash (s.qp addr).hwQpn

/-- Source: `rdma_find_qp_hw`. -/
def rdmaFindQpHw (fuel hwQpn : ℕ) : Option ℕ :=
  if hwQpn = 0 then none
  else findFrom s.hashNext (fun a => (s.qp a).hwQpn = hwQpn) fuel (s.qpnBuckets (rdmaQpnHash hwQpn))

/-- Source: `rdma_find_qp_token`. -/
def rdmaFindQpToken (fuel token : ℕ) : Option ℕ :=
  if token = 0 then none else findFrom s.next (fun a => (s.qp a).qpn = token) fuel s.qps

/-- The end of `rdma_create_qp`. -/
def link (addr : ℕ) (qp : RdmaQp) : QpRegistry where
  qp := Function.update s.qp addr qp
  qps := some addr
  next := Function.update s.next addr s.qps
  qpnBuckets := Function.update s.qpnBuckets (rdmaQpnHash qp.hwQpn) (some addr)
  hashNext := Function.update s.hashNext addr (s.qpnBuckets (rdmaQpnHash qp.hwQpn))
  live := addr :: s.live

/-- The end of `rdma_destroy_qp`. -/
def drop (addr fuel : ℕ) : QpRegistry :=
  let list := unlink s.qps s.next fuel addr
  let chain := unlink (s.qpnBuckets (s.bucket addr)) s.hashNext fuel addr
  { s with
    qps := list.1
    next := list.2
    qpnBuckets := Function.update s.qpnBuckets (s.bucket addr) chain.1
    hashNext := chain.2
    live := s.live.erase addr }

/-- `none` for an address that the allocator does not give out or the client does not have, for a walk that would not
come to its end, and for a change of a pair's numbers. -/
def step : RegistryOp → Option QpRegistry
  | .create addr qp => if addr ∈ s.live then none else some (s.link addr qp)
  | .destroy addr released fuel =>
      if addr ∈ s.live ∧ s.live.length ≤ fuel then some (if released = true then s.drop addr fuel else s) else none
  | .change addr f =>
      if addr ∈ s.live ∧ (f (s.qp addr)).hwQpn = (s.qp addr).hwQpn ∧ (f (s.qp addr)).qpn = (s.qp addr).qpn then
        some { s with qp := Function.update s.qp addr (f (s.qp addr)) }
      else none

/-! ## The invariant -/

/-- The links make the pairs that there are. -/
structure Inv : Prop where
  nodup : s.live.Nodup
  list : Spine s.next s.qps s.live
  chains : Buckets s.bucket s.hashNext s.qpnBuckets s.live

variable {s}

/-- Pairs with the same buckets are in the same chains. -/
lemma buckets_congr {bucket bucket' : ℕ → ℕ} {next : ℕ → Option ℕ} {heads : ℕ → Option ℕ} {l : List ℕ}
    (h : Buckets bucket next heads l) (hsame : ∀ a ∈ l, bucket' a = bucket a) : Buckets bucket' next heads l := by
  intro k
  have heq : l.filter (bucket' · = k) = l.filter (bucket · = k) :=
    List.filter_congr fun a ha => by rw [hsame a ha]
  rw [heq]
  exact h k

/-- A new pair is the first of the list and of its chain. -/
lemma Inv.link (h : s.Inv) {addr : ℕ} (hnew : addr ∉ s.live) (qp : RdmaQp) : (s.link addr qp).Inv := by
  refine ⟨List.nodup_cons.mpr ⟨hnew, h.nodup⟩, h.list.push hnew, ?_⟩
  have hbucket : (s.link addr qp).bucket addr = rdmaQpnHash qp.hwQpn := by
    unfold QpRegistry.bucket QpRegistry.link
    dsimp only
    rw [Function.update_self]
  have hsame : ∀ a ∈ s.live, (s.link addr qp).bucket a = s.bucket a := by
    intro a ha
    have hne : a ≠ addr := fun heq => hnew (heq ▸ ha)
    unfold QpRegistry.bucket QpRegistry.link
    dsimp only
    rw [Function.update_of_ne hne]
  have hpush := (buckets_congr h.chains hsame).push hnew
  rw [hbucket] at hpush
  exact hpush

/-- A pair is taken out of the list and of its chain. -/
lemma Inv.drop (h : s.Inv) (addr : ℕ) {fuel : ℕ} (hfuel : s.live.length ≤ fuel) : (s.drop addr fuel).Inv :=
  ⟨h.nodup.erase addr, (h.list.unlink h.nodup hfuel addr).1, h.chains.unlink h.nodup hfuel addr⟩

/-- Every step keeps the invariant. -/
lemma Inv.step (h : s.Inv) {op : RegistryOp} {s' : QpRegistry} (hstep : s.step op = some s') : s'.Inv := by
  cases op with
  | create addr qp =>
      unfold QpRegistry.step at hstep
      dsimp only at hstep
      split_ifs at hstep with hnew
      obtain rfl := Option.some.inj hstep
      exact h.link hnew qp
  | destroy addr released fuel =>
      unfold QpRegistry.step at hstep
      dsimp only at hstep
      split_ifs at hstep with hguard hreleased
      · obtain rfl := Option.some.inj hstep
        exact h.drop addr hguard.2
      · obtain rfl := Option.some.inj hstep
        exact h
  | change addr f =>
      unfold QpRegistry.step at hstep
      dsimp only at hstep
      split_ifs at hstep with hguard
      obtain rfl := Option.some.inj hstep
      refine ⟨h.nodup, h.list, buckets_congr h.chains fun a _ => ?_⟩
      unfold QpRegistry.bucket
      dsimp only
      by_cases ha : a = addr
      · rw [ha, Function.update_self, hguard.2.1]
      · rw [Function.update_of_ne ha]

/-! ## Lookups -/

/-- A lookup by the hardware's number is one in the list. -/
lemma Inv.findHw (h : s.Inv) {fuel : ℕ} (hfuel : s.live.length ≤ fuel) (hwQpn : ℕ) :
    s.rdmaFindQpHw fuel hwQpn =
      if hwQpn = 0 then none else s.live.find? fun a => (s.qp a).hwQpn = hwQpn := by
  unfold rdmaFindQpHw
  split_ifs
  · rfl
  · refine h.chains.find_eq (fun a ha => ?_) hfuel
    unfold QpRegistry.bucket
    rw [of_decide_eq_true ha]

/-- So is one by the token. -/
lemma Inv.findToken (h : s.Inv) {fuel : ℕ} (hfuel : s.live.length ≤ fuel) (token : ℕ) :
    s.rdmaFindQpToken fuel token = if token = 0 then none else s.live.find? fun a => (s.qp a).qpn = token := by
  unfold rdmaFindQpToken
  split_ifs
  · rfl
  · exact h.list.find_eq _ hfuel

/-- The place of the first node in a list of pairs is the place of its address. -/
lemma findIdx?_bind (qp : ℕ → RdmaQp) (p : RdmaQp → Bool) (live : List ℕ) :
    ((live.map qp).findIdx? p).bind (live[·]?) = live.find? fun a => p (qp a) := by
  induction live with
  | nil => rfl
  | cons a live ih =>
      rw [List.map_cons, List.findIdx?_cons, List.find?_cons]
      cases p (qp a) with
      | true => rfl
      | false =>
          rw [← ih]
          simp [Option.bind_map]

/-- No pairs. The links of what the allocator gives out are whatever they are. -/
def empty (qp : ℕ → RdmaQp) (next hashNext : ℕ → Option ℕ) : QpRegistry :=
  { qp := qp, next := next, hashNext := hashNext }

lemma Inv.empty (qp : ℕ → RdmaQp) (next hashNext : ℕ → Option ℕ) : (QpRegistry.empty qp next hashNext).Inv :=
  ⟨List.nodup_nil, rfl, .nil fun _ => rfl⟩

/-- However pairs come and go: a lookup by the hardware's number or by the token comes to its end and finds the newest
pair that has it, as the lookup in the list of pairs does that polls are modelled with. A pair is found from its
creation on; after its destruction no lookup gives its address. -/
theorem finds_newest {qp : ℕ → RdmaQp} {next hashNext : ℕ → Option ℕ} {s : QpRegistry}
    (run : Reach QpRegistry.step Unguarded (QpRegistry.empty qp next hashNext) s) :
    (∀ fuel n, s.live.length ≤ fuel →
        s.rdmaFindQpHw fuel n = (findQpHw (s.live.map s.qp) n).bind (s.live[·]?) ∧
          s.rdmaFindQpToken fuel n = (findQpToken (s.live.map s.qp) n).bind (s.live[·]?)) ∧
      (∀ fuel n a, s.live.length ≤ fuel → n ≠ 0 → (s.qp a).hwQpn = n → a ∈ s.live →
        (∀ b ∈ s.live, (s.qp b).hwQpn = n → b = a) → s.rdmaFindQpHw fuel n = some a) ∧
      (∀ addr pair s', s.step (.create addr pair) = some s' → pair.hwQpn ≠ 0 → ∀ fuel, s'.live.length ≤ fuel →
        s'.rdmaFindQpHw fuel pair.hwQpn = some addr) ∧
      ∀ addr walk s', s.step (.destroy addr true walk) = some s' → ∀ fuel n, s'.live.length ≤ fuel →
        s'.rdmaFindQpHw fuel n ≠ some addr ∧ s'.rdmaFindQpToken fuel n ≠ some addr := by
  have hinv : s.Inv := run.invariant Inv (.empty qp next hashNext) fun h _ hstep => h.step hstep
  refine ⟨fun fuel n hfuel => ⟨?_, ?_⟩, fun fuel n a hfuel hn ha hmem hone => ?_, fun addr pair s' hstep hn fuel hfuel => ?_,
    fun addr walk s' hstep fuel n hfuel => ?_⟩
  · rw [hinv.findHw hfuel, findQpHw]
    split_ifs
    · rfl
    · exact (findIdx?_bind s.qp (fun pair => pair.hwQpn = n) s.live).symm
  · rw [hinv.findToken hfuel, findQpToken]
    split_ifs
    · rfl
    · exact (findIdx?_bind s.qp (fun pair => pair.qpn = n) s.live).symm
  · rw [hinv.findHw hfuel, if_neg hn]
    cases hfind : s.live.find? fun b => (s.qp b).hwQpn = n with
    | none => exact absurd ha (by simpa using List.find?_eq_none.mp hfind a hmem)
    | some b => rw [hone b (List.mem_of_find?_eq_some hfind) (by simpa using List.find?_some hfind)]
  · have hinv' := hinv.step hstep
    unfold QpRegistry.step at hstep
    dsimp only at hstep
    split_ifs at hstep
    obtain rfl := Option.some.inj hstep
    rw [hinv'.findHw hfuel, if_neg hn]
    unfold QpRegistry.link
    simp
  · have hinv' := hinv.step hstep
    unfold QpRegistry.step at hstep
    dsimp only at hstep
    rw [if_pos rfl] at hstep
    split_ifs at hstep with hguard
    obtain rfl := Option.some.inj hstep
    have hgone : addr ∉ (s.drop addr walk).live := fun hmem => (hinv.nodup.mem_erase_iff.mp hmem).1 rfl
    rw [hinv'.findHw hfuel, hinv'.findToken hfuel]
    constructor
    all_goals
      split_ifs
      · simp
      · exact fun hfind => hgone (List.mem_of_find?_eq_some hfind)

/-- A pair with a number. -/
def numberedPair (hwQpn : ℕ) : RdmaQp := { CqSystem.receivingPair with qpn := hwQpn + 1000, hwQpn := hwQpn }

/-- Two pairs of one chain, of which the first is destroyed. -/
def oneChain : List RegistryOp := [.create 7 (numberedPair 5), .create 8 (numberedPair 261), .destroy 7 true 2]

/-- The second is found behind that, and the first is not. -/
theorem finds_newest_chained : ∃ s : QpRegistry,
    runOps QpRegistry.step (QpRegistry.empty (fun _ => numberedPair 0) (fun _ => none) fun _ => none) oneChain =
        some s ∧
      rdmaQpnHash 5 = rdmaQpnHash 261 ∧ s.rdmaFindQpHw 1 261 = some 8 ∧
      s.rdmaFindQpHw 1 5 = (findQpHw (s.live.map s.qp) 5).bind (s.live[·]?) ∧ s.rdmaFindQpHw 1 5 = none := by
  obtain ⟨s, hrun⟩ : ∃ s, runOps QpRegistry.step
      (QpRegistry.empty (fun _ => numberedPair 0) (fun _ => none) fun _ => none) oneChain = some s := ⟨_, rfl⟩
  obtain ⟨hlists, hfound, -⟩ := finds_newest (reach_of_runOps hrun)
  have hlive : s.live = [8] ∧ (s.qp 8).hwQpn = 261 ∧ s.rdmaFindQpHw 1 5 = none := by
    obtain rfl := Option.some.inj hrun
    exact ⟨rfl, rfl, rfl⟩
  obtain ⟨hone, hnumber, hnone⟩ := hlive
  refine ⟨s, hrun, by decide, hfound 1 261 8 (by rw [hone]; rfl) (by decide) hnumber (by rw [hone]; simp) ?_,
    (hlists 1 5 (by rw [hone]; rfl)).1, hnone⟩
  intro b hb _
  rw [hone] at hb
  exact List.mem_singleton.mp hb

end QpRegistry

end MelonDMA.Shim
