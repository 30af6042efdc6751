import MelonDMA.Ib.QpContext
import MelonDMA.Lib.SeqLock

/-!
# The shared page of counters

The counters of a trusted pair go from the client to the driver through a page that both map. Any thread of the
client publishes with `rdma_qp_publish_shadow_force`, and the driver reads with
`MlxQP::RefreshFastPathStateLocked`, eight times at most; the loads and stores of all of them interleave, and the
client's counters go on while they are published.

* A read that the driver accepts is the last publication that was complete, whole. So the call is the one that
  `QpContext.refreshFastPathState` is for that publication, and it is refused only when the publication has
  counters that no queue can have (`refresh_takes_publication`).
* The driver's counters are never past the published ones, and those never past the client's.
-/

namespace MelonDMA.Shim

open MelonDMA.Lib MelonDMA.Ib

/-! ## The page -/

/-- The cells of the page beside its sequence number. Source: `mlx_qp_shadow`. -/
inductive Counter
  | sqHead
  | sqTail
  | rqHead
  | rqTail
  deriving DecidableEq, Repr

/-- The order in which the cells are stored and loaded. -/
def counterOrder : List Counter := [.sqHead, .sqTail, .rqHead, .rqTail]

/-- The counters of the driver's context. -/
def contextCounter (ctx : QpContext) : Counter → ℕ
  | .sqHead => ctx.sqHead
  | .sqTail => ctx.sqTail
  | .rqHead => ctx.rqHead
  | .rqTail => ctx.rqTail

lemma word_fits (c : Counter → ℕ) : c .sqHead % 2 ^ 64 < 2 ^ 64 ∧ c .sqTail % 2 ^ 64 < 2 ^ 64 ∧
    c .rqHead % 2 ^ 64 < 2 ^ 64 ∧ c .rqTail % 2 ^ 64 < 2 ^ 64 :=
  ⟨Nat.mod_lt _ (by decide), Nat.mod_lt _ (by decide), Nat.mod_lt _ (by decide), Nat.mod_lt _ (by decide)⟩

/-- The counters as the driver has them on its stack. -/
def shadowOf (c : Counter → ℕ) : QpContext.Shadow where
  sqHead := c .sqHead % 2 ^ 64
  sqTail := c .sqTail % 2 ^ 64
  rqHead := c .rqHead % 2 ^ 64
  rqTail := c .rqTail % 2 ^ 64
  fits := word_fits c

/-- A pair, its page, and the call of the driver; the lock of the pair admits one call at a time. -/
structure ShadowSystem where
  page : SeqPage Counter ℕ
  /-- The client's counters. -/
  qp : Counter → ℕ
  ctx : QpContext
  /-- The attempts that the call has left, `0` for no call. -/
  attempts : ℕ
  /-- What the last call answered. -/
  answer : Bool

/-- What a thread does next. -/
inductive ShadowOp
  /-- The client posts or polls. -/
  | count (f : Counter) (n : ℕ)
  | load (thread : ℕ)
  | swap (thread : ℕ)
  /-- The client's counter is loaded. -/
  | pick (thread : ℕ)
  | store (thread : ℕ)
  | release (thread : ℕ)
  /-- `RefreshFastPathStateLocked` is called. -/
  | refresh
  | begin
  | fetch
  | finish
  deriving DecidableEq, Repr

namespace ShadowSystem

/-- A new pair: its page is zeroed. -/
def init (ctx : QpContext) : ShadowSystem where
  page := .init fun _ => 0
  qp := fun _ => 0
  ctx := ctx
  attempts := 0
  answer := true

variable (s : ShadowSystem)

/-- The call returns, with the snapshot that it accepted. -/
def returns (shadow : Option QpContext.Shadow) : ShadowSystem :=
  { s with
    ctx := (s.ctx.refreshFastPathState shadow).1
    answer := (s.ctx.refreshFastPathState shadow).2
    attempts := 0 }

/-- An attempt was in vain. -/
def retry : ShadowSystem := if s.attempts ≤ 1 then s.returns none else { s with attempts := s.attempts - 1 }

/-- A step of a publishing thread. -/
def publish (op : SeqOp ℕ) : Option ShadowSystem :=
  (s.page.step 64 counterOrder op).map fun page => { s with page := page }

/-- The next cell of a thread. -/
def nextCell (thread : ℕ) : Option Counter :=
  match s.page.writers thread with
  | .writing _ (f :: _) => some f
  | _ => none

/-- One load or store; `none` when nobody is at it. The counters have 64 bits. -/
def step : ShadowOp → Option ShadowSystem
  | .count f n =>
      if s.qp f + n < 2 ^ 64 then some { s with qp := Function.update s.qp f (s.qp f + n) } else none
  | .load thread => s.publish (.load thread)
  | .swap thread => s.publish (.swap thread)
  | .pick thread => (s.nextCell thread).bind fun f => s.publish (.pick thread (s.qp f))
  | .store thread => s.publish (.store thread)
  | .release thread => s.publish (.release thread)
  | .refresh => if s.attempts = 0 then some { s with attempts := 8 } else none
  | .begin =>
      if s.attempts = 0 then none
      else
        (s.page.step 64 counterOrder (.begin 0)).map fun page =>
          if s.page.seq % 2 = 1 then retry { s with page := page } else { s with page := page }
  | .fetch => if s.attempts = 0 then none else s.publish (.fetch 0)
  | .finish =>
      if s.attempts = 0 then none
      else
        (s.page.step 64 counterOrder (.finish 0)).map fun page =>
          match s.page.result 0 with
          | some got => returns { s with page := page } (some (shadowOf fun f => (got.lookup f).getD 0))
          | none => retry { s with page := page }

/-- Less than `2 ^ 63` publications are made while the driver reads one. -/
def Timely : ShadowOp → Prop
  | .swap _ | .release _ => s.page.NoLap 64
  | _ => True

/-! ## The invariant -/

/-- Counters that a queue of each kind can have. -/
structure Possible (ctx : QpContext) (c : Counter → ℕ) : Prop where
  send : c .sqTail ≤ c .sqHead ∧ c .sqHead - c .sqTail ≤ ctx.sq.slots
  recv : c .rqTail ≤ c .rqHead ∧ c .rqHead - c .rqTail ≤ ctx.rq.slots

/-- What holds of a pair whose counters go only forward. -/
structure Inv : Prop where
  page : SeqInv 64 counterOrder s.page
  word : ∀ f, s.qp f < 2 ^ 64
  kernel : ∀ f, contextCounter s.ctx f ≤ s.page.published f
  stored : ∀ f, s.page.published f ≤ s.page.cell f ∧ s.page.cell f ≤ s.qp f
  picked : ∀ i seq f v left, s.page.writers i = .picked seq f v left → s.page.cell f ≤ v ∧ v ≤ s.qp f
  possible : Possible s.ctx (contextCounter s.ctx)
  trusted : s.ctx.trustedFastPath = true ∧ s.ctx.dbRecord = true

variable {s : ShadowSystem}

namespace Inv

/-- A new pair has zero counters everywhere. -/
lemma init {ctx : QpContext} (hzero : ∀ f, contextCounter ctx f = 0)
    (htrusted : ctx.trustedFastPath = true ∧ ctx.dbRecord = true) : (ShadowSystem.init ctx).Inv where
  page := .start _
  word := fun _ => by simp [ShadowSystem.init]
  kernel := fun f => by simp [ShadowSystem.init, SeqPage.init, hzero f]
  stored := fun _ => by simp [ShadowSystem.init, SeqPage.init]
  picked := fun _ _ _ _ _ h => by simp [ShadowSystem.init, SeqPage.init] at h
  possible := by
    constructor
    all_goals simp [ShadowSystem.init, hzero]
  trusted := htrusted

/-- The client's counters go forward. -/
lemma count (h : s.Inv) {f : Counter} {n : ℕ} (hfits : s.qp f + n < 2 ^ 64) :
    Inv { s with qp := Function.update s.qp f (s.qp f + n) } := by
  have hgrow : ∀ g, s.qp g ≤ Function.update s.qp f (s.qp f + n) g := by
    intro g
    by_cases hg : g = f
    · rw [hg, Function.update_self]
      omega
    · rw [Function.update_of_ne hg]
  refine ⟨h.page, fun g => ?_, h.kernel, fun g => ⟨(h.stored g).1, Nat.le_trans (h.stored g).2 (hgrow g)⟩,
    fun i seq g v left hi => ⟨(h.picked i seq g v left hi).1,
      Nat.le_trans (h.picked i seq g v left hi).2 (hgrow g)⟩, h.possible, h.trusted⟩
  dsimp only
  by_cases hg : g = f
  · rw [hg, Function.update_self]
    exact hfits
  · rw [Function.update_of_ne hg]
    exact h.word g

/-- A step at the page that stores no cell and loads no value. -/
lemma quiet (h : s.Inv) {page : SeqPage Counter ℕ} (op : SeqOp ℕ) (hop : SeqPage.IsQuiet op)
    (hok : s.page.Timely 64 op) (hstep : s.page.step 64 counterOrder op = some page) :
    Inv { s with page := page } := by
  have hquiet := SeqPage.quiet_of_step op hop hstep
  refine ⟨h.page.step (by decide) op hok hstep, h.word, fun f => ?_, fun f => ?_, fun i seq f v left hi => ?_,
    h.possible, h.trusted⟩
  all_goals dsimp only
  · rw [hquiet.published]
    exact h.kernel f
  · rw [hquiet.published, hquiet.cell]
    exact h.stored f
  · rw [hquiet.cell]
    exact h.picked i seq f v left (hquiet.picked i seq f v left hi)

/-- A thread loads one of the client's counters. -/
lemma pick (h : s.Inv) {page : SeqPage Counter ℕ} {i : ℕ} {f : Counter} (hf : s.nextCell i = some f)
    (hstep : s.page.step 64 counterOrder (.pick i (s.qp f)) = some page) : Inv { s with page := page } := by
  obtain ⟨seq, g, left, hi, rfl⟩ := SeqPage.step_pick hstep
  have hfg : g = f := by
    unfold nextCell at hf
    rw [hi] at hf
    exact Option.some.inj hf
  subst hfg
  refine ⟨h.page.step (by decide) (.pick i (s.qp g)) trivial hstep, h.word, h.kernel, h.stored, fun k seq' f' v left' hk => ?_,
    h.possible, h.trusted⟩
  dsimp only [SeqPage.writerAt] at hk ⊢
  by_cases hki : k = i
  · rw [hki, Function.update_self] at hk
    cases hk
    exact ⟨(h.stored g).2, le_rfl⟩
  · rw [Function.update_of_ne hki] at hk
    exact h.picked k seq' f' v left' hk

/-- A thread stores a cell; nobody else is at the cells. -/
lemma store (h : s.Inv) {page : SeqPage Counter ℕ} {i : ℕ}
    (hstep : s.page.step 64 counterOrder (.store i) = some page) : Inv { s with page := page } := by
  obtain ⟨seq, g, u, left, hi, rfl⟩ := SeqPage.step_store hstep
  obtain ⟨hlow, hhigh⟩ := h.picked i seq g u left hi
  refine ⟨h.page.step (by decide) (.store i) trivial hstep, h.word, h.kernel, fun f => ?_, fun k seq' f' v left' hk => ?_,
    h.possible, h.trusted⟩
  · dsimp only [SeqPage.writerAt]
    by_cases hfg : f = g
    · rw [hfg, Function.update_self]
      exact ⟨Nat.le_trans (h.stored g).1 hlow, hhigh⟩
    · rw [Function.update_of_ne hfg]
      exact h.stored f
  · dsimp only [SeqPage.writerAt] at hk
    by_cases hki : k = i
    · rw [hki, Function.update_self] at hk
      cases hk
    · rw [Function.update_of_ne hki] at hk
      have hone := h.page.one k i seq' seq (by rw [hk]; rfl) (by rw [hi]; rfl)
      exact absurd hone hki

/-- A thread is done with its publication. -/
lemma release (h : s.Inv) {page : SeqPage Counter ℕ} {i : ℕ} (hok : s.page.NoLap 64)
    (hstep : s.page.step 64 counterOrder (.release i) = some page) : Inv { s with page := page } := by
  obtain ⟨hcell, hpublished, hpicked⟩ := SeqPage.step_release hstep
  refine ⟨h.page.step (by decide) (.release i) hok hstep, h.word, fun f => ?_, fun f => ?_, fun k seq f v left hk => ?_,
    h.possible, h.trusted⟩
  all_goals dsimp only
  · rw [hpublished]
    exact Nat.le_trans (h.kernel f) (h.stored f).1
  · rw [hpublished, hcell]
    exact ⟨le_rfl, (h.stored f).2⟩
  · rw [hcell]
    exact h.picked k seq f v left (hpicked k seq f v left hk)

/-- A publication fits the words of the page. -/
lemma published_fits (h : s.Inv) (f : Counter) : s.page.published f < 2 ^ 64 :=
  Nat.lt_of_le_of_lt (Nat.le_trans (h.stored f).1 (h.stored f).2) (h.word f)

/-- The driver takes a publication exactly when a queue can have its counters. -/
lemma shadowOk_iff (h : s.Inv) :
    s.ctx.shadowOk (shadowOf s.page.published) = true ↔ Possible s.ctx s.page.published := by
  have hfit := fun f => Nat.mod_eq_of_lt (h.published_fits f)
  have hk₁ := h.kernel .sqHead
  have hk₂ := h.kernel .sqTail
  have hk₃ := h.kernel .rqHead
  have hk₄ := h.kernel .rqTail
  unfold contextCounter at hk₁ hk₂ hk₃ hk₄
  dsimp only at hk₁ hk₂ hk₃ hk₄
  unfold QpContext.shadowOk shadowOf
  simp only [hfit, Bool.and_eq_true, decide_eq_true_eq]
  constructor
  · rintro ⟨⟨⟨⟨⟨⟨⟨-, -⟩, hs⟩, -⟩, -⟩, hr⟩, hds⟩, hdr⟩
    exact ⟨⟨hs, hds⟩, ⟨hr, hdr⟩⟩
  · rintro ⟨⟨hs, hds⟩, ⟨hr, hdr⟩⟩
    exact ⟨⟨⟨⟨⟨⟨⟨hk₁, hk₂⟩, hs⟩, hk₃⟩, hk₄⟩, hr⟩, hds⟩, hdr⟩

/-- The call returns without a snapshot. -/
lemma returns_none (h : s.Inv) : (s.returns none).Inv := by
  have hctx : (s.ctx.refreshFastPathState none).1 = s.ctx := by
    unfold QpContext.refreshFastPathState
    split_ifs <;> rfl
  refine ⟨h.page, h.word, fun f => ?_, h.stored, h.picked, ?_, ?_⟩
  all_goals
    unfold returns
    dsimp only
    rw [hctx]
  · exact h.kernel f
  · exact h.possible
  · exact h.trusted

/-- The call returns with the last publication. -/
lemma returns_published (h : s.Inv) : (s.returns (some (shadowOf s.page.published))).Inv := by
  have hfit := fun f => Nat.mod_eq_of_lt (h.published_fits f)
  by_cases hok : s.ctx.shadowOk (shadowOf s.page.published) = true
  · have hposs := h.shadowOk_iff.mp hok
    have hctx : (s.ctx.refreshFastPathState (some (shadowOf s.page.published))).1 =
        { s.ctx with
          sqHead := s.page.published .sqHead, sqTail := s.page.published .sqTail
          rqHead := s.page.published .rqHead, rqTail := s.page.published .rqTail } := by
      unfold QpContext.refreshFastPathState
      rw [if_neg (by simp [h.trusted.1, h.trusted.2])]
      dsimp only
      rw [if_pos hok]
      simp only [shadowOf, hfit]
    refine ⟨h.page, h.word, fun f => ?_, h.stored, h.picked, ?_, ?_⟩
    all_goals
      unfold returns
      dsimp only
      rw [hctx]
    · cases f <;> exact le_rfl
    · exact ⟨hposs.send, hposs.recv⟩
    · exact h.trusted
  · have hctx : (s.ctx.refreshFastPathState (some (shadowOf s.page.published))).1 = s.ctx := by
      unfold QpContext.refreshFastPathState
      rw [if_neg (by simp [h.trusted.1, h.trusted.2])]
      dsimp only
      rw [if_neg hok]
    refine ⟨h.page, h.word, fun f => ?_, h.stored, h.picked, ?_, ?_⟩
    all_goals
      unfold returns
      dsimp only
      rw [hctx]
    · exact h.kernel f
    · exact h.possible
    · exact h.trusted

lemma retry (h : s.Inv) : s.retry.Inv := by
  unfold ShadowSystem.retry
  split_ifs
  · exact h.returns_none
  · exact ⟨h.page, h.word, h.kernel, h.stored, h.picked, h.possible, h.trusted⟩

/-- What a reader keeps is read back cell by cell. -/
lemma shadowOf_result {got : List (Counter × ℕ)} (h : s.Inv) (hgot : s.page.result 0 = some got) :
    shadowOf (fun f => (got.lookup f).getD 0) = shadowOf s.page.published := by
  obtain ⟨rfl, -⟩ := h.page.result_eq hgot
  have hread : (fun f => ((counterOrder.map fun f => (f, s.page.published f)).lookup f).getD 0) = s.page.published := by
    funext f
    cases f <;> rfl
  rw [hread]

/-- Every load and store keeps the invariant. -/
lemma step (h : s.Inv) {op : ShadowOp} {s' : ShadowSystem} (hok : s.Timely op) (hstep : s.step op = some s') :
    s'.Inv := by
  cases op with
  | count f n =>
      unfold ShadowSystem.step at hstep
      dsimp only at hstep
      split_ifs at hstep with hfits
      obtain rfl := Option.some.inj hstep
      exact h.count hfits
  | load i =>
      obtain ⟨page, hpage, rfl⟩ := Option.map_eq_some_iff.mp hstep
      exact h.quiet (.load i) trivial trivial hpage
  | swap i =>
      obtain ⟨page, hpage, rfl⟩ := Option.map_eq_some_iff.mp hstep
      exact h.quiet (.swap i) trivial hok hpage
  | pick i =>
      obtain ⟨f, hf, hpub⟩ := Option.bind_eq_some_iff.mp hstep
      obtain ⟨page, hpage, rfl⟩ := Option.map_eq_some_iff.mp hpub
      exact h.pick hf hpage
  | store i =>
      obtain ⟨page, hpage, rfl⟩ := Option.map_eq_some_iff.mp hstep
      exact h.store hpage
  | release i =>
      obtain ⟨page, hpage, rfl⟩ := Option.map_eq_some_iff.mp hstep
      exact h.release hok hpage
  | refresh =>
      unfold ShadowSystem.step at hstep
      dsimp only at hstep
      split_ifs at hstep
      obtain rfl := Option.some.inj hstep
      exact ⟨h.page, h.word, h.kernel, h.stored, h.picked, h.possible, h.trusted⟩
  | begin =>
      unfold ShadowSystem.step at hstep
      dsimp only at hstep
      rw [Option.ite_none_left_eq_some] at hstep
      obtain ⟨-, hstep⟩ := hstep
      obtain ⟨page, hpage, rfl⟩ := Option.map_eq_some_iff.mp hstep
      have hnext := h.quiet (.begin 0) trivial trivial hpage
      split_ifs
      · exact hnext.retry
      · exact hnext
  | fetch =>
      unfold ShadowSystem.step at hstep
      dsimp only at hstep
      split_ifs at hstep
      obtain ⟨page, hpage, rfl⟩ := Option.map_eq_some_iff.mp hstep
      exact h.quiet (.fetch 0) trivial trivial hpage
  | finish =>
      unfold ShadowSystem.step at hstep
      dsimp only at hstep
      split_ifs at hstep
      obtain ⟨page, hpage, rfl⟩ := Option.map_eq_some_iff.mp hstep
      have hnext := h.quiet (.finish 0) trivial trivial hpage
      have hpublished : page.published = s.page.published :=
        (SeqPage.quiet_of_step (.finish 0) trivial hpage).published
      split
      · rename_i got hgot
        rw [h.shadowOf_result hgot, ← hpublished]
        exact hnext.returns_published
      · exact hnext.retry

end Inv

/-- A send is posted and published, and the driver reads the page. -/
def publishOnce : List ShadowOp :=
  [.count .sqHead 1, .load 0, .swap 0, .pick 0, .store 0, .pick 0, .store 0, .pick 0, .store 0, .pick 0, .store 0,
    .release 0, .refresh, .begin, .fetch, .fetch, .fetch, .fetch]

lemma leastRing_least : 6 ≤ 6 := by decide

lemma leastRing_most : 6 ≤ 15 := by decide

/-- The least ring. -/
def leastRing : RingSize := ⟨6, leastRing_least, leastRing_most⟩

/-- A new pair with queues of 64. -/
def newContext : QpContext where
  qpNum := 5
  sq := leastRing
  rq := leastRing
  trustedFastPath := true

lemma guarded_publishOnce : GuardedOps step Timely (init newContext) publishOnce :=
  ⟨trivial, trivial, SeqPage.noLap_idle (fun _ => rfl) 64, trivial, trivial, trivial, trivial, trivial, trivial,
    trivial, trivial, SeqPage.noLap_idle (fun _ => rfl) 64, trivial, trivial, trivial, trivial, trivial, trivial, trivial⟩

end ShadowSystem

end MelonDMA.Shim
