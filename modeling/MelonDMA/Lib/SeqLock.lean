import MelonDMA.Lib.Runs
import Mathlib.Algebra.Ring.Nat
import Mathlib.Logic.Function.Basic
import Mathlib.Tactic.Common

/-!
# Sequence locks

Several cells that any number of writers store one after the other and any number of readers load one after the
other, with a sequence number of `w` bits beside them. A writer makes the number odd by a compare and swap, stores
every cell, and makes the number even again; a reader keeps what it loaded when the number was even and the same
before and after. Every load and store is a step of its own.

A reader keeps the cells of the last writer that was done, all of them (`SeqInv.result_eq`), unless the number went
once around under it (`NoLap`).
-/

namespace MelonDMA.Lib

variable {F V : Type}

/-! ## The page -/

/-- Where a writer is. -/
inductive Writer (F V : Type)
  | idle
  /-- It read an even number. -/
  | loaded (seq : ℕ)
  /-- It made the number odd, and has these cells to store. -/
  | writing (seq : ℕ) (left : List F)
  /-- It has the value of the next cell. -/
  | picked (seq : ℕ) (f : F) (v : V) (left : List F)

/-- The number that a writer made odd. -/
def Writer.held : Writer F V → Option ℕ
  | .writing seq _ => some seq
  | .picked seq _ _ _ => some seq
  | _ => none

/-- Where a reader is: the number that it read before, what it loaded, and the cells that it has to load. `since`
counts the changes of the number before. -/
inductive Reader (F V : Type)
  | idle
  | reading (before since : ℕ) (got : List (F × V)) (left : List F)

/-- The number, the cells, and who is at them. -/
structure SeqPage (F V : Type) where
  seq : ℕ
  cell : F → V
  writers : ℕ → Writer F V
  readers : ℕ → Reader F V
  /-- The changes of the number. -/
  moves : ℕ
  /-- The cells when the number was last made even. -/
  published : F → V

/-- A load or a store. -/
inductive SeqOp (V : Type)
  | load (writer : ℕ)
  | swap (writer : ℕ)
  | pick (writer : ℕ) (v : V)
  | store (writer : ℕ)
  | release (writer : ℕ)
  | begin (reader : ℕ)
  | fetch (reader : ℕ)
  | finish (reader : ℕ)

namespace SeqPage

/-- A page with the number `0`, that nobody is at. -/
def init (cell : F → V) : SeqPage F V where
  seq := 0
  cell := cell
  writers := fun _ => .idle
  readers := fun _ => .idle
  moves := 0
  published := cell

variable (s : SeqPage F V)

/-- A writer gets to a point. -/
def writerAt (i : ℕ) (p : Writer F V) : SeqPage F V := { s with writers := Function.update s.writers i p }

/-- A reader gets to a point. -/
def readerAt (j : ℕ) (p : Reader F V) : SeqPage F V := { s with readers := Function.update s.readers j p }

/-- What a reader that has loaded every cell keeps. -/
def result (j : ℕ) : Option (List (F × V)) :=
  match s.readers j with
  | .reading before _ got [] => if s.seq = before then some got else none
  | _ => none

variable [DecidableEq F]

/-- One load or store; `none` when nobody is at it. -/
def step (w : ℕ) (order : List F) : SeqOp V → Option (SeqPage F V)
  | .load i =>
      match s.writers i with
      | .idle | .loaded _ => some (s.writerAt i (if s.seq % 2 = 1 then .idle else .loaded s.seq))
      | _ => none
  | .swap i =>
      match s.writers i with
      | .loaded seq =>
          if s.seq = seq then
            some (writerAt { s with seq := (seq + 1) % 2 ^ w, moves := s.moves + 1 } i (.writing seq order))
          else some (s.writerAt i .idle)
      | _ => none
  | .pick i v =>
      match s.writers i with
      | .writing seq (f :: left) => some (s.writerAt i (.picked seq f v left))
      | _ => none
  | .store i =>
      match s.writers i with
      | .picked seq f v left =>
          some (writerAt { s with cell := Function.update s.cell f v } i (.writing seq left))
      | _ => none
  | .release i =>
      match s.writers i with
      | .writing seq [] =>
          some (writerAt { s with seq := (seq + 2) % 2 ^ w, moves := s.moves + 1, published := s.cell } i .idle)
      | _ => none
  | .begin j =>
      match s.readers j with
      | .idle => some (if s.seq % 2 = 1 then s else s.readerAt j (.reading s.seq s.moves [] order))
      | _ => none
  | .fetch j =>
      match s.readers j with
      | .reading before since got (f :: left) =>
          some (s.readerAt j (.reading before since (got ++ [(f, s.cell f)]) left))
      | _ => none
  | .finish j =>
      match s.readers j with
      | .reading _ _ _ [] => some (s.readerAt j .idle)
      | _ => none

/-- The number does not go once around while a reader reads. -/
def NoLap (w : ℕ) : Prop :=
  ∀ j before since got left, s.readers j = .reading before since got left → s.moves + 1 < since + 2 ^ w

/-- The steps that change the number find no reader a whole turn behind. -/
def Timely (w : ℕ) : SeqOp V → Prop
  | .swap _ | .release _ => s.NoLap w
  | _ => True

end SeqPage

/-! ## What a step does -/

namespace SeqPage

variable {w : ℕ} {order : List F} {s s' : SeqPage F V}

/-- Nobody reads. -/
lemma noLap_idle {s : SeqPage F V} (h : ∀ j, s.readers j = .idle) (w : ℕ) : s.NoLap w := by
  intro j before since got left hj
  rw [h j] at hj
  cases hj

/-- The cells, what is published and the values that writers have stay. -/
structure Quiet (s s' : SeqPage F V) : Prop where
  cell : s'.cell = s.cell
  published : s'.published = s.published
  picked : ∀ i seq f v left, s'.writers i = .picked seq f v left → s.writers i = .picked seq f v left

lemma quiet_writerAt {i : ℕ} {p : Writer F V} {seq moves : ℕ} (hp : ∀ seq f v left, p ≠ .picked seq f v left) :
    Quiet s (writerAt { s with seq := seq, moves := moves } i p) := by
  refine ⟨rfl, rfl, fun k seq f v left hk => ?_⟩
  unfold writerAt at hk
  dsimp only at hk
  by_cases hki : k = i
  · rw [hki, Function.update_self] at hk
    exact absurd hk (hp seq f v left)
  · rwa [Function.update_of_ne hki] at hk

/-- The steps that store no cell and load no value. -/
def IsQuiet : SeqOp V → Prop
  | .pick .. | .store _ | .release _ => False
  | _ => True

variable [DecidableEq F]

lemma quiet_of_step (op : SeqOp V) (hop : IsQuiet op) (h : s.step w order op = some s') : Quiet s s' := by
  cases op with
  | load i =>
      unfold step at h
      dsimp only at h
      split at h
      · obtain rfl := Option.some.inj h
        exact quiet_writerAt (by split_ifs <;> simp)
      · obtain rfl := Option.some.inj h
        exact quiet_writerAt (by split_ifs <;> simp)
      · cases h
  | swap i =>
      unfold step at h
      dsimp only at h
      split at h
      · split_ifs at h
        · obtain rfl := Option.some.inj h
          exact quiet_writerAt (by simp)
        · obtain rfl := Option.some.inj h
          exact quiet_writerAt (by simp)
      · cases h
  | pick i v => exact hop.elim
  | store i => exact hop.elim
  | release i => exact hop.elim
  | begin j =>
      unfold step at h
      dsimp only at h
      split at h
      · obtain rfl := Option.some.inj h
        split_ifs
        · exact ⟨rfl, rfl, fun _ _ _ _ _ hk => hk⟩
        · exact ⟨rfl, rfl, fun _ _ _ _ _ hk => hk⟩
      · cases h
  | fetch j =>
      unfold step at h
      dsimp only at h
      split at h
      · obtain rfl := Option.some.inj h
        exact ⟨rfl, rfl, fun _ _ _ _ _ hk => hk⟩
      · cases h
  | finish j =>
      unfold step at h
      dsimp only at h
      split at h
      · obtain rfl := Option.some.inj h
        exact ⟨rfl, rfl, fun _ _ _ _ _ hk => hk⟩
      · cases h

lemma step_pick {i : ℕ} {v : V} (h : s.step w order (.pick i v) = some s') :
    ∃ seq f left, s.writers i = .writing seq (f :: left) ∧ s' = s.writerAt i (.picked seq f v left) := by
  unfold step at h
  dsimp only at h
  split at h
  · rename_i seq f left hi
    exact ⟨seq, f, left, hi, (Option.some.inj h).symm⟩
  · cases h

lemma step_store {i : ℕ} (h : s.step w order (.store i) = some s') :
    ∃ seq f v left, s.writers i = .picked seq f v left ∧
      s' = writerAt { s with cell := Function.update s.cell f v } i (.writing seq left) := by
  unfold step at h
  dsimp only at h
  split at h
  · rename_i seq f v left hi
    exact ⟨seq, f, v, left, hi, (Option.some.inj h).symm⟩
  · cases h

lemma step_release {i : ℕ} (h : s.step w order (.release i) = some s') :
    s'.cell = s.cell ∧ s'.published = s.cell ∧
      ∀ k seq f v left, s'.writers k = .picked seq f v left → s.writers k = .picked seq f v left := by
  unfold step at h
  dsimp only at h
  split at h
  · rename_i seq hi
    obtain rfl := Option.some.inj h
    refine ⟨rfl, rfl, fun k seq f v left hk => ?_⟩
    unfold writerAt at hk
    dsimp only at hk
    by_cases hki : k = i
    · rw [hki, Function.update_self] at hk
      cases hk
    · rwa [Function.update_of_ne hki] at hk
  · cases h

end SeqPage

/-! ## The invariant -/

/-- What holds of a page: a writer is between its stores exactly while the number is odd, and what a reader loaded
is published while the number stays. -/
structure SeqInv (w : ℕ) (order : List F) (s : SeqPage F V) : Prop where
  seq : s.seq = s.moves % 2 ^ w
  loaded : ∀ i seq, s.writers i = .loaded seq → seq % 2 = 0
  held : ∀ i seq, (s.writers i).held = some seq → s.moves % 2 = 1 ∧ seq = (s.moves - 1) % 2 ^ w
  one : ∀ i j seq seq', (s.writers i).held = some seq → (s.writers j).held = some seq' → i = j
  whole : s.moves % 2 = 0 → s.cell = s.published
  reading : ∀ j before since got left, s.readers j = .reading before since got left →
    before = since % 2 ^ w ∧ since % 2 = 0 ∧ since ≤ s.moves ∧ s.moves < since + 2 ^ w ∧
      got.map Prod.fst ++ left = order ∧ (s.moves = since → ∀ x ∈ got, x.2 = s.published x.1)

namespace SeqInv

variable {w : ℕ} {order : List F} {s s' : SeqPage F V}

theorem start (cell : F → V) : SeqInv w order (SeqPage.init cell) where
  seq := (Nat.zero_mod _).symm
  loaded := fun _ _ h => by cases h
  held := fun _ _ h => by cases h
  one := fun _ _ _ _ h => by cases h
  whole := fun _ => rfl
  reading := fun _ _ _ _ _ h => by cases h

/-- A number of `w` bits has the parity of what it counts. -/
lemma parity (hw : 0 < w) (n : ℕ) : n % 2 ^ w % 2 = n % 2 :=
  Nat.mod_mod_of_dvd n (Nat.pow_dvd_pow (m := 1) 2 hw)

/-- What a reader keeps is what the last writer that was done left, in every cell. -/
theorem result_eq (h : SeqInv w order s) {j : ℕ} {got : List (F × V)} (hgot : s.result j = some got) :
    got = order.map (fun f => (f, s.published f)) ∧ s.cell = s.published := by
  unfold SeqPage.result at hgot
  split at hgot
  · rename_i before since got' hreader
    obtain ⟨hbefore, heven, hle, hlap, hfields, hvalues⟩ := h.reading j _ _ _ _ hreader
    split_ifs at hgot with hseq
    obtain rfl := Option.some.inj hgot
    -- the number is the same, and it did not go around
    have hsame : s.moves = since := by
      have hmod : s.moves % 2 ^ w = since % 2 ^ w := by rw [← h.seq, hseq, hbefore]
      have hdvd : 2 ^ w ∣ s.moves - since := Nat.dvd_of_mod_eq_zero (Nat.sub_mod_eq_zero_of_mod_eq hmod)
      have hzero := Nat.eq_zero_of_dvd_of_lt hdvd (by omega)
      omega
    refine ⟨?_, h.whole (hsame ▸ heven)⟩
    rw [List.append_nil] at hfields
    rw [← hfields, List.map_map]
    refine (List.map_id got').symm.trans (List.map_congr_left fun x hx => ?_)
    exact Prod.ext rfl (hvalues hsame x hx)
  · cases hgot

/-! ## The steps -/

/-- A writer gets to a point at which it holds what it held. -/
lemma writerAt (h : SeqInv w order s) (i : ℕ) (p : Writer F V) (hheld : p.held = (s.writers i).held)
    (hload : ∀ seq, p = .loaded seq → seq % 2 = 0) : SeqInv w order (s.writerAt i p) := by
  have hsame : ∀ k, ((s.writerAt i p).writers k).held = (s.writers k).held := by
    intro k
    unfold SeqPage.writerAt
    dsimp only
    by_cases hk : k = i
    · rw [hk, Function.update_self, hheld]
    · rw [Function.update_of_ne hk]
  refine ⟨h.seq, fun k seq hk => ?_, fun k seq hk => h.held k seq (hsame k ▸ hk),
    fun k l seq seq' hk hl => h.one k l seq seq' (hsame k ▸ hk) (hsame l ▸ hl), h.whole, h.reading⟩
  unfold SeqPage.writerAt at hk
  dsimp only at hk
  by_cases hki : k = i
  · rw [hki, Function.update_self] at hk
    exact hload seq hk
  · rw [Function.update_of_ne hki] at hk
    exact h.loaded k seq hk

/-- A reader gets to a point that what it loaded bears out. -/
lemma readerAt (h : SeqInv w order s) (j : ℕ) (p : Reader F V)
    (hp : ∀ before since got left, p = .reading before since got left →
      before = since % 2 ^ w ∧ since % 2 = 0 ∧ since ≤ s.moves ∧ s.moves < since + 2 ^ w ∧
        got.map Prod.fst ++ left = order ∧ (s.moves = since → ∀ x ∈ got, x.2 = s.published x.1)) :
    SeqInv w order (s.readerAt j p) := by
  refine ⟨h.seq, h.loaded, h.held, h.one, h.whole, fun k before since got left hk => ?_⟩
  unfold SeqPage.readerAt at hk
  dsimp only at hk
  by_cases hkj : k = j
  · rw [hkj, Function.update_self] at hk
    exact hp before since got left hk
  · rw [Function.update_of_ne hkj] at hk
    exact h.reading k before since got left hk

/-- Nobody else holds the page while a writer does. -/
lemma held_none (h : SeqInv w order s) {i : ℕ} {seq : ℕ} (hi : (s.writers i).held = some seq) {k : ℕ} (hk : k ≠ i) :
    (s.writers k).held = none := by
  cases hheld : (s.writers k).held with
  | none => rfl
  | some seq' => exact absurd (h.one k i _ _ hheld hi) hk

/-- Nobody holds the page while the number is even. -/
lemma held_even (h : SeqInv w order s) (heven : s.moves % 2 = 0) (k : ℕ) : (s.writers k).held = none := by
  cases hheld : (s.writers k).held with
  | none => rfl
  | some seq =>
      have hodd := (h.held k seq hheld).1
      omega

/-- A reader that started before the number changed keeps nothing. -/
lemma reading_move (h : SeqInv w order s) (hlap : s.NoLap w) {j before since : ℕ} {got : List (F × V)}
    {left : List F} (hj : s.readers j = .reading before since got left) {published : F → V} :
    before = since % 2 ^ w ∧ since % 2 = 0 ∧ since ≤ s.moves + 1 ∧ s.moves + 1 < since + 2 ^ w ∧
      got.map Prod.fst ++ left = order ∧ (s.moves + 1 = since → ∀ x ∈ got, x.2 = published x.1) := by
  obtain ⟨hbefore, heven, hle, -, hfields, -⟩ := h.reading j _ _ _ _ hj
  exact ⟨hbefore, heven, by omega, hlap j _ _ _ _ hj, hfields, fun heq => by omega⟩

/-- A writer makes the number odd. -/
lemma swap (hw : 0 < w) (h : SeqInv w order s) (hlap : s.NoLap w) {i : ℕ} (hi : s.writers i = .loaded s.seq) :
    SeqInv w order
      (SeqPage.writerAt { s with seq := (s.seq + 1) % 2 ^ w, moves := s.moves + 1 } i (.writing s.seq order)) := by
  have heven : s.moves % 2 = 0 := by
    have hseq := h.loaded i _ hi
    rwa [h.seq, parity hw] at hseq
  have hwriters : ∀ k, k ≠ i → (Function.update s.writers i (.writing s.seq order) k).held = none := by
    intro k hk
    rw [Function.update_of_ne hk]
    exact h.held_even heven k
  refine ⟨?_, fun k seq hk => ?_, fun k seq hk => ?_, fun k l seq seq' hk hl => ?_, fun hodd => ?_,
    fun j before since got left hj => h.reading_move hlap hj⟩
  · show (s.seq + 1) % 2 ^ w = (s.moves + 1) % 2 ^ w
    rw [h.seq, Nat.mod_add_mod]
  · unfold SeqPage.writerAt at hk
    dsimp only at hk
    by_cases hki : k = i
    · rw [hki, Function.update_self] at hk
      cases hk
    · rw [Function.update_of_ne hki] at hk
      exact h.loaded k seq hk
  · unfold SeqPage.writerAt at hk ⊢
    dsimp only at hk ⊢
    by_cases hki : k = i
    · rw [hki, Function.update_self] at hk
      refine ⟨by omega, ?_⟩
      rw [← Option.some.inj hk, h.seq, Nat.add_sub_cancel]
    · rw [hwriters k hki] at hk
      cases hk
  · unfold SeqPage.writerAt at hk hl
    dsimp only at hk hl
    by_cases hki : k = i
    · by_cases hli : l = i
      · rw [hki, hli]
      · rw [hwriters l hli] at hl
        cases hl
    · rw [hwriters k hki] at hk
      cases hk
  · change (s.moves + 1) % 2 = 0 at hodd
    omega

/-- A writer that stored every cell makes the number even. -/
lemma release (h : SeqInv w order s) (hlap : s.NoLap w) {i seq : ℕ} (hi : s.writers i = .writing seq []) :
    SeqInv w order
      (SeqPage.writerAt { s with seq := (seq + 2) % 2 ^ w, moves := s.moves + 1, published := s.cell } i .idle) := by
  have hholds : (s.writers i).held = some seq := by rw [hi]; rfl
  obtain ⟨hodd, hseq⟩ := h.held i seq hholds
  have hwriters : ∀ k, (Function.update s.writers i .idle k).held = none := by
    intro k
    by_cases hk : k = i
    · rw [hk, Function.update_self]
      rfl
    · rw [Function.update_of_ne hk]
      exact h.held_none hholds hk
  refine ⟨?_, fun k seq hk => ?_, fun k seq hk => ?_, fun k l seq seq' hk hl => ?_, fun _ => rfl,
    fun j before since got left hj => h.reading_move hlap hj⟩
  · show (seq + 2) % 2 ^ w = (s.moves + 1) % 2 ^ w
    rw [hseq, Nat.mod_add_mod]
    congr 1
    omega
  · unfold SeqPage.writerAt at hk
    dsimp only at hk
    by_cases hki : k = i
    · rw [hki, Function.update_self] at hk
      cases hk
    · rw [Function.update_of_ne hki] at hk
      exact h.loaded k seq hk
  · unfold SeqPage.writerAt at hk
    rw [hwriters k] at hk
    cases hk
  · unfold SeqPage.writerAt at hk
    rw [hwriters k] at hk
    cases hk

/-- A writer reads the number, and starts again when it is odd. -/
lemma load (h : SeqInv w order s) (i : ℕ) (hi : (s.writers i).held = none) :
    SeqInv w order (s.writerAt i (if s.seq % 2 = 1 then .idle else .loaded s.seq)) := by
  by_cases hodd : s.seq % 2 = 1
  · rw [if_pos hodd]
    exact h.writerAt i _ hi.symm (fun seq hseq => by cases hseq)
  · rw [if_neg hodd]
    refine h.writerAt i _ hi.symm (fun seq hseq => ?_)
    cases hseq
    omega

/-- Every load and store keeps the invariant. -/
theorem step (hw : 0 < w) [DecidableEq F] (h : SeqInv w order s) (op : SeqOp V) (hok : s.Timely w op)
    (hstep : s.step w order op = some s') : SeqInv w order s' := by
  cases op with
  | load i =>
      unfold SeqPage.step at hstep
      dsimp only at hstep
      split at hstep
      · rename_i hi
        obtain rfl := Option.some.inj hstep
        exact h.load i (by rw [hi]; rfl)
      · rename_i seq hi
        obtain rfl := Option.some.inj hstep
        exact h.load i (by rw [hi]; rfl)
      · cases hstep
  | swap i =>
      unfold SeqPage.step at hstep
      dsimp only at hstep
      split at hstep
      · rename_i seq hi
        split_ifs at hstep with hseq
        · obtain rfl := Option.some.inj hstep
          subst hseq
          exact h.swap hw hok hi
        · obtain rfl := Option.some.inj hstep
          exact h.writerAt i _ (by rw [hi]; rfl) (fun seq hseq => by cases hseq)
      · cases hstep
  | pick i v =>
      unfold SeqPage.step at hstep
      dsimp only at hstep
      split at hstep
      · rename_i seq f left hi
        obtain rfl := Option.some.inj hstep
        exact h.writerAt i _ (by rw [hi]; rfl) (fun seq hseq => by cases hseq)
      · cases hstep
  | store i =>
      unfold SeqPage.step at hstep
      dsimp only at hstep
      split at hstep
      · rename_i seq f v left hi
        obtain rfl := Option.some.inj hstep
        have hodd := (h.held i seq (by rw [hi]; rfl)).1
        -- the cells of a page that a writer holds are nobody's yet
        have hcell : SeqInv w order { s with cell := Function.update s.cell f v } :=
          ⟨h.seq, h.loaded, h.held, h.one, fun heven => absurd heven (by rw [hodd]; decide), h.reading⟩
        exact hcell.writerAt i _ (by rw [hi]; rfl) (fun seq hseq => by cases hseq)
      · cases hstep
  | release i =>
      unfold SeqPage.step at hstep
      dsimp only at hstep
      split at hstep
      · rename_i seq hi
        obtain rfl := Option.some.inj hstep
        exact h.release hok hi
      · cases hstep
  | begin j =>
      unfold SeqPage.step at hstep
      dsimp only at hstep
      split at hstep
      · obtain rfl := Option.some.inj hstep
        split_ifs with hodd
        · exact h
        · refine h.readerAt j _ fun before since got left hp => ?_
          cases hp
          have heven : s.moves % 2 = 0 := by
            rw [h.seq, parity hw] at hodd
            omega
          exact ⟨h.seq, heven, le_rfl, Nat.lt_add_of_pos_right (Nat.two_pow_pos w), rfl,
            fun _ x hx => absurd hx List.not_mem_nil⟩
      · cases hstep
  | fetch j =>
      unfold SeqPage.step at hstep
      dsimp only at hstep
      split at hstep
      · rename_i before since got f left hj
        obtain rfl := Option.some.inj hstep
        obtain ⟨hbefore, heven, hle, hlap, hfields, hvalues⟩ := h.reading j _ _ _ _ hj
        refine h.readerAt j _ fun before' since' got' left' hp => ?_
        cases hp
        refine ⟨hbefore, heven, hle, hlap, ?_, fun hsame x hx => ?_⟩
        · rw [List.map_append, List.map_singleton, List.append_assoc]
          exact hfields
        · rcases List.mem_append.mp hx with hold | hnew
          · exact hvalues hsame x hold
          · rw [List.mem_singleton.mp hnew]
            exact congrFun (h.whole (hsame ▸ heven)) f
      · cases hstep
  | finish j =>
      unfold SeqPage.step at hstep
      dsimp only at hstep
      split at hstep
      · obtain rfl := Option.some.inj hstep
        exact h.readerAt j _ fun before since got left hp => by cases hp
      · cases hstep

end SeqInv

end MelonDMA.Lib
