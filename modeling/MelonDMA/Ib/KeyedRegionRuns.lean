import MelonDMA.Ib.KeyedRegions

/-!
# Runs of the region table with its key indexes

In every run in which no insert uses up the last never-used bucket of an index, a lookup by key answers, and
with the live entry that has the key (`keys_resolve`). A key index that has been used up answers no lookup of
a key that is not there, and a window whose key has the variant that comes next keeps its key when it is
bound.

The keys in the slots are read as a function (`heldBy`), and an index mirrors it.
-/

namespace MelonDMA.Ib

open MelonDMA.Lib MelonDMA.Core

/-! ## An index of what is held -/

/-- The key in each slot, `0` when there is none. -/
def heldBy (keyOf : EntryKeys → ℕ) (ks : ℕ → Option EntryKeys) (i : ℕ) : ℕ := ((ks i).map keyOf).getD 0

/-- The calls that follow a change of the key in one slot, or none. -/
inductive SlotChange (held : ℕ → ℕ) : List KeyOp → (ℕ → ℕ) → Prop
  | same : SlotChange held [] held
  | moved {i key : ℕ} : key < 2 ^ 32 → (key ≠ 0 → ∀ j ≠ i, held j ≠ key) →
      SlotChange held (removeKey (held i) ++ insertKey key i) (Function.update held i key)

/-- An index that has the keys in the slots, each of which is in one slot alone. -/
structure Reflects (held : ℕ → ℕ) (s : Tracked) (log : ℕ) : Prop where
  faithful : s.Faithful log
  lt : ∀ i, held i < 2 ^ 32
  distinct : ∀ {i j}, held i ≠ 0 → held i = held j → i = j
  record : ∀ key i, s.record key = some i ↔ held i ≠ 0 ∧ indexKey (held i) = key

/-- An index with a bucket to spare that has the keys in the slots, each of which is in one slot alone. -/
structure Mirrors (held : ℕ → ℕ) (s : Tracked) (log : ℕ) : Prop where
  faithful : s.Faithful log
  unused : ∃ b < s.index.turn, s.index.slots b = 0
  lt : ∀ i, held i < 2 ^ 32
  distinct : ∀ {i j}, held i ≠ 0 → held i = held j → i = j
  record : ∀ key i, s.record key = some i ↔ held i ≠ 0 ∧ indexKey (held i) = key

/-- Keys of 32 bits are told apart. -/
lemma indexKey_inj {a b : ℕ} (ha : a < 2 ^ 32) (hb : b < 2 ^ 32) : indexKey a = indexKey b ↔ a = b := by
  unfold indexKey
  rw [← BitVec.toNat_inj, BitVec.toNat_ofNat, BitVec.toNat_ofNat, Nat.mod_eq_of_lt ha, Nat.mod_eq_of_lt hb]

section Index

variable {held : ℕ → ℕ} {s : Tracked} {log : ℕ}

/-- A call on an index with a never-used bucket ends. -/
lemma Tracked.step_ends (h : s.index.Sized log) (hunused : ∃ b < s.index.turn, s.index.slots b = 0)
    (op : KeyOp) : ∃ s', s.step op = some s' := by
  have hturn := h.turn_eq
  cases op with
  | insert key slot =>
      obtain ⟨b, hb, hslot⟩ := hunused
      have hfree : ∃ b < 2 ^ log, (s.index.bucket b).isHeld = false := by
        refine ⟨b, hturn ▸ hb, ?_⟩
        rw [KeyIndex.bucket_eq_empty.mpr hslot]
        rfl
      obtain ⟨fuel, place, hplace⟩ := (place_ends_iff (h.hash_lt key)).mpr hfree
      rw [Tracked.step, mlxKeyIndexInsert, KeyIndex.freeBucket_eq h, hturn, probe_full (h.hash_lt key) hplace]
      exact ⟨_, rfl⟩
  | remove key =>
      obtain ⟨-, fuel, index, hremove⟩ := (KeyIndex.lookupsEnd_iff h).mpr hunused key
      rw [mlxKeyIndexRemove_eq h, Option.map_eq_some_iff] at hremove
      obtain ⟨answer, hanswer, -⟩ := hremove
      rw [Tracked.step, mlxKeyIndexRemove_eq h, hturn, probe_full (h.hash_lt key) hanswer]
      exact ⟨_, rfl⟩

/-- A find on an index that mirrors the slots. -/
lemma Mirrors.find (h : Mirrors held s log) (key : BitVec 32) :
    mlxKeyIndexFind s.index s.index.turn key =
      some (((s.record key).map fun slot : ℕ => (slot : ℤ)).getD (-1)) := by
  have hsized := h.faithful.sized
  obtain ⟨⟨fuel, slot, hfind⟩, -⟩ := (KeyIndex.lookupsEnd_iff hsized).mpr h.unused key
  rw [mlxKeyIndexFind_eq hsized, Option.map_eq_some_iff] at hfind
  obtain ⟨answer, hanswer, -⟩ := hfind
  have hends : mlxKeyIndexFind s.index s.index.turn key = some (foundSlot answer) := by
    rw [mlxKeyIndexFind_eq hsized, hsized.turn_eq, probe_full (hsized.hash_lt key) hanswer]
    rfl
  rw [hends, (h.faithful.find key).1 _ _ hends]
  rcases s.record key with _ | slot <;> rfl

lemma Mirrors.reflects (h : Mirrors held s log) : Reflects held s log :=
  ⟨h.faithful, h.lt, h.distinct, h.record⟩

lemma Reflects.mirrors (h : Reflects held s log) (hunused : ∃ b < s.index.turn, s.index.slots b = 0) :
    Mirrors held s log :=
  ⟨h.faithful, hunused, h.lt, h.distinct, h.record⟩

/-- The key in a slot goes. -/
lemma Reflects.remove (h : Reflects held s log) {i : ℕ} {s' : Tracked}
    (hrun : runOps Tracked.step s (removeKey (held i)) = some s') :
    Reflects (Function.update held i 0) s' log := by
  by_cases hzero : held i = 0
  · rw [hzero] at hrun
    obtain rfl : s = s' := Option.some.inj hrun
    rwa [← hzero, Function.update_eq_self]
  · rw [removeKey, if_neg hzero, runOps, Option.bind_eq_some_iff] at hrun
    obtain ⟨s₁, hstep, hrest⟩ := hrun
    obtain rfl : s₁ = s' := Option.some.inj hrest
    have hrecord : s₁.record = Function.update s.record (indexKey (held i)) none := by
      obtain ⟨index, -, rfl⟩ := Option.map_eq_some_iff.mp hstep
      rfl
    refine ⟨h.faithful.remove hstep, fun j => ?_, fun {j k} hj hjk => ?_, fun key j => ?_⟩
    · by_cases hj : j = i
      · rw [hj, Function.update_self]
        decide
      · rw [Function.update_of_ne hj]
        exact h.lt j
    · have hji : j ≠ i := by
        rintro rfl
        exact hj (Function.update_self ..)
      rw [Function.update_of_ne hji] at hj hjk
      have hki : k ≠ i := by
        rintro rfl
        rw [Function.update_self] at hjk
        exact hj hjk
      rw [Function.update_of_ne hki] at hjk
      exact h.distinct hj hjk
    · rw [hrecord]
      by_cases hji : j = i
      · subst hji
        rw [Function.update_self]
        refine iff_of_false (fun hsome => ?_) fun hne => hne.1 rfl
        by_cases hkey : key = indexKey (held j)
        · rw [hkey, Function.update_self] at hsome
          cases hsome
        · rw [Function.update_of_ne hkey] at hsome
          exact hkey ((h.record key j).mp hsome).2.symm
      · rw [Function.update_of_ne hji]
        by_cases hkey : key = indexKey (held i)
        · rw [hkey, Function.update_self]
          refine iff_of_false (fun hsome => by cases hsome) fun hheld => hji ?_
          exact h.distinct hheld.1 ((indexKey_inj (h.lt j) (h.lt i)).mp hheld.2)
        · rw [Function.update_of_ne hkey]
          exact h.record key j

/-- A key that no slot has is entered in an empty one. -/
lemma Reflects.insert (h : Reflects held s log) {i key : ℕ} (hfree : held i = 0) (hkey : key < 2 ^ 32)
    (hfresh : key ≠ 0 → ∀ j, held j ≠ key) {s' : Tracked}
    (hrun : runOps Tracked.step s (insertKey key i) = some s') :
    Reflects (Function.update held i key) s' log := by
  by_cases hzero : key = 0
  · rw [hzero] at hrun
    obtain rfl : s = s' := Option.some.inj hrun
    rwa [hzero, ← hfree, Function.update_eq_self]
  · rw [insertKey, if_neg hzero, runOps, Option.bind_eq_some_iff] at hrun
    obtain ⟨s₁, hstep, hrest⟩ := hrun
    obtain rfl : s₁ = s' := Option.some.inj hrest
    have hrecord : s₁.record = Function.update s.record (indexKey key) (some i) := by
      obtain ⟨index, -, rfl⟩ := Option.map_eq_some_iff.mp hstep
      rfl
    have hnone : s.record (indexKey key) = none := by
      by_contra hne
      obtain ⟨j, hj⟩ := Option.ne_none_iff_exists'.mp hne
      obtain ⟨-, hheld⟩ := (h.record _ j).mp hj
      exact hfresh hzero j ((indexKey_inj (h.lt j) hkey).mp hheld)
    refine ⟨h.faithful.insert hnone hstep, fun j => ?_, fun {j k} hj hjk => ?_, fun k j => ?_⟩
    · by_cases hj : j = i
      · rwa [hj, Function.update_self]
      · rw [Function.update_of_ne hj]
        exact h.lt j
    · by_cases hji : j = i
      · by_cases hki : k = i
        · exact hji.trans hki.symm
        · rw [hji, Function.update_self, Function.update_of_ne hki] at hjk
          exact absurd hjk.symm (hfresh hzero k)
      · rw [Function.update_of_ne hji] at hj hjk
        by_cases hki : k = i
        · rw [hki, Function.update_self] at hjk
          exact absurd hjk (hfresh hzero j)
        · rw [Function.update_of_ne hki] at hjk
          exact h.distinct hj hjk
    · rw [hrecord]
      by_cases hk : k = indexKey key
      · subst hk
        rw [Function.update_self, Option.some.injEq]
        by_cases hji : j = i
        · subst hji
          rw [Function.update_self]
          exact iff_of_true rfl ⟨hzero, rfl⟩
        · rw [Function.update_of_ne hji]
          refine iff_of_false (Ne.symm hji) fun hheld => ?_
          exact hfresh hzero j ((indexKey_inj (h.lt j) hkey).mp hheld.2)
      · rw [Function.update_of_ne hk]
        by_cases hji : j = i
        · subst hji
          rw [Function.update_self, h.record, hfree]
          exact iff_of_false (fun hne => hne.1 rfl) fun hheld => hk hheld.2.symm
        · rw [Function.update_of_ne hji]
          exact h.record k j

/-- The calls that follow a change, if they end. -/
lemma Reflects.change (h : Reflects held s log) {ops : List KeyOp} {held' : ℕ → ℕ}
    (hchange : SlotChange held ops held') {s' : Tracked} (hrun : runOps Tracked.step s ops = some s') :
    Reflects held' s' log := by
  cases hchange with
  | same =>
      obtain rfl : s = s' := Option.some.inj hrun
      exact h
  | @moved i key hkey hfresh =>
      obtain ⟨s₁, hremove, hinsert⟩ := exists_of_runOps_append hrun
      have hnew : key ≠ 0 → ∀ j, Function.update held i 0 j ≠ key := by
        intro hzero j
        by_cases hj : j = i
        · rw [hj, Function.update_self]
          exact Ne.symm hzero
        · rw [Function.update_of_ne hj]
          exact hfresh hzero j hj
      have h₂ := (h.remove hremove).insert (Function.update_self ..) hkey hnew hinsert
      rwa [Function.update_idem] at h₂

/-- With a bucket to spare, the call for the key in a slot ends and leaves one. -/
lemma Mirrors.remove (h : Mirrors held s log) (i : ℕ) :
    ∃ s', runOps Tracked.step s (removeKey (held i)) = some s' ∧
      Mirrors (Function.update held i 0) s' log := by
  by_cases hzero : held i = 0
  · refine ⟨s, by rw [hzero]; rfl, ?_⟩
    rwa [← hzero, Function.update_eq_self]
  · obtain ⟨s', hstep⟩ := Tracked.step_ends h.faithful.sized h.unused (.remove (indexKey (held i)))
    have hrun : runOps Tracked.step s (removeKey (held i)) = some s' := by
      rw [removeKey, if_neg hzero, runOps, hstep]
      rfl
    exact ⟨s', hrun, (h.reflects.remove hrun).mirrors
      ((Tracked.unused_step h.faithful.sized h.unused hstep).mpr trivial)⟩

/-- With a bucket to spare, the call for a key that no slot has ends. -/
lemma Mirrors.insert (h : Mirrors held s log) {i key : ℕ} (hfree : held i = 0) (hkey : key < 2 ^ 32)
    (hfresh : key ≠ 0 → ∀ j, held j ≠ key) :
    ∃ s', runOps Tracked.step s (insertKey key i) = some s' ∧ s'.index.Sized log ∧
      ((∃ b < s'.index.turn, s'.index.slots b = 0) ↔ GuardedOps Tracked.step SparesBucket s (insertKey key i)) ∧
      (GuardedOps Tracked.step SparesBucket s (insertKey key i) →
        Mirrors (Function.update held i key) s' log) := by
  by_cases hzero : key = 0
  · rw [hzero]
    refine ⟨s, rfl, h.faithful.sized, iff_of_true h.unused trivial, fun _ => ?_⟩
    rwa [← hfree, Function.update_eq_self]
  · obtain ⟨s', hstep⟩ := Tracked.step_ends h.faithful.sized h.unused (.insert (indexKey key) i)
    have hunused := Tracked.unused_step h.faithful.sized h.unused hstep
    have hops : insertKey key i = [.insert (indexKey key) i] := if_neg hzero
    have hrun : runOps Tracked.step s (insertKey key i) = some s' := by
      rw [hops, runOps, hstep]
      rfl
    refine ⟨s', hrun, Tracked.sized_step h.faithful.sized hstep, ?_, fun hguarded => ?_⟩
    · rw [hops, hunused, GuardedOps, hstep]
      exact (and_iff_left trivial).symm
    · rw [hops] at hguarded
      exact (h.reflects.insert hfree hkey hfresh hrun).mirrors (hunused.mpr hguarded.1)

/-- The calls that follow a change end. They leave a never-used bucket exactly when they spare one, and then
an index that mirrors the slots. -/
lemma Mirrors.change (h : Mirrors held s log) {ops : List KeyOp} {held' : ℕ → ℕ}
    (hchange : SlotChange held ops held') :
    ∃ s', runOps Tracked.step s ops = some s' ∧ s'.index.Sized log ∧
      ((∃ b < s'.index.turn, s'.index.slots b = 0) ↔ GuardedOps Tracked.step SparesBucket s ops) ∧
      (GuardedOps Tracked.step SparesBucket s ops → Mirrors held' s' log) := by
  cases hchange with
  | same => exact ⟨s, rfl, h.faithful.sized, iff_of_true h.unused trivial, fun _ => h⟩
  | @moved i key hkey hfresh =>
      obtain ⟨s₁, hremove, h₁⟩ := h.remove i
      have hnew : key ≠ 0 → ∀ j, Function.update held i 0 j ≠ key := by
        intro hzero j
        by_cases hj : j = i
        · rw [hj, Function.update_self]
          exact Ne.symm hzero
        · rw [Function.update_of_ne hj]
          exact hfresh hzero j hj
      have hguarded : GuardedOps Tracked.step SparesBucket s (removeKey (held i) ++ insertKey key i) ↔
          GuardedOps Tracked.step SparesBucket s₁ (insertKey key i) := by
        rw [guardedOps_append hremove]
        refine and_iff_right ?_
        unfold removeKey
        split_ifs
        · trivial
        · refine ⟨trivial, ?_⟩
          split <;> trivial
      obtain ⟨s₂, hinsert, hsized, hunused, h₂⟩ := h₁.insert (Function.update_self ..) hkey hnew
      rw [Function.update_idem] at h₂
      exact ⟨s₂, (runOps_append hremove _).trans hinsert, hsized, hunused.trans hguarded.symm, fun hspares =>
        h₂ (hguarded.mp hspares)⟩

end Index

/-! ## What a call does to an index -/

section

variable {ks ks' : ℕ → Option EntryKeys} {lops rops : List KeyOp} {keyOf : EntryKeys → ℕ}

lemma heldBy_update (keyOf : EntryKeys → ℕ) (ks : ℕ → Option EntryKeys) (i : ℕ) (o : Option EntryKeys) :
    heldBy keyOf (Function.update ks i o) = Function.update (heldBy keyOf ks) i ((o.map keyOf).getD 0) := by
  funext j
  by_cases hj : j = i
  · rw [hj, heldBy, Function.update_self, Function.update_self]
  · rw [heldBy, Function.update_of_ne hj, Function.update_of_ne hj, heldBy]

lemma heldBy_of_some {i : ℕ} {k : EntryKeys} (h : ks i = some k) : heldBy keyOf ks i = keyOf k := by
  rw [heldBy, h]
  rfl

/-- A key that is held has its entry's handle. -/
lemma KeysApart.handle_of_held (h : KeysApart ks)
    (hof : ∀ k : EntryKeys, k.WellFormed → keyOf k ≠ 0 → IsKeyOf k.mrHandle (keyOf k)) {i : ℕ}
    (hheld : heldBy keyOf ks i ≠ 0) :
    ∃ k, ks i = some k ∧ keyOf k = heldBy keyOf ks i ∧ IsKeyOf k.mrHandle (heldBy keyOf ks i) := by
  rcases hk : ks i with _ | k
  · rw [heldBy, hk] at hheld
    exact absurd rfl hheld
  · rw [heldBy_of_some hk] at hheld ⊢
    exact ⟨k, rfl, rfl, hof k (h.wellFormed hk) hheld⟩

/-- A key of another entry's handle is not held. -/
lemma KeysApart.not_held (h : KeysApart ks)
    (hof : ∀ k : EntryKeys, k.WellFormed → keyOf k ≠ 0 → IsKeyOf k.mrHandle (keyOf k)) {j handle key : ℕ}
    (hkey : IsKeyOf handle key) (hother : ∀ a, ks j = some a → a.mrHandle ≠ handle) :
    heldBy keyOf ks j ≠ key := by
  rintro rfl
  obtain ⟨k, hk, -, hown⟩ := h.handle_of_held hof hkey.1
  exact hother k hk (hown.2.2.symm.trans hkey.2.2)

/-- A new entry's key, if it has one. -/
lemma SlotChange.entered (h : KeysApart ks)
    (hof : ∀ k : EntryKeys, k.WellFormed → keyOf k ≠ 0 → IsKeyOf k.mrHandle (keyOf k)) {i : ℕ} {k : EntryKeys}
    (hfree : ks i = none) (hwell : k.WellFormed) (hnew : ∀ j a, ks j = some a → a.mrHandle ≠ k.mrHandle) :
    SlotChange (heldBy keyOf ks) (insertKey (keyOf k) i) (heldBy keyOf (Function.update ks i (some k))) := by
  have hzero : heldBy keyOf ks i = 0 := by
    rw [heldBy, hfree]
    rfl
  have hlt : keyOf k < 2 ^ 32 := by
    by_cases hk : keyOf k = 0
    · rw [hk]
      decide
    · exact (hof k hwell hk).2.1
  have hmoved : SlotChange (heldBy keyOf ks) _ _ := .moved (i := i) hlt fun hk j _ =>
    h.not_held hof (hof k hwell hk) (hnew j)
  rw [hzero] at hmoved
  rw [heldBy_update]
  exact hmoved

/-- The key of an entry that goes, if it has one. -/
lemma SlotChange.left {i : ℕ} {k : EntryKeys} (hk : ks i = some k) :
    SlotChange (heldBy keyOf ks) (removeKey (keyOf k)) (heldBy keyOf (Function.update ks i none)) := by
  have hmoved : SlotChange (heldBy keyOf ks) _ _ := .moved (i := i) (show 0 < 2 ^ 32 by decide)
    fun hzero => absurd rfl hzero
  have hnothing : insertKey 0 i = [] := if_pos rfl
  rw [heldBy_of_some hk, hnothing, List.append_nil] at hmoved
  rw [heldBy_update]
  exact hmoved

lemma EntryKeys.WellFormed.isKeyOf_lkey (k : EntryKeys) (h : k.WellFormed) (hne : k.lkey ≠ 0) :
    IsKeyOf k.mrHandle k.lkey := h.lkey hne

lemma EntryKeys.WellFormed.isKeyOf_rkey (k : EntryKeys) (h : k.WellFormed) (_ : k.rkey ≠ 0) :
    IsKeyOf k.mrHandle k.rkey := h.rkey

/-- The index of local keys. -/
lemma KeyChange.lkeys (hchange : KeyChange ks lops rops ks') (h : KeysApart ks) :
    SlotChange (heldBy EntryKeys.lkey ks) lops (heldBy EntryKeys.lkey ks') := by
  cases hchange with
  | same => exact .same
  | entered hfree hwell hnew => exact .entered h EntryKeys.WellFormed.isKeyOf_lkey hfree hwell hnew
  | left hk => exact .left hk
  | @rekeyed i k rkey hk hrkey =>
      have hsame : heldBy EntryKeys.lkey (Function.update ks i (some { k with rkey })) =
          heldBy EntryKeys.lkey ks := by
        rw [heldBy_update, Function.update_eq_self_iff, heldBy_of_some hk]
        rfl
      rw [hsame]
      exact .same

/-- The index of remote keys. -/
lemma KeyChange.rkeys (hchange : KeyChange ks lops rops ks') (h : KeysApart ks) :
    SlotChange (heldBy EntryKeys.rkey ks) rops (heldBy EntryKeys.rkey ks') := by
  cases hchange with
  | same => exact .same
  | entered hfree hwell hnew => exact .entered h EntryKeys.WellFormed.isKeyOf_rkey hfree hwell hnew
  | left hk => exact .left hk
  | @rekeyed i k rkey hk hrkey =>
      have hmoved : SlotChange (heldBy EntryKeys.rkey ks) _ _ := .moved (i := i) hrkey.2.1 fun _ j hj =>
        h.not_held EntryKeys.WellFormed.isKeyOf_rkey hrkey fun a ha heq => hj (h.distinct ha hk heq)
      rw [heldBy_of_some hk] at hmoved
      rw [heldBy_update]
      exact hmoved

/-- Keys stay well formed, and handles apart. -/
lemma KeyChange.apart (hchange : KeyChange ks lops rops ks') (h : KeysApart ks) : KeysApart ks' := by
  cases hchange with
  | same => exact h
  | @entered i k hfree hwell hnew =>
      refine ⟨fun {j a} ha => ?_, fun {j l a b} ha hb hab => ?_⟩
      · by_cases hj : j = i
        · rw [hj, Function.update_self, Option.some.injEq] at ha
          exact ha ▸ hwell
        · rw [Function.update_of_ne hj] at ha
          exact h.wellFormed ha
      · by_cases hj : j = i <;> by_cases hl : l = i
        · exact hj.trans hl.symm
        · rw [hj, Function.update_self, Option.some.injEq] at ha
          rw [Function.update_of_ne hl] at hb
          exact absurd (ha ▸ hab.symm) (hnew l b hb)
        · rw [Function.update_of_ne hj] at ha
          rw [hl, Function.update_self, Option.some.injEq] at hb
          exact absurd (hb ▸ hab) (hnew j a ha)
        · rw [Function.update_of_ne hj] at ha
          rw [Function.update_of_ne hl] at hb
          exact h.distinct ha hb hab
  | @left i k hk =>
      have hold : ∀ {j a}, Function.update ks i none j = some a → ks j = some a := by
        intro j a ha
        by_cases hj : j = i
        · rw [hj, Function.update_self] at ha
          cases ha
        · rwa [Function.update_of_ne hj] at ha
      exact ⟨fun ha => h.wellFormed (hold ha), fun ha hb => h.distinct (hold ha) (hold hb)⟩
  | @rekeyed i k rkey hk hrkey =>
      have hold : ∀ {j a}, Function.update ks i (some { k with rkey }) j = some a →
          ∃ b, ks j = some b ∧ b.mrHandle = a.mrHandle := by
        intro j a ha
        by_cases hj : j = i
        · rw [hj, Function.update_self, Option.some.injEq] at ha
          exact ⟨k, hj ▸ hk, by rw [← ha]⟩
        · rw [Function.update_of_ne hj] at ha
          exact ⟨a, ha, rfl⟩
      refine ⟨fun {j a} ha => ?_, fun {j l a b} ha hb hab => ?_⟩
      · by_cases hj : j = i
        · rw [hj, Function.update_self, Option.some.injEq] at ha
          have hwell := h.wellFormed hk
          exact ha ▸ ⟨hrkey, hwell.lkey, hwell.window⟩
        · rw [Function.update_of_ne hj] at ha
          exact h.wellFormed ha
      · obtain ⟨a', ha', hhandle⟩ := hold ha
        obtain ⟨b', hb', hhandle'⟩ := hold hb
        exact h.distinct ha' hb' (hhandle.trans (hab.trans hhandle'.symm))

end

/-! ## Lookups by key -/

/-- Every lookup by key answers, and with the live entry that has the key; no key but `0` is in two
entries. -/
structure KeyedMr.Resolves (s : KeyedMr) : Prop where
  lkey : ∀ key, ∃ found, s.lookupByLkey key = some found ∧
    ∀ e, found = some e ↔ key ≠ 0 ∧ e.lkey = key ∧ ∃ i, entry s.mr.table i = some e
  rkey : ∀ key, ∃ found, s.lookupByRkey key = some found ∧
    ∀ e, found = some e ↔ key ≠ 0 ∧ e.rkey = key ∧ ∃ i, entry s.mr.table i = some e
  apart : ∀ {i j a b}, entry s.mr.table i = some a → entry s.mr.table j = some b → i ≠ j →
    (a.lkey ≠ 0 → a.lkey ≠ b.lkey ∧ a.lkey ≠ b.rkey) ∧ (a.rkey ≠ 0 → a.rkey ≠ b.rkey)

/-- A window that is bound has another key than before, and the old one finds nothing. -/
def KeyedMr.Rotated (s s' : KeyedMr) (mwHandle : ℕ) : Prop :=
  ∃ mw mw', s.mr.lookup mwHandle = some mw ∧ s'.mr.lookup mwHandle = some mw' ∧ mw'.rkey ≠ mw.rkey ∧
    s'.lookupByRkey mw.rkey = some none

/-- The indexes mirror the keys of the table. -/
structure KeyedMr.Inv (s : KeyedMr) (log : ℕ) : Prop where
  keys : s.mr.Keys
  lkeys : Mirrors (heldBy EntryKeys.lkey (keysAt s.mr.table)) s.lkeys log
  rkeys : Mirrors (heldBy EntryKeys.rkey (keysAt s.mr.table)) s.rkeys log

section

variable {keyOf : MrEntry → ℕ} {heldKey : EntryKeys → ℕ} {t : List (Option MrEntry)} {index : Tracked} {log : ℕ}

/-- The slot that is found for a key is that of the entry that has it. -/
lemma Mirrors.slotByKey (h : Mirrors (heldBy heldKey (keysAt t)) index log)
    (hkeyOf : ∀ e, heldKey e.keys = keyOf e) (key : ℕ) :
    ∃ found, slotByKey keyOf t index.index key = some found ∧
      ∀ i, found = some i ↔ key ≠ 0 ∧ ∃ e, entry t i = some e ∧ keyOf e = key := by
  unfold Ib.slotByKey
  by_cases hzero : key = 0
  · rw [if_pos hzero]
    exact ⟨none, rfl, fun i => iff_of_false (fun hsome => by cases hsome) fun hkey => hkey.1 hzero⟩
  · rw [if_neg hzero, h.find, Option.map_some]
    refine ⟨_, rfl, fun i => ?_⟩
    have hheld : ∀ i e, entry t i = some e → keyOf e = key → index.record (indexKey key) = some i := by
      intro i e he hkey
      have hslot : heldBy heldKey (keysAt t) i = key := by
        rw [heldBy_of_some (keysAt_of_entry he), hkeyOf, hkey]
      exact (h.record _ i).mpr ⟨by rwa [hslot], by rw [hslot]⟩
    rcases hrecord : index.record (indexKey key) with _ | j
    · refine iff_of_false (fun hsome => by cases hsome) ?_
      rintro ⟨-, e, he, hkey⟩
      rw [hheld i e he hkey] at hrecord
      cases hrecord
    · have hnonneg : ¬((j : ℤ) < 0) := by omega
      rw [Option.map_some, Option.getD_some, if_neg hnonneg, Int.toNat_natCast]
      constructor
      · intro hfound
        split_ifs at hfound with hany
        obtain rfl := Option.some.inj hfound
        rcases he : entry t j with _ | e
        · rw [he] at hany
          cases hany
        · rw [he, Option.any_some, decide_eq_true_eq] at hany
          exact ⟨hzero, e, rfl, hany⟩
      · rintro ⟨-, e, he, hkey⟩
        rw [hheld i e he hkey, Option.some.injEq] at hrecord
        subst hrecord
        rw [he, Option.any_some, if_pos (by simpa using hkey)]

end

namespace KeyedMr

variable {s : KeyedMr} {log : ℕ}

/-- What a lookup by key finds. -/
lemma found_of_slot {keyOf : MrEntry → ℕ} {t : List (Option MrEntry)} {index : KeyIndex} {key : ℕ}
    (h : ∃ found, slotByKey keyOf t index key = some found ∧
      ∀ i, found = some i ↔ key ≠ 0 ∧ ∃ e, entry t i = some e ∧ keyOf e = key) :
    ∃ found, (slotByKey keyOf t index key).map (·.bind (entry t)) = some found ∧
      ∀ e, found = some e ↔ key ≠ 0 ∧ keyOf e = key ∧ ∃ i, entry t i = some e := by
  obtain ⟨slot, hslot, hiff⟩ := h
  refine ⟨slot.bind (entry t), by rw [hslot, Option.map_some], fun e => ?_⟩
  rw [Option.bind_eq_some_iff]
  constructor
  · rintro ⟨i, hi, he⟩
    obtain ⟨hne, e', he', hkey⟩ := (hiff i).mp hi
    obtain rfl := Option.some.inj (he.symm.trans he')
    exact ⟨hne, hkey, i, he⟩
  · rintro ⟨hne, hkey, i, he⟩
    exact ⟨i, (hiff i).mpr ⟨hne, e, he, hkey⟩, he⟩

lemma Inv.lookupByLkey (h : s.Inv log) (key : ℕ) : ∃ found, s.lookupByLkey key = some found ∧
    ∀ e, found = some e ↔ key ≠ 0 ∧ e.lkey = key ∧ ∃ i, entry s.mr.table i = some e :=
  found_of_slot (h.lkeys.slotByKey (fun _ => rfl) key)

lemma Inv.lookupByRkey (h : s.Inv log) (key : ℕ) : ∃ found, s.lookupByRkey key = some found ∧
    ∀ e, found = some e ↔ key ≠ 0 ∧ e.rkey = key ∧ ∃ i, entry s.mr.table i = some e :=
  found_of_slot (h.rkeys.slotByKey (fun _ => rfl) key)

/-- Two entries with a key in common have a handle in common. -/
lemma Inv.apart (h : s.Inv log) {i j : ℕ} {a b : MrEntry} (ha : entry s.mr.table i = some a)
    (hb : entry s.mr.table j = some b) (hne : i ≠ j) :
    (a.lkey ≠ 0 → a.lkey ≠ b.lkey ∧ a.lkey ≠ b.rkey) ∧ (a.rkey ≠ 0 → a.rkey ≠ b.rkey) := by
  have ha := keysAt_of_entry ha
  have hb := keysAt_of_entry hb
  have hlocal : ∀ {key}, key = a.lkey → key ≠ 0 → IsKeyOf a.mrHandle key := by
    rintro key rfl hkey
    exact (h.keys.wellFormed ha).lkey hkey
  have hlocal' : ∀ {key}, key = b.lkey → key ≠ 0 → IsKeyOf b.mrHandle key := by
    rintro key rfl hkey
    exact (h.keys.wellFormed hb).lkey hkey
  have hremote : IsKeyOf a.mrHandle a.rkey := (h.keys.wellFormed ha).rkey
  have hremote' : IsKeyOf b.mrHandle b.rkey := (h.keys.wellFormed hb).rkey
  have hother : ∀ {key}, IsKeyOf a.mrHandle key → ¬IsKeyOf b.mrHandle key := fun hkey hkey' =>
    hne (h.keys.distinct ha hb (hkey.2.2.symm.trans hkey'.2.2))
  refine ⟨fun hlkey => ⟨fun heq => ?_, fun heq => ?_⟩, fun _ heq => ?_⟩
  · exact hother (hlocal rfl hlkey) (hlocal' heq hlkey)
  · rw [← heq] at hremote'
    exact hother (hlocal rfl hlkey) hremote'
  · rw [← heq] at hremote'
    exact hother hremote hremote'

lemma Inv.resolves (h : s.Inv log) : s.Resolves := ⟨h.lookupByLkey, h.lookupByRkey, h.apart⟩

lemma inv_empty {slots : ℕ} (hslots : slots ≤ 2 ^ 30) : ∃ log, (empty slots).Inv log := by
  obtain ⟨log, hsized, -⟩ := KeyIndex.init_sized hslots
  have hnone : ∀ i, keysAt (empty slots).mr.table i = none := fun i => keysAt_eq_none.mpr (entry_replicate _ i)
  have hzero : ∀ (keyOf : EntryKeys → ℕ) i, heldBy keyOf (keysAt (empty slots).mr.table) i = 0 := by
    intro keyOf i
    rw [heldBy, hnone]
    rfl
  have hmirrors : ∀ keyOf, Mirrors (heldBy keyOf (keysAt (empty slots).mr.table)) (Tracked.init slots) log := by
    intro keyOf
    refine ⟨.init hsized, ⟨0, Nat.succ_pos _, rfl⟩, fun i => ?_, fun {i j} hne => ?_, fun key i => ?_⟩
    · rw [hzero]
      decide
    · exact absurd (hzero keyOf i) hne
    · exact iff_of_false (fun hsome => by cases hsome) fun hne => hne.1 (hzero keyOf i)
  refine ⟨log, ⟨⟨fun {i k} hk => ?_, fun {i j a b} ha => ?_⟩, Nat.one_pos, (by decide : 1 < 256)⟩,
    hmirrors _, hmirrors _⟩
  · rw [hnone] at hk
    cases hk
  · rw [hnone] at ha
    cases ha

/-- The call on the table keeps its keys. -/
lemma keys_run (h : s.mr.Keys) {op : MrOp} (hfresh : s.mr.DeviceFresh op) : (op.run s.mr).1.Keys := by
  refine ⟨(keyChange_run h op hfresh).apart h.toKeysApart, ?_⟩
  rcases variant_run s.mr op with heq | heq
  · rw [heq]
    exact h.variant
  · rw [heq]
    exact variant_nextVariant s.mr

/-- An index that answers every lookup has a never-used bucket. -/
lemma unused_of_answers {keyOf : MrEntry → ℕ} {t : List (Option MrEntry)} {index : KeyIndex}
    (hsized : index.Sized log) (hanswers : ∀ key, slotByKey keyOf t index key ≠ none) :
    ∃ b < index.turn, index.slots b = 0 := by
  by_contra hnone
  obtain ⟨key, hzero, hnot⟩ := KeyIndex.exists_key_not_held hsized
  have hkey : indexKey key.toNat = key := BitVec.eq_of_toNat_eq (by
    rw [indexKey, BitVec.toNat_ofNat, Nat.mod_eq_of_lt key.isLt])
  have hne : key.toNat ≠ 0 := by
    intro heq
    exact hzero (BitVec.eq_of_toNat_eq heq)
  refine hanswers key.toNat ?_
  rw [slotByKey, if_neg hne, hkey, Option.map_eq_none_iff,
    mlxKeyIndexFind_eq hsized, Option.map_eq_none_iff]
  by_contra hsome
  obtain ⟨answer, hanswer⟩ := Option.ne_none_iff_exists'.mp hsome
  rcases (search_ends_iff (hsized.hash_lt key)).mp ⟨_, answer, hanswer⟩ with ⟨b, hb, hempty⟩ | ⟨value, hheld⟩
  · exact hnone ⟨b, hsized.turn_eq ▸ hb, KeyIndex.bucket_eq_empty.mp hempty⟩
  · exact hnot value hheld

lemma Resolves.lkeys (h : s.Resolves) (key : ℕ) :
    slotByKey MrEntry.lkey s.mr.table s.lkeys.index key ≠ none := by
  intro hnone
  obtain ⟨found, hfound, -⟩ := h.lkey key
  rw [KeyedMr.lookupByLkey, hnone] at hfound
  cases hfound

lemma Resolves.rkeys (h : s.Resolves) (key : ℕ) :
    slotByKey MrEntry.rkey s.mr.table s.rkeys.index key ≠ none := by
  intro hnone
  obtain ⟨found, hfound, -⟩ := h.rkey key
  rw [KeyedMr.lookupByRkey, hnone] at hfound
  cases hfound

/-- A call that tells the indexes what became of the keys ends, and they mirror the table after it exactly
when it spares their buckets. -/
lemma Inv.told (h : s.Inv log) {op : MrOp} (hfresh : s.mr.DeviceFresh op) :
    ∃ lkeys rkeys, runOps Tracked.step s.lkeys (op.lkeyOps s.mr) = some lkeys ∧
      runOps Tracked.step s.rkeys (op.rkeyOps s.mr) = some rkeys ∧
      (s.Spares op → Inv ⟨(op.run s.mr).1, lkeys, rkeys⟩ log) ∧
      (Resolves ⟨(op.run s.mr).1, lkeys, rkeys⟩ → s.Spares op) := by
  have hchange := keyChange_run h.keys op hfresh
  obtain ⟨lkeys, hl, hlsized, hlunused, hlkeys⟩ := h.lkeys.change (hchange.lkeys h.keys.toKeysApart)
  obtain ⟨rkeys, hr, hrsized, hrunused, hrkeys⟩ := h.rkeys.change (hchange.rkeys h.keys.toKeysApart)
  refine ⟨lkeys, rkeys, hl, hr, fun hspares => ?_, fun hresolves => ?_⟩
  · exact ⟨keys_run h.keys hfresh, hlkeys hspares.1, hrkeys hspares.2⟩
  · exact ⟨hlunused.mp (unused_of_answers hlsized hresolves.lkeys),
      hrunused.mp (unused_of_answers hrsized hresolves.rkeys)⟩

/-- A call that invalidates a key changes one entry of the table, and no key of it. -/
lemma invalidateKey_cases {s' : KeyedMr} {rkey : ℕ} (hstep : s.invalidateKey rkey = some s') :
    s' = s ∨ ∃ i, s' = { s with mr := { s.mr with table := s.mr.table.modify i (Option.map fun e =>
      { e with invalidated := true, boundMrHandle := 0, boundQpn := 0 }) } } ∧
        keysAt s'.mr.table = keysAt s.mr.table := by
  obtain ⟨slot, -, rfl⟩ := Option.map_eq_some_iff.mp hstep
  rcases slot with _ | i
  · exact .inl rfl
  · refine .inr ⟨i, rfl, ?_⟩
    refine keysAt_modify (g := fun e => { e with invalidated := true, boundMrHandle := 0, boundQpn := 0 }) ?_ _
    intro e
    rfl

/-- A key is invalidated where it is, and stays. -/
lemma Inv.invalidateKey (h : s.Inv log) (rkey : ℕ) : ∃ s', s.invalidateKey rkey = some s' ∧ s'.Inv log := by
  have hkeyOf : ∀ e : MrEntry, EntryKeys.rkey e.keys = e.rkey := fun _ => rfl
  obtain ⟨slot, hslot, -⟩ := h.rkeys.slotByKey hkeyOf rkey
  obtain ⟨s', hs'⟩ : ∃ s', s.invalidateKey rkey = some s' := by
    unfold KeyedMr.invalidateKey
    rw [hslot, Option.map_some]
    exact ⟨_, rfl⟩
  refine ⟨s', hs', ?_⟩
  rcases invalidateKey_cases hs' with rfl | ⟨i, rfl, hsame⟩
  · exact h
  · refine ⟨⟨?_, h.keys.variant⟩, ?_, ?_⟩
    · rw [hsame]
      exact h.keys.toKeysApart
    · rw [hsame]
      exact h.lkeys
    · rw [hsame]
      exact h.rkeys

/-- Any other call runs on the table and tells both indexes. -/
lemma step_eq {op : MrOp} (hop : ∀ rkey, op ≠ .invalidateKey rkey) :
    s.step op = (runOps Tracked.step s.lkeys (op.lkeyOps s.mr)).bind fun lkeys =>
      (runOps Tracked.step s.rkeys (op.rkeyOps s.mr)).map fun rkeys => ⟨(op.run s.mr).1, lkeys, rkeys⟩ := by
  cases op with
  | invalidateKey rkey => exact absurd rfl (hop rkey)
  | _ => rfl

/-- One call ends, and the indexes mirror the table after it exactly when it spares their buckets. -/
lemma Inv.step (h : s.Inv log) {op : MrOp} (hfresh : s.mr.DeviceFresh op) :
    ∃ s', s.step op = some s' ∧ (s.Spares op → s'.Inv log) ∧ (s'.Resolves → s.Spares op) := by
  by_cases hop : ∃ rkey, op = .invalidateKey rkey
  · obtain ⟨rkey, rfl⟩ := hop
    obtain ⟨s', hstep, h'⟩ := h.invalidateKey rkey
    refine ⟨s', hstep, fun _ => h', fun _ => ?_⟩
    unfold Spares MrOp.lkeyOps MrOp.rkeyOps MrOp.lkeyCalls MrOp.rkeyCalls
    rw [ite_self]
    exact ⟨trivial, trivial⟩
  · obtain ⟨lkeys, rkeys, hl, hr, htold⟩ := h.told hfresh
    refine ⟨⟨(op.run s.mr).1, lkeys, rkeys⟩, ?_, htold⟩
    rw [step_eq (not_exists.mp hop), hl, hr]
    rfl

/-- A bind that the table takes gives the window a key of another variant, or the same key again. -/
lemma Inv.rotated_iff (h : s.Inv log) {req : BindReq} {s' : KeyedMr} (hspares : s.Spares (.bindMw req))
    (hsuccess : (s.mr.bindMw req).2 = .success) (hstep : s.step (.bindMw req) = some s') :
    s.Rotated s' req.mwHandle ↔ s.TurnsKey (.bindMw req) := by
  obtain ⟨mw, mr, htakes⟩ : ∃ mw mr, s.mr.Takes req mw mr := by
    rcases s.mr.bindMw_cases req with ⟨-, -, hrefused⟩ | ⟨mw, mr, htakes, -⟩
    · exact absurd hsuccess hrefused
    · exact ⟨mw, mr, htakes⟩
  have hfresh : s.mr.DeviceFresh (.bindMw req) := trivial
  obtain ⟨s'', hstep', h', -⟩ := h.step hfresh
  obtain rfl := Option.some.inj (hstep.symm.trans hstep')
  have h' := h' hspares
  have hmr : s'.mr = (s.mr.bindMw req).1 := by
    obtain ⟨lkeys, -, hstep⟩ := Option.bind_eq_some_iff.mp hstep
    obtain ⟨rkeys, -, rfl⟩ := Option.map_eq_some_iff.mp hstep
    rfl
  obtain ⟨mw', hlookup, hbinding⟩ := Option.map_eq_some_iff.mp htakes.binding
  have hrkey : mw'.rkey = mlxComposeMkey (mlxMkeyIndex mw.rkey) s.mr.variant := congrArg Binding.rkey hbinding
  rw [mlxComposeMkey_eq h.keys.variant.2, mlxMkeyIndex_eq] at hrkey
  have hturns : mw'.rkey ≠ mw.rkey ↔ mw.rkey % 256 ≠ s.mr.variant := by
    have hlt := h.keys.variant.2
    omega
  rw [← hmr] at hlookup
  constructor
  · rintro ⟨old, new, hold, hnew, hne, -⟩ mw₁ mr₁ htakes₁
    obtain rfl := Option.some.inj (htakes.window.symm.trans htakes₁.window)
    obtain rfl := Option.some.inj (htakes.window.symm.trans hold)
    obtain rfl := Option.some.inj (hlookup.symm.trans hnew)
    exact hturns.mp hne
  · intro hturn
    have hne : mw'.rkey ≠ mw.rkey := hturns.mpr (hturn mw mr htakes)
    refine ⟨mw, mw', htakes.window, hlookup, hne, ?_⟩
    obtain ⟨found, hfound, hiff⟩ := h'.lookupByRkey mw.rkey
    rw [hfound, Option.some.injEq]
    by_contra hsome
    obtain ⟨e, rfl⟩ := Option.ne_none_iff_exists'.mp hsome
    obtain ⟨-, hkey, i, he⟩ := (hiff e).mp rfl
    -- the entry that has the old key has the handle of the window, so it is the window
    obtain ⟨j, -, hentry, hhandle⟩ := MrTable.slot_of_lookup htakes.window
    obtain ⟨j', -, hentry', hhandle'⟩ := MrTable.slot_of_lookup hlookup
    have hmwKey : IsKeyOf mw.mrHandle mw.rkey := (h.keys.wellFormed (keysAt_of_entry hentry)).rkey
    have heKey : IsKeyOf e.mrHandle e.rkey := (h'.keys.wellFormed (keysAt_of_entry he)).rkey
    rw [hkey] at heKey
    have hsame : e.mrHandle = mw'.mrHandle :=
      heKey.2.2.symm.trans (hmwKey.2.2.trans (hhandle.trans hhandle'.symm))
    obtain rfl := h'.keys.distinct (keysAt_of_entry he) (keysAt_of_entry hentry') hsame
    obtain rfl := Option.some.inj (he.symm.trans hentry')
    exact hne hkey

end KeyedMr

/-! ## Results -/

/-- In every run in which no insert uses up the last never-used bucket of an index, a lookup by key answers,
and with the live entry that has the key. After such a run every call ends; lookups answer so after it exactly
when it uses up no index; and a bind gives the window another key exactly when its key has not the variant
that comes next. -/
theorem keys_resolve {slots : ℕ} (hslots : slots ≤ 2 ^ 30) {s : KeyedMr}
    (run : Reach KeyedMr.step (fun s op => s.mr.DeviceFresh op ∧ s.Spares op) (.empty slots) s) :
    s.Resolves ∧
      (∀ op, s.mr.DeviceFresh op → ∃ s', s.step op = some s' ∧ (s'.Resolves ↔ s.Spares op)) ∧
      ∀ req s', s.Spares (.bindMw req) → (s.mr.bindMw req).2 = .success → s.step (.bindMw req) = some s' →
        (s.Rotated s' req.mwHandle ↔ s.TurnsKey (.bindMw req)) := by
  obtain ⟨log, hempty⟩ := KeyedMr.inv_empty hslots
  have h : s.Inv log := by
    refine run.invariant (KeyedMr.Inv · log) hempty ?_
    rintro s s' op h ⟨hfresh, hspares⟩ hstep
    obtain ⟨s'', hstep', h', -⟩ := h.step hfresh
    obtain rfl := Option.some.inj (hstep.symm.trans hstep')
    exact h' hspares
  refine ⟨h.resolves, fun op hfresh => ?_, fun req s' => h.rotated_iff⟩
  obtain ⟨s', hstep, h', hspares⟩ := h.step hfresh
  exact ⟨s', hstep, hspares, fun hspare => (h' hspare).resolves⟩

/-- A region and a window. -/
def windowReady : List MrOp := [.regMr ⟨1, 4096, 4096, 31⟩ .success (.ok 1), .allocMw 1 2 (.ok 3)]

/-- A bind of the window to the region. -/
def windowBind : BindReq := ⟨3, 5, 1, mlxComposeMkey 3 2, 15, 4096, 64⟩

/-- The window is bound and has a new key. -/
theorem keys_resolve_bound :
    ∃ s s' : KeyedMr, s.Resolves ∧ s.step (.bindMw windowBind) = some s' ∧ s.Rotated s' 3 := by
  have run : Reach KeyedMr.step (fun s op => s.mr.DeviceFresh op ∧ s.Spares op) (.empty 4) _ :=
    reach_of_guardedOps windowReady rfl
      ⟨⟨⟨by decide, rfl⟩, ⟨.inl (by decide +kernel), trivial⟩, .inl (by decide +kernel), trivial⟩,
        ⟨⟨by decide, rfl⟩, trivial, .inl (by decide +kernel), trivial⟩, trivial⟩
  obtain ⟨hresolves, hends, hrotated⟩ := keys_resolve (by decide) run
  obtain ⟨s', hstep, -⟩ := hends (.bindMw windowBind) trivial
  refine ⟨_, s', hresolves, hstep, (hrotated windowBind s' ?_ (by decide) hstep).mpr ?_⟩
  · exact ⟨trivial, trivial, .inl (by decide +kernel), trivial⟩
  · intro mw mr htakes hsame
    have hwindow := htakes.window
    obtain rfl := Option.some.inj hwindow
    exact absurd hsame (by decide)

/-- The firmware refuses as many regions as bring the variants round to the window's. -/
def variantsRound : List MrOp :=
  windowReady ++ List.replicate 254 (.regMr ⟨1, 4096, 4096, 31⟩ .success (.error .ioError))

/-- A window that is bound then keeps its key. -/
theorem window_keeps_key : ¬∀ (slots : ℕ) (s s' : KeyedMr) (req : BindReq),
    Reach KeyedMr.step (fun s op => s.mr.DeviceFresh op) (.empty slots) s → (s.mr.bindMw req).2 = .success →
      s.step (.bindMw req) = some s' → s.Rotated s' req.mwHandle := by
  intro h
  have hrun : ((runOps KeyedMr.step (.empty 64) variantsRound).bind fun s =>
      (s.step (.bindMw windowBind)).map fun s' => ((s.mr.bindMw windowBind).2,
        (s.mr.lookup 3).map MrEntry.rkey, (s'.mr.lookup 3).map MrEntry.rkey)) =
      some (.success, some 770, some 770) := by
    decide +kernel
  have hguarded : GuardedOps KeyedMr.step (fun s op => s.mr.DeviceFresh op) (.empty 64) variantsRound := by
    decide +kernel
  obtain ⟨s, hs, hvals⟩ := Option.bind_eq_some_iff.mp hrun
  obtain ⟨s', hstep, hvals⟩ := Option.map_eq_some_iff.mp hvals
  obtain ⟨hsuccess, hvals⟩ := Prod.mk.inj hvals
  obtain ⟨hold, hnew⟩ := Prod.mk.inj hvals
  obtain ⟨mw, mw', hmw, hmw', hne, -⟩ :=
    h 64 s s' windowBind (reach_of_guardedOps variantsRound hs hguarded) hsuccess hstep
  change s.mr.lookup 3 = some mw at hmw
  change s'.mr.lookup 3 = some mw' at hmw'
  rw [hmw, Option.map_some, Option.some.injEq] at hold
  rw [hmw', Option.map_some, Option.some.injEq] at hnew
  exact hne (hnew.trans hold.symm)

end MelonDMA.Ib
