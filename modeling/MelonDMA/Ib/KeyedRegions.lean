import MelonDMA.Core.KeyIndexRuns
import MelonDMA.Ib.BindWindow
import MelonDMA.Ib.MrDependents

/-!
# Regions and their key indexes

The region table of `MlxMR.cpp` beside the two hash indexes from a local and from a remote key to a slot.
Each call tells the indexes what became of the keys (`MrOp.lkeyOps`, `MrOp.rkeyOps`), and lookups by key go
through them.

What a call can do to the keys of the table is one of four things (`KeyChange`): nothing, a new entry in a
free slot, an entry that goes, or a new remote key for one that stays.
-/

namespace MelonDMA.Ib

open MelonDMA.Lib MelonDMA.Core

/-! ## Calls -/

/-- A key as the indexes take it. -/
def indexKey (key : ℕ) : BitVec 32 := BitVec.ofNat 32 key

namespace MrOp

/-- The call on the table. A UMR is posted without one. -/
def run (s : MrTable) : MrOp → MrTable × KernReturn
  | .regMr req pin exec => s.regMr req pin exec
  | .regMrIndirect req childHandles exec => s.regMrIndirect req childHandles exec
  | .postUmrKlm .. => (s, .success)
  | .deregMr mrHandle quarantined exec => s.deregMr mrHandle quarantined exec
  | .allocMw pd type exec => s.allocMw pd type exec
  | .bindMw req => s.bindMw req
  | .deallocMw handle quarantined exec => s.deallocMw handle quarantined exec
  | .invalidateKey rkey => s.invalidateKey rkey

/-- A new key, entered with the slot of its entry. -/
def entered (s : MrTable) (index : ℕ) : List KeyOp :=
  [.insert (indexKey (mlxComposeMkey index s.variant)) (firstFree s.table)]

/-- What a call that succeeds does to the index of local keys. Source: the calls of `mlxKeyIndexInsert` and
`mlxKeyIndexRemove` on `lkeyBuckets`. -/
def lkeyCalls (s : MrTable) : MrOp → List KeyOp
  | .regMr _ _ (.ok index) => entered s index
  | .regMrIndirect _ _ (.ok index) => entered s index
  | .deregMr mrHandle _ _ =>
      match s.lookup mrHandle with
      | some e => if e.isWindow = true ∨ e.lkey = 0 then [] else [.remove (indexKey e.lkey)]
      | none => []
  | _ => []

/-- What a call that succeeds does to the index of remote keys. Source: the calls of `mlxKeyIndexInsert` and
`mlxKeyIndexRemove` on `rkeyBuckets`. -/
def rkeyCalls (s : MrTable) : MrOp → List KeyOp
  | .regMr _ _ (.ok index) => entered s index
  | .regMrIndirect _ _ (.ok index) => entered s index
  | .allocMw _ _ (.ok index) => entered s index
  | .deregMr mrHandle _ _ => ((s.lookup mrHandle).map fun e => .remove (indexKey e.rkey)).toList
  | .deallocMw handle _ _ => ((s.lookup handle).map fun e => .remove (indexKey e.rkey)).toList
  | .bindMw req =>
      match slotWhere s.table (·.mrHandle = req.mwHandle), s.lookup req.mwHandle with
      | some slot, some mw =>
          [.remove (indexKey mw.rkey),
            .insert (indexKey (mlxComposeMkey (mlxMkeyIndex mw.rkey) s.variant)) slot]
      | _, _ => []
  | _ => []

/-- What a call does to the index of local keys. -/
def lkeyOps (s : MrTable) (op : MrOp) : List KeyOp :=
  if (op.run s).2 = .success then op.lkeyCalls s else []

/-- What a call does to the index of remote keys. -/
def rkeyOps (s : MrTable) (op : MrOp) : List KeyOp :=
  if (op.run s).2 = .success then op.rkeyCalls s else []

end MrOp

/-- The device gives a new key an index of 24 bits that no live one has. -/
def MrTable.DeviceFresh (s : MrTable) : MrOp → Prop
  | .regMr _ _ (.ok index) => index < 2 ^ 24 ∧ s.lookup index = none
  | .regMrIndirect _ _ (.ok index) => index < 2 ^ 24 ∧ s.lookup index = none
  | .allocMw _ _ (.ok index) => index < 2 ^ 24 ∧ s.lookup index = none
  | _ => True

instance (s : MrTable) : (op : MrOp) → Decidable (s.DeviceFresh op)
  | .regMr _ _ (.ok index) | .regMrIndirect _ _ (.ok index) | .allocMw _ _ (.ok index) =>
      inferInstanceAs (Decidable (index < 2 ^ 24 ∧ s.lookup index = none))
  | .regMr _ _ (.error _) | .regMrIndirect _ _ (.error _) | .allocMw _ _ (.error _) | .postUmrKlm .. | .deregMr ..
  | .bindMw _ | .deallocMw .. | .invalidateKey _ => .isTrue trivial

/-- The region table with its indexes. -/
structure KeyedMr where
  mr : MrTable
  lkeys : Tracked
  rkeys : Tracked

/-- The slot that an index gives for a key, when its entry has the key. `none` when the walk of the index
does not end; a turn is as good as any number of steps. -/
def slotByKey (keyOf : MrEntry → ℕ) (t : List (Option MrEntry)) (index : KeyIndex) (key : ℕ) :
    Option (Option ℕ) :=
  if key = 0 then some none
  else
    (mlxKeyIndexFind index index.turn (indexKey key)).map fun slot =>
      if slot < 0 then none
      else if (entry t slot.toNat).any (keyOf · = key) = true then some slot.toNat else none

namespace KeyedMr

variable (s : KeyedMr)

/-- No slot is taken and no key entered. -/
def empty (slots : ℕ) : KeyedMr := ⟨⟨List.replicate slots none, 1⟩, Tracked.init slots, Tracked.init slots⟩

/-- Source: `MlxMR::LookupByLkey`. -/
def lookupByLkey (lkey : ℕ) : Option (Option MrEntry) :=
  (slotByKey MrEntry.lkey s.mr.table s.lkeys.index lkey).map (·.bind (entry s.mr.table))

/-- Source: `MlxMR::LookupByRkey`. -/
def lookupByRkey (rkey : ℕ) : Option (Option MrEntry) :=
  (slotByKey MrEntry.rkey s.mr.table s.rkeys.index rkey).map (·.bind (entry s.mr.table))

/-- The key is looked up in the index. Source: `MlxMR::InvalidateKey`. -/
def invalidateKey (rkey : ℕ) : Option KeyedMr :=
  (slotByKey MrEntry.rkey s.mr.table s.rkeys.index rkey).map fun slot =>
    match slot with
    | none => s
    | some i =>
        { s with mr := { s.mr with table := s.mr.table.modify i (Option.map fun e =>
          { e with invalidated := true, boundMrHandle := 0, boundQpn := 0 }) } }

/-- One call. A call whose walk of an index does not end gives `none`. -/
def step (op : MrOp) : Option KeyedMr :=
  match op with
  | .invalidateKey rkey => s.invalidateKey rkey
  | _ =>
      (runOps Tracked.step s.lkeys (op.lkeyOps s.mr)).bind fun lkeys =>
        (runOps Tracked.step s.rkeys (op.rkeyOps s.mr)).map fun rkeys => ⟨(op.run s.mr).1, lkeys, rkeys⟩

/-- No insert of the call uses up the last bucket of an index that was never used. -/
def Spares (op : MrOp) : Prop :=
  GuardedOps Tracked.step SparesBucket s.lkeys (op.lkeyOps s.mr) ∧
    GuardedOps Tracked.step SparesBucket s.rkeys (op.rkeyOps s.mr)

/-- A window that is bound has another variant in its key than the one that comes next. -/
def TurnsKey : MrOp → Prop
  | .bindMw req => ∀ mw mr, s.mr.Takes req mw mr → mw.rkey % 256 ≠ s.mr.variant
  | _ => True

end KeyedMr

/-! ## What a call does to the keys -/

/-- What is on record of an entry's keys. -/
structure EntryKeys where
  mrHandle : ℕ
  lkey : ℕ
  rkey : ℕ
  isWindow : Bool
  deriving DecidableEq, Repr

/-- The keys of an entry. -/
def MrEntry.keys (e : MrEntry) : EntryKeys := ⟨e.mrHandle, e.lkey, e.rkey, e.isWindow⟩

/-- The keys in each slot. -/
def keysAt (t : List (Option MrEntry)) (i : ℕ) : Option EntryKeys := (entry t i).map MrEntry.keys

/-- A key of 32 bits with an index. -/
def IsKeyOf (handle key : ℕ) : Prop := key ≠ 0 ∧ key < 2 ^ 32 ∧ mlxMkeyIndex key = handle

/-- The keys of a region or of a window, which has no local one. -/
structure EntryKeys.WellFormed (k : EntryKeys) : Prop where
  rkey : IsKeyOf k.mrHandle k.rkey
  lkey : k.lkey ≠ 0 → IsKeyOf k.mrHandle k.lkey
  window : k.isWindow = true → k.lkey = 0

/-- The calls that enter a key and that remove it; there are none for the key `0`. -/
def insertKey (key slot : ℕ) : List KeyOp := if key = 0 then [] else [.insert (indexKey key) slot]

/-- See `insertKey`. -/
def removeKey (key : ℕ) : List KeyOp := if key = 0 then [] else [.remove (indexKey key)]

/-- What a call does to the keys in the slots, with what it does to the indexes of local and of remote
keys. -/
inductive KeyChange (ks : ℕ → Option EntryKeys) : List KeyOp → List KeyOp → (ℕ → Option EntryKeys) → Prop
  | same : KeyChange ks [] [] ks
  | entered {i : ℕ} {k : EntryKeys} : ks i = none → k.WellFormed →
      (∀ j a, ks j = some a → a.mrHandle ≠ k.mrHandle) →
      KeyChange ks (insertKey k.lkey i) (insertKey k.rkey i) (Function.update ks i (some k))
  | left {i : ℕ} {k : EntryKeys} : ks i = some k →
      KeyChange ks (removeKey k.lkey) (removeKey k.rkey) (Function.update ks i none)
  | rekeyed {i : ℕ} {k : EntryKeys} {rkey : ℕ} : ks i = some k → IsKeyOf k.mrHandle rkey →
      KeyChange ks [] (removeKey k.rkey ++ insertKey rkey i) (Function.update ks i (some { k with rkey }))

/-! ## Composed keys -/

lemma mlxComposeMkey_eq {index variant : ℕ} (h : variant < 256) :
    mlxComposeMkey index variant = index * 256 + variant := by
  unfold mlxComposeMkey
  rw [← Nat.shiftLeft_add_eq_or_of_lt (show variant < 2 ^ 8 by omega), Nat.shiftLeft_eq]

lemma mlxMkeyIndex_eq (key : ℕ) : mlxMkeyIndex key = key / 256 := Nat.shiftRight_eq_div_pow key 8

/-- A key that is composed is a key of its index. -/
lemma isKeyOf_mlxComposeMkey {index variant : ℕ} (hindex : index < 2 ^ 24) (hpos : 0 < variant)
    (hlt : variant < 256) : IsKeyOf index (mlxComposeMkey index variant) := by
  unfold IsKeyOf
  rw [mlxComposeMkey_eq hlt, mlxMkeyIndex_eq]
  omega

/-- The variant that comes next is no `0`. -/
lemma variant_nextVariant (s : MrTable) :
    0 < s.nextVariant.variant ∧ s.nextVariant.variant < 256 := by
  unfold MrTable.nextVariant
  dsimp only
  split_ifs <;> omega

/-! ## The keys of a table -/

section

variable {t : List (Option MrEntry)} {i handle : ℕ} {e : MrEntry} {g : MrEntry → MrEntry}

lemma keysAt_of_entry (h : entry t i = some e) : keysAt t i = some e.keys := by
  rw [keysAt, h, Option.map_some]

lemma entry_of_keysAt {k : EntryKeys} (h : keysAt t i = some k) : ∃ e, entry t i = some e ∧ e.keys = k :=
  Option.map_eq_some_iff.mp h

lemma keysAt_eq_none : keysAt t i = none ↔ entry t i = none := Option.map_eq_none_iff

lemma keysAt_put (hi : i ≤ t.length) (e : MrEntry) :
    keysAt (put t i e) = Function.update (keysAt t) i (some e.keys) := by
  funext j
  by_cases hj : j = i
  · rw [hj, Function.update_self, keysAt, entry_put hi, if_pos rfl, Option.map_some]
  · rw [Function.update_of_ne hj, keysAt, entry_put hi, if_neg (Ne.symm hj), keysAt]

lemma keysAt_clear (hi : i < t.length) : keysAt (clear t i) = Function.update (keysAt t) i none := by
  funext j
  by_cases hj : j = i
  · rw [hj, Function.update_self, keysAt, clear, entry_set hi, if_pos rfl, Option.map_none]
  · rw [Function.update_of_ne hj, keysAt, clear, entry_set hi, if_neg (Ne.symm hj), keysAt]

lemma keysAt_modify (hg : ∀ e, (g e).keys = e.keys) (i : ℕ) :
    keysAt (t.modify i (Option.map g)) = keysAt t := by
  funext j
  rw [keysAt, entry_modify]
  split_ifs
  · rw [Option.map_map, keysAt]
    congr 1
    funext e
    exact hg e
  · rfl

lemma keysAt_updateEntry (hg : ∀ e, (g e).keys = e.keys) (handle : ℕ) :
    keysAt (updateEntry t handle g) = keysAt t := by
  unfold updateEntry
  split
  · exact keysAt_modify hg _
  · rfl

lemma length_updateEntry (handle : ℕ) (g : MrEntry → MrEntry) : (updateEntry t handle g).length = t.length := by
  unfold updateEntry
  split
  · rw [List.length_modify]
  · rfl

/-- Counting dependents changes no key and no slot. -/
lemma keysAt_foldl {count : List (Option MrEntry) → ℕ → List (Option MrEntry)}
    (hcount : ∀ t handle, keysAt (count t handle) = keysAt t ∧ (count t handle).length = t.length)
    (handles : List ℕ) :
    keysAt (handles.foldl count t) = keysAt t ∧ (handles.foldl count t).length = t.length := by
  induction handles generalizing t with
  | nil => exact ⟨rfl, rfl⟩
  | cons handle handles ih =>
      obtain ⟨hkeys, hlength⟩ := hcount t handle
      rw [List.foldl_cons]
      exact ⟨ih.1.trans hkeys, ih.2.trans hlength⟩

lemma keysAt_count (f : ℕ → ℕ) (t : List (Option MrEntry)) (handle : ℕ) :
    keysAt (updateEntry t handle fun e => { e with dependentCount := f e.dependentCount }) = keysAt t ∧
      (updateEntry t handle fun e => { e with dependentCount := f e.dependentCount }).length = t.length := by
  refine ⟨keysAt_updateEntry (g := fun e => { e with dependentCount := f e.dependentCount }) ?_ handle,
    length_updateEntry _ _⟩
  intro e
  rfl

lemma keysAt_addDependent (t : List (Option MrEntry)) (handle : ℕ) :
    keysAt (addDependent t handle) = keysAt t ∧ (addDependent t handle).length = t.length :=
  keysAt_count (· + 1) t handle

lemma keysAt_dropDependent (t : List (Option MrEntry)) (handle : ℕ) :
    keysAt (dropDependent t handle) = keysAt t ∧ (dropDependent t handle).length = t.length :=
  keysAt_count (· - 1) t handle

end

/-- Every entry's keys are well formed, and no two entries have a handle in common. -/
structure KeysApart (ks : ℕ → Option EntryKeys) : Prop where
  wellFormed : ∀ {i k}, ks i = some k → k.WellFormed
  distinct : ∀ {i j a b}, ks i = some a → ks j = some b → a.mrHandle = b.mrHandle → i = j

/-- The keys of a table, and the next variant, which is one that a key can have. -/
structure MrTable.Keys (s : MrTable) : Prop extends KeysApart (keysAt s.table) where
  variant : 0 < s.variant ∧ s.variant < 256

namespace MrTable

variable {s : MrTable}

/-- What a lookup by handle finds, with its slot. -/
lemma slot_of_lookup {handle : ℕ} {e : MrEntry} (h : s.lookup handle = some e) :
    ∃ i, slotWhere s.table (·.mrHandle = handle) = some i ∧ entry s.table i = some e ∧
      e.mrHandle = handle := by
  obtain ⟨i, hslot, he⟩ := Option.bind_eq_some_iff.mp h
  obtain ⟨e', he', hhandle⟩ := entry_of_find hslot
  obtain rfl := Option.some.inj (he'.symm.trans he)
  exact ⟨i, hslot, he, by simpa using hhandle⟩

/-- A handle that is not found is no entry's. -/
lemma not_of_lookup {handle : ℕ} (h : s.lookup handle = none) {j : ℕ} {a : EntryKeys}
    (ha : keysAt s.table j = some a) : a.mrHandle ≠ handle := by
  obtain ⟨e, he, rfl⟩ := entry_of_keysAt ha
  intro heq
  exact lookup_eq_none h ⟨j, e, he, heq⟩

/-- Where no two entries have a handle in common, the slot of an entry is the one that is emptied. -/
lemma keysAt_release {t : List (Option MrEntry)} {i handle : ℕ} {k : EntryKeys}
    (hdistinct : ∀ {i j a b}, keysAt t i = some a → keysAt t j = some b → a.mrHandle = b.mrHandle → i = j)
    (hk : keysAt t i = some k) (hhandle : k.mrHandle = handle) :
    keysAt (release t handle) = Function.update (keysAt t) i none := by
  obtain ⟨e, he, rfl⟩ := entry_of_keysAt hk
  rcases hslot : slotWhere t (·.mrHandle = handle) with _ | j
  · have hno := not_of_find_none hslot he
    simp only [decide_eq_false_iff_not] at hno
    exact absurd hhandle hno
  · obtain ⟨e', he', hh⟩ := entry_of_find hslot
    simp only [decide_eq_true_eq] at hh
    have hji : j = i := hdistinct (keysAt_of_entry he') hk (hh.trans hhandle.symm)
    unfold release
    rw [hslot]
    dsimp only
    rw [hji]
    exact keysAt_clear (entry_lt_length he)

end MrTable

/-! ## What each call does to them -/

section

variable {s s' : MrTable} {op : MrOp}

lemma insertKey_of {handle key : ℕ} (h : IsKeyOf handle key) (slot : ℕ) :
    insertKey key slot = [.insert (indexKey key) slot] := if_neg h.1

lemma removeKey_of {handle key : ℕ} (h : IsKeyOf handle key) : removeKey key = [.remove (indexKey key)] :=
  if_neg h.1

lemma KeyChange.failed {kr : KernReturn} (hrun : op.run s = (s', kr)) (hkr : kr ≠ .success)
    (hsame : s'.table = s.table) :
    KeyChange (keysAt s.table) (op.lkeyOps s) (op.rkeyOps s) (keysAt (op.run s).1.table) := by
  rw [MrOp.lkeyOps, MrOp.rkeyOps, hrun, if_neg hkr, if_neg hkr, hsame]
  exact .same

lemma KeyChange.silent (hl : op.lkeyCalls s = []) (hr : op.rkeyCalls s = [])
    (hsame : keysAt (op.run s).1.table = keysAt s.table) :
    KeyChange (keysAt s.table) (op.lkeyOps s) (op.rkeyOps s) (keysAt (op.run s).1.table) := by
  rw [MrOp.lkeyOps, MrOp.rkeyOps, hl, hr, ite_self, hsame]
  exact .same

lemma KeyChange.succeeded (hrun : op.run s = (s', .success))
    (h : KeyChange (keysAt s.table) (op.lkeyCalls s) (op.rkeyCalls s) (keysAt s'.table)) :
    KeyChange (keysAt s.table) (op.lkeyOps s) (op.rkeyOps s) (keysAt (op.run s).1.table) := by
  rw [MrOp.lkeyOps, MrOp.rkeyOps, hrun, if_pos rfl, if_pos rfl]
  exact h

/-- A new entry under the index that the device gave. -/
lemma keyChange_put (h : s.Keys) {t : List (Option MrEntry)}
    (ht : keysAt t = keysAt s.table ∧ t.length = s.table.length) {e : MrEntry} {index : ℕ}
    (hindex : index < 2 ^ 24) (hnew : s.lookup index = none) (hhandle : e.mrHandle = index)
    (hrkey : e.rkey = mlxComposeMkey index s.variant)
    (hlkey : e.lkey = if e.isWindow = true then 0 else mlxComposeMkey index s.variant) {lops : List KeyOp}
    (hlops : lops = if e.isWindow = true then [] else MrOp.entered s index) :
    KeyChange (keysAt s.table) lops (MrOp.entered s index) (keysAt (put t (firstFree s.table) e)) := by
  have hkey : IsKeyOf index (mlxComposeMkey index s.variant) :=
    isKeyOf_mlxComposeMkey hindex h.variant.1 h.variant.2
  have hwell : e.keys.WellFormed := by
    refine ⟨?_, fun hne => ?_, fun hwindow => ?_⟩
    · show IsKeyOf e.mrHandle e.rkey
      rwa [hhandle, hrkey]
    · change e.lkey ≠ 0 at hne
      show IsKeyOf e.mrHandle e.lkey
      split_ifs at hlkey
      · exact absurd hlkey hne
      · rwa [hhandle, hlkey]
    · exact hlkey.trans (if_pos hwindow)
  have hapart : ∀ j a, keysAt s.table j = some a → a.mrHandle ≠ e.keys.mrHandle := by
    intro j a ha
    show a.mrHandle ≠ e.mrHandle
    rw [hhandle]
    exact MrTable.not_of_lookup hnew ha
  have hchange := KeyChange.entered (keysAt_eq_none.mpr (entry_firstFree s.table)) hwell hapart
  have hlcalls : insertKey e.keys.lkey (firstFree s.table) = lops := by
    show insertKey e.lkey (firstFree s.table) = _
    rw [hlkey, hlops]
    split_ifs
    · exact if_pos rfl
    · exact insertKey_of hkey _
  have hrcalls : insertKey e.keys.rkey (firstFree s.table) = MrOp.entered s index := by
    show insertKey e.rkey (firstFree s.table) = _
    rw [hrkey]
    exact insertKey_of hkey _
  rw [hlcalls, hrcalls] at hchange
  rw [keysAt_put (by rw [ht.2]; exact firstFree_le_length s.table), ht.1]
  exact hchange

lemma keyChange_regMr (h : s.Keys) (req : RegMrReq) (pin : KernReturn) (exec : Except KernReturn ℕ)
    (hfresh : s.DeviceFresh (.regMr req pin exec)) :
    KeyChange (keysAt s.table) ((MrOp.regMr req pin exec).lkeyOps s) ((MrOp.regMr req pin exec).rkeyOps s)
      (keysAt ((MrOp.regMr req pin exec).run s).1.table) := by
  by_cases hpin : pin = .success
  · have hrun : s.regMr req pin exec = _ := if_neg (not_not.mpr hpin)
    rcases exec with kr | index
    · refine .silent rfl rfl ?_
      show keysAt (s.regMr req pin (.error kr)).1.table = _
      rw [hrun]
      rfl
    · dsimp only at hrun
      by_cases hfull : s.nextVariant.full = true
      · rw [if_pos hfull] at hrun
        exact .failed hrun (fun hkr => by cases hkr) rfl
      · rw [if_neg hfull] at hrun
        refine .succeeded hrun ?_
        exact keyChange_put h ⟨rfl, rfl⟩ hfresh.1 hfresh.2 rfl rfl rfl rfl
  · exact .failed (if_pos hpin) hpin rfl

lemma keyChange_regMrIndirect (h : s.Keys) (req : RegMrReq) (childHandles : List ℕ)
    (exec : Except KernReturn ℕ) (hfresh : s.DeviceFresh (.regMrIndirect req childHandles exec)) :
    KeyChange (keysAt s.table) ((MrOp.regMrIndirect req childHandles exec).lkeyOps s)
      ((MrOp.regMrIndirect req childHandles exec).rkeyOps s)
      (keysAt ((MrOp.regMrIndirect req childHandles exec).run s).1.table) := by
  by_cases hbad : childHandles = [] ∨ ucMaxIndirectChildren < childHandles.length ∨ req.length = 0
  · exact .failed (if_pos hbad) (fun hkr => by cases hkr) rfl
  · have hrun : s.regMrIndirect req childHandles exec = _ := if_neg hbad
    by_cases hmissing : childHandles.any (fun h => (s.lookup h).isNone) = true
    · rw [if_pos hmissing] at hrun
      exact .failed hrun (fun hkr => by cases hkr) rfl
    · rw [if_neg hmissing] at hrun
      rcases exec with kr | index
      · refine .silent rfl rfl ?_
        show keysAt (s.regMrIndirect req childHandles (.error kr)).1.table = _
        rw [hrun]
        rfl
      · dsimp only at hrun
        by_cases hfull : s.nextVariant.full = true
        · rw [if_pos hfull] at hrun
          exact .failed hrun (fun hkr => by cases hkr) rfl
        · rw [if_neg hfull] at hrun
          refine .succeeded hrun ?_
          exact keyChange_put h (keysAt_foldl keysAt_addDependent childHandles) hfresh.1 hfresh.2 rfl rfl rfl rfl

lemma keyChange_allocMw (h : s.Keys) (pd type : ℕ) (exec : Except KernReturn ℕ)
    (hfresh : s.DeviceFresh (.allocMw pd type exec)) :
    KeyChange (keysAt s.table) ((MrOp.allocMw pd type exec).lkeyOps s) ((MrOp.allocMw pd type exec).rkeyOps s)
      (keysAt ((MrOp.allocMw pd type exec).run s).1.table) := by
  by_cases hbad : type ≠ 2 ∨ pd = 0
  · exact .failed (if_pos hbad) (fun hkr => by cases hkr) rfl
  · have hrun : s.allocMw pd type exec = _ := if_neg hbad
    by_cases hfull : s.full = true
    · rw [if_pos hfull] at hrun
      exact .failed hrun (fun hkr => by cases hkr) rfl
    · rw [if_neg hfull] at hrun
      rcases exec with kr | index
      · refine .silent rfl rfl ?_
        show keysAt (s.allocMw pd type (.error kr)).1.table = _
        rw [hrun]
        rfl
      · dsimp only at hrun
        by_cases hzero : index = 0
        · rw [if_pos hzero] at hrun
          exact .failed hrun (fun hkr => by cases hkr) rfl
        · rw [if_neg hzero] at hrun
          refine .succeeded hrun ?_
          exact keyChange_put h ⟨rfl, rfl⟩ hfresh.1 hfresh.2 rfl rfl rfl rfl

/-- An entry goes from its slot; the local key of a window is `0`. -/
lemma keyChange_release (h : s.Keys) {t : List (Option MrEntry)} (ht : keysAt t = keysAt s.table)
    {handle : ℕ} {e : MrEntry} (he : s.lookup handle = some e) :
    KeyChange (keysAt s.table) (removeKey e.lkey) [.remove (indexKey e.rkey)] (keysAt (MrTable.release t handle)) := by
  obtain ⟨i, -, hentry, hhandle⟩ := MrTable.slot_of_lookup he
  have hk : keysAt s.table i = some e.keys := keysAt_of_entry hentry
  have hleft := KeyChange.left hk
  have hrcalls : removeKey e.keys.rkey = [.remove (indexKey e.rkey)] := removeKey_of (h.wellFormed hk).rkey
  rw [hrcalls] at hleft
  rw [MrTable.keysAt_release (fun ha hb => by rw [ht] at ha hb; exact h.distinct ha hb) (ht ▸ hk) hhandle, ht]
  exact hleft

lemma keyChange_deregMr (h : s.Keys) (mrHandle : ℕ) (quarantined : Bool) (exec : KernReturn) :
    KeyChange (keysAt s.table) ((MrOp.deregMr mrHandle quarantined exec).lkeyOps s)
      ((MrOp.deregMr mrHandle quarantined exec).rkeyOps s)
      (keysAt ((MrOp.deregMr mrHandle quarantined exec).run s).1.table) := by
  by_cases hquarantined : quarantined = true
  · exact .failed (if_pos hquarantined) (fun hkr => by cases hkr) rfl
  · have hrun : s.deregMr mrHandle quarantined exec = _ := if_neg hquarantined
    rcases hlookup : s.lookup mrHandle with _ | e
    · rw [hlookup] at hrun
      exact .failed hrun (fun hkr => by cases hkr) rfl
    · have hlcalls : (MrOp.deregMr mrHandle quarantined exec).lkeyCalls s = removeKey e.lkey := by
        obtain ⟨i, -, hentry, -⟩ := MrTable.slot_of_lookup hlookup
        have hwindow : e.isWindow = true → e.lkey = 0 := (h.wellFormed (keysAt_of_entry hentry)).window
        unfold MrOp.lkeyCalls removeKey
        dsimp only
        rw [hlookup]
        dsimp only
        by_cases hzero : e.lkey = 0
        · rw [if_pos (.inr hzero), if_pos hzero]
        · rw [if_neg hzero, if_neg (not_or.mpr ⟨fun hw => hzero (hwindow hw), hzero⟩)]
      have hrcalls : (MrOp.deregMr mrHandle quarantined exec).rkeyCalls s = [.remove (indexKey e.rkey)] := by
        unfold MrOp.rkeyCalls
        dsimp only
        rw [hlookup]
        rfl
      rw [hlookup] at hrun
      dsimp only at hrun
      by_cases hwindow : e.isWindow = true
      · rw [if_pos hwindow] at hrun
        refine .succeeded hrun ?_
        rw [hlcalls, hrcalls]
        exact keyChange_release h rfl hlookup
      · rw [if_neg hwindow] at hrun
        by_cases hbusy : e.dependentCount ≠ 0
        · rw [if_pos hbusy] at hrun
          exact .failed hrun (fun hkr => by cases hkr) rfl
        · rw [if_neg hbusy] at hrun
          by_cases hexec : exec = .success
          · rw [if_neg (not_not.mpr hexec)] at hrun
            refine .succeeded hrun ?_
            rw [hlcalls, hrcalls]
            exact keyChange_release h (keysAt_foldl keysAt_dropDependent e.childHandles).1 hlookup
          · rw [if_pos hexec] at hrun
            exact .failed hrun hexec rfl

lemma keyChange_deallocMw (h : s.Keys) (handle : ℕ) (quarantined : Bool) (exec : KernReturn) :
    KeyChange (keysAt s.table) ((MrOp.deallocMw handle quarantined exec).lkeyOps s)
      ((MrOp.deallocMw handle quarantined exec).rkeyOps s)
      (keysAt ((MrOp.deallocMw handle quarantined exec).run s).1.table) := by
  by_cases hbad : handle = 0
  · exact .failed (if_pos hbad) (fun hkr => by cases hkr) rfl
  · have hrun : s.deallocMw handle quarantined exec = _ := if_neg hbad
    by_cases hquarantined : quarantined = true
    · rw [if_pos hquarantined] at hrun
      exact .failed hrun (fun hkr => by cases hkr) rfl
    · rw [if_neg hquarantined] at hrun
      rcases hlookup : s.lookup handle with _ | e
      · rw [hlookup] at hrun
        exact .failed hrun (fun hkr => by cases hkr) rfl
      · have hrcalls : (MrOp.deallocMw handle quarantined exec).rkeyCalls s = [.remove (indexKey e.rkey)] := by
          unfold MrOp.rkeyCalls
          dsimp only
          rw [hlookup]
          rfl
        rw [hlookup] at hrun
        dsimp only at hrun
        by_cases hregion : e.isWindow = false
        · rw [if_pos hregion] at hrun
          exact .failed hrun (fun hkr => by cases hkr) rfl
        · rw [if_neg hregion] at hrun
          by_cases hexec : exec = .success
          · rw [if_neg (not_not.mpr hexec)] at hrun
            obtain ⟨i, -, hentry, -⟩ := MrTable.slot_of_lookup hlookup
            have hwindow : e.isWindow = true := by simpa using hregion
            have hzero : e.lkey = 0 := (h.wellFormed (keysAt_of_entry hentry)).window hwindow
            have hsame : keysAt (if e.boundMrHandle ≠ 0 then dropDependent s.table e.boundMrHandle else s.table) =
                keysAt s.table := by
              split_ifs
              · exact (keysAt_dropDependent s.table e.boundMrHandle).1
              · rfl
            have hchange := keyChange_release h hsame hlookup
            rw [hzero] at hchange
            refine .succeeded hrun ?_
            rw [hrcalls]
            exact hchange
          · rw [if_pos hexec] at hrun
            exact .failed hrun hexec rfl

lemma keysAt_moveCount (t : List (Option MrEntry)) (old new : ℕ) : keysAt (moveCount t old new) = keysAt t := by
  unfold moveCount
  dsimp only
  split_ifs
  · exact (keysAt_addDependent _ new).1.trans (keysAt_dropDependent t old).1
  · exact (keysAt_addDependent t new).1
  · exact (keysAt_dropDependent t old).1
  · rfl

/-- A window gets a new remote key in its slot. -/
lemma keysAt_rebind (h : s.Keys) (req : BindReq) {t : List (Option MrEntry)} (ht : keysAt t = keysAt s.table)
    {i : ℕ} {mw : MrEntry} (hmw : keysAt s.table i = some mw.keys) (hhandle : mw.mrHandle = req.mwHandle) :
    keysAt (updateEntry t req.mwHandle (s.rebind req)) = Function.update (keysAt s.table) i
      (some { mw.keys with rkey := mlxComposeMkey (mlxMkeyIndex mw.rkey) s.variant }) := by
  obtain ⟨e, he, hkeys⟩ := entry_of_keysAt (ht ▸ hmw)
  unfold updateEntry
  rcases hslot : slotWhere t (·.mrHandle = req.mwHandle) with _ | j
  · have hno := not_of_find_none hslot he
    rw [decide_eq_false_iff_not] at hno
    exact absurd ((congrArg EntryKeys.mrHandle hkeys).trans hhandle) hno
  · obtain ⟨e', he', hfound⟩ := entry_of_find hslot
    rw [decide_eq_true_eq] at hfound
    obtain rfl : j = i :=
      h.distinct (ht ▸ keysAt_of_entry he') hmw (hfound.trans hhandle.symm)
    obtain rfl := Option.some.inj (he'.symm.trans he)
    rw [← ht]
    funext k
    dsimp only
    rw [keysAt, entry_modify]
    by_cases hk : j = k
    · subst hk
      have hrkey : e'.rkey = mw.rkey := congrArg EntryKeys.rkey hkeys
      rw [if_pos rfl, he, Function.update_self, ← hkeys, ← hrkey]
      rfl
    · rw [if_neg hk, Function.update_of_ne (Ne.symm hk), keysAt]

lemma keyChange_bindMw (h : s.Keys) (req : BindReq) :
    KeyChange (keysAt s.table) ((MrOp.bindMw req).lkeyOps s) ((MrOp.bindMw req).rkeyOps s)
      (keysAt ((MrOp.bindMw req).run s).1.table) := by
  rcases s.bindMw_cases req with ⟨-, hsame, hrefused⟩ | ⟨mw, mr, htakes, hsuccess⟩
  · exact .failed (Prod.mk.eta (p := s.bindMw req)).symm hrefused (congrArg MrTable.table hsame)
  · obtain ⟨i, hslot, hentry, hhandle⟩ := MrTable.slot_of_lookup htakes.window
    have hk : keysAt s.table i = some mw.keys := keysAt_of_entry hentry
    have hindex : mlxMkeyIndex mw.rkey = mw.mrHandle := (h.wellFormed hk).rkey.2.2
    have hlt : mw.mrHandle < 2 ^ 24 := by
      have hrkey : mw.rkey < 2 ^ 32 := (h.wellFormed hk).rkey.2.1
      rw [← hindex, mlxMkeyIndex_eq]
      omega
    have hkey : IsKeyOf mw.mrHandle (mlxComposeMkey (mlxMkeyIndex mw.rkey) s.variant) := by
      rw [hindex]
      exact isKeyOf_mlxComposeMkey hlt h.variant.1 h.variant.2
    have hrcalls : (MrOp.bindMw req).rkeyCalls s = removeKey mw.keys.rkey ++
        insertKey (mlxComposeMkey (mlxMkeyIndex mw.rkey) s.variant) i := by
      rw [removeKey_of (h.wellFormed hk).rkey, insertKey_of hkey]
      unfold MrOp.rkeyCalls
      dsimp only
      rw [hslot, htakes.window]
      rfl
    have hrun : (MrOp.bindMw req).run s = ((s.bindMw req).1, .success) := Prod.ext rfl hsuccess
    refine .succeeded hrun ?_
    rw [hrcalls, htakes.table, keysAt_rebind h req (keysAt_moveCount _ _ _) hk hhandle]
    exact .rekeyed hk hkey

lemma keysAt_invalidateKey (s : MrTable) (rkey : ℕ) : keysAt (s.invalidateKey rkey).1.table = keysAt s.table := by
  unfold MrTable.invalidateKey
  split_ifs
  · rfl
  · split
    · rfl
    · refine keysAt_modify (g := fun e => { e with invalidated := true, boundMrHandle := 0, boundQpn := 0 }) ?_ _
      intro e
      rfl

/-- What one call does to the keys. -/
lemma keyChange_run (h : s.Keys) (op : MrOp) (hfresh : s.DeviceFresh op) :
    KeyChange (keysAt s.table) (op.lkeyOps s) (op.rkeyOps s) (keysAt (op.run s).1.table) := by
  cases op with
  | regMr req pin exec => exact keyChange_regMr h req pin exec hfresh
  | regMrIndirect req childHandles exec => exact keyChange_regMrIndirect h req childHandles exec hfresh
  | postUmrKlm w qp req => exact .silent rfl rfl rfl
  | deregMr mrHandle quarantined exec => exact keyChange_deregMr h mrHandle quarantined exec
  | allocMw pd type exec => exact keyChange_allocMw h pd type exec hfresh
  | bindMw req => exact keyChange_bindMw h req
  | deallocMw handle quarantined exec => exact keyChange_deallocMw h handle quarantined exec
  | invalidateKey rkey => exact .silent rfl rfl (keysAt_invalidateKey s rkey)

/-- A call leaves the next variant or moves to the one after it. -/
lemma variant_run (s : MrTable) (op : MrOp) :
    (op.run s).1.variant = s.variant ∨ (op.run s).1.variant = s.nextVariant.variant := by
  cases op <;> dsimp only [MrOp.run]
  case regMr =>
    unfold MrTable.regMr
    dsimp only
    repeat' split
    all_goals first
      | exact .inl rfl
      | exact .inr rfl
  case regMrIndirect =>
    unfold MrTable.regMrIndirect
    dsimp only
    repeat' split
    all_goals first
      | exact .inl rfl
      | exact .inr rfl
  case postUmrKlm => exact .inl rfl
  case deregMr =>
    unfold MrTable.deregMr
    repeat' split
    all_goals exact .inl rfl
  case allocMw =>
    unfold MrTable.allocMw
    dsimp only
    repeat' split
    all_goals first
      | exact .inl rfl
      | exact .inr rfl
  case bindMw =>
    unfold MrTable.bindMw
    dsimp only
    repeat' split
    all_goals first
      | exact .inl rfl
      | exact .inr rfl
  case deallocMw =>
    unfold MrTable.deallocMw
    repeat' split
    all_goals exact .inl rfl
  case invalidateKey =>
    unfold MrTable.invalidateKey
    repeat' split
    all_goals exact .inl rfl

end

end MelonDMA.Ib
