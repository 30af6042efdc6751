import MelonDMA.Ib.KeyedRegionRuns

/-!
# Validating a client's range

`MlxMR::ValidateRange` is asked whether a client's work request may use a range of memory under a local key
of a protection domain. It looks the key up in the index and compares the range with the region it finds, in
64-bit arithmetic that wraps.

A key index that is used up answers no lookup of a key that is not there, so the call may not return; what
it answers when it does is right in every state of the table (`validateRange_iff`). An empty range is
refused. That no region reaches past the end of the address space is what `RegMR` and the selector of
`RegMRIndirect` check before they enter one (`MrOp.RangeFits`).
-/

namespace MelonDMA.Ib

open MelonDMA.Lib MelonDMA.Core

/-- `accessFlags & 1u`. -/
def localWriteBit (accessFlags : ℕ) : Bool := accessFlags &&& 1 ≠ 0

/-- `none` when the lookup of the key does not end. Source: `MlxMR::ValidateRange`. -/
def KeyedMr.validateRange (s : KeyedMr) (lkey pd : ℕ) (addr : ℕ) (length : ℕ) (deviceWrites : Bool) :
    Option Bool :=
  if length = 0 ∨ add64 addr length < addr then some false
  else
    (s.lookupByLkey lkey).map fun found =>
      match found with
      | none => false
      | some ctx =>
          if ctx.invalidated = true ∨ ctx.pd ≠ pd ∨ addr < ctx.startAddr ∨
              add64 ctx.startAddr ctx.length < add64 addr length then false
          else !deviceWrites || localWriteBit ctx.accessFlags

/-- The region of a request ends inside the address space. -/
def MrOp.RangeFits : MrOp → Prop
  | .regMr req _ _ => req.startAddr + req.length < 2 ^ 64
  | .regMrIndirect req _ _ => req.startAddr + req.length < 2 ^ 64
  | _ => True

instance : DecidablePred MrOp.RangeFits
  | .regMr req _ _ | .regMrIndirect req _ _ => inferInstanceAs (Decidable (req.startAddr + req.length < 2 ^ 64))
  | .postUmrKlm .. | .deregMr .. | .allocMw .. | .bindMw _ | .deallocMw .. | .invalidateKey _ => .isTrue trivial

/-- The region lets a device read or write a range under a protection domain. -/
structure MrEntry.Allows (e : MrEntry) (pd addr length : ℕ) (deviceWrites : Bool) : Prop where
  region : e.isWindow = false
  valid : e.invalidated = false
  domain : e.pd = pd
  first : e.startAddr ≤ addr
  last : addr + length ≤ e.startAddr + e.length
  permission : deviceWrites = true → localWriteBit e.accessFlags = true

/-! ## The ranges of regions -/

/-- A region has a local key and ends inside the address space. -/
def MrEntry.InSpace (e : MrEntry) : Prop :=
  e.isWindow = false → e.lkey ≠ 0 ∧ e.startAddr + e.length < 2 ^ 64

section Ranges

variable {s : MrTable} {t : List (Option MrEntry)}

/-- A change of the entry that a handle finds. -/
lemma every_updateEntry {p : MrEntry → Prop} (h : Every p t) {g : MrEntry → MrEntry} {handle : ℕ}
    (hg : ∀ i a, slotWhere t (·.mrHandle = handle) = some i → entry t i = some a → p (g a)) :
    Every p (updateEntry t handle g) := by
  unfold updateEntry
  rcases hslot : slotWhere t (·.mrHandle = handle) with _ | i
  · exact h
  · exact h.modify fun a => hg i a hslot

lemma inSpace_addDependent (h : Every MrEntry.InSpace t) (handle : ℕ) :
    Every MrEntry.InSpace (addDependent t handle) := every_updateEntry h fun _ a _ ha => h _ a ha

lemma inSpace_dropDependent (h : Every MrEntry.InSpace t) (handle : ℕ) :
    Every MrEntry.InSpace (dropDependent t handle) := every_updateEntry h fun _ a _ ha => h _ a ha

lemma inSpace_foldl {count : List (Option MrEntry) → ℕ → List (Option MrEntry)}
    (hcount : ∀ {t}, Every MrEntry.InSpace t → ∀ handle, Every MrEntry.InSpace (count t handle))
    (h : Every MrEntry.InSpace t) (handles : List ℕ) : Every MrEntry.InSpace (handles.foldl count t) := by
  induction handles generalizing t with
  | nil => exact h
  | cons handle handles ih => exact ih (hcount h handle)

lemma inSpace_release (h : Every MrEntry.InSpace t) (handle : ℕ) :
    Every MrEntry.InSpace (MrTable.release t handle) := by
  unfold MrTable.release
  rcases hslot : slotWhere t (·.mrHandle = handle) with _ | i
  · exact h
  · obtain ⟨e, he, -⟩ := entry_of_find hslot
    exact h.clear (entry_lt_length he)

/-- A region that is entered has a key that is composed. -/
lemma inSpace_entered (hs : s.Keys) {e : MrEntry} {index : ℕ} (hfits : e.startAddr + e.length < 2 ^ 64)
    (hindex : index < 2 ^ 24) (hlkey : e.lkey = mlxComposeMkey index s.variant) : e.InSpace := by
  intro _
  rw [hlkey]
  exact ⟨(isKeyOf_mlxComposeMkey hindex hs.variant.1 hs.variant.2).1, hfits⟩

/-- A bind changes the range of a window alone. -/
lemma inSpace_bindMw (hs : s.Keys) (h : Every MrEntry.InSpace s.table) (req : BindReq) :
    Every MrEntry.InSpace (s.bindMw req).1.table := by
  rcases s.bindMw_cases req with ⟨-, hsame, -⟩ | ⟨mw, mr, htakes, -⟩
  · rw [hsame]
    exact h
  · have hmoved : Every MrEntry.InSpace (moveCount s.table mw.boundMrHandle req.mrHandle) := by
      unfold moveCount
      dsimp only
      split_ifs
      · exact inSpace_addDependent (inSpace_dropDependent h _) _
      · exact inSpace_addDependent h _
      · exact inSpace_dropDependent h _
      · exact h
    rw [htakes.table]
    refine every_updateEntry hmoved fun i a hslot ha hregion => ?_
    -- the entry found is the window's, which stays one
    obtain ⟨j, -, hentry, hhandle⟩ := MrTable.slot_of_lookup htakes.window
    obtain ⟨a', ha', hfound⟩ := entry_of_find hslot
    obtain rfl : a' = a := Option.some.inj (ha'.symm.trans ha)
    have hkeys : keysAt s.table i = some a'.keys := by
      rw [← keysAt_moveCount s.table mw.boundMrHandle req.mrHandle]
      exact keysAt_of_entry ha
    have hfound : a'.mrHandle = req.mwHandle := by simpa using hfound
    obtain rfl := hs.distinct hkeys (keysAt_of_entry hentry) (hfound.trans hhandle.symm)
    rw [keysAt_of_entry hentry, Option.some.injEq] at hkeys
    have hwindow : mw.isWindow = a'.isWindow := congrArg EntryKeys.isWindow hkeys
    have hallowed := htakes.allowed
    have hregion : a'.isWindow = false := hregion
    rw [MrTable.bindRefused, hwindow, hregion] at hallowed
    simp at hallowed

/-- Every call keeps the ranges of the regions inside the address space. -/
lemma inSpace_run (hs : s.Keys) (h : Every MrEntry.InSpace s.table) {op : MrOp} (hfresh : s.DeviceFresh op)
    (hfits : op.RangeFits) : Every MrEntry.InSpace (op.run s).1.table := by
  cases op with
  | regMr req pin exec =>
      show Every _ (s.regMr req pin exec).1.table
      unfold MrTable.regMr
      by_cases hpin : pin ≠ .success
      · rw [if_pos hpin]
        exact h
      · rw [if_neg hpin]
        rcases exec with kr | index
        · exact h
        · dsimp only
          split_ifs
          · exact h
          · exact h.put (firstFree_le_length _) (inSpace_entered hs hfits hfresh.1 rfl)
  | regMrIndirect req childHandles exec =>
      show Every _ (s.regMrIndirect req childHandles exec).1.table
      unfold MrTable.regMrIndirect
      split_ifs
      · exact h
      · exact h
      · rcases exec with kr | index
        · exact h
        · dsimp only
          split_ifs
          · exact h
          · refine (inSpace_foldl inSpace_addDependent h childHandles).put ?_
              (inSpace_entered hs hfits hfresh.1 rfl)
            rw [(keysAt_foldl keysAt_addDependent childHandles).2]
            exact firstFree_le_length _
  | postUmrKlm => exact h
  | deregMr mrHandle quarantined exec =>
      show Every _ (s.deregMr mrHandle quarantined exec).1.table
      unfold MrTable.deregMr
      by_cases hquarantined : quarantined = true
      · rw [if_pos hquarantined]
        exact h
      · rw [if_neg hquarantined]
        rcases s.lookup mrHandle with _ | target
        · exact h
        · dsimp only
          split_ifs
          · exact inSpace_release h mrHandle
          · exact h
          · exact h
          · exact inSpace_release (inSpace_foldl inSpace_dropDependent h target.childHandles) mrHandle
  | allocMw pd type exec =>
      show Every _ (s.allocMw pd type exec).1.table
      unfold MrTable.allocMw
      split_ifs
      · exact h
      · exact h
      · rcases exec with kr | index
        · exact h
        · dsimp only
          split_ifs
          · exact h
          · exact h.put (firstFree_le_length _) (by rintro ⟨⟩)
  | bindMw req => exact inSpace_bindMw hs h req
  | deallocMw handle quarantined exec =>
      show Every _ (s.deallocMw handle quarantined exec).1.table
      unfold MrTable.deallocMw
      by_cases hzero : handle = 0
      · rw [if_pos hzero]
        exact h
      rw [if_neg hzero]
      by_cases hquarantined : quarantined = true
      · rw [if_pos hquarantined]
        exact h
      · rw [if_neg hquarantined]
        rcases s.lookup handle with _ | mw
        · exact h
        · dsimp only
          split_ifs
          · exact h
          · exact h
          · exact inSpace_release (inSpace_dropDependent h _) handle
          · exact inSpace_release h handle
  | invalidateKey rkey =>
      show Every _ (s.invalidateKey rkey).1.table
      unfold MrTable.invalidateKey
      split_ifs
      · exact h
      · split
        · exact h
        · exact h.modify fun a ha => h _ a ha

end Ranges

/-! ## Lookups by local key -/

section Lookups

variable {keyOf : MrEntry → ℕ} {heldKey : EntryKeys → ℕ} {t : List (Option MrEntry)} {index : Tracked} {log : ℕ}

/-- The slot that is found for a key is that of an entry that has it, whatever the index holds. -/
lemma entry_of_slotByKey {idx : KeyIndex} {key i : ℕ} (h : slotByKey keyOf t idx key = some (some i)) :
    key ≠ 0 ∧ ∃ e, entry t i = some e ∧ keyOf e = key := by
  unfold slotByKey at h
  by_cases hzero : key = 0
  · rw [if_pos hzero] at h
    cases h
  · rw [if_neg hzero] at h
    obtain ⟨slot, -, hslot⟩ := Option.map_eq_some_iff.mp h
    by_cases hneg : slot < 0
    · rw [if_pos hneg] at hslot
      cases hslot
    · rw [if_neg hneg] at hslot
      rcases he : entry t slot.toNat with _ | e
      · rw [he] at hslot
        cases hslot
      · rw [he, Option.any_some] at hslot
        split_ifs at hslot with hkey
        obtain rfl := Option.some.inj hslot
        exact ⟨hzero, e, he, by simpa using hkey⟩

/-- The slot of a key that is held is found, even when the index is used up. -/
lemma Reflects.slotByKey (h : Reflects (heldBy heldKey (keysAt t)) index log)
    (hkeyOf : ∀ e, heldKey e.keys = keyOf e) {key i : ℕ} {e : MrEntry} (hzero : key ≠ 0)
    (he : entry t i = some e) (hkey : keyOf e = key) :
    slotByKey keyOf t index.index key = some (some i) := by
  have hsized := h.faithful.sized
  have hheld : heldBy heldKey (keysAt t) i = key := by
    rw [heldBy_of_some (keysAt_of_entry he), hkeyOf, hkey]
  have hrecord : index.record (indexKey key) = some i := (h.record _ i).mpr ⟨by rwa [hheld], by rw [hheld]⟩
  -- the walk for a key that is there ends within one turn
  obtain ⟨fuel, hfind⟩ := (h.faithful.find (indexKey key)).2 i hrecord
  rw [mlxKeyIndexFind_eq hsized, Option.map_eq_some_iff] at hfind
  obtain ⟨answer, hanswer, hslot⟩ := hfind
  have hturn : mlxKeyIndexFind index.index index.index.turn (indexKey key) = some (i : ℤ) := by
    rw [mlxKeyIndexFind_eq hsized, hsized.turn_eq, probe_full (hsized.hash_lt _) hanswer, Option.map_some, hslot]
  have hnonneg : ¬((i : ℤ) < 0) := by omega
  rw [Ib.slotByKey, if_neg hzero, hturn, Option.map_some, if_neg hnonneg, Int.toNat_natCast, he,
    Option.any_some, if_pos (by simpa using hkey)]

end Lookups

namespace KeyedMr

variable {s s' : KeyedMr} {log : ℕ} {op : MrOp}

/-- The index of local keys holds those of the table, used up or not, and the regions end inside the address
space. -/
structure Ranged (s : KeyedMr) (log : ℕ) : Prop where
  keys : s.mr.Keys
  lkeys : Reflects (heldBy EntryKeys.lkey (keysAt s.mr.table)) s.lkeys log
  inSpace : Every MrEntry.InSpace s.mr.table

lemma ranged_empty {slots : ℕ} (hslots : slots ≤ 2 ^ 30) : ∃ log, (empty slots).Ranged log := by
  obtain ⟨log, h⟩ := inv_empty hslots
  exact ⟨log, h.keys, h.lkeys.reflects, every_replicate slots⟩

/-- A call that invalidates a key changes no key and no range. -/
lemma Ranged.invalidateKey (h : s.Ranged log) {rkey : ℕ} (hstep : s.invalidateKey rkey = some s') :
    s'.Ranged log := by
  rcases invalidateKey_cases hstep with rfl | ⟨i, rfl, hsame⟩
  · exact h
  · refine ⟨⟨?_, h.keys.variant⟩, ?_, h.inSpace.modify fun a ha => h.inSpace i a ha⟩
    · rw [hsame]
      exact h.keys.toKeysApart
    · rw [hsame]
      exact h.lkeys

/-- Every call that ends keeps the index of local keys and the ranges. -/
lemma Ranged.step (h : s.Ranged log) (hfresh : s.mr.DeviceFresh op) (hfits : op.RangeFits)
    (hstep : s.step op = some s') : s'.Ranged log := by
  by_cases hop : ∃ rkey, op = .invalidateKey rkey
  · obtain ⟨rkey, rfl⟩ := hop
    exact h.invalidateKey hstep
  · rw [step_eq (not_exists.mp hop), Option.bind_eq_some_iff] at hstep
    obtain ⟨lkeys, hlkeys, hstep⟩ := hstep
    obtain ⟨rkeys, -, rfl⟩ := Option.map_eq_some_iff.mp hstep
    have hchange := keyChange_run h.keys op hfresh
    exact ⟨keys_run h.keys hfresh, h.lkeys.change (hchange.lkeys h.keys.toKeysApart) hlkeys,
      inSpace_run h.keys h.inSpace hfresh hfits⟩

/-- The entry that a lookup by local key finds is a region that has it. -/
lemma Ranged.lookupByLkey_iff (h : s.Ranged log) {lkey : ℕ} {e : MrEntry} :
    s.lookupByLkey lkey = some (some e) ↔
      e.isWindow = false ∧ e.lkey = lkey ∧ ∃ i, entry s.mr.table i = some e := by
  unfold lookupByLkey
  constructor
  · intro hfound
    obtain ⟨slot, hslot, hentry⟩ := Option.map_eq_some_iff.mp hfound
    obtain ⟨i, rfl, he⟩ := Option.bind_eq_some_iff.mp hentry
    obtain ⟨hzero, e', he', hkey⟩ := entry_of_slotByKey hslot
    obtain rfl := Option.some.inj (he.symm.trans he')
    refine ⟨?_, hkey, i, he⟩
    by_contra hwindow
    have hlkey : e.lkey = 0 :=
      (h.keys.wellFormed (keysAt_of_entry he)).window (Bool.not_eq_false _ ▸ hwindow)
    exact hzero (hkey.symm.trans hlkey)
  · rintro ⟨hregion, hkey, i, he⟩
    have hzero : lkey ≠ 0 := hkey ▸ (h.inSpace i e he hregion).1
    have hslot : slotByKey MrEntry.lkey s.mr.table s.lkeys.index lkey = some (some i) :=
      h.lkeys.slotByKey (fun _ => rfl) hzero he hkey
    rw [hslot, Option.map_some, Option.bind_some, he]

end KeyedMr

/-! ## Results -/

/-- In every state of the table, for every key, domain, address, length and kind of access: the call answers
yes exactly when the range is not empty and does not wrap, and a region with that local key allows it. -/
theorem validateRange_iff {slots : ℕ} (hslots : slots ≤ 2 ^ 30) {s : KeyedMr}
    (run : Reach KeyedMr.step (fun s op => s.mr.DeviceFresh op ∧ op.RangeFits) (.empty slots) s)
    (lkey pd : ℕ) {addr length : ℕ} (haddr : addr < 2 ^ 64) (hlength : length < 2 ^ 32) (deviceWrites : Bool) :
    s.validateRange lkey pd addr length deviceWrites = some true ↔
      length ≠ 0 ∧ addr + length < 2 ^ 64 ∧
        ∃ i e, entry s.mr.table i = some e ∧ e.lkey = lkey ∧ e.Allows pd addr length deviceWrites := by
  obtain ⟨log, hempty⟩ := KeyedMr.ranged_empty hslots
  have h : s.Ranged log :=
    run.invariant (KeyedMr.Ranged · log) hempty fun h hok hstep => h.step hok.1 hok.2 hstep
  have hlimit : ∀ i e, entry s.mr.table i = some e → e.isWindow = false →
      add64 e.startAddr e.length = e.startAddr + e.length :=
    fun i e he hregion => add64_of_lt (h.inSpace i e he hregion).2
  unfold KeyedMr.validateRange
  by_cases hrefused : length = 0 ∨ add64 addr length < addr
  · rw [if_pos hrefused]
    refine iff_of_false (by rintro ⟨⟩) ?_
    rintro ⟨hpos, hfits, -⟩
    rw [add64_of_lt hfits] at hrefused
    omega
  · rw [if_neg hrefused]
    have hfits : addr + length < 2 ^ 64 := by
      unfold add64 at hrefused
      omega
    rw [add64_of_lt hfits]
    constructor
    · intro hanswer
      obtain ⟨found, hfound, hyes⟩ := Option.map_eq_some_iff.mp hanswer
      rcases found with _ | e
      · cases hyes
      · obtain ⟨hregion, hkey, i, he⟩ := h.lookupByLkey_iff.mp hfound
        dsimp only at hyes
        rw [hlimit i e he hregion] at hyes
        by_cases hbad : e.invalidated = true ∨ e.pd ≠ pd ∨ addr < e.startAddr ∨
            e.startAddr + e.length < addr + length
        · rw [if_pos hbad] at hyes
          cases hyes
        · rw [if_neg hbad] at hyes
          simp only [not_or, not_not] at hbad
          obtain ⟨hvalid, hdomain, hfirst, hlast⟩ := hbad
          refine ⟨fun hzero => hrefused (.inl hzero), hfits, i, e, he, hkey, hregion, by simpa using hvalid,
            hdomain, by omega, by omega, ?_⟩
          rintro rfl
          simpa using hyes
    · rintro ⟨-, -, i, e, he, hkey, hallows⟩
      have hgood : ¬(e.invalidated = true ∨ e.pd ≠ pd ∨ addr < e.startAddr ∨
          e.startAddr + e.length < addr + length) := by
        have hfirst := hallows.first
        have hlast := hallows.last
        rintro (hinvalid | hdomain | hlt | hlt)
        · rw [hallows.valid] at hinvalid
          cases hinvalid
        · exact hdomain hallows.domain
        · omega
        · omega
      rw [h.lookupByLkey_iff.mpr ⟨hallows.region, hkey, i, he⟩, Option.map_some]
      dsimp only
      rw [hlimit i e he hallows.region, if_neg hgood]
      cases deviceWrites with
      | false => rfl
      | true =>
          rw [hallows.permission rfl]
          rfl

/-- A region of one page with every permission. -/
def pageRegion : MrOp := .regMr ⟨1, 4096, 4096, 31⟩ .success (.ok 1)

/-- The page is registered. -/
lemma reach_pageRegion : Reach KeyedMr.step (fun s op => s.mr.DeviceFresh op ∧ op.RangeFits) (.empty 4)
    (((KeyedMr.empty 4).step pageRegion).getD (.empty 4)) :=
  reach_of_guardedOps [pageRegion] rfl ⟨⟨⟨by decide, rfl⟩, by decide⟩, trivial⟩

/-- A write to the last bytes of the page. -/
theorem validateRange_iff_page :
    (((KeyedMr.empty 4).step pageRegion).getD (.empty 4)).validateRange 257 1 8128 64 true = some true :=
  (validateRange_iff (by decide) reach_pageRegion 257 1 (by decide) (by decide) true).mpr
    ⟨by decide, by decide, 0, _, rfl, rfl, rfl, rfl, rfl, by decide, by decide, fun _ => rfl⟩

/-- An empty range inside the page is refused. -/
theorem empty_range_refused : ∃ s, Reach KeyedMr.step (fun s op => s.mr.DeviceFresh op ∧ op.RangeFits) (.empty 4) s ∧
    (∃ i e, entry s.mr.table i = some e ∧ e.lkey = 257 ∧ e.Allows 1 4096 0 false) ∧
    s.validateRange 257 1 4096 0 false = some false :=
  ⟨_, reach_pageRegion, ⟨0, _, rfl, rfl, rfl, rfl, rfl, by decide, by decide, fun h => by cases h⟩, rfl⟩

end MelonDMA.Ib
