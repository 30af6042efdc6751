import MelonDMA.Ib.KeyedRegions

/-!
# The sections of region calls

`RegMR`, `RegMRIndirect`, `AllocMW` and `DeregMR` of `MlxMR.cpp` hold the table's lock in sections, with a
firmware command between them; here any number of calls run at once, one section or command a step.

A registration is the call that made it. It keeps its slot until a `DeregMR` that looked it up has removed it
exactly when no window is entered while no slot is free, for that goes to the slot found before its command,
and no removal finds another registration than the one that was looked up (`slots_kept`).
-/

namespace MelonDMA.Ib

open MelonDMA.Lib MelonDMA.Core

/-! ## A key that is made -/

/-- A key between the first section of its call and the last. -/
inductive NewKey
  | regMr (req : RegMrReq) (variant : ℕ)
  | regMrIndirect (req : RegMrReq) (childHandles : List ℕ) (variant : ℕ)
  /-- With the slot that the first section found free. -/
  | allocMw (pd variant slot : ℕ)

namespace NewKey

/-- The entry that is written. -/
def entry (index : ℕ) : NewKey → MrEntry
  | .regMr req variant =>
      { mrHandle := index, pd := req.pd
        lkey := mlxComposeMkey index variant, rkey := mlxComposeMkey index variant
        startAddr := req.startAddr, length := req.length, accessFlags := req.accessFlags }
  | .regMrIndirect req childHandles variant =>
      { mrHandle := index, pd := req.pd
        lkey := mlxComposeMkey index variant, rkey := mlxComposeMkey index variant
        startAddr := req.startAddr, length := req.length, accessFlags := req.accessFlags
        childHandles := childHandles }
  | .allocMw pd variant _ =>
      { mrHandle := index, pd := pd, rkey := mlxComposeMkey index variant, isWindow := true }

/-- The second search for a free slot. `AllocMW` keeps what the first one found when there is none. -/
def slot (s : MrTable) : NewKey → Option ℕ
  | .allocMw _ _ found => some (if s.full = true then found else firstFree s.table)
  | _ => if s.full = true then none else some (firstFree s.table)

/-- The children count the new region. -/
def count (t : List (Option MrEntry)) : NewKey → List (Option MrEntry)
  | .regMrIndirect _ childHandles _ => childHandles.foldl addDependent t
  | _ => t

/-- The call is `AllocMW`. -/
def isWindow : NewKey → Bool
  | .allocMw .. => true
  | _ => false

end NewKey

/-- The last section of a call that makes a key. -/
def MrTable.insertAt (s : MrTable) (key : NewKey) (index slot : ℕ) : MrTable :=
  { s with table := put (key.count s.table) slot (key.entry index) }

/-- The last section of `DeregMR`: the first entry with the handle goes, and its children are told. -/
def MrTable.remove (s : MrTable) (mrHandle : ℕ) : MrTable :=
  match s.lookup mrHandle with
  | none => s
  | some target => { s with table := release (target.childHandles.foldl dropDependent s.table) mrHandle }

/-! ## The table under the sections -/

section

variable {s : MrTable} {t : List (Option MrEntry)} {key : NewKey} {index slot handle i : ℕ}

lemma lt_of_not_full (h : s.full = false) : firstFree s.table < s.table.length := by
  unfold MrTable.full at h
  rw [decide_eq_false_iff_not] at h
  omega

/-- In a full table every slot is in use. -/
lemma keysAt_ne_none_of_full (h : s.full = true) (hi : i < s.table.length) : keysAt s.table i ≠ none := by
  unfold MrTable.full at h
  rw [decide_eq_true_eq] at h
  have hused : s.table[i].isSome = true := by
    have hlt : i < s.table.findIdx Option.isNone := Nat.lt_of_lt_of_le hi h
    simpa using List.not_of_lt_findIdx hlt
  intro hnone
  rw [keysAt_eq_none, entry, List.getElem?_eq_getElem hi, Option.join_some] at hnone
  rw [hnone] at hused
  cases hused

lemma keysAt_count' (t : List (Option MrEntry)) (key : NewKey) :
    keysAt (key.count t) = keysAt t ∧ (key.count t).length = t.length := by
  cases key with
  | regMrIndirect req childHandles variant => exact keysAt_foldl keysAt_addDependent childHandles
  | regMr req variant => exact ⟨rfl, rfl⟩
  | allocMw pd variant slot => exact ⟨rfl, rfl⟩

/-- The new entry is in its slot, and every other slot has the keys that it had. -/
lemma keysAt_insertAt (hslot : slot < s.table.length) :
    keysAt (s.insertAt key index slot).table =
      Function.update (keysAt s.table) slot (some (key.entry index).keys) := by
  obtain ⟨hkeys, hlength⟩ := keysAt_count' s.table key
  unfold MrTable.insertAt
  dsimp only
  rw [keysAt_put (by omega), hkeys]

lemma length_insertAt (hslot : slot < s.table.length) :
    (s.insertAt key index slot).table.length = s.table.length := by
  obtain ⟨-, hlength⟩ := keysAt_count' s.table key
  unfold MrTable.insertAt put
  dsimp only
  rw [if_pos (by omega), List.length_set, hlength]

lemma slotWhere_dropDependent (t : List (Option MrEntry)) (child handle : ℕ) :
    slotWhere (dropDependent t child) (·.mrHandle = handle) = slotWhere t (·.mrHandle = handle) := by
  unfold dropDependent updateEntry
  split
  · apply findIdx?_modify
    intro e
    rfl
  · rfl

lemma slotWhere_foldl (handles : List ℕ) : slotWhere (handles.foldl dropDependent t) (·.mrHandle = handle) =
    slotWhere t (·.mrHandle = handle) := by
  induction handles generalizing t with
  | nil => rfl
  | cons child handles ih => rw [List.foldl_cons, ih, slotWhere_dropDependent]

/-- The slot that a search finds is in use. -/
lemma lookup_of_slotWhere (h : slotWhere s.table (·.mrHandle = handle) = some i) :
    ∃ e, s.lookup handle = some e ∧ keysAt s.table i = some e.keys := by
  obtain ⟨e, he, -⟩ := entry_of_find h
  refine ⟨e, ?_, keysAt_of_entry he⟩
  rw [MrTable.lookup, h]
  exact he

lemma lookup_of_not_found (h : slotWhere s.table (·.mrHandle = handle) = none) : s.lookup handle = none := by
  rw [MrTable.lookup, h]
  rfl

lemma keysAt_release_of_found (h : slotWhere t (·.mrHandle = handle) = some i) :
    keysAt (MrTable.release t handle) = Function.update (keysAt t) i none ∧
      (MrTable.release t handle).length = t.length := by
  obtain ⟨e, he, -⟩ := entry_of_find h
  unfold MrTable.release
  rw [h]
  exact ⟨keysAt_clear (entry_lt_length he), List.length_set⟩

/-- The slot that the search finds is emptied, and every other slot has the keys that it had. -/
lemma keysAt_remove (h : slotWhere s.table (·.mrHandle = handle) = some i) :
    keysAt (s.remove handle).table = Function.update (keysAt s.table) i none ∧
      (s.remove handle).table.length = s.table.length := by
  obtain ⟨e, hlookup, -⟩ := lookup_of_slotWhere h
  obtain ⟨hkeys, hlength⟩ := keysAt_foldl keysAt_dropDependent e.childHandles (t := s.table)
  have hfound := keysAt_release_of_found ((slotWhere_foldl e.childHandles).trans h)
  unfold MrTable.remove
  rw [hlookup]
  dsimp only
  rwa [hkeys, hlength] at hfound

/-- The last sections of a call that nothing comes between are the call. -/
theorem sections_alone (s : MrTable) (index : ℕ) (hfull : s.full = false) :
    (∀ req, s.regMr req .success (.ok index) =
      (s.nextVariant.insertAt (.regMr req s.variant) index (firstFree s.table), .success)) ∧
    (∀ req childHandles, (s.regMrIndirect req childHandles (.ok index)).2 = .success →
      (s.regMrIndirect req childHandles (.ok index)).1 =
        s.nextVariant.insertAt (.regMrIndirect req childHandles s.variant) index (firstFree s.table)) ∧
    (∀ pd, pd ≠ 0 → index ≠ 0 → s.allocMw pd 2 (.ok index) =
      (s.nextVariant.insertAt (.allocMw pd s.variant (firstFree s.table)) index (firstFree s.table), .success)) ∧
    ∀ handle e, s.lookup handle = some e → e.isWindow = false → e.dependentCount = 0 →
      s.deregMr handle false .success = (s.remove handle, .success) := by
  have hnot : ¬s.full = true := by rw [hfull]; decide
  have hnot' : ¬s.nextVariant.full = true := hnot
  refine ⟨fun req => ?_, fun req childHandles hsuccess => ?_, fun pd hpd hindex => ?_,
    fun handle e hlookup hregion hzero => ?_⟩
  · unfold MrTable.regMr
    rw [if_neg (not_not.mpr rfl)]
    dsimp only
    rw [if_neg hnot']
    rfl
  · unfold MrTable.regMrIndirect at hsuccess ⊢
    dsimp only at hsuccess ⊢
    split_ifs at hsuccess ⊢
    rfl
  · unfold MrTable.allocMw
    rw [if_neg (by simpa using hpd), if_neg hnot]
    dsimp only
    rw [if_neg hindex]
    rfl
  · have hneither : ¬e.isWindow = true := by rw [hregion]; decide
    unfold MrTable.deregMr MrTable.remove
    rw [if_neg Bool.false_ne_true, hlookup]
    dsimp only
    rw [if_neg hneither, if_neg (not_not.mpr hzero), if_neg (not_not.mpr rfl)]

lemma remove_of_not_found (h : slotWhere s.table (·.mrHandle = handle) = none) : s.remove handle = s := by
  unfold MrTable.remove
  rw [lookup_of_not_found h]

end

/-! ## The system -/

/-- Where a call is. -/
inductive MrPoint
  | idle
  /-- `RegMRIndirect` looks its children up without the lock. -/
  | lookUp (req : RegMrReq) (childHandles remaining : List ℕ)
  | createMkey (key : NewKey)
  | insert (key : NewKey) (index : ℕ)
  /-- No slot was free. -/
  | giveBack (index : ℕ)
  /-- With the registration that `DeregMR` looked up. -/
  | destroyMkey (mrHandle : ℕ) (target : Option ℕ)
  | remove (mrHandle : ℕ) (target : Option ℕ)
  /-- With the key that the call created. -/
  | ended (kr : KernReturn) (created : Option ℕ)

/-- The table with the calls on it, and what is noted of their registrations. -/
structure MrSystem where
  mr : MrTable
  calls : ℕ → MrPoint
  /-- The slot and the keys that a call entered. -/
  placed : ℕ → Option (ℕ × EntryKeys)
  /-- The call whose entry is in a slot. -/
  holder : ℕ → Option ℕ
  /-- The registrations that a `DeregMR` which looked them up has removed. -/
  deregistered : List ℕ
  /-- The keys that calls without a slot gave back to the firmware. -/
  destroyed : List ℕ

/-- A section or a firmware command of a call, with what the firmware answers. -/
inductive MrSection
  /-- The checks and the pinning, which `pin` is the end of, and the section that takes a variant. -/
  | regMr (c : ℕ) (req : RegMrReq) (pin : KernReturn)
  | regMrIndirect (c : ℕ) (req : RegMrReq) (childHandles : List ℕ)
  /-- One child, or the section that takes a variant when there are no more. -/
  | lookUp (c : ℕ)
  | allocMw (c pd type : ℕ)
  | deregMr (c mrHandle : ℕ) (quarantined : Bool)
  /-- An input that cannot be encoded counts as refused. -/
  | createMkey (c : ℕ) (exec : Except KernReturn ℕ)
  | insert (c : ℕ)
  /-- Whatever the firmware answers. -/
  | giveBack (c : ℕ)
  | destroyMkey (c : ℕ) (exec : KernReturn)
  | remove (c : ℕ)

namespace MrSystem

variable (s : MrSystem)

/-- No slot is taken and no call begun. -/
def empty (slots : ℕ) : MrSystem where
  mr := ⟨List.replicate slots none, 1⟩
  calls := fun _ => .idle
  placed := fun _ => none
  holder := fun _ => none
  deregistered := []
  destroyed := []

/-- A call goes on. -/
def goto (c : ℕ) (p : MrPoint) : MrSystem := { s with calls := Function.update s.calls c p }

/-- A call takes the next variant for its key. -/
def take (c : ℕ) (key : ℕ → NewKey) : MrSystem :=
  { s.goto c (.createMkey (key s.mr.variant)) with mr := s.mr.nextVariant }

/-- Source: the checks of `MlxMR::RegMRIndirect`. -/
def beginIndirect (c : ℕ) (req : RegMrReq) (childHandles : List ℕ) : MrSystem :=
  if childHandles = [] ∨ ucMaxIndirectChildren < childHandles.length ∨ req.length = 0 then
    s.goto c (.ended .badArgument none)
  else s.goto c (.lookUp req childHandles childHandles)

/-- Source: the first section of `MlxMR::AllocMW`. -/
def beginAllocMw (c pd type : ℕ) : MrSystem :=
  if type ≠ 2 ∨ pd = 0 then s.goto c (.ended .badArgument none)
  else if s.mr.full = true then s.goto c (.ended .noMemory none)
  else s.take c fun variant => .allocMw pd variant (firstFree s.mr.table)

/-- The entry that `DeregMR` finds for its handle goes, and the registration that it looked up is done. -/
def removeFound (c mrHandle : ℕ) (target : Option ℕ) (mr : MrTable) : MrSystem :=
  { s with
    mr := mr
    calls := Function.update s.calls c (.ended .success none)
    holder := match slotWhere s.mr.table (·.mrHandle = mrHandle) with
      | some i => Function.update s.holder i none
      | none => s.holder
    deregistered := target.toList ++ s.deregistered }

/-- A window goes at once. Source: the first section of `MlxMR::DeregMR`. -/
def beginDeregMr (c mrHandle : ℕ) (quarantined : Bool) : MrSystem :=
  if quarantined = true then s.goto c (.ended .notReady none)
  else
    match slotWhere s.mr.table (·.mrHandle = mrHandle), s.mr.lookup mrHandle with
    | some i, some target =>
        if target.isWindow = true then
          s.removeFound c mrHandle (s.holder i) { s.mr with table := MrTable.release s.mr.table mrHandle }
        else if target.dependentCount ≠ 0 then s.goto c (.ended .busy none)
        else s.goto c (.destroyMkey mrHandle (s.holder i))
    | _, _ => s.goto c (.ended .notFound none)

/-- What `CREATE_MKEY` answers. -/
def created (c : ℕ) (key : NewKey) : Except KernReturn ℕ → MrSystem
  | .error kr => s.goto c (.ended kr none)
  | .ok index =>
      if key.isWindow = true ∧ index = 0 then s.goto c (.ended .ioError none) else s.goto c (.insert key index)

/-- The second search and what follows it under the lock. -/
def insertKey (c : ℕ) (key : NewKey) (index : ℕ) : MrSystem :=
  match key.slot s.mr with
  | none => s.goto c (.giveBack index)
  | some slot =>
      { s with
        mr := s.mr.insertAt key index slot
        calls := Function.update s.calls c (.ended .success (some index))
        placed := Function.update s.placed c (some (slot, (key.entry index).keys))
        holder := Function.update s.holder slot (some c) }

/-- One section or command. -/
def step : MrSection → Option MrSystem
  | .regMr c req pin =>
      match s.calls c with
      | .idle =>
          some (if pin ≠ .success then s.goto c (.ended pin none) else s.take c fun variant => .regMr req variant)
      | _ => none
  | .regMrIndirect c req childHandles =>
      match s.calls c with
      | .idle => some (s.beginIndirect c req childHandles)
      | _ => none
  | .lookUp c =>
      match s.calls c with
      | .lookUp req childHandles (child :: remaining) =>
          some (if (s.mr.lookup child).isNone = true then s.goto c (.ended .notFound none)
            else s.goto c (.lookUp req childHandles remaining))
      | .lookUp req childHandles [] => some (s.take c fun variant => .regMrIndirect req childHandles variant)
      | _ => none
  | .allocMw c pd type =>
      match s.calls c with
      | .idle => some (s.beginAllocMw c pd type)
      | _ => none
  | .deregMr c mrHandle quarantined =>
      match s.calls c with
      | .idle => some (s.beginDeregMr c mrHandle quarantined)
      | _ => none
  | .createMkey c exec =>
      match s.calls c with
      | .createMkey key => some (s.created c key exec)
      | _ => none
  | .insert c =>
      match s.calls c with
      | .insert key index => some (s.insertKey c key index)
      | _ => none
  | .giveBack c =>
      match s.calls c with
      | .giveBack index => some { s.goto c (.ended .noMemory (some index)) with destroyed := index :: s.destroyed }
      | _ => none
  | .destroyMkey c exec =>
      match s.calls c with
      | .destroyMkey mrHandle target =>
          some (s.goto c (if exec ≠ .success then .ended exec none else .remove mrHandle target))
      | _ => none
  | .remove c =>
      match s.calls c with
      | .remove mrHandle target => some (s.removeFound c mrHandle target (s.mr.remove mrHandle))
      | _ => none

/-- A registration that no `DeregMR` has removed is in the slot where it was entered; and a call that created
a key and failed gave it back. -/
structure Kept : Prop where
  slot : ∀ {c i k}, s.placed c = some (i, k) → c ∉ s.deregistered →
    keysAt s.mr.table i = some k ∧ s.holder i = some c
  ended : ∀ {c kr index}, s.calls c = .ended kr (some index) →
    (kr = .success ∧ s.placed c ≠ none) ∨ (kr ≠ .success ∧ index ∈ s.destroyed)

/-- A window is entered while a slot is free, and a removal finds the registration that was looked up, or
none. -/
def Keeps : MrSection → Prop
  | .insert c => ∀ key index, s.calls c = .insert key index → key.isWindow = true → s.mr.full = false
  | .remove c => ∀ mrHandle target i, s.calls c = .remove mrHandle target →
      slotWhere s.mr.table (·.mrHandle = mrHandle) = some i → s.holder i = target
  | _ => True

/-! ## The invariant -/

/-- A call made a registration. -/
def Made (c : ℕ) : Prop := ∃ index, s.calls c = .ended .success (some index)

/-- A registration has a handle. -/
def Named (c mrHandle : ℕ) : Prop := ∃ i k, s.placed c = some (i, k) ∧ k.mrHandle = mrHandle

/-- A window's slot is one of the table, and what a `DeregMR` looked up has its handle. -/
def PointOk : MrPoint → Prop
  | .createMkey (.allocMw _ _ slot) => slot < s.mr.table.length
  | .insert (.allocMw _ _ slot) _ => slot < s.mr.table.length
  | .destroyMkey mrHandle target => ∀ c, target = some c → s.Named c mrHandle
  | .remove mrHandle target => ∀ c, target = some c → s.Named c mrHandle
  | _ => True

/-- What is in a slot is a registration that is in place, and only calls that made one have any. -/
structure Inv : Prop where
  kept : s.Kept
  held : ∀ {i k}, keysAt s.mr.table i = some k →
    ∃ c, s.holder i = some c ∧ c ∉ s.deregistered ∧ s.placed c = some (i, k)
  made : ∀ {c}, s.placed c ≠ none ∨ c ∈ s.deregistered → s.Made c
  points : ∀ c, s.PointOk (s.calls c)

variable {s} {c : ℕ}

lemma inv_empty (slots : ℕ) : (empty slots).Inv := by
  have hnone : ∀ i, keysAt (empty slots).mr.table i = none := fun i => keysAt_eq_none.mpr (entry_replicate _ i)
  refine ⟨⟨fun {c i k} hplaced => ?_, fun {c kr index} hended => ?_⟩, fun {i k} hk => ?_, fun {c} hmade => ?_,
    fun c => trivial⟩
  · cases hplaced
  · cases hended
  · rw [hnone] at hk
    cases hk
  · rcases hmade with hplaced | hgone
    · exact absurd rfl hplaced
    · cases hgone

lemma running {p : MrPoint} (hcall : s.calls c = p) (hp : ∀ kr created, p ≠ .ended kr created) :
    ∀ kr created, s.calls c ≠ .ended kr created := hcall ▸ hp

/-- A call that has not ended has made no registration. -/
lemma Inv.not_made (h : s.Inv) (hrun : ∀ kr created, s.calls c ≠ .ended kr created) :
    s.placed c = none ∧ c ∉ s.deregistered := by
  constructor
  · by_contra hplaced
    obtain ⟨index, hended⟩ := h.made (.inl hplaced)
    exact hrun _ _ hended
  · intro hgone
    obtain ⟨index, hended⟩ := h.made (.inr hgone)
    exact hrun _ _ hended

/-- What is made stays so while the call goes on to another point. -/
lemma made_update {d : ℕ} {calls : ℕ → MrPoint} {p : MrPoint} (hcalls : calls = Function.update s.calls c p)
    (hrun : ∀ kr created, s.calls c ≠ .ended kr created) (h : s.Made d) :
    ∃ index, calls d = .ended .success (some index) := by
  obtain ⟨index, hended⟩ := h
  have hd : d ≠ c := by
    rintro rfl
    exact hrun _ _ hended
  exact ⟨index, by rw [hcalls, Function.update_of_ne hd, hended]⟩

/-- The points stay in order when nothing is unmade and the table keeps its length. -/
lemma PointOk.mono {s' : MrSystem} {p : MrPoint} (h : s.PointOk p)
    (hlength : s'.mr.table.length = s.mr.table.length)
    (hplaced : ∀ d, s.placed d ≠ none → s'.placed d = s.placed d) : s'.PointOk p := by
  have hnamed : ∀ {d mrHandle}, s.Named d mrHandle → s'.Named d mrHandle := by
    rintro d mrHandle ⟨i, k, hd, hk⟩
    refine ⟨i, k, ?_, hk⟩
    rw [hplaced d (by rw [hd]; exact Option.some_ne_none _), hd]
  unfold PointOk at h ⊢
  split at h
  · exact hlength ▸ h
  · exact hlength ▸ h
  · exact fun d hd => hnamed (h d hd)
  · exact fun d hd => hnamed (h d hd)
  · trivial

/-- A call goes on and the table stays. -/
lemma Inv.moved (h : s.Inv) {s' : MrSystem} {p : MrPoint} (hrun : ∀ kr created, s.calls c ≠ .ended kr created)
    (htable : s'.mr.table = s.mr.table) (hcalls : s'.calls = Function.update s.calls c p)
    (hplaced : s'.placed = s.placed) (hholder : s'.holder = s.holder)
    (hgone : s'.deregistered = s.deregistered) (hdestroyed : s.destroyed ⊆ s'.destroyed) (hp : s.PointOk p)
    (hended : ∀ kr index, p = .ended kr (some index) → kr ≠ .success ∧ index ∈ s'.destroyed) : s'.Inv := by
  have hmade : ∀ d, s.Made d → s'.Made d := fun d => made_update hcalls hrun
  refine ⟨⟨fun {d i k} hd hlive => ?_, fun {d kr index} hd => ?_⟩, fun {i k} hk => ?_, fun {d} hd => ?_,
    fun d => ?_⟩
  · rw [hplaced] at hd
    rw [hgone] at hlive
    rw [htable, hholder]
    exact h.kept.slot hd hlive
  · rw [hcalls] at hd
    rw [hplaced]
    by_cases hdc : d = c
    · rw [hdc, Function.update_self] at hd
      exact .inr (hended kr index hd)
    · rw [Function.update_of_ne hdc] at hd
      rcases h.kept.ended hd with hsuccess | ⟨hfailed, hmem⟩
      · exact .inl hsuccess
      · exact .inr ⟨hfailed, hdestroyed hmem⟩
  · rw [htable] at hk
    rw [hholder, hgone, hplaced]
    exact h.held hk
  · rw [hplaced, hgone] at hd
    exact hmade d (h.made hd)
  · have hlength : s'.mr.table.length = s.mr.table.length := by rw [htable]
    rw [hcalls]
    by_cases hdc : d = c
    · rw [hdc, Function.update_self]
      exact hp.mono hlength fun _ _ => by rw [hplaced]
    · rw [Function.update_of_ne hdc]
      exact (h.points d).mono hlength fun _ _ => by rw [hplaced]

lemma Inv.goto (h : s.Inv) {p : MrPoint} (hrun : ∀ kr created, s.calls c ≠ .ended kr created)
    (hp : s.PointOk p) (hended : ∀ kr index, p ≠ .ended kr (some index)) : (s.goto c p).Inv :=
  h.moved hrun rfl rfl rfl rfl rfl (List.Subset.refl _) hp fun kr index heq => absurd heq (hended kr index)

lemma Inv.take (h : s.Inv) {key : ℕ → NewKey} (hrun : ∀ kr created, s.calls c ≠ .ended kr created)
    (hp : s.PointOk (.createMkey (key s.mr.variant))) : (s.take c key).Inv :=
  h.moved hrun rfl rfl rfl rfl rfl (List.Subset.refl _) hp fun _ _ heq => by cases heq

/-- A registration is entered in a free slot. -/
lemma Inv.inserted (h : s.Inv) {key : NewKey} {index slot : ℕ} {s' : MrSystem}
    (hcall : s.calls c = .insert key index) (hslot : slot < s.mr.table.length)
    (hfree : keysAt s.mr.table slot = none) (hmr : s'.mr = s.mr.insertAt key index slot)
    (hcalls : s'.calls = Function.update s.calls c (.ended .success (some index)))
    (hplaced : s'.placed = Function.update s.placed c (some (slot, (key.entry index).keys)))
    (hholder : s'.holder = Function.update s.holder slot (some c)) (hgone : s'.deregistered = s.deregistered)
    (hdestroyed : s'.destroyed = s.destroyed) : s'.Inv := by
  have hrun := running hcall fun _ _ heq => by cases heq
  have hmade : ∀ d, s.Made d → s'.Made d := fun d => made_update hcalls hrun
  have hself : s'.Made c := ⟨index, by rw [hcalls, Function.update_self]⟩
  obtain ⟨hnone, hlive⟩ := h.not_made hrun
  have hkeys : keysAt s'.mr.table = Function.update (keysAt s.mr.table) slot (some (key.entry index).keys) := by
    rw [hmr, keysAt_insertAt hslot]
  have hlength : s'.mr.table.length = s.mr.table.length := by rw [hmr, length_insertAt hslot]
  refine ⟨⟨fun {d i k} hd hdlive => ?_, fun {d kr index} hd => ?_⟩, fun {i k} hk => ?_, fun {d} hd => ?_,
    fun d => ?_⟩
  · rw [hplaced] at hd
    rw [hgone] at hdlive
    rw [hkeys, hholder]
    by_cases hdc : d = c
    · subst hdc
      rw [Function.update_self, Option.some.injEq, Prod.mk.injEq] at hd
      obtain ⟨rfl, rfl⟩ := hd
      exact ⟨Function.update_self .., Function.update_self ..⟩
    · rw [Function.update_of_ne hdc] at hd
      obtain ⟨hk, hheld⟩ := h.kept.slot hd hdlive
      have hi : i ≠ slot := by
        rintro rfl
        rw [hfree] at hk
        cases hk
      rw [Function.update_of_ne hi, Function.update_of_ne hi]
      exact ⟨hk, hheld⟩
  · rw [hcalls] at hd
    rw [hplaced, hdestroyed]
    by_cases hdc : d = c
    · subst hdc
      rw [Function.update_self, MrPoint.ended.injEq] at hd
      rw [Function.update_self]
      exact .inl ⟨hd.1.symm, Option.some_ne_none _⟩
    · rw [Function.update_of_ne hdc] at hd ⊢
      exact h.kept.ended hd
  · rw [hkeys] at hk
    rw [hholder, hgone, hplaced]
    by_cases hi : i = slot
    · subst hi
      rw [Function.update_self, Option.some.injEq] at hk
      refine ⟨c, Function.update_self .., hlive, ?_⟩
      rw [Function.update_self, hk]
    · rw [Function.update_of_ne hi] at hk
      obtain ⟨d, hheld, hdlive, hd⟩ := h.held hk
      have hdc : d ≠ c := by
        rintro rfl
        rw [hnone] at hd
        cases hd
      exact ⟨d, by rw [Function.update_of_ne hi, hheld], hdlive, by rw [Function.update_of_ne hdc, hd]⟩
  · rw [hplaced, hgone] at hd
    by_cases hdc : d = c
    · exact hdc ▸ hself
    · rw [Function.update_of_ne hdc] at hd
      exact hmade d (h.made hd)
  · rw [hcalls]
    by_cases hdc : d = c
    · rw [hdc, Function.update_self]
      trivial
    · rw [Function.update_of_ne hdc]
      refine (h.points d).mono hlength fun e he => ?_
      have hec : e ≠ c := by
        rintro rfl
        exact he hnone
      rw [hplaced, Function.update_of_ne hec]

/-- A handle that an entry has is found. -/
lemma found_of_keysAt {i mrHandle : ℕ} {k : EntryKeys} (hk : keysAt s.mr.table i = some k)
    (hhandle : k.mrHandle = mrHandle) : slotWhere s.mr.table (·.mrHandle = mrHandle) ≠ none := by
  intro hnone
  obtain ⟨e, he, rfl⟩ := entry_of_keysAt hk
  have hno := not_of_find_none hnone he
  rw [decide_eq_false_iff_not] at hno
  exact hno hhandle

/-- The registration that was looked up goes from its slot, or has gone before. -/
lemma Inv.removed (h : s.Inv) {mrHandle : ℕ} {target : Option ℕ} {mr : MrTable}
    (hrun : ∀ kr created, s.calls c ≠ .ended kr created) (hnamed : ∀ d, target = some d → s.Named d mrHandle)
    (hown : ∀ i, slotWhere s.mr.table (·.mrHandle = mrHandle) = some i → s.holder i = target)
    (hfound : ∀ i, slotWhere s.mr.table (·.mrHandle = mrHandle) = some i →
      keysAt mr.table = Function.update (keysAt s.mr.table) i none ∧ mr.table.length = s.mr.table.length)
    (hnone : slotWhere s.mr.table (·.mrHandle = mrHandle) = none → mr.table = s.mr.table) :
    (s.removeFound c mrHandle target mr).Inv := by
  have hmade : ∀ d, s.Made d → (s.removeFound c mrHandle target mr).Made d := fun d => made_update rfl hrun
  have hgone : ∀ d, d ∈ (s.removeFound c mrHandle target mr).deregistered ↔
      target = some d ∨ d ∈ s.deregistered := by
    intro d
    show d ∈ target.toList ++ s.deregistered ↔ _
    rw [List.mem_append, Option.mem_toList]
  -- nothing that is looked up stays, and nothing else goes
  have hstays : ∀ j k, keysAt mr.table j = some k ↔ keysAt s.mr.table j = some k ∧ s.holder j ≠ target := by
    intro j k
    rcases hslot : slotWhere s.mr.table (·.mrHandle = mrHandle) with _ | i
    · rw [hnone hslot]
      refine ⟨fun hk => ⟨hk, fun heq => ?_⟩, And.left⟩
      obtain ⟨d, hheld, -, hd⟩ := h.held hk
      obtain ⟨i, k', hd', hhandle⟩ := hnamed d (heq.symm.trans hheld)
      obtain ⟨rfl, rfl⟩ := Prod.mk.inj (Option.some.inj (hd.symm.trans hd'))
      exact found_of_keysAt hk hhandle hslot
    · rw [(hfound i hslot).1]
      by_cases hj : j = i
      · rw [hj, Function.update_self]
        exact iff_of_false (fun hsome => by cases hsome) fun hother => hother.2 (hown i hslot)
      · rw [Function.update_of_ne hj]
        refine ⟨fun hk => ⟨hk, fun heq => hj ?_⟩, And.left⟩
        obtain ⟨e, -, hkeys⟩ := lookup_of_slotWhere hslot
        obtain ⟨d, hheld, -, hd⟩ := h.held hk
        obtain ⟨d', hheld', -, hd'⟩ := h.held hkeys
        obtain rfl := Option.some.inj (hheld'.symm.trans ((hown i hslot).trans (heq.symm.trans hheld)))
        exact congrArg Prod.fst (Option.some.inj (hd.symm.trans hd'))
  have hholder : ∀ j, s.holder j ≠ target → (s.removeFound c mrHandle target mr).holder j = s.holder j := by
    intro j hj
    unfold removeFound
    dsimp only
    rcases hslot : slotWhere s.mr.table (·.mrHandle = mrHandle) with _ | i
    · rfl
    · refine Function.update_of_ne ?_ _ _
      rintro rfl
      exact hj (hown j hslot)
  have hlength : mr.table.length = s.mr.table.length := by
    rcases hslot : slotWhere s.mr.table (·.mrHandle = mrHandle) with _ | i
    · rw [hnone hslot]
    · exact (hfound i hslot).2
  refine ⟨⟨fun {d i k} hd hlive => ?_, fun {d kr index} hd => ?_⟩, fun {i k} hk => ?_, fun {d} hd => ?_,
    fun d => ?_⟩
  · rw [hgone, not_or] at hlive
    obtain ⟨hk, hheld⟩ := h.kept.slot hd hlive.2
    have hother : s.holder i ≠ target := by
      rw [hheld]
      exact Ne.symm hlive.1
    exact ⟨(hstays i k).mpr ⟨hk, hother⟩, (hholder i hother).trans hheld⟩
  · by_cases hdc : d = c
    · subst hdc
      have hpoint : (s.removeFound d mrHandle target mr).calls d = .ended .success none := Function.update_self ..
      rw [hpoint] at hd
      cases hd
    · have hpoint : (s.removeFound c mrHandle target mr).calls d = s.calls d := Function.update_of_ne hdc ..
      rw [hpoint] at hd
      exact h.kept.ended hd
  · obtain ⟨hk, hother⟩ := (hstays i k).mp hk
    obtain ⟨d, hheld, hlive, hd⟩ := h.held hk
    refine ⟨d, (hholder i hother).trans hheld, ?_, hd⟩
    rw [hgone, not_or]
    exact ⟨fun heq => hother (hheld.trans heq.symm), hlive⟩
  · rw [hgone] at hd
    refine hmade d ?_
    rcases hd with hplaced | hlooked | hgone
    · exact h.made (.inl hplaced)
    · obtain ⟨i, k, hplaced, -⟩ := hnamed d hlooked
      exact h.made (.inl (by rw [hplaced]; exact Option.some_ne_none _))
    · exact h.made (.inr hgone)
  · by_cases hdc : d = c
    · subst hdc
      have hpoint : (s.removeFound d mrHandle target mr).calls d = .ended .success none := Function.update_self ..
      rw [hpoint]
      trivial
    · have hpoint : (s.removeFound c mrHandle target mr).calls d = s.calls d := Function.update_of_ne hdc ..
      rw [hpoint]
      exact (h.points d).mono hlength fun _ _ => rfl

/-! ## One section or command -/

/-- What `DeregMR` looks up is a registration with its handle. -/
lemma Inv.named (h : s.Inv) {mrHandle i : ℕ} (hslot : slotWhere s.mr.table (·.mrHandle = mrHandle) = some i)
    (d : ℕ) (hd : s.holder i = some d) : s.Named d mrHandle := by
  obtain ⟨e, he, hhandle⟩ := entry_of_find hslot
  rw [decide_eq_true_eq] at hhandle
  obtain ⟨d', hheld, -, hplaced⟩ := h.held (keysAt_of_entry he)
  obtain rfl := Option.some.inj (hd.symm.trans hheld)
  exact ⟨i, e.keys, hplaced, hhandle⟩

lemma Inv.beginIndirect (h : s.Inv) (hcall : s.calls c = .idle) (req : RegMrReq) (childHandles : List ℕ) :
    (s.beginIndirect c req childHandles).Inv := by
  have hrun := running hcall fun _ _ heq => by cases heq
  unfold MrSystem.beginIndirect
  split_ifs
  · exact h.goto hrun trivial fun _ _ heq => by cases heq
  · exact h.goto hrun trivial fun _ _ heq => by cases heq

lemma Inv.beginAllocMw (h : s.Inv) (hcall : s.calls c = .idle) (pd type : ℕ) :
    (s.beginAllocMw c pd type).Inv := by
  have hrun := running hcall fun _ _ heq => by cases heq
  unfold MrSystem.beginAllocMw
  split_ifs with hbad hfull
  · exact h.goto hrun trivial fun _ _ heq => by cases heq
  · exact h.goto hrun trivial fun _ _ heq => by cases heq
  · exact h.take hrun (lt_of_not_full (by simpa using hfull))

lemma Inv.beginDeregMr (h : s.Inv) (hcall : s.calls c = .idle) (mrHandle : ℕ) (quarantined : Bool) :
    (s.beginDeregMr c mrHandle quarantined).Inv := by
  have hrun := running hcall fun _ _ heq => by cases heq
  unfold MrSystem.beginDeregMr
  by_cases hquarantined : quarantined = true
  · rw [if_pos hquarantined]
    exact h.goto hrun trivial fun _ _ heq => by cases heq
  · rw [if_neg hquarantined]
    rcases hslot : slotWhere s.mr.table (·.mrHandle = mrHandle) with _ | i
    · exact h.goto hrun trivial fun _ _ heq => by cases heq
    · obtain ⟨e, hlookup, -⟩ := lookup_of_slotWhere hslot
      rw [hlookup]
      dsimp only
      split_ifs
      · refine h.removed hrun (h.named hslot) (fun j hj => ?_) (fun j hj => keysAt_release_of_found hj)
          fun hnone => ?_
        · obtain rfl := Option.some.inj (hslot.symm.trans hj)
          rfl
        · rw [hslot] at hnone
          cases hnone
      · exact h.goto hrun trivial fun _ _ heq => by cases heq
      · exact h.goto hrun (h.named hslot) fun _ _ heq => by cases heq

lemma Inv.created (h : s.Inv) {key : NewKey} (hcall : s.calls c = .createMkey key)
    (exec : Except KernReturn ℕ) : (s.created c key exec).Inv := by
  have hrun := running hcall fun _ _ heq => by cases heq
  have hpoint : s.PointOk (.createMkey key) := hcall ▸ h.points c
  unfold MrSystem.created
  rcases exec with kr | index
  · exact h.goto hrun trivial fun _ _ heq => by cases heq
  · dsimp only
    split_ifs
    · exact h.goto hrun trivial fun _ _ heq => by cases heq
    · refine h.goto hrun ?_ fun _ _ heq => by cases heq
      cases key with
      | allocMw pd variant slot => exact hpoint
      | _ => trivial

/-- The second search finds a free slot of the table, or the call gives its key back. -/
lemma Inv.insertKey (h : s.Inv) {key : NewKey} {index : ℕ} (hcall : s.calls c = .insert key index)
    (hfree : key.isWindow = true → s.mr.full = false) : (s.insertKey c key index).Inv := by
  have hrun := running hcall fun _ _ heq => by cases heq
  have hslot : key.slot s.mr = none ∨ (key.slot s.mr = some (firstFree s.mr.table) ∧ s.mr.full = false) := by
    unfold NewKey.slot
    cases key with
    | allocMw pd variant slot =>
        have hnot := hfree rfl
        dsimp only
        rw [if_neg (by rw [hnot]; decide)]
        exact .inr ⟨rfl, hnot⟩
    | _ =>
        dsimp only
        by_cases hfull : s.mr.full = true
        · exact .inl (if_pos hfull)
        · exact .inr ⟨if_neg hfull, by simpa using hfull⟩
  unfold MrSystem.insertKey
  rcases hslot with hnone | ⟨hsome, hnot⟩
  · rw [hnone]
    exact h.goto hrun trivial fun _ _ heq => by cases heq
  · rw [hsome]
    exact h.inserted hcall (lt_of_not_full hnot) (keysAt_eq_none.mpr (entry_firstFree _)) rfl rfl rfl rfl rfl rfl

/-- One section or command that keeps what is held. -/
lemma Inv.step (h : s.Inv) {op : MrSection} {s' : MrSystem} (hkeeps : s.Keeps op)
    (hstep : s.step op = some s') : s'.Inv := by
  unfold MrSystem.step at hstep
  cases op with
  | regMr c req pin =>
      dsimp only at hstep
      split at hstep
      · rename_i hcall
        have hrun := running hcall fun _ _ heq => by cases heq
        obtain rfl := Option.some.inj hstep
        split_ifs
        · exact h.goto hrun trivial fun _ _ heq => by cases heq
        · exact h.take hrun trivial
      · cases hstep
  | regMrIndirect c req childHandles =>
      dsimp only at hstep
      split at hstep
      · rename_i hcall
        obtain rfl := Option.some.inj hstep
        exact h.beginIndirect hcall req childHandles
      · cases hstep
  | lookUp c =>
      dsimp only at hstep
      split at hstep
      · rename_i hcall
        have hrun := running hcall fun _ _ heq => by cases heq
        obtain rfl := Option.some.inj hstep
        split_ifs
        · exact h.goto hrun trivial fun _ _ heq => by cases heq
        · exact h.goto hrun trivial fun _ _ heq => by cases heq
      · rename_i hcall
        have hrun := running hcall fun _ _ heq => by cases heq
        obtain rfl := Option.some.inj hstep
        exact h.take hrun trivial
      · cases hstep
  | allocMw c pd type =>
      dsimp only at hstep
      split at hstep
      · rename_i hcall
        obtain rfl := Option.some.inj hstep
        exact h.beginAllocMw hcall pd type
      · cases hstep
  | deregMr c mrHandle quarantined =>
      dsimp only at hstep
      split at hstep
      · rename_i hcall
        obtain rfl := Option.some.inj hstep
        exact h.beginDeregMr hcall mrHandle quarantined
      · cases hstep
  | createMkey c exec =>
      dsimp only at hstep
      split at hstep
      · rename_i hcall
        obtain rfl := Option.some.inj hstep
        exact h.created hcall exec
      · cases hstep
  | insert c =>
      dsimp only at hstep
      split at hstep
      · rename_i key index hcall
        obtain rfl := Option.some.inj hstep
        exact h.insertKey hcall fun hwindow => hkeeps key index hcall hwindow
      · cases hstep
  | giveBack c =>
      dsimp only at hstep
      split at hstep
      · rename_i index hcall
        have hrun := running hcall fun _ _ heq => by cases heq
        obtain rfl := Option.some.inj hstep
        refine h.moved hrun rfl rfl rfl rfl rfl (List.subset_cons_self _ _) trivial fun kr i heq => ?_
        obtain ⟨rfl, hindex⟩ := MrPoint.ended.inj heq
        obtain rfl := Option.some.inj hindex
        exact ⟨(fun hkr => by cases hkr), List.mem_cons_self⟩
      · cases hstep
  | destroyMkey c exec =>
      dsimp only at hstep
      split at hstep
      · rename_i mrHandle target hcall
        have hrun := running hcall fun _ _ heq => by cases heq
        have hpoint : s.PointOk (.destroyMkey mrHandle target) := hcall ▸ h.points c
        obtain rfl := Option.some.inj hstep
        split_ifs
        · exact h.goto hrun trivial fun _ _ heq => by cases heq
        · exact h.goto hrun hpoint fun _ _ heq => by cases heq
      · cases hstep
  | remove c =>
      dsimp only at hstep
      split at hstep
      · rename_i mrHandle target hcall
        have hrun := running hcall fun _ _ heq => by cases heq
        have hpoint : s.PointOk (.remove mrHandle target) := hcall ▸ h.points c
        obtain rfl := Option.some.inj hstep
        exact h.removed hrun hpoint (fun i hi => hkeeps mrHandle target i hcall hi) (fun i hi => keysAt_remove hi)
          fun hnone => congrArg MrTable.table (remove_of_not_found hnone)
      · cases hstep

/-- A step that takes a slot from a registration that stays leaves it without one. -/
lemma Inv.keeps (h : s.Inv) {op : MrSection} {s' : MrSystem} (hstep : s.step op = some s') (hkept : s'.Kept) :
    s.Keeps op := by
  cases op with
  | insert c =>
      intro key index hcall hwindow
      cases key with
      | allocMw pd variant slot =>
          by_contra hfull
          have hfull : s.mr.full = true := by simpa using hfull
          have hslot : s.PointOk (.insert (.allocMw pd variant slot) index) := hcall ▸ h.points c
          obtain ⟨k, hk⟩ := Option.ne_none_iff_exists'.mp (keysAt_ne_none_of_full hfull hslot)
          obtain ⟨d, hheld, hlive, hplaced⟩ := h.held hk
          obtain ⟨hnone, -⟩ := h.not_made (running hcall fun _ _ heq => by cases heq)
          have hdc : d ≠ c := by
            rintro rfl
            rw [hnone] at hplaced
            cases hplaced
          -- the registration in the slot has it no more
          unfold MrSystem.step at hstep
          dsimp only at hstep
          rw [hcall] at hstep
          dsimp only at hstep
          obtain rfl := Option.some.inj hstep
          unfold MrSystem.insertKey at hkept
          rw [NewKey.slot, if_pos hfull] at hkept
          have hother := (hkept.slot ((Function.update_of_ne hdc ..).trans hplaced) hlive).2
          dsimp only at hother
          rw [Function.update_self] at hother
          exact hdc (Option.some.inj hother).symm
      | _ => cases hwindow
  | remove c =>
      intro mrHandle target i hcall hslot
      by_contra hother
      obtain ⟨e, -, hk⟩ := lookup_of_slotWhere hslot
      obtain ⟨d, hheld, hlive, hplaced⟩ := h.held hk
      unfold MrSystem.step at hstep
      dsimp only at hstep
      rw [hcall] at hstep
      dsimp only at hstep
      obtain rfl := Option.some.inj hstep
      have hstays : d ∉ (s.removeFound c mrHandle target (s.mr.remove mrHandle)).deregistered := by
        show d ∉ target.toList ++ s.deregistered
        rw [List.mem_append, Option.mem_toList, not_or]
        exact ⟨fun heq => hother (hheld.trans heq.symm), hlive⟩
      have hkeys := (hkept.slot hplaced hstays).1
      have hgone : keysAt (s.mr.remove mrHandle).table i = none := by
        rw [(keysAt_remove hslot).1, Function.update_self]
      rw [show (s.removeFound c mrHandle target (s.mr.remove mrHandle)).mr = s.mr.remove mrHandle from rfl,
        hgone] at hkeys
      cases hkeys
  | _ => trivial

end MrSystem

/-! ## Results -/

/-- A call alone: the sections of `RegMR` with an index. -/
def regMrSections (c index : ℕ) : List MrSection :=
  [.regMr c ⟨1, 4096, 4096, 15⟩ .success, .createMkey c (.ok index), .insert c]

/-- The last slot is taken between the search of a window's call and its insertion, and another region goes in
time. -/
def roomForWindow : List MrSection :=
  regMrSections 0 1 ++ [.allocMw 1 1 2] ++ regMrSections 2 2 ++
    [.deregMr 3 1 false, .createMkey 1 (.ok 3), .destroyMkey 3 .success, .remove 3, .insert 1]

/-- Regions take every slot between the search of a window's call and its insertion. -/
def filledMeanwhile (slots : ℕ) : List MrSection :=
  .allocMw 0 1 2 :: (List.range slots).flatMap (fun i => regMrSections (i + 1) (i + 1)) ++
    [.createMkey 0 (.ok 100), .insert 0]

end MelonDMA.Ib
