import Mathlib.Logic.Function.Basic
import MelonDMA.Ib.MrCounts
import MelonDMA.Ib.QpConfine
import MelonDMA.Lib.Runs

/-!
# What depends on a region

A region is taken away only when its count of dependents is `0`. The count is right in every run in which no
UMR gives an indirect region other children, no key of a bound window is invalidated, and a window goes only
when nothing depends on it and, by way of `DeregMR`, when it is not bound (`dependents_counted`).

`MrRun` keeps, beside the table, the children that each region was last programmed with.
-/

namespace MelonDMA.Ib

open MelonDMA.Lib MelonDMA.Core

/-! ## The system -/

/-- The regions and what they were programmed with. -/
structure MrRun where
  mr : MrTable
  /-- By the handle of the region. -/
  programmed : ℕ → List ℕ

/-- The calls, with what the firmware and the hardware answer. -/
inductive MrOp
  | regMr (req : RegMrReq) (pin : KernReturn) (exec : Except KernReturn ℕ)
  | regMrIndirect (req : RegMrReq) (childHandles : List ℕ) (exec : Except KernReturn ℕ)
  /-- A UMR posted to a pair. -/
  | postUmrKlm (w : World) (qp : QpContext) (req : UmrKlmReq)
  | deregMr (mrHandle : ℕ) (quarantined : Bool) (exec : KernReturn)
  | allocMw (pd type : ℕ) (exec : Except KernReturn ℕ)
  | bindMw (req : BindReq)
  | deallocMw (handle : ℕ) (quarantined : Bool) (exec : KernReturn)
  | invalidateKey (rkey : ℕ)

namespace MrRun

variable (s : MrRun)

/-- No slot is taken. -/
def empty (slots : ℕ) : MrRun := { mr := ⟨List.replicate slots none, 1⟩, programmed := fun _ => [] }

/-- The children of the request are programmed with the region. -/
def afterRegMrIndirect (req : RegMrReq) (childHandles : List ℕ) (exec : Except KernReturn ℕ) : MrRun :=
  let r := s.mr.regMrIndirect req childHandles exec
  { mr := r.1
    programmed := match exec with
      | .ok index => if r.2 = .success then Function.update s.programmed index childHandles else s.programmed
      | .error _ => s.programmed }

/-- A UMR that was posted programs its children; the table is only read. -/
def afterPostUmrKlm (w : World) (qp : QpContext) (req : UmrKlmReq) : MrRun :=
  { s with programmed :=
      if (qp.postUmrKlm (s.mr.world w) req).kr = .success then
        Function.update s.programmed req.mrHandle req.childHandles
      else s.programmed }

/-- One call. -/
def step : MrOp → Option MrRun
  | .regMr req pin exec => some { s with mr := (s.mr.regMr req pin exec).1 }
  | .regMrIndirect req childHandles exec => some (s.afterRegMrIndirect req childHandles exec)
  | .postUmrKlm w qp req => some (s.afterPostUmrKlm w qp req)
  | .deregMr mrHandle quarantined exec => some { s with mr := (s.mr.deregMr mrHandle quarantined exec).1 }
  | .allocMw pd type exec => some { s with mr := (s.mr.allocMw pd type exec).1 }
  | .bindMw req => some { s with mr := (s.mr.bindMw req).1 }
  | .deallocMw handle quarantined exec => some { s with mr := (s.mr.deallocMw handle quarantined exec).1 }
  | .invalidateKey rkey => some { s with mr := (s.mr.invalidateKey rkey).1 }

/-- The device gives a new key an index that no live one has. -/
def DeviceFresh : MrOp → Prop
  | .regMr _ _ (.ok index) => s.mr.lookup index = none
  | .regMrIndirect _ _ (.ok index) => s.mr.lookup index = none
  | .allocMw _ _ (.ok index) => s.mr.lookup index = none
  | _ => True

/-- A UMR that is posted to an indirect region names the children that it has, in any order; a window goes
only when no region has it as a child; the window that goes by `DeregMR`, or whose key is invalidated, is not
bound. -/
def KeepsDependents : MrOp → Prop
  | .postUmrKlm w qp req => ∀ e, s.mr.lookup req.mrHandle = some e → e.childHandles ≠ [] →
      (qp.postUmrKlm (s.mr.world w) req).kr = .success → req.childHandles.Perm e.childHandles
  | .deregMr mrHandle quarantined _ => ∀ e, s.mr.lookup mrHandle = some e → quarantined = false →
      e.isWindow = true → e.dependentCount = 0 ∧ e.boundMrHandle = 0
  | .deallocMw handle quarantined exec => ∀ e, s.mr.lookup handle = some e → quarantined = false →
      exec = .success → e.isWindow = true → e.dependentCount = 0
  | .invalidateKey rkey => ∀ e, s.mr.lookupByRkey rkey = some e → e.boundMrHandle = 0
  | _ => True

/-- What one entry refers to: a bound window its region, and an indirect region the children that it is
programmed with. -/
def refersTo (e : MrEntry) : List ℕ :=
  if e.isWindow = true then if e.boundMrHandle = 0 then [] else [e.boundMrHandle]
  else if e.childHandles = [] then [] else s.programmed e.mrHandle

/-- The references to a region. -/
def references (handle : ℕ) : ℕ := tally (ofEntry fun e => (s.refersTo e).count handle) s.mr.table

/-- Each live region counts its references; it is refused as busy while there are any, and else it goes when
the firmware lets it. -/
def Exact : Prop :=
  ∀ handle e, s.mr.lookup handle = some e → e.isWindow = false →
    e.dependentCount = s.references handle ∧
      (∀ exec, (s.mr.deregMr handle false exec).2 = if s.references handle = 0 then exec else .busy) ∧
      (s.references handle = 0 → (s.mr.deregMr handle false .success).1.lookup handle = none)

/-! ## The invariant -/

/-- The table counts the children that it has, and they are those that are programmed. -/
structure Inv : Prop where
  counted : Counted s.mr.table
  programmed : ∀ {i e}, entry s.mr.table i = some e → e.childHandles ≠ [] →
    (s.programmed e.mrHandle).Perm e.childHandles

variable {s : MrRun}

lemma inv_empty (slots : ℕ) : (empty slots).Inv := by
  have hnone : ∀ i, entry (empty slots).mr.table i = none := fun i => entry_replicate _ i
  have hrefs : ∀ h, refs (empty slots).mr.table h = 0 := by
    intro h
    refine tally_eq_zero_iff.mpr fun o ho => ?_
    rw [List.eq_of_mem_replicate ho]
    rfl
  refine ⟨⟨?_, ?_, ?_, fun {h} hne => absurd (hrefs h) hne⟩, ?_⟩
  · intro i j a b ha
    rw [hnone] at ha
    cases ha
  all_goals
    intro i e he
    rw [hnone] at he
    cases he

/-- A change of the table that does not program the regions that were there. -/
lemma Inv.changed (h : s.Inv) {o : Option MrEntry} {mr : MrTable} {programmed : ℕ → List ℕ}
    (hchange : MrChange s.mr.table o mr.table)
    (hkept : ∀ handle, Live s.mr.table handle → programmed handle = s.programmed handle)
    (hadded : ∀ e, o = some e → e.childHandles ≠ [] → (programmed e.mrHandle).Perm e.childHandles) :
    Inv ⟨mr, programmed⟩ := by
  refine ⟨hchange.counted h.counted, fun {i e} he hne => ?_⟩
  rcases hchange.entry_cases he with ⟨e', he', hhandle, hchildren⟩ | hnew
  · show (programmed e.mrHandle).Perm e.childHandles
    rw [hhandle, hchildren, hkept _ ⟨i, e', he', rfl⟩]
    exact h.programmed he' (hchildren ▸ hne)
  · exact hadded e hnew hne

/-- One call. -/
lemma Inv.step (h : s.Inv) {op : MrOp} {s' : MrRun} (hfresh : s.DeviceFresh op) (hkeeps : s.KeepsDependents op)
    (hstep : s.step op = some s') : s'.Inv := by
  cases op with
  | regMr req pin exec =>
      obtain rfl := Option.some.inj hstep
      have hnew : ∀ index, exec = .ok index → ¬Live s.mr.table index := by
        rintro index rfl
        exact MrTable.lookup_eq_none hfresh
      obtain ⟨o, hchange, hleaf⟩ := MrTable.regMr_change req pin hnew
      exact h.changed hchange (fun _ _ => rfl) fun e he hne => absurd (hleaf e he) hne
  | regMrIndirect req childHandles exec =>
      obtain rfl := Option.some.inj hstep
      have hnew : ∀ index, exec = .ok index → ¬Live s.mr.table index := by
        rintro index rfl
        exact MrTable.lookup_eq_none hfresh
      obtain ⟨o, hchange, hlinked⟩ := MrTable.regMrIndirect_change h.counted req childHandles hnew
      refine h.changed hchange (fun handle hlive => ?_) fun e he _ => ?_
      · rcases exec with kr | index
        · rfl
        · dsimp only
          split_ifs
          · refine Function.update_of_ne ?_ _ _
            rintro rfl
            exact hnew _ rfl hlive
          · rfl
      · obtain ⟨hkr, rfl, hchildren⟩ := hlinked e he
        dsimp only
        rw [if_pos hkr, Function.update_self, hchildren]
  | postUmrKlm w qp req =>
      obtain rfl := Option.some.inj hstep
      refine ⟨h.counted, fun {i e} he hne => ?_⟩
      unfold afterPostUmrKlm
      dsimp only
      split_ifs with hkr
      · by_cases hhandle : e.mrHandle = req.mrHandle
        · have hlookup := MrTable.lookup_of_entry h.counted.keyed he
          rw [hhandle] at hlookup ⊢
          rw [Function.update_self]
          exact hkeeps e hlookup hne hkr
        · rw [Function.update_of_ne hhandle]
          exact h.programmed he hne
      · exact h.programmed he hne
  | deregMr mrHandle quarantined exec =>
      obtain rfl := Option.some.inj hstep
      exact h.changed (MrTable.deregMr_change h.counted mrHandle quarantined exec hkeeps) (fun _ _ => rfl)
        (by rintro _ ⟨⟩)
  | allocMw pd type exec =>
      obtain rfl := Option.some.inj hstep
      have hnew : ∀ index, exec = .ok index → ¬Live s.mr.table index := by
        rintro index rfl
        exact MrTable.lookup_eq_none hfresh
      obtain ⟨o, hchange, hleaf⟩ := MrTable.allocMw_change pd type hnew
      exact h.changed hchange (fun _ _ => rfl) fun e he hne => absurd (hleaf e he) hne
  | bindMw req =>
      obtain rfl := Option.some.inj hstep
      exact h.changed (MrTable.bindMw_change h.counted req) (fun _ _ => rfl) (by rintro _ ⟨⟩)
  | deallocMw handle quarantined exec =>
      obtain rfl := Option.some.inj hstep
      exact h.changed (MrTable.deallocMw_change h.counted handle quarantined exec hkeeps) (fun _ _ => rfl)
        (by rintro _ ⟨⟩)
  | invalidateKey rkey =>
      obtain rfl := Option.some.inj hstep
      exact h.changed (MrTable.invalidateKey_change h.counted rkey hkeeps) (fun _ _ => rfl) (by rintro _ ⟨⟩)

/-- The references that the table has are those that are programmed and bound. -/
lemma Inv.references_eq (h : s.Inv) (handle : ℕ) : s.references handle = refs s.mr.table handle := by
  refine tally_congr fun o ho => ?_
  rcases o with _ | e
  · rfl
  · obtain ⟨i, he⟩ := entry_of_mem ho
    have hkind := h.counted.kinds he
    rw [ofEntry_some, ofEntry_some]
    unfold refersTo
    by_cases hwindow : e.isWindow = true
    · rw [if_pos hwindow, MrEntry.dependsOn_window hkind hwindow]
      by_cases hbound : e.boundMrHandle = 0
      · rw [if_pos hbound, if_neg (not_not.mpr hbound)]
      · rw [if_neg hbound, if_pos hbound]
    · rw [if_neg hwindow, MrEntry.dependsOn_region hkind (by simpa using hwindow)]
      by_cases hchildren : e.childHandles = []
      · rw [if_pos hchildren, hchildren]
      · rw [if_neg hchildren]
        exact (h.programmed he hchildren).count_eq handle

lemma Inv.exact (h : s.Inv) : s.Exact := by
  intro handle e hlookup hregion
  obtain ⟨i, he, rfl⟩ := MrTable.entry_of_lookup hlookup
  have hcount : e.dependentCount = s.references e.mrHandle := by
    rw [h.references_eq]
    exact h.counted.counts he
  have hneither : ¬e.isWindow = true := by rw [hregion]; decide
  refine ⟨hcount, fun exec => ?_, fun hzero => ?_⟩
  · unfold MrTable.deregMr
    rw [if_neg Bool.false_ne_true, hlookup]
    dsimp only
    rw [if_neg hneither, hcount]
    by_cases hzero : s.references e.mrHandle = 0
    · rw [if_neg (not_not.mpr hzero), if_pos hzero]
      by_cases hexec : exec = .success
      · rw [if_neg (not_not.mpr hexec), hexec]
      · rw [if_pos hexec]
    · rw [if_pos hzero, if_neg hzero]
  · have hgone : (s.mr.deregMr e.mrHandle false .success).1.table =
        clear (recount (fun k n => n - e.childHandles.count k) s.mr.table) i := by
      rw [← release_foldl h.counted.keyed he]
      unfold MrTable.deregMr
      rw [if_neg Bool.false_ne_true, hlookup]
      dsimp only
      rw [if_neg hneither, if_neg (not_not.mpr (hcount.trans hzero)), if_neg (not_not.mpr rfl)]
    by_contra hsome
    obtain ⟨e', hfound⟩ := Option.ne_none_iff_exists'.mp hsome
    obtain ⟨j, he', hhandle⟩ := MrTable.entry_of_lookup hfound
    rw [hgone, clear, entry_set (by unfold recount; rw [List.length_map]; exact entry_lt_length he),
      entry_recount] at he'
    by_cases hj : i = j
    · rw [if_pos hj] at he'
      cases he'
    · rw [if_neg hj, Option.map_eq_some_iff] at he'
      obtain ⟨e'', he'', rfl⟩ := he'
      exact hj (h.counted.keyed he he'' hhandle.symm)

end MrRun

/-! ## Results -/

/-- In every run whose calls keep what indirect regions and windows refer to, each live region counts its
references, and it can be taken away exactly when there are none. -/
theorem dependents_counted {slots : ℕ} {s : MrRun}
    (run : Reach MrRun.step (fun s op => s.DeviceFresh op ∧ s.KeepsDependents op) (.empty slots) s) :
    s.Exact := by
  have hinv : s.Inv := Reach.invariant MrRun.Inv (MrRun.inv_empty slots)
    (fun h hok hstep => h.step hok.1 hok.2 hstep) run
  exact hinv.exact

/-- An indirect region that has one child twice and is given it twice again by a UMR, and a window that is
bound to the child. -/
def threeReferences : List MrOp :=
  [.regMr ⟨1, 4096, 4096, 31⟩ .success (.ok 1), .regMrIndirect ⟨1, 0, 8192, 15⟩ [1, 1] (.ok 2),
    .postUmrKlm acceptingTables (lastSlotPair .rc).resetCounters ⟨5, 2, [1, 1], 9⟩, .allocMw 1 2 (.ok 3),
    .bindMw ⟨3, 5, 1, mlxComposeMkey 3 3, 15, 4096, 64⟩]

/-- The child counts three. -/
theorem dependents_counted_three : ∃ s : MrRun, s.references 1 = 3 ∧ s.Exact := by
  have hrun : (runOps MrRun.step (.empty 4) threeReferences).map (fun s => s.references 1) = some 3 := by
    decide +kernel
  obtain ⟨s, hs, hthree⟩ := Option.map_eq_some_iff.mp hrun
  refine ⟨s, hthree, dependents_counted (reach_of_guardedOps threeReferences hs ?_)⟩
  refine ⟨⟨rfl, trivial⟩, ⟨rfl, trivial⟩, ⟨trivial, ?_⟩, ⟨rfl, trivial⟩, ⟨trivial, trivial⟩, trivial⟩
  intro e he _ _
  obtain rfl := Option.some.inj he
  exact List.Perm.refl _

/-- A region is given as the child of an indirect one in place of another. -/
def retargeted : List MrOp :=
  [.regMr ⟨1, 4096, 4096, 15⟩ .success (.ok 1), .regMr ⟨1, 8192, 4096, 15⟩ .success (.ok 2),
    .regMrIndirect ⟨1, 0, 4096, 15⟩ [1] (.ok 3),
    .postUmrKlm acceptingTables (lastSlotPair .rc).resetCounters ⟨5, 3, [2], 9⟩]

/-- The region that took the other's place has a reference and is taken away. -/
theorem dependents_miscounted : ¬∀ (slots : ℕ) (s : MrRun),
    Reach MrRun.step (fun s op => s.DeviceFresh op) (.empty slots) s → s.Exact := by
  intro h
  have hrun : (runOps MrRun.step (.empty 4) retargeted).map (fun s =>
      ((s.mr.lookup 2).map fun e => (e.isWindow, (s.mr.deregMr 2 false .success).2), s.references 2)) =
        some (some (false, .success), 1) := by
    decide +kernel
  obtain ⟨s, hs, hvals⟩ := Option.map_eq_some_iff.mp hrun
  obtain ⟨hentry, hone⟩ := Prod.mk.inj hvals
  obtain ⟨e, hlookup, hentry⟩ := Option.map_eq_some_iff.mp hentry
  obtain ⟨hregion, hgone⟩ := Prod.mk.inj hentry
  have hexact := h 4 s (reach_of_guardedOps retargeted hs ⟨rfl, rfl, rfl, trivial, trivial⟩) 2 e hlookup hregion
  have hbusy := hexact.2.1 .success
  rw [hgone, hone, if_neg Nat.one_ne_zero] at hbusy
  cases hbusy

end MelonDMA.Ib
