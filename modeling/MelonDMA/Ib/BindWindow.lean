import MelonDMA.Ib.MrTable
import MelonDMA.Ib.QpConfine

/-!
# Binding a window

`MlxRoCE::BindMW`: the region table records the new binding, and the queue pair posts the element that tells
the hardware. A post that fails does not take the record back, so a call that fails leaves the window, the
counts of dependents and the send queue as they were exactly when the table refused the request or had
nothing to record (`failed_bind_unchanged_iff`).
-/

namespace MelonDMA.Ib

open MelonDMA.Lib MelonDMA.Core MelonDMA.Hw

/-! ## The call -/

/-- Source: `MLX_BIND_MW_STAGE_*`. -/
inductive BindStage
  | none
  | validate
  | postUmr
  | doorbell
  deriving DecidableEq, Repr

/-- Source: `mlx_bind_mw_resp`. -/
structure BindResp where
  rkey : ℕ
  stage : BindStage
  status : KernReturn
  deriving DecidableEq, Repr

/-- What a bind works on: the region table, and the queue pair with its count of binds. -/
structure BindState where
  mr : MrTable
  qp : QpContext
  postedBindMw : ℕ

/-- What a bind did. -/
structure BindOutcome where
  state : BindState
  resp : BindResp
  kr : KernReturn

/-- The region is looked up for its local key, and the table looks it up again. Source:
`MlxRoCE::BindMW`. -/
def BindState.bindMw (w : World) (st : BindState) (req : BindReq) (wrId : ℕ) : BindOutcome :=
  match st.mr.lookup req.mrHandle with
  | none => ⟨st, ⟨0, .validate, .notFound⟩, .notFound⟩
  | some mr =>
      let bound := st.mr.bindMw req
      if bound.2 ≠ .success then ⟨{ st with mr := bound.1 }, ⟨0, .validate, bound.2⟩, bound.2⟩
      else
        let next := ((bound.1.lookup req.mwHandle).map MrEntry.rkey).getD 0
        let posted := st.qp.postBindMw (bound.1.world w)
          ⟨req.qpn, req.mwHandle, req.bindRkey, next, mr.lkey, req.accessFlags, req.addr, req.length, wrId⟩
        if posted.kr ≠ .success then
          ⟨{ st with mr := bound.1, qp := posted.ctx }, ⟨0, .postUmr, posted.kr⟩, posted.kr⟩
        else
          ⟨⟨bound.1, posted.ctx, add64 st.postedBindMw 1⟩, ⟨next, .doorbell, .success⟩, .success⟩

/-! ## What is recorded -/

/-- What the table has on record of a window. -/
structure Binding where
  boundMrHandle : ℕ
  boundQpn : ℕ
  rkey : ℕ
  startAddr : ℕ
  length : ℕ
  accessFlags : ℕ
  invalidated : Bool
  deriving DecidableEq, Repr

/-- The record of an entry. -/
def MrEntry.binding (e : MrEntry) : Binding :=
  ⟨e.boundMrHandle, e.boundQpn, e.rkey, e.startAddr, e.length, e.accessFlags, e.invalidated⟩

/-- The record that a request asks for: a new variant of the window's key goes with it. -/
def MrTable.asked (s : MrTable) (req : BindReq) (mw : MrEntry) : Binding :=
  ⟨req.mrHandle, req.qpn, mlxComposeMkey (mlxMkeyIndex mw.rkey) s.variant, req.addr, req.length,
    req.accessFlags, false⟩

/-- The table takes a request for a window and a region. -/
structure MrTable.Takes (s : MrTable) (req : BindReq) (mw mr : MrEntry) : Prop where
  wellFormed : ¬(req.mwHandle = 0 ∨ req.qpn = 0 ∨ req.mrHandle = 0 ∨ req.bindRkey = 0 ∨ req.length = 0 ∨
    req.accessFlags / 32 ≠ 0)
  window : s.lookup req.mwHandle = some mw
  region : s.lookup req.mrHandle = some mr
  allowed : bindRefused mw mr req = false

/-- The table takes the request, and it asks for something that is not on record. -/
def MrTable.Records (s : MrTable) (req : BindReq) : Prop :=
  ∃ mw mr, s.Takes req mw mr ∧ mw.binding ≠ s.asked req mw

/-- A call left the record of a window, every count of dependents and the counters of the send queue as they
were. -/
structure BindState.Unchanged (st st' : BindState) (mwHandle : ℕ) : Prop where
  binding : (st'.mr.lookup mwHandle).map MrEntry.binding = (st.mr.lookup mwHandle).map MrEntry.binding
  dependents : ∀ handle, (st'.mr.lookup handle).map MrEntry.dependentCount =
    (st.mr.lookup handle).map MrEntry.dependentCount
  sqHead : st'.qp.sqHead = st.qp.sqHead
  sqTail : st'.qp.sqTail = st.qp.sqTail
  postedBindMw : st'.postedBindMw = st.postedBindMw

/-! ## The table -/

section

variable {s : MrTable} {req : BindReq} {mw mr : MrEntry} {t : List (Option MrEntry)}

/-- The entry that a handle finds in a table of slots. -/
def find (t : List (Option MrEntry)) (handle : ℕ) : Option MrEntry :=
  (slotWhere t (·.mrHandle = handle)).bind (entry t)

lemma lookup_eq_find (s : MrTable) (handle : ℕ) : s.lookup handle = find s.table handle := rfl

/-- A change to the entry of a handle is found under that handle alone. -/
lemma find_updateEntry {g : MrEntry → MrEntry} (hg : ∀ e, (g e).mrHandle = e.mrHandle) (handle h : ℕ) :
    find (updateEntry t handle g) h = if h = handle then (find t h).map g else find t h := by
  unfold updateEntry
  rcases hslot : slotWhere t (·.mrHandle = handle) with _ | i
  · by_cases hh : h = handle
    · subst hh
      unfold find
      rw [if_pos rfl, hslot]
      rfl
    · rw [if_neg hh]
  · have hsame : ∀ h, slotWhere (t.modify i (Option.map g)) (·.mrHandle = h) = slotWhere t (·.mrHandle = h) := by
      intro h
      apply findIdx?_modify
      intro e
      rw [hg e]
    obtain ⟨e, he, hhandle⟩ := entry_of_find hslot
    have hhandle : e.mrHandle = handle := by simpa using hhandle
    dsimp only
    unfold find
    rw [hsame]
    rcases hfind : slotWhere t (·.mrHandle = h) with _ | j
    · split_ifs <;> rfl
    · obtain ⟨e', he', hh⟩ := entry_of_find hfind
      have hh : e'.mrHandle = h := by simpa using hh
      rw [Option.bind_some, Option.bind_some, entry_modify]
      by_cases hij : i = j
      · subst hij
        obtain rfl := Option.some.inj (he.symm.trans he')
        rw [if_pos rfl, if_pos (hh.symm.trans hhandle)]
      · rw [if_neg hij, if_neg]
        rintro rfl
        exact hij (Option.some.inj (hslot.symm.trans hfind))

/-- A change of a count leaves what is on record. -/
lemma binding_updateCount (f : ℕ → ℕ) (t : List (Option MrEntry)) (handle h : ℕ) :
    (find (updateEntry t handle fun e => { e with dependentCount := f e.dependentCount }) h).map
      MrEntry.binding = (find t h).map MrEntry.binding := by
  have hg : ∀ e : MrEntry, { e with dependentCount := f e.dependentCount }.mrHandle = e.mrHandle :=
    fun _ => rfl
  rw [find_updateEntry hg]
  split_ifs
  · rw [Option.map_map]
    rfl
  · rfl

/-- The window's entry with a new record. -/
def MrTable.rebind (s : MrTable) (req : BindReq) (e : MrEntry) : MrEntry :=
  { e with
    startAddr := req.addr, length := req.length, accessFlags := req.accessFlags
    invalidated := false, boundMrHandle := req.mrHandle, boundQpn := req.qpn
    rkey := mlxComposeMkey (mlxMkeyIndex e.rkey) s.variant }

/-- The table with the counts moved from the old region to the new one. -/
def moveCount (t : List (Option MrEntry)) (old new : ℕ) : List (Option MrEntry) :=
  let t := if old ≠ 0 ∧ old ≠ new then dropDependent t old else t
  if old ≠ new then addDependent t new else t

lemma binding_moveCount (t : List (Option MrEntry)) (old new h : ℕ) :
    (find (moveCount t old new) h).map MrEntry.binding = (find t h).map MrEntry.binding := by
  unfold moveCount
  dsimp only
  split_ifs
  · exact (binding_updateCount (· + 1) _ new h).trans (binding_updateCount (· - 1) t old h)
  · exact binding_updateCount (· + 1) t new h
  · exact binding_updateCount (· - 1) t old h
  · rfl

/-- The table after it took a request. -/
lemma MrTable.Takes.table (h : s.Takes req mw mr) : (s.bindMw req).1.table =
    updateEntry (moveCount s.table mw.boundMrHandle req.mrHandle) req.mwHandle (s.rebind req) := by
  unfold bindMw
  rw [if_neg h.wellFormed, h.window, h.region]
  dsimp only
  rw [if_neg (by rw [h.allowed]; decide)]
  rfl

/-- A request is refused and the table stays, or it is taken. -/
lemma MrTable.bindMw_cases (s : MrTable) (req : BindReq) :
    ((∀ mw mr, ¬s.Takes req mw mr) ∧ (s.bindMw req).1 = s ∧ (s.bindMw req).2 ≠ .success) ∨
      ∃ mw mr, s.Takes req mw mr ∧ (s.bindMw req).2 = .success := by
  unfold bindMw
  by_cases hbad : req.mwHandle = 0 ∨ req.qpn = 0 ∨ req.mrHandle = 0 ∨ req.bindRkey = 0 ∨ req.length = 0 ∨
      req.accessFlags / 32 ≠ 0
  · rw [if_pos hbad]
    exact .inl ⟨fun mw mr h => h.wellFormed hbad, rfl, (fun h => by cases h)⟩
  · rw [if_neg hbad]
    rcases hmw : s.lookup req.mwHandle with _ | mw
    · refine .inl ⟨fun mw mr h => ?_, rfl, (fun h => nomatch h)⟩
      have hwindow := h.window
      rw [hmw] at hwindow
      cases hwindow
    · rcases hmr : s.lookup req.mrHandle with _ | mr
      · refine .inl ⟨fun mw' mr h => ?_, rfl, (fun h => nomatch h)⟩
        have hregion := h.region
        rw [hmr] at hregion
        cases hregion
      · dsimp only
        by_cases hrefused : bindRefused mw mr req = true
        · rw [if_pos hrefused]
          refine .inl ⟨fun mw' mr' h => ?_, rfl, (fun h => by cases h)⟩
          obtain rfl := Option.some.inj (hmw.symm.trans h.window)
          obtain rfl := Option.some.inj (hmr.symm.trans h.region)
          rw [h.allowed] at hrefused
          cases hrefused
        · rw [if_neg hrefused]
          exact .inr ⟨mw, mr, ⟨hbad, hmw, hmr, by simpa using hrefused⟩, rfl⟩

/-- What is on record of the window after the table took a request. -/
lemma MrTable.Takes.binding (h : s.Takes req mw mr) :
    ((s.bindMw req).1.lookup req.mwHandle).map MrEntry.binding = some (s.asked req mw) := by
  have hcounts := binding_moveCount s.table mw.boundMrHandle req.mrHandle req.mwHandle
  rw [← lookup_eq_find s, h.window] at hcounts
  obtain ⟨e, he, hbinding⟩ := Option.map_eq_some_iff.mp hcounts
  have hkey : e.rkey = mw.rkey := congrArg Binding.rkey hbinding
  rw [lookup_eq_find, h.table, find_updateEntry (g := s.rebind req) fun _ => rfl, if_pos rfl, he,
    Option.map_some, Option.map_some, asked, ← hkey]
  rfl

/-- A request for what is on record changes no count. -/
lemma MrTable.Takes.dependents (h : s.Takes req mw mr) (hsame : mw.binding = s.asked req mw) (handle : ℕ) :
    ((s.bindMw req).1.lookup handle).map MrEntry.dependentCount =
      (s.lookup handle).map MrEntry.dependentCount := by
  have hbound : mw.boundMrHandle = req.mrHandle := congrArg Binding.boundMrHandle hsame
  have hmove : moveCount s.table mw.boundMrHandle req.mrHandle = s.table := by
    simp [moveCount, hbound]
  rw [lookup_eq_find, h.table, hmove, find_updateEntry (g := s.rebind req) fun _ => rfl]
  split_ifs
  · rw [Option.map_map]
    rfl
  · rfl

/-! ## The post -/

/-- A post that fails leaves both counters of the send queue as they were. -/
lemma postBindMw_fails {ctx : QpContext} {w : World} {post : BindMwReq} (hhead : ctx.sqHead < 2 ^ 64)
    (h : (ctx.postBindMw w post).kr ≠ .success) :
    (ctx.postBindMw w post).ctx.sqHead = ctx.sqHead ∧ (ctx.postBindMw w post).ctx.sqTail = ctx.sqTail := by
  unfold QpContext.postBindMw at h ⊢
  dsimp only at h ⊢
  generalize henc : mlxEncodeUmrKlmWqe (umrWqeFixedBytes + umrKlmAlignBytes) post.qpn
    (ctx.sqHead % 2 ^ 16) post.bindKey post.accessFlags post.addr post.length
    [⟨post.addr, post.length, post.mrLkey⟩] true = e at h ⊢
  by_cases hds : e.ds = 0
  · rw [if_pos hds]
    split_ifs <;> exact ⟨rfl, rfl⟩
  · have hspan : wqeSpan e.ds = 3 := by
      subst henc
      rw [wqeSpan_umr hds, List.length_singleton]
    rw [if_neg hds, hspan] at h ⊢
    split_ifs at h ⊢ with _ _ _ _ _ _ hring
    case neg => exact ⟨sub64_add64_self hhead (by decide), rfl⟩
    all_goals first
      | exact absurd hring h
      | exact ⟨rfl, rfl⟩

end

/-! ## Failed binds -/

section

variable {w : World} {st : BindState} {req : BindReq} {wrId : ℕ}

/-- A bind that fails after the table took it leaves the new record in the table. -/
lemma bindMw_of_takes {mw mr : MrEntry} (htakes : st.mr.Takes req mw mr) (hhead : st.qp.sqHead < 2 ^ 64)
    (hfails : (st.bindMw w req wrId).kr ≠ .success) :
    (st.bindMw w req wrId).state.mr = (st.mr.bindMw req).1 ∧
      (st.bindMw w req wrId).state.qp.sqHead = st.qp.sqHead ∧
      (st.bindMw w req wrId).state.qp.sqTail = st.qp.sqTail ∧
      (st.bindMw w req wrId).state.postedBindMw = st.postedBindMw := by
  have hbound : (st.mr.bindMw req).2 = .success := by
    rcases st.mr.bindMw_cases req with ⟨hnone, -, -⟩ | ⟨_, _, -, hsuccess⟩
    · exact absurd htakes (hnone mw mr)
    · exact hsuccess
  unfold BindState.bindMw at hfails ⊢
  rw [htakes.region] at hfails ⊢
  dsimp only at hfails ⊢
  rw [if_neg (not_not.mpr hbound)] at hfails ⊢
  split_ifs at hfails ⊢ with hposted
  · obtain ⟨hsqHead, hsqTail⟩ := postBindMw_fails hhead hposted
    exact ⟨rfl, hsqHead, hsqTail, rfl⟩
  · exact absurd rfl hfails

/-- A bind that the table refused changes nothing. -/
lemma bindMw_of_refused (hnone : ∀ mw mr, ¬st.mr.Takes req mw mr) : (st.bindMw w req wrId).state = st := by
  unfold BindState.bindMw
  rcases st.mr.lookup req.mrHandle with _ | mr
  · rfl
  · rcases st.mr.bindMw_cases req with ⟨-, hsame, hrefused⟩ | ⟨mw, mr', htakes, -⟩
    · dsimp only
      rw [if_pos hrefused, hsame]
    · exact absurd htakes (hnone mw mr')

/-- A bind that fails leaves everything as it was exactly when the table refused it or had nothing to
record. -/
theorem failed_bind_unchanged_iff (hhead : st.qp.sqHead < 2 ^ 64)
    (hfails : (st.bindMw w req wrId).kr ≠ .success) :
    st.Unchanged (st.bindMw w req wrId).state req.mwHandle ↔ ¬st.mr.Records req := by
  constructor
  · rintro hsame ⟨mw, mr, htakes, hnew⟩
    obtain ⟨hmr, -, -, -⟩ := bindMw_of_takes htakes hhead hfails
    have hbinding := hsame.binding
    rw [hmr, htakes.binding, htakes.window, Option.map_some] at hbinding
    exact hnew (Option.some.inj hbinding).symm
  · intro hnothing
    by_cases htaken : ∃ mw mr, st.mr.Takes req mw mr
    · obtain ⟨mw, mr, htakes⟩ := htaken
      have hold : mw.binding = st.mr.asked req mw := by
        by_contra hnew
        exact hnothing ⟨mw, mr, htakes, hnew⟩
      obtain ⟨hmr, hsqHead, hsqTail, hposted⟩ := bindMw_of_takes htakes hhead hfails
      refine ⟨?_, ?_, hsqHead, hsqTail, hposted⟩
      · rw [hmr, htakes.binding, htakes.window, Option.map_some, hold]
      · intro handle
        rw [hmr]
        exact htakes.dependents hold handle
    · push Not at htaken
      rw [bindMw_of_refused htaken]
      exact ⟨rfl, fun _ => rfl, rfl, rfl, rfl⟩

end

/-- A region of 4096 bytes, handle 1, a window, handle 3, and a pair whose send queue is not empty. -/
def busyBind : BindState where
  mr := (((⟨List.replicate 4 none, 1⟩ : MrTable).regMr ⟨1, 4096, 4096, 31⟩ .success (.ok 1)).1.allocMw 1 2
    (.ok 3)).1
  qp := lastSlotPair .rc
  postedBindMw := 0

/-- A request for the window's 64 bytes from an address on. -/
def bindAt (addr : ℕ) : BindReq := ⟨3, 5, 1, mlxComposeMkey 3 2, 15, addr, 64⟩

/-- A request for memory outside of the region is refused, and changes nothing. -/
theorem failed_bind_unchanged_outside :
    busyBind.Unchanged (busyBind.bindMw acceptingTables (bindAt 0) 9).state 3 := by
  refine (failed_bind_unchanged_iff (by decide) (by decide)).mpr ?_
  rintro ⟨mw, mr, htakes, -⟩
  have hwindow : (busyBind.mr.lookup 3).map (fun mw => (busyBind.mr.lookup 1).map fun mr =>
      MrTable.bindRefused mw mr (bindAt 0)) = some (some true) := by decide
  have hmw : busyBind.mr.lookup 3 = some mw := htakes.window
  have hmr : busyBind.mr.lookup 1 = some mr := htakes.region
  rw [hmw, Option.map_some, hmr, Option.map_some, htakes.allowed] at hwindow
  exact absurd hwindow (by decide)

/-- A bind that the send queue has no room for is recorded all the same: the window has a new key, and the
request made again is refused for the old one. -/
theorem failed_bind_recorded :
    (busyBind.bindMw acceptingTables (bindAt 4096) 9).kr = .busy ∧
      ¬busyBind.Unchanged (busyBind.bindMw acceptingTables (bindAt 4096) 9).state 3 ∧
      ((busyBind.bindMw acceptingTables (bindAt 4096) 9).state.bindMw acceptingTables (bindAt 4096) 9).kr =
        .notPermitted := by
  refine ⟨by decide, ?_, by decide⟩
  intro h
  exact absurd h.binding (by decide)

end MelonDMA.Ib
