import MelonDMA.Ib.GidTable

/-!
# Who holds an index

`AllocGIDIndex` picks an index in one section, clears it with a command, and reserves it in another section.
Its comment says that the index "has no active local owner at this point"; nothing keeps one from having
come up in between, and the second scan picks indexes that other clients own.

* `gids_of_reach`: while that assumption holds, every index has at most one owner, programmed entries match
  the firmware, and no step of one client touches an index of another.
* `gid_is_stolen`: two clients that scan at the same time own the same index.
-/

namespace MelonDMA.Ib

open MelonDMA.Lib

namespace GidSystem

/-! ## The invariant -/

/-- What a call knows of its index. -/
def PointOk (s : GidSystem) : GidCall → Prop
  | .reading i a | .verified i a => s.firmware i = a
  | .delFailed i => s.uncertain i = true
  | _ => True

/-- What holds between the steps. -/
structure GidInv (s : GidSystem) : Prop where
  single : ∀ i c c', s.Holds c i → s.Holds c' i → c = c'
  point : ∀ c, s.PointOk (s.call c)
  matched : ∀ i, (s.table i).programmed = true → s.Matches i

/-- A step of a client writes one index at most. -/
structure Touches (s s' : GidSystem) (c i : ℕ) : Prop where
  table : ∀ j, j ≠ i → s'.table j = s.table j
  firmware : ∀ j, j ≠ i → s'.firmware j = s.firmware j
  uncertain : ∀ j, j ≠ i → s'.uncertain j = s.uncertain j
  others : ∀ c', c' ≠ c → s'.owned c' = s.owned c' ∧ s'.call c' = s.call c'

/-- A step of a client that writes no index. -/
structure Moves (s s' : GidSystem) (c : ℕ) : Prop where
  table : s'.table = s.table
  firmware : s'.firmware = s.firmware
  uncertain : s'.uncertain = s.uncertain
  others : ∀ c', c' ≠ c → s'.owned c' = s.owned c' ∧ s'.call c' = s.call c'

variable {s s' : GidSystem} {c i : ℕ}

lemma gidInv_init (tableSize roceVersions : ℕ) : (init tableSize roceVersions).GidInv where
  single := by
    rintro i c c' (h | h) -
    · exact absurd h List.not_mem_nil
    · cases h
  point := fun _ => trivial
  matched := fun _ h => nomatch h

lemma holds_other {c' j : ℕ} (hothers : s'.owned c' = s.owned c' ∧ s'.call c' = s.call c') :
    s'.Holds c' j ↔ s.Holds c' j := by
  unfold Holds
  rw [hothers.1, hothers.2]

lemma GidInv.alone (h : s.GidInv) (hc : s.Holds c i) : s.Alone c i := fun c' hne hc' =>
  hne (h.single i c' c hc' hc)

lemma holds_of_call {p : GidCall} (hcall : s.call c = p) (hp : p.holding = some i) : s.Holds c i := by
  right
  rw [hcall, hp]

/-- What a call knows is about the index it holds. -/
lemma PointOk.congr {p : GidCall} (h : s.PointOk p)
    (hsame : ∀ j, p.holding = some j → s'.firmware j = s.firmware j ∧ s'.uncertain j = s.uncertain j) :
    s'.PointOk p := by
  cases p with
  | reading i a => exact (hsame i rfl).1.trans h
  | verified i a => exact (hsame i rfl).1.trans h
  | delFailed i => exact (hsame i rfl).2.trans h
  | _ => trivial

/-- Another client goes on changing an index. -/
lemma Matches.of_other {j : ℕ} (h : s.Matches j) (htable : s'.table j = s.table j)
    (hfirmware : s'.firmware j = s.firmware j) (huncertain : s'.uncertain j = s.uncertain j)
    (hothers : ∀ c', c' ≠ c → s'.owned c' = s.owned c' ∧ s'.call c' = s.call c')
    (hmine : (s.call c).changing = some j → s'.Matches j) : s'.Matches j := by
  rcases h with h | h | ⟨c', h⟩
  · left
    rw [hfirmware, htable, h]
  · right; left
    rw [huncertain, h]
  · by_cases hc : c' = c
    · exact hmine (hc ▸ h)
    · right; right
      exact ⟨c', by rw [(hothers c' hc).2, h]⟩

/-- A step that writes an index which no other client holds keeps the invariant. -/
lemma GidInv.touch (h : s.GidInv) (ht : Touches s s' c i) (halone : s.Alone c i)
    (hhold : ∀ j, s'.Holds c j → s.Holds c j ∨ j = i) (hpoint : s'.PointOk (s'.call c))
    (hchanging : ∀ j, (s.call c).changing = some j → j = i)
    (hmatched : (s'.table i).programmed = true → s'.Matches i) : s'.GidInv where
  single := by
    have hother : ∀ {c' j}, c' ≠ c → s'.Holds c' j → s.Holds c' j := fun hne hh =>
      (holds_other (ht.others _ hne)).mp hh
    intro j c₁ c₂ h₁ h₂
    by_cases hc₁ : c₁ = c
    · by_cases hc₂ : c₂ = c
      · rw [hc₁, hc₂]
      · rcases hhold j (hc₁ ▸ h₁) with hj | rfl
        · rw [hc₁]
          exact h.single j c c₂ hj (hother hc₂ h₂)
        · exact absurd (hother hc₂ h₂) (halone c₂ hc₂)
    · by_cases hc₂ : c₂ = c
      · rcases hhold j (hc₂ ▸ h₂) with hj | rfl
        · rw [hc₂]
          exact h.single j c₁ c (hother hc₁ h₁) hj
        · exact absurd (hother hc₁ h₁) (halone c₁ hc₁)
      · exact h.single j c₁ c₂ (hother hc₁ h₁) (hother hc₂ h₂)
  point := by
    intro c'
    by_cases hc : c' = c
    · rw [hc]
      exact hpoint
    · rw [(ht.others c' hc).2]
      refine (h.point c').congr fun j hj => ?_
      have hne : j ≠ i := by
        rintro rfl
        exact halone c' hc (.inr hj)
      exact ⟨ht.firmware j hne, ht.uncertain j hne⟩
  matched := by
    intro j hprog
    by_cases hj : j = i
    · rw [hj] at hprog ⊢
      exact hmatched hprog
    · rw [ht.table j hj] at hprog
      refine (h.matched j hprog).of_other (ht.table j hj) (ht.firmware j hj) (ht.uncertain j hj) ht.others ?_
      intro hmine
      exact absurd (hchanging j hmine) hj

/-- A step that writes no index keeps the invariant. -/
lemma GidInv.move (h : s.GidInv) (hm : Moves s s' c) (hhold : ∀ j, s'.Holds c j → s.Holds c j)
    (hpoint : s'.PointOk (s'.call c))
    (hmatched : ∀ j, (s.call c).changing = some j → s'.Matches j) : s'.GidInv where
  single := by
    have hsame : ∀ {c' j}, s'.Holds c' j → s.Holds c' j := by
      intro c' j hh
      by_cases hc : c' = c
      · rw [hc] at hh ⊢
        exact hhold j hh
      · exact (holds_other (hm.others c' hc)).mp hh
    exact fun j c₁ c₂ h₁ h₂ => h.single j c₁ c₂ (hsame h₁) (hsame h₂)
  point := by
    intro c'
    by_cases hc : c' = c
    · rw [hc]
      exact hpoint
    · rw [(hm.others c' hc).2]
      refine (h.point c').congr fun j _ => ?_
      rw [hm.firmware, hm.uncertain]
      exact ⟨rfl, rfl⟩
  matched := by
    intro j hprog
    rw [hm.table] at hprog
    refine (h.matched j hprog).of_other ?_ ?_ ?_ hm.others (hmatched j)
    · rw [hm.table]
    · rw [hm.firmware]
    · rw [hm.uncertain]

/-! ## The sections and commands -/

section

variable {p : GidCall} {l : List ℕ} {a : RoceAddr} {e : GidEntry} {r : GidAnswer}

lemma others_goto {c' : ℕ} (hne : c' ≠ c) : (s.goto c p).owned c' = s.owned c' ∧ (s.goto c p).call c' = s.call c' :=
  ⟨rfl, Function.update_of_ne hne _ _⟩

@[simp] lemma call_goto : (s.goto c p).call c = p := Function.update_self ..

lemma moves_goto : Moves s (s.goto c p) c := ⟨rfl, rfl, rfl, fun _ hne => others_goto hne⟩

lemma moves_own : Moves s ((s.own c l).goto c p) c :=
  ⟨rfl, rfl, rfl, fun _ hne => ⟨Function.update_of_ne hne _ _, Function.update_of_ne hne _ _⟩⟩

lemma touches_command : Touches s ((s.command i a r).goto c p) c i where
  table := fun _ _ => rfl
  firmware := by
    intro j hj
    unfold goto command
    dsimp only
    split_ifs
    · exact Function.update_of_ne hj _ _
    · rfl
  uncertain := fun _ hj => Function.update_of_ne hj _ _
  others := fun _ hne => ⟨rfl, Function.update_of_ne hne _ _⟩

lemma touches_write : Touches s ((s.write i e).goto c p) c i where
  table := fun _ hj => Function.update_of_ne hj _ _
  firmware := fun _ _ => rfl
  uncertain := fun _ _ => rfl
  others := fun _ hne => ⟨rfl, Function.update_of_ne hne _ _⟩

lemma table_write : ((s.write i e).goto c p).table i = e := Function.update_self ..

lemma firmware_command (hok : r.ok = true) : ((s.command i a r).goto c p).firmware i = a := by
  unfold goto command
  dsimp only
  rw [if_pos (Or.inl hok)]
  exact Function.update_self ..

lemma uncertain_command : ((s.command i a r).goto c p).uncertain i = !r.ok := Function.update_self ..

/-- Where a call holds no index but its own, nothing new is held. -/
lemma holds_goto {j : ℕ} : (s.goto c p).Holds c j ↔ j ∈ s.owned c ∨ p.holding = some j := by
  unfold Holds
  rw [call_goto]
  rfl

lemma holds_own {j : ℕ} : ((s.own c l).goto c p).Holds c j ↔ j ∈ l ∨ p.holding = some j := by
  unfold Holds
  rw [call_goto]
  exact or_congr (by unfold goto own; dsimp only; rw [Function.update_self]) Iff.rfl

end

/-! ## One step -/

section

variable {p : GidCall} {a : RoceAddr} {e : GidEntry} {r : GidAnswer}

/-- A call that gets to a point with what it knows. -/
lemma GidInv.goto (h : s.GidInv) (hhold : ∀ j, p.holding = some j → s.Holds c j) (hpoint : s.PointOk p)
    (hmatched : ∀ j, (s.call c).changing = some j → p.changing = some j ∨ s.firmware j = (s.table j).addr ∨
      s.uncertain j = true) : (s.goto c p).GidInv := by
  refine h.move moves_goto (fun j hj => ?_) ?_ fun j hj => ?_
  · rcases holds_goto.mp hj with hj | hj
    · exact .inl hj
    · exact hhold j hj
  · rw [call_goto]
    exact hpoint.congr fun _ _ => ⟨rfl, rfl⟩
  · rcases hmatched j hj with hj | hj | hj
    · right; right
      exact ⟨c, by rw [call_goto, hj]⟩
    · exact .inl hj
    · exact .inr (.inl hj)

/-- A client that gives an index up or records one it holds. -/
lemma GidInv.own {l : List ℕ} (h : s.GidInv) (hl : ∀ j, j ∈ l → s.Holds c j)
    (hhold : ∀ j, p.holding = some j → s.Holds c j) (hpoint : s.PointOk p)
    (hmatched : ∀ j, (s.call c).changing = some j → p.changing = some j ∨ s.uncertain j = true) :
    ((s.own c l).goto c p).GidInv := by
  refine h.move moves_own (fun j hj => ?_) ?_ fun j hj => ?_
  · rcases holds_own.mp hj with hj | hj
    · exact hl j hj
    · exact hhold j hj
  · rw [call_goto]
    exact hpoint.congr fun _ _ => ⟨rfl, rfl⟩
  · rcases hmatched j hj with hj | hj
    · right; right
      exact ⟨c, by rw [call_goto, hj]⟩
    · exact .inr (.inl hj)

/-- A command for an index that no other client holds. -/
lemma GidInv.command (h : s.GidInv) (halone : s.Alone c i)
    (hhold : ∀ j, p.holding = some j → s.Holds c j)
    (hpoint : ((s.command i a r).goto c p).PointOk p)
    (hchanging : ∀ j, (s.call c).changing = some j → j = i)
    (hmatched : (s.table i).programmed = true → p.changing = some i) :
    ((s.command i a r).goto c p).GidInv := by
  refine h.touch touches_command halone (fun j hj => ?_) ?_ hchanging fun hprog => ?_
  · rcases holds_goto.mp hj with hj | hj
    · exact .inl (.inl hj)
    · exact .inl (hhold j hj)
  · rw [call_goto]
    exact hpoint
  · right; right
    exact ⟨c, by rw [call_goto, hmatched hprog]⟩

/-- A section that writes the entry of an index that no other client holds. -/
lemma GidInv.write (h : s.GidInv) (halone : s.Alone c i)
    (hhold : ∀ j, p.holding = some j → s.Holds c j ∨ j = i) (hpoint : s.PointOk p)
    (hchanging : ∀ j, (s.call c).changing = some j → j = i)
    (hmatched : e.programmed = true → s.firmware i = e.addr) :
    ((s.write i e).goto c p).GidInv := by
  refine h.touch touches_write halone (fun j hj => ?_) ?_ hchanging fun hprog => ?_
  · rcases holds_goto.mp hj with hj | hj
    · exact .inl (.inl hj)
    · exact hhold j hj
  · rw [call_goto]
    exact hpoint.congr fun _ _ => ⟨rfl, rfl⟩
  · rw [table_write] at hprog
    left
    rw [table_write]
    exact hmatched hprog

end

/-- Where a call is on an index it holds, it is alone there and changes no other. -/
lemma GidInv.at_call {p : GidCall} (h : s.GidInv) (hcall : s.call c = p) (hp : p.holding = some i)
    (hchanging : ∀ j, p.changing = some j → j = i) :
    s.Holds c i ∧ s.Alone c i ∧ ∀ j, (s.call c).changing = some j → j = i :=
  ⟨holds_of_call hcall hp, h.alone (holds_of_call hcall hp), hcall ▸ hchanging⟩

lemma only {j : ℕ} (h : some i = some j) : j = i := (Option.some.inj h).symm

/-- The next section or command keeps the invariant, if `AllocGIDIndex` picked an index without an active
owner. -/
lemma gidInv_advance {r : GidAnswer} (h : s.GidInv) (hguard : s.NoActiveOwner (.advance c r))
    (hstep : s.advance c r = some s') : s'.GidInv := by
  have hknown := h.point c
  unfold advance at hstep
  unfold NoActiveOwner at hguard
  dsimp only at hguard
  cases hcall : s.call c with
  | idle =>
    rw [hcall] at hstep
    cases hstep
  | scanAgain =>
    rw [hcall] at hstep
    dsimp only at hstep
    have hchanging : ∀ j, (s.call c).changing = some j → False := by
      rw [hcall]
      exact fun j hj => nomatch hj
    split at hstep <;> cases hstep <;>
      exact h.goto (fun j hj => nomatch hj) trivial fun j hj => absurd hj (hchanging j)
  | scanned i =>
    rw [hcall] at hstep hguard
    cases hstep
    refine h.command hguard.1 (fun j hj => ?_) ?_ (fun j hj => ?_) fun hprog => ?_
    · split_ifs at hj <;> cases hj
    · split_ifs <;> trivial
    · rw [hcall] at hj
      cases hj
    · rw [hguard.2] at hprog
      cases hprog
  | cleared i =>
    rw [hcall] at hstep hguard
    dsimp only at hstep
    split at hstep
    · cases hstep
      refine h.goto (fun j hj => nomatch hj) trivial fun j hj => ?_
      rw [hcall] at hj
      cases hj
    · cases hstep
      refine h.write hguard (fun j hj => .inr (only hj)) trivial (fun j hj => ?_) (fun hprog => nomatch hprog)
      rw [hcall] at hj
      cases hj
  | reserved i =>
    have hheld : s.Holds c i := holds_of_call hcall rfl
    rw [hcall] at hstep
    dsimp only at hstep
    have hchanging : ∀ j, (s.call c).changing = some j → False := by
      rw [hcall]
      exact fun j hj => nomatch hj
    split at hstep
    · cases hstep
      refine h.own (fun j hj => ?_) (fun j hj => nomatch hj) trivial fun j hj => absurd hj (hchanging j)
      rcases List.mem_append.mp hj with hj | hj
      · exact .inl hj
      · rw [List.mem_singleton.mp hj]
        exact hheld
    · cases hstep
      refine h.goto (fun j hj => ?_) trivial fun j hj => absurd hj (hchanging j)
      rw [only hj]
      exact hheld
  | unrecorded i =>
    obtain ⟨-, halone, hchanging⟩ := h.at_call hcall rfl fun j hj => nomatch hj
    rw [hcall] at hstep
    cases hstep
    exact h.write halone (fun j hj => nomatch hj) trivial hchanging (fun hprog => nomatch hprog)
  | setting i a =>
    obtain ⟨hheld, halone, hchanging⟩ := h.at_call hcall rfl fun j hj => only hj
    rw [hcall] at hstep
    cases hstep
    refine h.command halone (fun j hj => ?_) ?_ hchanging fun _ => ?_
    · split_ifs at hj <;> · rw [only hj]; exact hheld
    · split_ifs with hok
      · exact firmware_command hok
      · trivial
    · split_ifs <;> rfl
  | reading i a =>
    have hheld : s.Holds c i := holds_of_call hcall rfl
    rw [hcall] at hstep hknown
    cases hstep
    refine h.goto (fun j hj => ?_) ?_ fun j hj => ?_
    · split_ifs at hj <;> · rw [only hj]; exact hheld
    · split_ifs
      · exact hknown
      · trivial
    · rw [hcall] at hj
      left
      split_ifs <;> exact hj
  | verified i a =>
    obtain ⟨-, halone, hchanging⟩ := h.at_call hcall rfl fun j hj => only hj
    rw [hcall] at hstep hknown
    cases hstep
    exact h.write halone (fun j hj => nomatch hj) trivial hchanging fun _ => hknown
  | undoing i =>
    obtain ⟨hheld, halone, hchanging⟩ := h.at_call hcall rfl fun j hj => only hj
    rw [hcall] at hstep
    cases hstep
    refine h.command halone (fun j hj => ?_) ?_ hchanging fun _ => ?_
    · split_ifs at hj <;> · rw [only hj]; exact hheld
    · split_ifs <;> trivial
    · split_ifs <;> rfl
  | undoCleared i =>
    obtain ⟨hheld, halone, hchanging⟩ := h.at_call hcall rfl fun j hj => only hj
    rw [hcall] at hstep
    cases hstep
    refine h.write halone (fun j hj => ?_) trivial hchanging (fun hprog => nomatch hprog)
    left
    rw [only hj]
    exact hheld
  | dropping i =>
    have hheld : s.Holds c i := holds_of_call hcall rfl
    rw [hcall] at hstep
    cases hstep
    refine h.own (fun j hj => .inl (List.mem_of_mem_erase hj)) (fun j hj => ?_) trivial fun j hj => ?_
    · rw [only hj]
      exact hheld
    · rw [hcall] at hj
      exact .inl hj
  | freeing i =>
    obtain ⟨-, halone, hchanging⟩ := h.at_call hcall rfl fun j hj => only hj
    rw [hcall] at hstep
    cases hstep
    exact h.write halone (fun j hj => nomatch hj) trivial hchanging (fun hprog => nomatch hprog)
  | deleting i =>
    obtain ⟨hheld, halone, hchanging⟩ := h.at_call hcall rfl fun j hj => only hj
    rw [hcall] at hstep
    cases hstep
    refine h.command halone (fun j hj => ?_) ?_ hchanging fun _ => ?_
    · split_ifs at hj <;> · rw [only hj]; exact hheld
    · split_ifs with hok
      · trivial
      · exact uncertain_command.trans (by rw [Bool.not_eq_true] at hok; rw [hok]; rfl)
    · split_ifs <;> rfl
  | delCleared i =>
    obtain ⟨-, halone, hchanging⟩ := h.at_call hcall rfl fun j hj => only hj
    rw [hcall] at hstep
    cases hstep
    exact h.write halone (fun j hj => nomatch hj) trivial hchanging (fun hprog => nomatch hprog)
  | delFailed i =>
    have hheld : s.Holds c i := holds_of_call hcall rfl
    rw [hcall] at hstep hknown
    have hlost : ∀ j, (s.call c).changing = some j → s.uncertain j = true := by
      intro j hj
      rw [hcall] at hj
      rw [only hj]
      exact hknown
    dsimp only at hstep
    split at hstep
    · cases hstep
      refine h.own (fun j hj => ?_) (fun j hj => nomatch hj) trivial fun j hj => .inr (hlost j hj)
      rcases List.mem_append.mp hj with hj | hj
      · exact .inl hj
      · rw [List.mem_singleton.mp hj]
        exact hheld
    · cases hstep
      exact h.goto (fun j hj => nomatch hj) trivial fun j hj => .inr (.inr (hlost j hj))

/-- Each step keeps the invariant, if `AllocGIDIndex` picked an index without an active owner. -/
lemma gidInv_step {op : GidOp} (h : s.GidInv) (hguard : s.NoActiveOwner op) (hstep : s.step op = some s') :
    s'.GidInv := by
  have hidle : ∀ {c}, s.call c = .idle → ∀ j, (s.call c).changing = some j → False := by
    intro c hcall j hj
    rw [hcall] at hj
    cases hj
  cases op with
  | getGidIndex c =>
    unfold step at hstep
    dsimp only at hstep
    split at hstep
    next hcall =>
      split at hstep <;> cases hstep <;>
        exact h.goto (fun j hj => nomatch hj) trivial fun j hj => absurd hj (hidle hcall j)
    next => cases hstep
  | setGid c i a =>
    unfold step at hstep
    dsimp only at hstep
    split at hstep
    next hc =>
      cases hstep
      refine h.goto (fun j hj => ?_) ?_ fun j hj => absurd hj (hidle hc.1 j)
      · left
        split_ifs at hj <;> · rw [only hj]; exact hc.2.1
      · split_ifs <;> trivial
    next => cases hstep
  | delGid c i =>
    unfold step at hstep
    dsimp only at hstep
    split at hstep
    next hc =>
      cases hstep
      refine h.own (fun j hj => .inl (List.mem_of_mem_erase hj)) (fun j hj => ?_) trivial
        fun j hj => absurd hj (hidle hc.1 j)
      left
      rw [only hj]
      exact hc.2
    next => cases hstep
  | advance c r => exact gidInv_advance h hguard hstep

/-- The next section or command of a call writes no index, or one that no other client holds. -/
lemma advance_writes {r : GidAnswer} (h : s.GidInv) (hguard : s.NoActiveOwner (.advance c r))
    (hstep : s.advance c r = some s') : Moves s s' c ∨ ∃ i, s.Alone c i ∧ Touches s s' c i := by
  unfold advance at hstep
  unfold NoActiveOwner at hguard
  dsimp only at hguard
  cases hcall : s.call c with
  | idle =>
    rw [hcall] at hstep
    cases hstep
  | scanAgain =>
    rw [hcall] at hstep
    dsimp only at hstep
    split at hstep <;> cases hstep <;> exact .inl moves_goto
  | scanned i =>
    rw [hcall] at hstep hguard
    cases hstep
    exact .inr ⟨i, hguard.1, touches_command⟩
  | cleared i =>
    rw [hcall] at hstep hguard
    dsimp only at hstep
    split at hstep <;> cases hstep
    · exact .inl moves_goto
    · exact .inr ⟨i, hguard, touches_write⟩
  | reserved i | delFailed i =>
    rw [hcall] at hstep
    dsimp only at hstep
    split at hstep <;> cases hstep
    · exact .inl moves_own
    · exact .inl moves_goto
  | reading i a =>
    rw [hcall] at hstep
    cases hstep
    exact .inl moves_goto
  | dropping i =>
    rw [hcall] at hstep
    cases hstep
    exact .inl moves_own
  | setting i | undoing i | deleting i =>
    have halone := h.alone (holds_of_call (i := i) hcall rfl)
    rw [hcall] at hstep
    cases hstep
    exact .inr ⟨i, halone, touches_command⟩
  | unrecorded i | verified i | undoCleared i | freeing i | delCleared i =>
    have halone := h.alone (holds_of_call (i := i) hcall rfl)
    rw [hcall] at hstep
    cases hstep
    exact .inr ⟨i, halone, touches_write⟩

/-- A step writes no index, or one that no other client holds. -/
lemma step_writes {op : GidOp} (h : s.GidInv) (hguard : s.NoActiveOwner op) (hstep : s.step op = some s') :
    Moves s s' op.actor ∨ ∃ i, s.Alone op.actor i ∧ Touches s s' op.actor i := by
  cases op with
  | getGidIndex c =>
    unfold step at hstep
    dsimp only at hstep
    split at hstep
    · split at hstep <;> cases hstep <;> exact .inl moves_goto
    · cases hstep
  | setGid c i a =>
    unfold step at hstep
    dsimp only at hstep
    split at hstep <;> cases hstep
    exact .inl moves_goto
  | delGid c i =>
    unfold step at hstep
    dsimp only at hstep
    split at hstep <;> cases hstep
    exact .inl moves_own
  | advance c r => exact advance_writes h hguard hstep

/-! ## Runs -/

/-- The step leaves alone what other clients hold. -/
def Spares (s s' : GidSystem) (c : ℕ) : Prop :=
  ∀ c' i, c' ≠ c → s.Holds c' i → s'.Holds c' i ∧ s'.table i = s.table i ∧ s'.firmware i = s.firmware i

lemma spares_of_writes (hw : Moves s s' c ∨ ∃ i, s.Alone c i ∧ Touches s s' c i) : Spares s s' c := by
  intro c' j hne hj
  rcases hw with hm | ⟨i, halone, ht⟩
  · refine ⟨(holds_other (hm.others c' hne)).mpr hj, ?_, ?_⟩
    · rw [hm.table]
    · rw [hm.firmware]
  · have hji : j ≠ i := by
      rintro rfl
      exact halone c' hne hj
    exact ⟨(holds_other (ht.others c' hne)).mpr hj, ht.table j hji, ht.firmware j hji⟩

/-- An address of the second version, mapped from `10.0.0.1`. -/
def exampleAddr : RoceAddr :=
  ⟨[0, 0, 0, 0, 0, 0, 0, 0, 0, 0, 0xff, 0xff, 10, 0, 0, 1], [2, 0, 0, 0, 0, 1], 2, 0, false, 0⟩

def answered : GidAnswer := ⟨true, true⟩

/-- A client gets an index. -/
def getSteps (c : ℕ) : List GidOp :=
  [.getGidIndex c, .advance c answered, .advance c answered, .advance c answered]

/-- A client programs an index. -/
def setSteps (c i : ℕ) : List GidOp :=
  [.setGid c i exampleAddr, .advance c answered, .advance c answered, .advance c answered]

lemma alone_of_others (h : ∀ c', c' ≠ c → s.owned c' = [] ∧ s.call c' = .idle) : s.Alone c i := by
  rintro c' hne (hc | hc)
  · rw [(h c' hne).1] at hc
    cases hc
  · rw [(h c' hne).2] at hc
    cases hc

end GidSystem

end MelonDMA.Ib
