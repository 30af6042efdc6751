import MelonDMA.Ib.MrTable

/-!
# The counts of dependents

`Counted` says that the count of each entry is the number of references to it in the table. `MrChange` lists
what a call can do to the table; every change keeps `Counted`, and the calls of `MrTable` make no others, as
long as a window goes only when it is not bound and nothing depends on it.
-/

namespace MelonDMA.Ib

open MelonDMA.Lib MelonDMA.Core

/-! ## References -/

namespace MrEntry

/-- The handles that an entry depends on. -/
def dependsOn (e : MrEntry) : List ℕ :=
  e.childHandles ++ if e.boundMrHandle ≠ 0 then [e.boundMrHandle] else []

/-- A window has no children and a region is bound to nothing. -/
def OfKind (e : MrEntry) : Prop :=
  if e.isWindow = true then e.childHandles = [] else e.boundMrHandle = 0

/-- Its count of dependents is a function of its handle and of the count before. -/
def recount (f : ℕ → ℕ → ℕ) (e : MrEntry) : MrEntry :=
  { e with dependentCount := f e.mrHandle e.dependentCount }

@[simp] lemma recount_mrHandle (f : ℕ → ℕ → ℕ) (e : MrEntry) : (e.recount f).mrHandle = e.mrHandle := rfl

@[simp] lemma recount_childHandles (f : ℕ → ℕ → ℕ) (e : MrEntry) :
    (e.recount f).childHandles = e.childHandles := rfl

@[simp] lemma recount_isWindow (f : ℕ → ℕ → ℕ) (e : MrEntry) : (e.recount f).isWindow = e.isWindow := rfl

@[simp] lemma recount_dependentCount (f : ℕ → ℕ → ℕ) (e : MrEntry) :
    (e.recount f).dependentCount = f e.mrHandle e.dependentCount := rfl

@[simp] lemma recount_dependsOn (f : ℕ → ℕ → ℕ) (e : MrEntry) : (e.recount f).dependsOn = e.dependsOn := rfl

/-- A window depends on what it is bound to. -/
lemma dependsOn_window {e : MrEntry} (hkind : e.OfKind) (h : e.isWindow = true) :
    e.dependsOn = if e.boundMrHandle ≠ 0 then [e.boundMrHandle] else [] := by
  unfold OfKind at hkind
  rw [if_pos h] at hkind
  unfold dependsOn
  rw [hkind, List.nil_append]

/-- A region depends on its children. -/
lemma dependsOn_region {e : MrEntry} (hkind : e.OfKind) (h : e.isWindow = false) :
    e.dependsOn = e.childHandles := by
  unfold OfKind at hkind
  rw [if_neg (by rw [h]; decide)] at hkind
  unfold dependsOn
  rw [hkind, if_neg (not_not.mpr rfl), List.append_nil]

lemma ofKind_recount {f : ℕ → ℕ → ℕ} {e : MrEntry} : (e.recount f).OfKind ↔ e.OfKind := Iff.rfl

end MrEntry

/-- How often the entries of a table depend on a handle. -/
def refs (t : List (Option MrEntry)) (h : ℕ) : ℕ := tally (ofEntry fun e => e.dependsOn.count h) t

/-- Each count of dependents by a function of the handle and of the count before. -/
def recount (f : ℕ → ℕ → ℕ) (t : List (Option MrEntry)) : List (Option MrEntry) :=
  t.map (Option.map (MrEntry.recount f))

/-- Some entry has a handle. -/
def Live (t : List (Option MrEntry)) (h : ℕ) : Prop := ∃ i e, entry t i = some e ∧ e.mrHandle = h

lemma entry_recount (f : ℕ → ℕ → ℕ) (t : List (Option MrEntry)) (i : ℕ) :
    entry (recount f t) i = (entry t i).map (MrEntry.recount f) := entry_map _ t i

lemma refs_recount (f : ℕ → ℕ → ℕ) (t : List (Option MrEntry)) (h : ℕ) :
    refs (recount f t) h = refs t h := by
  unfold refs recount
  rw [tally_map]
  refine tally_congr fun o _ => ?_
  cases o <;> rfl

lemma live_recount {f : ℕ → ℕ → ℕ} {t : List (Option MrEntry)} {h : ℕ} :
    Live (recount f t) h ↔ Live t h := by
  constructor
  · rintro ⟨i, e, he, hh⟩
    rw [entry_recount, Option.map_eq_some_iff] at he
    obtain ⟨e', he', rfl⟩ := he
    exact ⟨i, e', he', hh⟩
  · rintro ⟨i, e, he, hh⟩
    exact ⟨i, e.recount f, by rw [entry_recount, he]; rfl, hh⟩

lemma recount_recount (f g : ℕ → ℕ → ℕ) (t : List (Option MrEntry)) :
    recount f (recount g t) = recount (fun h n => f h (g h n)) t := by
  unfold recount
  rw [List.map_map]
  refine List.map_congr_left fun o _ => ?_
  cases o <;> rfl

lemma recount_id (t : List (Option MrEntry)) : recount (fun _ n => n) t = t := by
  unfold recount
  have hid : Option.map (MrEntry.recount fun _ n => n) = id := by
    funext o
    cases o <;> rfl
  rw [hid, List.map_id]

/-- Handles are unique, and each count is that of the references. -/
structure Counted (t : List (Option MrEntry)) : Prop where
  keyed : Keyed MrEntry.mrHandle t
  kinds : ∀ {i e}, entry t i = some e → e.OfKind
  counts : ∀ {i e}, entry t i = some e → e.dependentCount = refs t e.mrHandle
  live : ∀ {h}, refs t h ≠ 0 → Live t h

/-! ## Changes to the counts -/

section Recounts

variable {t : List (Option MrEntry)}

lemma Keyed.recount (h : Keyed MrEntry.mrHandle t) (f : ℕ → ℕ → ℕ) :
    Keyed MrEntry.mrHandle (recount f t) := Keyed.map h fun _ => rfl

/-- The entry of a handle is changed, when the handle is live. -/
lemma updateEntry_eq (h : Keyed MrEntry.mrHandle t) {i : ℕ} {e : MrEntry} (he : entry t i = some e)
    (g : MrEntry → MrEntry) : updateEntry t e.mrHandle g = t.set i (some (g e)) := by
  have : Inhabited (Option MrEntry) := ⟨none⟩
  have hfind : slotWhere t (·.mrHandle = e.mrHandle) = some i := h.find he
  unfold updateEntry
  rw [hfind]
  dsimp only
  rw [List.modify_eq_set, entry_eq_some.mp he]
  rfl

/-- Changing the count of a handle's entry. -/
lemma updateEntry_recount (h : Keyed MrEntry.mrHandle t) (handle : ℕ) (f : ℕ → ℕ) :
    updateEntry t handle (fun e => { e with dependentCount := f e.dependentCount }) =
      recount (fun k n => if k = handle then f n else n) t := by
  unfold updateEntry
  rcases hfind : slotWhere t (·.mrHandle = handle) with _ | i
  · dsimp only
    unfold recount
    symm
    refine (List.map_congr_left fun o ho => ?_).trans (List.map_id t)
    rcases o with _ | e
    · rfl
    · obtain ⟨j, hj⟩ := entry_of_mem ho
      have hne : ¬e.mrHandle = handle := by simpa using not_of_find_none hfind hj
      simp [MrEntry.recount, hne]
  · obtain ⟨e, he, hh⟩ := entry_of_find hfind
    have hh : e.mrHandle = handle := by simpa using hh
    subst hh
    dsimp only
    rw [h.modify_eq_map he]
    unfold recount
    refine List.map_congr_left fun o _ => ?_
    rcases o with _ | b
    · rfl
    · have hrule : b.recount (fun k n => if k = e.mrHandle then f n else n) =
          { b with dependentCount := if b.mrHandle = e.mrHandle then f b.dependentCount else b.dependentCount } :=
        rfl
      rw [Option.map_some, Option.map_some, hrule]
      by_cases hb : b.mrHandle = e.mrHandle
      · rw [if_pos hb, if_pos hb]
      · rw [if_neg hb, if_neg hb]

/-- Each handle of a list counts once for each place it has there. -/
lemma foldl_addDependent (h : Keyed MrEntry.mrHandle t) (handles : List ℕ) :
    handles.foldl addDependent t = recount (fun k n => n + handles.count k) t := by
  induction handles generalizing t with
  | nil => exact (recount_id t).symm
  | cons handle handles ih =>
      have hone : addDependent t handle = _ := updateEntry_recount h handle (· + 1)
      rw [List.foldl_cons, hone, ih (Keyed.recount h _), recount_recount]
      congr 1
      funext k n
      by_cases hk : k = handle
      · subst hk
        rw [if_pos rfl, List.count_cons_self]
        omega
      · rw [if_neg hk, List.count_cons_of_ne (Ne.symm hk)]

lemma foldl_dropDependent (h : Keyed MrEntry.mrHandle t) (handles : List ℕ) :
    handles.foldl dropDependent t = recount (fun k n => n - handles.count k) t := by
  induction handles generalizing t with
  | nil => exact (recount_id t).symm
  | cons handle handles ih =>
      have hone : dropDependent t handle = _ := updateEntry_recount h handle (· - 1)
      rw [List.foldl_cons, hone, ih (Keyed.recount h _), recount_recount]
      congr 1
      funext k n
      by_cases hk : k = handle
      · subst hk
        rw [if_pos rfl, List.count_cons_self]
        omega
      · rw [if_neg hk, List.count_cons_of_ne (Ne.symm hk)]

/-- The slot of the handle is emptied. -/
lemma release_foldl (h : Keyed MrEntry.mrHandle t) {i : ℕ} {e : MrEntry} (he : entry t i = some e)
    (handles : List ℕ) : MrTable.release (handles.foldl dropDependent t) e.mrHandle =
      clear (recount (fun k n => n - handles.count k) t) i := by
  rw [foldl_dropDependent h]
  have he' : entry (recount (fun k n => n - handles.count k) t) i =
      some (e.recount fun k n => n - handles.count k) := by
    rw [entry_recount, he]
    rfl
  have hfind : slotWhere (recount (fun k n => n - handles.count k) t) (·.mrHandle = e.mrHandle) = some i := by
    have hkey := Keyed.find (Keyed.recount h _) he'
    exact hkey
  unfold MrTable.release
  rw [hfind]

end Recounts

/-! ## One entry comes, goes or changes -/

namespace Counted

variable {t : List (Option MrEntry)} {i : ℕ} {e : MrEntry}

/-- The references of one entry are among all. -/
lemma count_le_refs (he : entry t i = some e) (h : ℕ) : e.dependsOn.count h ≤ refs t h := by
  have hset := tally_replace (fun e => e.dependsOn.count h) he none
  simp only [ofEntry_none] at hset
  unfold refs
  omega

/-- What an entry depends on is live. -/
lemma live_of_mem (hc : Counted t) (he : entry t i = some e) {h : ℕ} (hmem : h ∈ e.dependsOn) : Live t h := by
  have hle := count_le_refs he h
  have hpos := List.count_pos_iff.mpr hmem
  exact hc.live (by omega)

/-- A new entry that depends on live ones, each of which counts it. -/
lemma put (hc : Counted t) (hfree : entry t i = none) (hi : i ≤ t.length) (hnew : ¬Live t e.mrHandle)
    (hkind : e.OfKind) (hzero : e.dependentCount = 0) (hlive : ∀ h ∈ e.dependsOn, Live t h) :
    Counted (Lib.put (recount (fun k n => n + e.dependsOn.count k) t) i e) := by
  have hi' : i ≤ (recount (fun k n => n + e.dependsOn.count k) t).length := by
    unfold recount
    rwa [List.length_map]
  have hfree' : entry (recount (fun k n => n + e.dependsOn.count k) t) i = none := by
    rw [entry_recount, hfree]
    rfl
  have hrefs : ∀ h, refs (Lib.put (recount (fun k n => n + e.dependsOn.count k) t) i e) h =
      refs t h + e.dependsOn.count h := by
    intro h
    unfold refs
    rw [tally_put _ hfree']
    exact congrArg (· + _) (refs_recount _ t h)
  have hself : refs t e.mrHandle = 0 := by
    by_contra hne
    exact hnew (hc.live hne)
  have hown : e.dependsOn.count e.mrHandle = 0 :=
    List.count_eq_zero.mpr fun hmem => hnew (hlive _ hmem)
  refine ⟨(Keyed.recount hc.keyed _).put hi' fun j b hb hkey => ?_, fun {j b} hb => ?_, fun {j b} hb => ?_,
    fun {h} hne => ?_⟩
  · rw [← hkey] at hnew
    exact hnew (live_recount.mp ⟨j, b, hb, rfl⟩)
  · rw [entry_put hi', entry_recount] at hb
    by_cases hj : i = j
    · rw [if_pos hj, Option.some.injEq] at hb
      exact hb ▸ hkind
    · rw [if_neg hj, Option.map_eq_some_iff] at hb
      obtain ⟨b', hb', rfl⟩ := hb
      exact MrEntry.ofKind_recount.mpr (hc.kinds hb')
  · rw [hrefs]
    rw [entry_put hi', entry_recount] at hb
    by_cases hj : i = j
    · rw [if_pos hj, Option.some.injEq] at hb
      rw [← hb, hzero, hself, hown]
    · rw [if_neg hj, Option.map_eq_some_iff] at hb
      obtain ⟨b', hb', rfl⟩ := hb
      rw [MrEntry.recount_dependentCount, MrEntry.recount_mrHandle, hc.counts hb']
  · have hold : Live t h := by
      rw [hrefs] at hne
      by_cases hcount : e.dependsOn.count h = 0
      · exact hc.live (by omega)
      · exact hlive h (by_contra fun hmem => hcount (List.count_eq_zero.mpr hmem))
    obtain ⟨j, b, hb, hbh⟩ := live_recount (f := fun k n => n + e.dependsOn.count k) |>.mpr hold
    refine ⟨j, b, ?_, hbh⟩
    rw [entry_put hi', if_neg, hb]
    rintro rfl
    rw [hfree'] at hb
    cases hb

/-- An entry on which nothing depends goes, and those it depended on count it no more. -/
lemma release (hc : Counted t) (he : entry t i = some e) (hzero : e.dependentCount = 0) :
    Counted (clear (recount (fun k n => n - e.dependsOn.count k) t) i) := by
  have he' : entry (recount (fun k n => n - e.dependsOn.count k) t) i =
      some (e.recount fun k n => n - e.dependsOn.count k) := by
    rw [entry_recount, he]
    rfl
  have hlt := entry_lt_length he'
  have hrefs : ∀ h, refs (clear (recount (fun k n => n - e.dependsOn.count k) t) i) h +
      e.dependsOn.count h = refs t h := by
    intro h
    have hset := tally_replace (fun e => e.dependsOn.count h) he' none
    rw [ofEntry_none, add_zero, MrEntry.recount_dependsOn] at hset
    exact hset.trans (refs_recount _ t h)
  have hother : ∀ {j b}, entry (clear (recount (fun k n => n - e.dependsOn.count k) t) i) j = some b →
      ∃ b', entry t j = some b' ∧ b = b'.recount fun k n => n - e.dependsOn.count k := by
    intro j b hb
    rw [clear, entry_set hlt, entry_recount] at hb
    by_cases hj : i = j
    · rw [if_pos hj] at hb
      cases hb
    · rw [if_neg hj, Option.map_eq_some_iff] at hb
      obtain ⟨b', hb', hbb'⟩ := hb
      exact ⟨b', hb', hbb'.symm⟩
  refine ⟨(Keyed.recount hc.keyed _).clear hlt, fun {j b} hb => ?_, fun {j b} hb => ?_, fun {h} hne => ?_⟩
  · obtain ⟨b', hb', rfl⟩ := hother hb
    exact MrEntry.ofKind_recount.mpr (hc.kinds hb')
  · obtain ⟨b', hb', rfl⟩ := hother hb
    have hcount := hc.counts hb'
    have hsum := hrefs b'.mrHandle
    rw [MrEntry.recount_dependentCount, MrEntry.recount_mrHandle]
    omega
  · have hsum := hrefs h
    obtain ⟨j, b, hb, rfl⟩ := hc.live (h := h) (by omega)
    refine ⟨j, b.recount fun k n => n - e.dependsOn.count k, ?_, rfl⟩
    rw [clear, entry_set hlt, if_neg, entry_recount, hb]
    · rfl
    · rintro rfl
      obtain rfl : e = b := Option.some.inj (he.symm.trans hb)
      have hcount := hc.counts he
      omega

/-- An entry comes to depend on other handles. -/
lemma replace (hc : Counted t) (he : entry t i = some e) {e' : MrEntry} {f : ℕ → ℕ → ℕ}
    (hhandle : e'.mrHandle = e.mrHandle) (hkind : e'.OfKind)
    (hown : e'.dependentCount = f e.mrHandle e.dependentCount)
    (hf : ∀ h n, Live t h → e.dependsOn.count h ≤ n → f h n + e.dependsOn.count h = n + e'.dependsOn.count h)
    (hlive : ∀ h ∈ e'.dependsOn, Live t h) : Counted ((recount f t).set i (some e')) := by
  have he' : entry (recount f t) i = some (e.recount f) := by
    rw [entry_recount, he]
    rfl
  have hlt := entry_lt_length he'
  have hrefs : ∀ h, refs ((recount f t).set i (some e')) h + e.dependsOn.count h =
      refs t h + e'.dependsOn.count h := by
    intro h
    have hset := tally_replace (fun e => e.dependsOn.count h) he' (some e')
    rw [ofEntry_some, MrEntry.recount_dependsOn] at hset
    exact hset.trans (congrArg (· + _) (refs_recount f t h))
  -- the entry in a slot has the handle that it had, and its count by the rule
  have hslot : ∀ {j b}, entry ((recount f t).set i (some e')) j = some b → ∃ b', entry t j = some b' ∧
      b.mrHandle = b'.mrHandle ∧ b.dependentCount = f b'.mrHandle b'.dependentCount ∧ b.OfKind := by
    intro j b hb
    rw [entry_set hlt, entry_recount] at hb
    by_cases hj : i = j
    · subst hj
      rw [if_pos rfl, Option.some.injEq] at hb
      subst hb
      exact ⟨e, he, hhandle, hown, hkind⟩
    · rw [if_neg hj, Option.map_eq_some_iff] at hb
      obtain ⟨b', hb', rfl⟩ := hb
      exact ⟨b', hb', rfl, rfl, MrEntry.ofKind_recount.mpr (hc.kinds hb')⟩
  refine ⟨(Keyed.recount hc.keyed f).set he' hhandle, fun hb => (hslot hb).choose_spec.2.2.2,
    fun {j b} hb => ?_, fun {h} hne => ?_⟩
  · obtain ⟨b', hb', hbb', hcount, -⟩ := hslot hb
    have hold := hc.counts hb'
    have hsum := hrefs b'.mrHandle
    have hrule := hf b'.mrHandle b'.dependentCount ⟨j, b', hb', rfl⟩ (hold ▸ count_le_refs he _)
    rw [hcount, hbb']
    omega
  · have hold : Live t h := by
      have hsum := hrefs h
      by_cases hcount : e'.dependsOn.count h = 0
      · exact hc.live (by omega)
      · exact hlive h (by_contra fun hmem => hcount (List.count_eq_zero.mpr hmem))
    obtain ⟨j, b, hb, rfl⟩ := hold
    by_cases hj : i = j
    · subst hj
      obtain rfl : e = b := Option.some.inj (he.symm.trans hb)
      exact ⟨i, e', by rw [entry_set hlt, if_pos rfl], hhandle⟩
    · exact ⟨j, b.recount f, by rw [entry_set hlt, if_neg hj, entry_recount, hb]; rfl, rfl⟩

end Counted

/-! ## What a call does to the table -/

/-- A call leaves the table, adds an entry, takes one away, or changes what one depends on. The index is the
entry that was added. -/
inductive MrChange (t : List (Option MrEntry)) : Option MrEntry → List (Option MrEntry) → Prop
  | same : MrChange t none t
  | added {i : ℕ} {e : MrEntry} : entry t i = none → i ≤ t.length → ¬Live t e.mrHandle → e.OfKind →
      e.dependentCount = 0 → (∀ h ∈ e.dependsOn, Live t h) →
      MrChange t (some e) (put (recount (fun k n => n + e.dependsOn.count k) t) i e)
  | released {i : ℕ} {e : MrEntry} : entry t i = some e → e.dependentCount = 0 →
      MrChange t none (clear (recount (fun k n => n - e.dependsOn.count k) t) i)
  | replaced {i : ℕ} {e e' : MrEntry} {f : ℕ → ℕ → ℕ} : entry t i = some e → e'.mrHandle = e.mrHandle →
      e'.childHandles = e.childHandles → e'.OfKind → e'.dependentCount = f e.mrHandle e.dependentCount →
      (∀ h n, Live t h → e.dependsOn.count h ≤ n →
        f h n + e.dependsOn.count h = n + e'.dependsOn.count h) →
      (∀ h ∈ e'.dependsOn, Live t h) → MrChange t none ((recount f t).set i (some e'))

namespace MrChange

variable {t t' : List (Option MrEntry)} {o : Option MrEntry}

lemma counted (h : MrChange t o t') (hc : Counted t) : Counted t' := by
  cases h with
  | same => exact hc
  | added hfree hi hnew hkind hzero hlive => exact hc.put hfree hi hnew hkind hzero hlive
  | released he hzero => exact hc.release he hzero
  | replaced he hhandle _ hkind hown hf hlive => exact hc.replace he hhandle hkind hown hf hlive

/-- An entry that was there keeps its handle and its children. -/
lemma entry_cases (h : MrChange t o t') {j : ℕ} {b : MrEntry} (hb : entry t' j = some b) :
    (∃ b', entry t j = some b' ∧ b.mrHandle = b'.mrHandle ∧ b.childHandles = b'.childHandles) ∨
      o = some b := by
  cases h with
  | same => exact .inl ⟨b, hb, rfl, rfl⟩
  | @added i e hfree hi hnew hkind hzero hlive =>
      rw [entry_put (by unfold recount; rwa [List.length_map]), entry_recount] at hb
      by_cases hj : i = j
      · rw [if_pos hj] at hb
        exact .inr hb
      · rw [if_neg hj, Option.map_eq_some_iff] at hb
        obtain ⟨b', hb', rfl⟩ := hb
        exact .inl ⟨b', hb', rfl, rfl⟩
  | @released i e he hzero =>
      rw [clear, entry_set (by unfold recount; rw [List.length_map]; exact entry_lt_length he),
        entry_recount] at hb
      by_cases hj : i = j
      · rw [if_pos hj] at hb
        cases hb
      · rw [if_neg hj, Option.map_eq_some_iff] at hb
        obtain ⟨b', hb', rfl⟩ := hb
        exact .inl ⟨b', hb', rfl, rfl⟩
  | @replaced i e e' f he hhandle hchildren _ _ _ _ =>
      rw [entry_set (by unfold recount; rw [List.length_map]; exact entry_lt_length he),
        entry_recount] at hb
      by_cases hj : i = j
      · subst hj
        rw [if_pos rfl, Option.some.injEq] at hb
        subst hb
        exact .inl ⟨e, he, hhandle, hchildren⟩
      · rw [if_neg hj, Option.map_eq_some_iff] at hb
        obtain ⟨b', hb', rfl⟩ := hb
        exact .inl ⟨b', hb', rfl, rfl⟩

/-- A new entry, after each handle that it depends on was counted. -/
lemma linked (hkeyed : Keyed MrEntry.mrHandle t) {i : ℕ} {e : MrEntry} {handles : List ℕ}
    (hfree : entry t i = none) (hi : i ≤ t.length) (hnew : ¬Live t e.mrHandle) (hkind : e.OfKind)
    (hzero : e.dependentCount = 0) (hdeps : e.dependsOn = handles) (hlive : ∀ h ∈ handles, Live t h) :
    MrChange t (some e) (put (handles.foldl addDependent t) i e) := by
  subst hdeps
  rw [foldl_addDependent hkeyed]
  exact .added hfree hi hnew hkind hzero hlive

/-- A new entry that depends on nothing. -/
lemma leaf {i : ℕ} {e : MrEntry} (hfree : entry t i = none) (hi : i ≤ t.length) (hnew : ¬Live t e.mrHandle)
    (hkind : e.OfKind) (hzero : e.dependentCount = 0) (hdeps : e.dependsOn = []) :
    MrChange t (some e) (put t i e) := by
  have hchange := MrChange.added hfree hi hnew hkind hzero (by rw [hdeps]; simp)
  have hid : recount (fun k n => n + e.dependsOn.count k) t = t := by
    rw [hdeps]
    exact recount_id t
  rwa [hid] at hchange

/-- An entry goes, after each handle that it depended on was counted down. -/
lemma dropped (hkeyed : Keyed MrEntry.mrHandle t) {i : ℕ} {e : MrEntry} {handles : List ℕ}
    (he : entry t i = some e) (hzero : e.dependentCount = 0) (hdeps : e.dependsOn = handles) :
    MrChange t none (MrTable.release (handles.foldl dropDependent t) e.mrHandle) := by
  subst hdeps
  rw [release_foldl hkeyed he]
  exact .released he hzero

/-- A window is bound to a live region. -/
lemma rebound (hc : Counted t) {i : ℕ} {e : MrEntry} (he : entry t i = some e) (hwindow : e.isWindow = true)
    {handle : ℕ} (hnew : handle ≠ 0) (hlive : Live t handle) {f : ℕ → ℕ → ℕ} {g : MrEntry → MrEntry}
    (hf : ∀ h n, Live t h → e.dependsOn.count h ≤ n →
      f h n + e.dependsOn.count h = n + [handle].count h)
    (hg : ∀ e, (g e).mrHandle = e.mrHandle ∧ (g e).childHandles = e.childHandles ∧
      (g e).isWindow = e.isWindow ∧ (g e).dependentCount = e.dependentCount ∧ (g e).boundMrHandle = handle) :
    MrChange t none (updateEntry (recount f t) e.mrHandle g) := by
  have he' : entry (recount f t) i = some (e.recount f) := by
    rw [entry_recount, he]
    rfl
  obtain ⟨hhandle, hchildren, hkept, hcount, hbound⟩ := hg (e.recount f)
  have hkind : (g (e.recount f)).OfKind := by
    have hold := hc.kinds he
    unfold MrEntry.OfKind at hold ⊢
    rw [if_pos hwindow] at hold
    rw [hkept, MrEntry.recount_isWindow, if_pos hwindow, hchildren]
    exact hold
  have hdeps : (g (e.recount f)).dependsOn = [handle] := by
    rw [MrEntry.dependsOn_window hkind (hkept.trans hwindow), hbound, if_pos hnew]
  have hupdate := updateEntry_eq (Keyed.recount hc.keyed f) he' g
  rw [MrEntry.recount_mrHandle] at hupdate
  rw [hupdate]
  refine .replaced he hhandle hchildren hkind hcount (by rwa [hdeps]) fun h hmem => ?_
  rw [hdeps, List.mem_singleton] at hmem
  rwa [hmem]

end MrChange

namespace MrTable

variable {s : MrTable}

/-- The entry of a handle is found. -/
lemma lookup_of_entry (h : Keyed MrEntry.mrHandle s.table) {i : ℕ} {e : MrEntry}
    (he : entry s.table i = some e) : s.lookup e.mrHandle = some e := by
  have hfind : slotWhere s.table (·.mrHandle = e.mrHandle) = some i := h.find he
  unfold lookup
  rw [hfind]
  exact he

lemma entry_of_lookup {handle : ℕ} {e : MrEntry} (h : s.lookup handle = some e) :
    ∃ i, entry s.table i = some e ∧ e.mrHandle = handle := by
  obtain ⟨i, hfind, he⟩ := Option.bind_eq_some_iff.mp h
  obtain ⟨e', he', hq⟩ := entry_of_find hfind
  obtain rfl : e' = e := Option.some.inj (he'.symm.trans he)
  exact ⟨i, he, by simpa using hq⟩

lemma lookup_eq_none {handle : ℕ} (h : s.lookup handle = none) : ¬Live s.table handle := by
  rintro ⟨i, e, he, rfl⟩
  unfold lookup slotWhere at h
  rcases hfind : s.table.findIdx? (Option.any fun b => b.mrHandle = e.mrHandle) with _ | j
  · have hno := not_of_find_none hfind he
    simp at hno
  · obtain ⟨e', he', -⟩ := entry_of_find hfind
    rw [hfind, Option.bind_some, he'] at h
    cases h

section Changes

variable {exec : Except KernReturn ℕ}

/-- A new region has no children. -/
lemma regMr_change (req : RegMrReq) (pin : KernReturn)
    (hfresh : ∀ index, exec = .ok index → ¬Live s.table index) :
    ∃ o, MrChange s.table o (s.regMr req pin exec).1.table ∧ ∀ e, o = some e → e.childHandles = [] := by
  unfold regMr
  by_cases hpin : pin = .success
  · rw [if_neg (not_not.mpr hpin)]
    rcases exec with kr | index
    · exact ⟨none, .same, by rintro _ ⟨⟩⟩
    · dsimp only
      by_cases hfull : s.nextVariant.full = true
      · rw [if_pos hfull]
        exact ⟨none, .same, by rintro _ ⟨⟩⟩
      · rw [if_neg hfull]
        refine ⟨some _, .leaf (entry_firstFree _) (firstFree_le_length _) (hfresh index rfl) rfl rfl rfl, ?_⟩
        rintro e ⟨⟩
        rfl
  · rw [if_pos hpin]
    exact ⟨none, .same, by rintro _ ⟨⟩⟩

/-- A new window is bound to nothing. -/
lemma allocMw_change (pd type : ℕ) (hfresh : ∀ index, exec = .ok index → ¬Live s.table index) :
    ∃ o, MrChange s.table o (s.allocMw pd type exec).1.table ∧ ∀ e, o = some e → e.childHandles = [] := by
  unfold allocMw
  by_cases hbad : type ≠ 2 ∨ pd = 0
  · rw [if_pos hbad]
    exact ⟨none, .same, by rintro _ ⟨⟩⟩
  · rw [if_neg hbad]
    by_cases hfull : s.full = true
    · rw [if_pos hfull]
      exact ⟨none, .same, by rintro _ ⟨⟩⟩
    · rw [if_neg hfull]
      rcases exec with kr | index
      · exact ⟨none, .same, by rintro _ ⟨⟩⟩
      · dsimp only
        by_cases hzero : index = 0
        · rw [if_pos hzero]
          exact ⟨none, .same, by rintro _ ⟨⟩⟩
        · rw [if_neg hzero]
          refine ⟨some _, .leaf (entry_firstFree _) (firstFree_le_length _) (hfresh index rfl) rfl rfl rfl, ?_⟩
          rintro e ⟨⟩
          rfl

/-- A new indirect region has the children of the request, and its index. -/
lemma regMrIndirect_change (hc : Counted s.table) (req : RegMrReq) (childHandles : List ℕ)
    (hfresh : ∀ index, exec = .ok index → ¬Live s.table index) :
    ∃ o, MrChange s.table o (s.regMrIndirect req childHandles exec).1.table ∧
      ∀ e, o = some e → (s.regMrIndirect req childHandles exec).2 = .success ∧
        exec = .ok e.mrHandle ∧ e.childHandles = childHandles := by
  unfold regMrIndirect
  by_cases hbad : childHandles = [] ∨ ucMaxIndirectChildren < childHandles.length ∨ req.length = 0
  · rw [if_pos hbad]
    exact ⟨none, .same, by rintro _ ⟨⟩⟩
  · rw [if_neg hbad]
    by_cases hmissing : childHandles.any (fun h => (s.lookup h).isNone) = true
    · rw [if_pos hmissing]
      exact ⟨none, .same, by rintro _ ⟨⟩⟩
    · rw [if_neg hmissing]
      rcases exec with kr | index
      · exact ⟨none, .same, by rintro _ ⟨⟩⟩
      · dsimp only
        by_cases hfull : s.nextVariant.full = true
        · rw [if_pos hfull]
          exact ⟨none, .same, by rintro _ ⟨⟩⟩
        · rw [if_neg hfull]
          have hlive : ∀ h ∈ childHandles, Live s.table h := by
            intro h hmem
            rcases hlookup : s.lookup h with _ | e
            · exact absurd (List.any_eq_true.mpr ⟨h, hmem, by rw [hlookup]; rfl⟩) hmissing
            · obtain ⟨i, he, hh⟩ := entry_of_lookup hlookup
              exact ⟨i, e, he, hh⟩
          refine ⟨some _, .linked hc.keyed (entry_firstFree _) (firstFree_le_length _) (hfresh index rfl)
            rfl rfl (List.append_nil childHandles) hlive, ?_⟩
          rintro e ⟨⟩
          exact ⟨rfl, rfl, rfl⟩

/-- A region on which nothing depends goes, and a window that is bound to nothing. -/
lemma deregMr_change (hc : Counted s.table) (mrHandle : ℕ) (quarantined : Bool) (exec : KernReturn)
    (hguard : ∀ e, s.lookup mrHandle = some e → quarantined = false → e.isWindow = true →
      e.dependentCount = 0 ∧ e.boundMrHandle = 0) :
    MrChange s.table none (s.deregMr mrHandle quarantined exec).1.table := by
  unfold deregMr
  by_cases hq : quarantined = true
  · rw [if_pos hq]
    exact .same
  · rw [if_neg hq]
    rcases hlookup : s.lookup mrHandle with _ | e
    · exact .same
    · obtain ⟨i, he, rfl⟩ := entry_of_lookup hlookup
      dsimp only
      by_cases hwindow : e.isWindow = true
      · rw [if_pos hwindow]
        obtain ⟨hzero, hunbound⟩ := hguard e hlookup (by simpa using hq) hwindow
        have hdeps : e.dependsOn = [] := by
          rw [MrEntry.dependsOn_window (hc.kinds he) hwindow, if_neg (not_not.mpr hunbound)]
        have hchange := MrChange.dropped hc.keyed he hzero hdeps
        exact hchange
      · rw [if_neg hwindow]
        by_cases hzero : e.dependentCount = 0
        · rw [if_neg (not_not.mpr hzero)]
          by_cases hexec : exec = .success
          · rw [if_neg (not_not.mpr hexec)]
            exact .dropped hc.keyed he hzero (MrEntry.dependsOn_region (hc.kinds he) (by simpa using hwindow))
          · rw [if_pos hexec]
            exact .same
        · rw [if_pos hzero]
          exact .same

/-- A window goes, and what it was bound to counts it no more. -/
lemma deallocMw_change (hc : Counted s.table) (handle : ℕ) (quarantined : Bool) (exec : KernReturn)
    (hguard : ∀ e, s.lookup handle = some e → quarantined = false → exec = .success → e.isWindow = true →
      e.dependentCount = 0) :
    MrChange s.table none (s.deallocMw handle quarantined exec).1.table := by
  unfold deallocMw
  by_cases hbad : handle = 0
  · rw [if_pos hbad]
    exact .same
  · rw [if_neg hbad]
    by_cases hq : quarantined = true
    · rw [if_pos hq]
      exact .same
    · rw [if_neg hq]
      rcases hlookup : s.lookup handle with _ | e
      · exact .same
      · obtain ⟨i, he, rfl⟩ := entry_of_lookup hlookup
        dsimp only
        by_cases hregion : e.isWindow = false
        · rw [if_pos hregion]
          exact .same
        · rw [if_neg hregion]
          by_cases hexec : exec = .success
          · rw [if_neg (not_not.mpr hexec)]
            have hwindow : e.isWindow = true := by simpa using hregion
            have hzero := hguard e hlookup (by simpa using hq) hexec hwindow
            have hdeps := MrEntry.dependsOn_window (hc.kinds he) hwindow
            by_cases hbound : e.boundMrHandle = 0
            · rw [if_neg (not_not.mpr hbound)] at hdeps ⊢
              have hchange := MrChange.dropped hc.keyed he hzero hdeps
              exact hchange
            · rw [if_pos hbound] at hdeps ⊢
              have hchange := MrChange.dropped hc.keyed he hzero hdeps
              exact hchange
          · rw [if_pos hexec]
            exact .same

/-- A window leaves what it was bound to for the region of the request. -/
lemma bindMw_change (hc : Counted s.table) (req : BindReq) :
    MrChange s.table none (s.bindMw req).1.table := by
  unfold bindMw
  by_cases hbad : req.mwHandle = 0 ∨ req.qpn = 0 ∨ req.mrHandle = 0 ∨ req.bindRkey = 0 ∨ req.length = 0 ∨
      req.accessFlags / 32 ≠ 0
  · rw [if_pos hbad]
    exact .same
  · rw [if_neg hbad]
    rcases hmw : s.lookup req.mwHandle with _ | mw
    · exact .same
    · rcases hmr : s.lookup req.mrHandle with _ | mr
      · exact .same
      · dsimp only
        by_cases hrefused : bindRefused mw mr req = true
        · rw [if_pos hrefused]
          exact .same
        · rw [if_neg hrefused]
          obtain ⟨i, he, hhandle⟩ := entry_of_lookup hmw
          obtain ⟨k, hk, hmrHandle⟩ := entry_of_lookup hmr
          have hwindow : mw.isWindow = true := by
            unfold bindRefused at hrefused
            simp only [Bool.or_eq_true, Bool.not_eq_true', not_or] at hrefused
            simpa using hrefused.1.1.1.1.1.1.1.1.1
          have hnew : req.mrHandle ≠ 0 := fun h => hbad (.inr (.inr (.inl h)))
          have hlive : Live s.table req.mrHandle := ⟨k, mr, hk, hmrHandle⟩
          have hdeps := MrEntry.dependsOn_window (hc.kinds he) hwindow
          rw [← hhandle]
          by_cases hsame : mw.boundMrHandle = req.mrHandle
          · -- it was bound there before
            rw [if_neg (not_not.mpr hsame), if_neg fun h => h.2 hsame]
            nth_rewrite 2 [← recount_id s.table]
            refine .rebound hc he hwindow hnew hlive ?_ fun e => ⟨rfl, rfl, rfl, rfl, rfl⟩
            intro h n _ _
            rw [hdeps, if_pos (hsame ▸ hnew), hsame]
          · have hdrop : (if mw.boundMrHandle ≠ 0 ∧ mw.boundMrHandle ≠ req.mrHandle then
                dropDependent s.table mw.boundMrHandle else s.table) =
                recount (fun h n => n - mw.dependsOn.count h) s.table := by
              rw [← foldl_dropDependent hc.keyed, hdeps]
              by_cases hold : mw.boundMrHandle = 0
              · rw [if_neg fun h => h.1 hold, if_neg (not_not.mpr hold), List.foldl_nil]
              · rw [if_pos ⟨hold, hsame⟩, if_pos hold, List.foldl_cons, List.foldl_nil]
            have hadd := foldl_addDependent (Keyed.recount hc.keyed fun h n => n - mw.dependsOn.count h)
              [req.mrHandle]
            rw [List.foldl_cons, List.foldl_nil, recount_recount] at hadd
            rw [if_pos hsame, hdrop, hadd]
            refine .rebound hc he hwindow hnew hlive ?_ fun e => ⟨rfl, rfl, rfl, rfl, rfl⟩
            intro h n _ hle
            omega

/-- A key that no bound window has. -/
lemma invalidateKey_change (hc : Counted s.table) (rkey : ℕ)
    (hguard : ∀ e, s.lookupByRkey rkey = some e → e.boundMrHandle = 0) :
    MrChange s.table none (s.invalidateKey rkey).1.table := by
  unfold invalidateKey
  by_cases hbad : rkey = 0
  · rw [if_pos hbad]
    exact .same
  · rw [if_neg hbad]
    rcases hfind : slotWhere s.table (·.rkey = rkey) with _ | i
    · exact .same
    · obtain ⟨e, he, -⟩ := entry_of_find hfind
      have hunbound : e.boundMrHandle = 0 := by
        refine hguard e ?_
        unfold lookupByRkey
        rw [hfind]
        exact he
      have hmodify : s.table.modify i (Option.map fun e => { e with
          invalidated := true, boundMrHandle := 0, boundQpn := 0 }) =
          (recount (fun _ n => n) s.table).set i (some { e with
            invalidated := true, boundMrHandle := 0, boundQpn := 0 }) := by
        have : Inhabited (Option MrEntry) := ⟨none⟩
        rw [recount_id, List.modify_eq_set, entry_eq_some.mp he]
        rfl
      have hdeps : ({ e with invalidated := true, boundMrHandle := 0, boundQpn := 0 } : MrEntry).dependsOn =
          e.dependsOn := by
        unfold MrEntry.dependsOn
        rw [hunbound]
      dsimp only
      rw [hmodify]
      refine .replaced he rfl rfl ?_ rfl (fun h n _ _ => by rw [hdeps]) fun h hmem => ?_
      · have hkind := hc.kinds he
        unfold MrEntry.OfKind at hkind ⊢
        rwa [hunbound] at hkind
      · rw [hdeps] at hmem
        exact hc.live_of_mem he hmem

end Changes

end MrTable

end MelonDMA.Ib
