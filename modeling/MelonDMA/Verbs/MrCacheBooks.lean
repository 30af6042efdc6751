import MelonDMA.Verbs.MrCache

/-!
# The books of the cache

`Books` is the invariant of the list and its counters, for given numbers of leases. Every operation on the
list keeps it, and says what becomes of the registrations that the list owns.
-/

namespace MelonDMA.Verbs

open MelonDMA.Lib MelonDMA.Ib

/-- The counters are those of the list, keys and addresses are not repeated, and the leases are `n`: what is
leased is in the list. -/
structure Books (c : MrCache) (nextId : ℕ) (n : ℕ → ℕ) : Prop where
  count_eq : c.mrCacheEntries = c.entries.length
  bytes_eq : c.mrCacheBytes = tally (fun e => e.key.length) c.entries
  keys : (c.entries.map CacheEntry.key).Nodup
  ids : (c.entries.map CacheEntry.id).Nodup
  old : ∀ e ∈ c.entries, e.id < nextId
  leases : ∀ e ∈ c.entries, e.leases = n e.id
  live : ∀ id, n id ≠ 0 → ∃ e ∈ c.entries, e.id = id

namespace MrCache

variable {c : MrCache}

lemma mem_of_find {key : MrKey} {e : CacheEntry} (h : c.find key = some e) : e ∈ c.entries ∧ e.key = key :=
  ⟨List.mem_of_find?_eq_some h, by simpa using List.find?_some h⟩

lemma not_mem_of_find_none {key : MrKey} (h : c.find key = none) : ∀ e ∈ c.entries, e.key ≠ key := by
  intro e he
  simpa using List.find?_eq_none.mp h e he

/-! ## Updates -/

section Update

variable {g : CacheEntry → CacheEntry} (id : ℕ)

lemma mem_update {e : CacheEntry} : e ∈ (c.update id g).entries ↔
    ∃ e' ∈ c.entries, (if e'.id = id then g e' else e') = e := List.mem_map

lemma update_map {β : Type} (f : CacheEntry → β) (hg : ∀ e, f (g e) = f e) :
    (c.update id g).entries.map f = c.entries.map f := by
  unfold update
  rw [List.map_map]
  refine List.map_congr_left fun e _ => ?_
  rw [Function.comp_apply]
  split_ifs
  · exact hg e
  · rfl

/-- A tally of what an update keeps. -/
lemma update_tally {M : Type} [AddCommMonoid M] (f : CacheEntry → M) (hg : ∀ e, f (g e) = f e) :
    tally f (c.update id g).entries = tally f c.entries :=
  congrArg List.sum (update_map id f hg)

end Update

end MrCache

namespace Books

variable {c : MrCache} {nextId : ℕ} {n n' : ℕ → ℕ}

lemma congr (h : Books c nextId n) (hn : ∀ k, n' k = n k) : Books c nextId n' :=
  ⟨h.count_eq, h.bytes_eq, h.keys, h.ids, h.old, fun e he => (h.leases e he).trans (hn e.id).symm,
    fun id hne => h.live id fun hzero => hne ((hn id).trans hzero)⟩

/-- An update of leases. -/
lemma update (h : Books c nextId n) {id : ℕ} {f : ℕ → ℕ} (hn : ∀ k, n' k = if k = id then f (n k) else n k)
    (hlive : n' id ≠ 0 → ∃ e ∈ c.entries, e.id = id) :
    Books (c.update id fun e => { e with leases := f e.leases }) nextId n' := by
  have hids := MrCache.update_map (c := c) (g := fun e => { e with leases := f e.leases }) id
    CacheEntry.id fun _ => rfl
  have hmem : ∀ {k}, (∃ e ∈ c.entries, e.id = k) →
      ∃ e ∈ (c.update id fun e => { e with leases := f e.leases }).entries, e.id = k := by
    rintro k ⟨e, he, hk⟩
    have hmap : k ∈ c.entries.map CacheEntry.id := List.mem_map.mpr ⟨e, he, hk⟩
    rw [← hids] at hmap
    exact List.mem_map.mp hmap
  refine ⟨?_, ?_, ?_, ?_, ?_, ?_, ?_⟩
  · exact h.count_eq.trans (List.length_map _).symm
  · rw [MrCache.update_tally id]
    · exact h.bytes_eq
    · exact fun _ => rfl
  · have hkeys := MrCache.update_map (c := c) (g := fun e => { e with leases := f e.leases }) id
      CacheEntry.key fun _ => rfl
    rw [hkeys]
    exact h.keys
  · rw [hids]
    exact h.ids
  · intro e he
    obtain ⟨e', he', rfl⟩ := (MrCache.mem_update id).mp he
    have hold := h.old e' he'
    split_ifs <;> exact hold
  · intro e he
    obtain ⟨e', he', rfl⟩ := (MrCache.mem_update id).mp he
    have hold := h.leases e' he'
    by_cases hid : e'.id = id
    · rw [if_pos hid, hn, if_pos hid, hold]
    · rw [if_neg hid, hn, if_neg hid, hold]
  · intro k hne
    by_cases hk : k = id
    · subst hk
      exact hmem (hlive hne)
    · rw [hn, if_neg hk] at hne
      exact hmem (h.live k hne)

/-- One more lease of an entry. -/
lemma lease (h : Books c nextId n) {id : ℕ} (hid : ∃ e ∈ c.entries, e.id = id)
    (hn : ∀ k, n' k = n k + if id = k then 1 else 0) : Books (c.lease id) nextId n' := by
  refine h.update (f := (· + 1)) (fun k => ?_) fun _ => hid
  rw [hn]
  by_cases hk : k = id
  · rw [if_pos hk, if_pos hk.symm]
  · rw [if_neg hk, if_neg (Ne.symm hk), add_zero]

/-- One lease less. -/
lemma unlease (h : Books c nextId n) {id : ℕ} (hn : ∀ k, n k = n' k + if id = k then 1 else 0) :
    Books (c.unlease id) nextId n' := by
  refine h.update (f := (· - 1)) (fun k => ?_) fun _ => ?_
  · by_cases hk : k = id
    · rw [if_pos hk, hn, if_pos hk.symm, Nat.add_sub_cancel]
    · rw [if_neg hk, hn, if_neg (Ne.symm hk), add_zero]
  · refine h.live id ?_
    rw [hn, if_pos rfl]
    omega

/-- The order of the list is free. -/
lemma perm (h : Books c nextId n) {entries : List CacheEntry} (hperm : entries.Perm c.entries) :
    Books { c with entries := entries } nextId n := by
  refine ⟨?_, ?_, ?_, ?_, ?_, ?_, ?_⟩
  · exact h.count_eq.trans hperm.length_eq.symm
  · exact h.bytes_eq.trans (tally_perm _ hperm).symm
  · exact (hperm.map _).nodup_iff.mpr h.keys
  · exact (hperm.map _).nodup_iff.mpr h.ids
  · exact fun e he => h.old e (hperm.mem_iff.mp he)
  · exact fun e he => h.leases e (hperm.mem_iff.mp he)
  · intro id hne
    obtain ⟨e, he, hid⟩ := h.live id hne
    exact ⟨e, hperm.mem_iff.mpr he, hid⟩

/-- An entry without leases leaves. -/
lemma tail {e : CacheEntry} {rest : List CacheEntry} (h : Books c nextId n) (hentries : c.entries = e :: rest)
    (hfree : e.leases = 0) :
    Books { c with
      entries := rest
      mrCacheEntries := c.mrCacheEntries - 1
      mrCacheBytes := c.mrCacheBytes - e.key.length } nextId n := by
  have hmem : ∀ {b}, b ∈ rest → b ∈ c.entries := by
    intro b hb
    rw [hentries]
    exact List.mem_cons_of_mem e hb
  have hkeys := h.keys
  have hids := h.ids
  have hcount := h.count_eq
  have hbytes := h.bytes_eq
  rw [hentries] at hkeys hids hcount hbytes
  rw [tally_cons] at hbytes
  rw [List.length_cons] at hcount
  refine ⟨?_, ?_, (List.nodup_cons.mp hkeys).2, (List.nodup_cons.mp hids).2, fun b hb => h.old b (hmem hb),
    fun b hb => h.leases b (hmem hb), fun id hne => ?_⟩
  · show c.mrCacheEntries - 1 = rest.length
    omega
  · show c.mrCacheBytes - e.key.length = tally (fun e => e.key.length) rest
    omega
  · obtain ⟨b, hb, hid⟩ := h.live id hne
    rw [hentries] at hb
    rcases List.mem_cons.mp hb with rfl | hb
    · have hleases := h.leases b (by rw [hentries]; exact List.mem_cons_self)
      exact absurd (hid ▸ hleases.symm.trans hfree) hne
    · exact ⟨b, hb, hid⟩

/-- A new entry, with one lease. -/
lemma insert (h : Books c nextId n) {e : CacheEntry} (hid : e.id = nextId) (hone : e.leases = 1)
    (hkey : ∀ b ∈ c.entries, b.key ≠ e.key) (hn : ∀ k, n' k = n k + if nextId = k then 1 else 0) :
    Books (c.insert e) (nextId + 1) n' := by
  have hfresh : ∀ b ∈ c.entries, b.id ≠ nextId := fun b hb => Nat.ne_of_lt (h.old b hb)
  have hzero : n nextId = 0 := by
    by_contra hne
    obtain ⟨b, hb, hb'⟩ := h.live nextId hne
    exact hfresh b hb hb'
  refine ⟨?_, ?_, ?_, ?_, ?_, ?_, ?_⟩
  · exact congrArg (· + 1) h.count_eq
  · show c.mrCacheBytes + e.key.length = tally (fun e => e.key.length) (e :: c.entries)
    rw [tally_cons, h.bytes_eq, add_comm]
  · refine List.nodup_cons.mpr ⟨fun hmem => ?_, h.keys⟩
    obtain ⟨b, hb, hb'⟩ := List.mem_map.mp hmem
    exact hkey b hb hb'
  · refine List.nodup_cons.mpr ⟨fun hmem => ?_, h.ids⟩
    obtain ⟨b, hb, hb'⟩ := List.mem_map.mp hmem
    exact hfresh b hb (hb'.trans hid)
  · intro b hb
    rcases List.mem_cons.mp hb with rfl | hb
    · rw [hid]
      exact Nat.lt_succ_self nextId
    · exact Nat.lt_succ_of_lt (h.old b hb)
  · intro b hb
    rcases List.mem_cons.mp hb with rfl | hb
    · rw [hid, hn, hzero, if_pos rfl, hone]
    · rw [hn, if_neg (Ne.symm (hfresh b hb)), add_zero]
      exact h.leases b hb
  · intro k hne
    by_cases hk : nextId = k
    · exact ⟨e, List.mem_cons_self, hid.trans hk⟩
    · rw [hn, if_neg hk, add_zero] at hne
      obtain ⟨b, hb, hb'⟩ := h.live k hne
      exact ⟨b, List.mem_cons_of_mem e hb, hb'⟩

end Books

/-! ## Moving and evicting -/

namespace MrCache

variable {c : MrCache}

lemma moveToFront_perm (id : ℕ) : (c.moveToFront id).entries.Perm c.entries := by
  unfold moveToFront
  rcases hfind : c.entries.find? (·.id = id) with _ | e
  · rw [hfind]
  · rw [hfind]
    obtain ⟨hid, before, after, hentries, hbefore⟩ := List.find?_eq_some_iff_append.mp hfind
    show (e :: c.entries.eraseP (·.id = id)).Perm c.entries
    have herase : c.entries.eraseP (·.id = id) = before ++ after := by
      rw [hentries, List.eraseP_append_right _ (fun b hb => by simpa using hbefore b hb),
        List.eraseP_cons_of_pos (p := fun e : CacheEntry => decide (e.id = id)) hid]
    rw [herase, hentries]
    exact List.perm_middle.symm

/-- The entry that is unlinked has no leases. -/
lemma dropLastFree_perm {l rest : List CacheEntry} {e : CacheEntry} (h : dropLastFree l = some (e, rest)) :
    l.Perm (e :: rest) ∧ e.leases = 0 := by
  induction l generalizing rest with
  | nil => cases h
  | cons b l ih =>
      unfold dropLastFree at h
      rcases hdrop : dropLastFree l with _ | ⟨victim, rest'⟩
      · rw [hdrop] at h
        dsimp only at h
        rw [Option.ite_none_right_eq_some] at h
        obtain ⟨hfree, heq⟩ := h
        obtain ⟨rfl, rfl⟩ := Prod.mk.inj (Option.some.inj heq)
        exact ⟨List.Perm.refl _, hfree⟩
      · rw [hdrop] at h
        obtain ⟨rfl, rfl⟩ := Prod.mk.inj (Option.some.inj h)
        obtain ⟨hperm, hfree⟩ := ih hdrop
        exact ⟨(hperm.cons b).trans (List.Perm.swap _ _ _), hfree⟩

/-- What one turn leaves of an eviction from `c₀`: the books, the registrations, and the entries that are still
there. -/
structure EvictOk (c₀ : MrCache) (nextId : ℕ) (n : ℕ → ℕ) (r : Evicted) : Prop where
  books : Books c₀ nextId n → Books r.cache nextId n
  owned : tally CacheEntry.owned r.cache.entries + tally CacheEntry.owned r.doomed +
    tally CacheEntry.owned r.inlined = tally CacheEntry.owned c₀.entries
  subset : ∀ e ∈ r.cache.entries, e ∈ c₀.entries
  kept : ∀ e ∈ c₀.entries, e.leases ≠ 0 → e ∈ r.cache.entries

lemma evictOk_start (nextId : ℕ) (n : ℕ → ℕ) : EvictOk c nextId n ⟨c, [], []⟩ :=
  ⟨fun h => h, by rw [tally_nil, add_zero, add_zero], fun _ he => he, fun _ he _ => he⟩

/-- One turn: an entry leaves the list, for one of the two others. -/
lemma EvictOk.turn {nextId : ℕ} {n : ℕ → ℕ} {r : Evicted} (h : EvictOk c nextId n r) {e : CacheEntry}
    {entries doomed inlined : List CacheEntry} (hdrop : dropLastFree r.cache.entries = some (e, entries))
    (hsplit : tally CacheEntry.owned doomed + tally CacheEntry.owned inlined =
      tally CacheEntry.owned r.doomed + tally CacheEntry.owned r.inlined + e.owned) :
    EvictOk c nextId n ⟨{ r.cache with
      entries := entries
      mrCacheEntries := r.cache.mrCacheEntries - 1
      mrCacheBytes := r.cache.mrCacheBytes - e.key.length }, doomed, inlined⟩ := by
  obtain ⟨hperm, hfree⟩ := dropLastFree_perm hdrop
  refine ⟨fun hbooks => ?_, ?_, fun b hb => ?_, fun b hb hleased => ?_⟩
  · exact ((h.books hbooks).perm hperm.symm).tail rfl hfree
  · have howned := tally_perm CacheEntry.owned hperm
    rw [tally_cons] at howned
    rw [← h.owned, howned]
    show tally CacheEntry.owned entries + _ + _ = _
    rw [add_assoc, hsplit]
    abel
  · exact h.subset b (hperm.mem_iff.mpr (List.mem_cons_of_mem e hb))
  · rcases List.mem_cons.mp (hperm.mem_iff.mp (h.kept b hb hleased)) with rfl | hb'
    · exact absurd hfree hleased
    · exact hb'

lemma EvictOk.loop {nextId : ℕ} {n : ℕ → ℕ} (want : ℕ) (reallocs : ℕ → Bool) {fuel : ℕ} :
    ∀ {turn cap r}, EvictOk c nextId n r → EvictOk c nextId n (evictLoop want reallocs fuel turn cap r) := by
  induction fuel with
  | zero => exact fun h => h
  | succ fuel ih =>
      intro turn cap r h
      unfold evictLoop
      by_cases hover : r.cache.overfull want = false
      · rw [if_pos hover]
        exact h
      · rw [if_neg hover]
        rcases hdrop : dropLastFree r.cache.entries with _ | ⟨e, entries⟩
        · exact h
        · dsimp only
          by_cases hinline : r.doomed.length = cap ∧ reallocs turn = false
          · rw [if_pos hinline]
            refine ih (h.turn hdrop ?_)
            rw [tally_cons]
            abel
          · rw [if_neg hinline]
            refine ih (h.turn hdrop ?_)
            rw [tally_append, tally_cons, tally_nil, add_zero]
            abel

lemma evictOk (c : MrCache) (nextId : ℕ) (n : ℕ → ℕ) (want : ℕ) (reallocs : ℕ → Bool) :
    EvictOk c nextId n (c.evict want reallocs) := by
  unfold evict
  by_cases hnone : c.maxEntries = 0 ∧ c.maxBytes = 0
  · rw [if_pos hnone]
    exact evictOk_start nextId n
  · rw [if_neg hnone]
    exact (evictOk_start nextId n).loop want reallocs

/-- The loop stops for one of its own reasons. -/
lemma evictLoop_stops (want : ℕ) (reallocs : ℕ → Bool) {fuel : ℕ} :
    ∀ {turn cap r}, r.cache.entries.length < fuel →
      (evictLoop want reallocs fuel turn cap r).cache.overfull want = false ∨
        dropLastFree (evictLoop want reallocs fuel turn cap r).cache.entries = none := by
  induction fuel with
  | zero => exact fun h => absurd h (Nat.not_lt_zero _)
  | succ fuel ih =>
      intro turn cap r hfuel
      unfold evictLoop
      by_cases hover : r.cache.overfull want = false
      · rw [if_pos hover]
        exact .inl hover
      · rw [if_neg hover]
        rcases hdrop : dropLastFree r.cache.entries with _ | ⟨e, entries⟩
        · exact .inr hdrop
        · have hlength := (dropLastFree_perm hdrop).1.length_eq
          rw [List.length_cons] at hlength
          dsimp only
          split_ifs <;> exact ih (show entries.length < fuel by omega)

/-- After an eviction there is room for the entry that is to come, or every entry left is leased. -/
theorem evict_makes_room (c : MrCache) (want : ℕ) (reallocs : ℕ → Bool) :
    (c.evict want reallocs).cache.overfull want = false ∨
      dropLastFree (c.evict want reallocs).cache.entries = none := by
  unfold evict
  by_cases hnone : c.maxEntries = 0 ∧ c.maxBytes = 0
  · rw [if_pos hnone]
    refine .inl ?_
    unfold overfull
    rw [hnone.1, hnone.2]
    rfl
  · rw [if_neg hnone]
    exact evictLoop_stops want reallocs (Nat.lt_succ_self _)

end MrCache

/-! ## Registering -/

/-- Every registration that an attempt made is given back or is in its result. -/
lemma NativeAnswers.register_owned (a : NativeAnswers) (length next : ℕ) :
    ((a.register length next).undone : Multiset ℕ) +
        ((a.register length next).result.elim 0 fun r => r.1.all) =
      (List.range' next (a.register length next).made : Multiset ℕ) := by
  unfold register
  rcases a.whole with info | _ | _
  · rfl
  · dsimp only
    by_cases harray : a.array = false
    · rw [if_pos harray]
      rfl
    · rw [if_neg harray]
      generalize a.registerChunks length ucMaxIndirectChildren 0
        (a.roundDown (rdmaMaxDirectMrBytes - a.page)) 0 = r
      by_cases hsome : r.2 = false
      · rw [if_pos hsome]
        exact add_zero _
      · rw [if_neg hsome]
        rcases a.indirect with _ | info
        · exact add_zero _
        · have hall : Natives.all ⟨next + r.1, List.range' next r.1⟩ =
              {next + r.1} + (List.range' next r.1 : Multiset ℕ) := (Multiset.singleton_add _ _).symm
          show (0 : Multiset ℕ) + Natives.all ⟨next + r.1, List.range' next r.1⟩ = _
          rw [hall, zero_add, List.range'_concat, ← Multiset.coe_add, one_mul, add_comm]
          rfl
  · rfl

end MelonDMA.Verbs
