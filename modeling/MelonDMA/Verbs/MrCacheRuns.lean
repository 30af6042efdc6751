import Mathlib.Data.Multiset.Range
import MelonDMA.Lib.Runs
import MelonDMA.Verbs.MrCacheBooks

/-!
# Runs of the cache

In every interleaving of the calls of a context the cache is exact: its counters are those of its list, no
buffer is in it twice, the leases are those of the regions given out, each registration is in one place until
it is given back, and what is leased stays (`cache_exact`). The interleavings are those in which no region is
given new children, no domain is deallocated with entries of its own, and no allocation fails after a buffer
was found on the second look.
-/

namespace MelonDMA.Verbs

open MelonDMA.Lib MelonDMA.Ib

/-! ## What is leased and owned -/

/-- The lease of an entry that a call holds. -/
def CacheCall.leases (call : CacheCall) (k : ℕ) : ℕ :=
  match call with
  | .found _ id _ => if id = k then 1 else 0
  | .giveBack id => if id = k then 1 else 0
  | .foundAgain _ id _ _ => if id = k then 1 else 0
  | .inserted _ id _ _ => if id = k then 1 else 0
  | _ => 0

/-- The registrations that a call holds. -/
def CacheCall.owned : CacheCall → Multiset ℕ
  | .registered _ natives _ => natives.all
  | .foundAgain _ _ _ natives => natives.all
  | .unmatched _ natives _ => natives.all
  | .ready _ natives _ => natives.all
  | .inserted _ _ _ doomed => tally CacheEntry.owned doomed
  | _ => 0

namespace CacheRun

variable (s : CacheRun)

/-- The regions of an entry that were given out and not deregistered, and those that calls under way are
about to give out. -/
def leased (k : ℕ) : ℕ :=
  tally (ofEntry fun mr : IbvMr => if mr.priv = k then 1 else 0) s.handles +
    tally (ofEntry fun call : CacheCall => call.leases k) s.calls

/-- The registrations that are in no entry yet, or no more. -/
def callsOwned : Multiset ℕ := tally (ofEntry CacheCall.owned) s.calls

/-- The counters are those of the list; no buffer is in it twice; leases count the regions given out; each
registration is in one entry, held by one call, or given back, once; and what is leased stays in the list. -/
def Exact : Prop :=
  s.cache.mrCacheEntries = s.cache.entries.length ∧
    s.cache.mrCacheBytes = (s.cache.entries.map fun e => e.key.length).sum ∧
    (s.cache.entries.map CacheEntry.key).Nodup ∧
    (∀ e ∈ s.cache.entries, e.leases = s.leased e.id) ∧
    tally CacheEntry.owned s.cache.entries + s.callsOwned + s.deregistered = Multiset.range s.registered ∧
    ∀ op s', s.step op = some s' → ∀ e ∈ s.cache.entries, e.leases ≠ 0 → ∃ e' ∈ s'.cache.entries, e'.id = e.id

/-- No memory is short after the second look, and no new children are taken. -/
def Keeps (a : CacheAnswers) : CacheCall → Prop
  | .foundAgain _ _ _ _ => a.alloc = true
  | .retargeting _ _ => a.activated = false
  | _ => True

/-- The condition on a step. -/
def KeepsCache : CacheOp → Prop
  | .proceed call a => ∀ c, entry s.calls call = some c → Keeps a c
  | .deallocPd pd => (∀ e ∈ s.cache.entries, e.key.pd ≠ pd) ∨
      ∃ e ∈ s.cache.entries, e.key.pd = pd ∧ e.leases ≠ 0
  | _ => True

/-! ## The moves of a call -/

section Moves

variable {s} {i : ℕ} {call : CacheCall} (hc : entry s.calls i = some call)
include hc

lemma leased_stand (call' : CacheCall) (k : ℕ) :
    (s.stand i call').leased k + call.leases k = s.leased k + call'.leases k := by
  have hset := tally_replace (fun call : CacheCall => call.leases k) hc (some call')
  unfold leased stand
  rw [ofEntry_some] at hset
  dsimp only
  omega

lemma leased_finish (k : ℕ) : (s.finish i).leased k + call.leases k = s.leased k := by
  have hset := tally_replace (fun call : CacheCall => call.leases k) hc none
  unfold leased finish clear
  rw [ofEntry_none] at hset
  dsimp only
  omega

lemma leased_returnMr (key : MrKey) (id : ℕ) (info : MrInfo) (k : ℕ) :
    (s.returnMr i key id info).leased k + call.leases k = s.leased k + if id = k then 1 else 0 := by
  have hfinish := leased_finish hc k
  have hput := tally_put (fun mr : IbvMr => if mr.priv = k then 1 else 0) (entry_firstFree s.handles)
    ⟨key.pd, key.addr, key.length, info, id⟩
  unfold leased finish at hfinish
  unfold leased returnMr finish
  dsimp only at hfinish hput ⊢
  rw [hput]
  omega

lemma callsOwned_stand (call' : CacheCall) :
    (s.stand i call').callsOwned + call.owned = s.callsOwned + call'.owned :=
  tally_replace CacheCall.owned hc (some call')

lemma callsOwned_finish : (s.finish i).callsOwned + call.owned = s.callsOwned :=
  (tally_replace CacheCall.owned hc none).trans (add_zero _)

lemma callsOwned_returnMr (key : MrKey) (id : ℕ) (info : MrInfo) :
    (s.returnMr i key id info).callsOwned + call.owned = s.callsOwned := callsOwned_finish hc

end Moves

/-! ## The invariant -/

/-- The books are right for what is leased, and every registration is accounted for. -/
structure Inv : Prop where
  books : Books s.cache s.nextId s.leased
  owned : tally CacheEntry.owned s.cache.entries + s.callsOwned + s.deregistered = Multiset.range s.registered

variable {s}

lemma inv_opened (maxEntries maxBytes : ℕ) : (opened maxEntries maxBytes).Inv := by
  refine ⟨⟨rfl, rfl, List.nodup_nil, List.nodup_nil, by rintro _ ⟨⟩, by rintro _ ⟨⟩, ?_⟩, rfl⟩
  intro id hne
  exact absurd rfl hne

/-- A step that neither registers nor lets an entry go. -/
lemma Inv.moved (h : s.Inv) {s' : CacheRun} (hbooks : Books s'.cache s'.nextId s'.leased)
    (hentries : tally CacheEntry.owned s'.cache.entries = tally CacheEntry.owned s.cache.entries)
    (hregistered : s'.registered = s.registered)
    (howned : s'.callsOwned + s'.deregistered = s.callsOwned + s.deregistered) : s'.Inv := by
  refine ⟨hbooks, ?_⟩
  rw [hentries, add_assoc, howned, ← add_assoc, h.owned, hregistered]

/-- A step that leaves the list and all leases. -/
lemma Inv.kept (h : s.Inv) {s' : CacheRun} (hcache : s'.cache = s.cache) (hid : s'.nextId = s.nextId)
    (hregistered : s'.registered = s.registered) (hleased : ∀ k, s'.leased k = s.leased k)
    (howned : s'.callsOwned + s'.deregistered = s.callsOwned + s.deregistered) : s'.Inv := by
  refine h.moved ?_ (by rw [hcache]) hregistered howned
  rw [hcache, hid]
  exact h.books.congr hleased

lemma tally_lease (c : MrCache) (id : ℕ) :
    tally CacheEntry.owned (c.lease id).entries = tally CacheEntry.owned c.entries :=
  MrCache.update_tally id CacheEntry.owned fun _ => rfl

lemma tally_unlease (c : MrCache) (id : ℕ) :
    tally CacheEntry.owned (c.unlease id).entries = tally CacheEntry.owned c.entries :=
  MrCache.update_tally id CacheEntry.owned fun _ => rfl

/-- A call begins that holds nothing. -/
lemma Inv.started (h : s.Inv) {call : CacheCall} (hleases : ∀ k, call.leases k = 0) (howned : call.owned = 0) :
    Inv { s with calls := put s.calls (firstFree s.calls) call } := by
  refine h.kept rfl rfl rfl (fun k => ?_) ?_
  · have hput := tally_put (fun call : CacheCall => call.leases k) (entry_firstFree s.calls) call
    rw [hleases, add_zero] at hput
    exact congrArg (_ + ·) hput
  · have hput := tally_put CacheCall.owned (entry_firstFree s.calls) call
    rw [howned, add_zero] at hput
    exact congrArg (· + _) hput

/-- The first look. -/
lemma Inv.startRegMr (h : s.Inv) (key : MrKey) : (s.startRegMr key).Inv := by
  unfold CacheRun.startRegMr
  by_cases hbad : key.pd = 0 ∨ key.addr = 0 ∨ key.length = 0
  · rw [if_pos hbad]
    exact h
  · rw [if_neg hbad]
    rcases hfind : s.cache.find key with _ | e
    · exact h.started (fun _ => rfl) rfl
    · have hmem := (MrCache.mem_of_find hfind).1
      have hperm := MrCache.moveToFront_perm (c := s.cache.lease e.id) e.id
      refine h.moved ?_ ?_ rfl ?_
      · have hbooks : Books (s.cache.lease e.id) s.nextId fun k => s.leased k + if e.id = k then 1 else 0 :=
          h.books.lease ⟨e, hmem, rfl⟩ fun _ => rfl
        have hmoved : (s.cache.lease e.id).moveToFront e.id =
            { s.cache.lease e.id with entries := ((s.cache.lease e.id).moveToFront e.id).entries } := by
          unfold MrCache.moveToFront
          split <;> rfl
        dsimp only
        rw [hmoved]
        refine (hbooks.perm hperm).congr fun k => ?_
        have hput := tally_put (fun call : CacheCall => call.leases k) (entry_firstFree s.calls)
          (.found key e.id e.info)
        unfold leased
        dsimp only
        rw [hput, add_assoc]
        rfl
      · exact (tally_perm _ hperm).trans (tally_lease s.cache e.id)
      · have hput := tally_put CacheCall.owned (entry_firstFree s.calls) (.found key e.id e.info)
        exact congrArg (· + _) (hput.trans (add_zero _))

/-- A region is given back. -/
lemma Inv.deregMr (h : s.Inv) (handle : ℕ) : (s.deregMr handle).Inv := by
  unfold CacheRun.deregMr
  rcases hmr : entry s.handles handle with _ | mr
  · exact h
  · refine h.moved ?_ (tally_unlease s.cache mr.priv) rfl rfl
    refine h.books.unlease fun k => ?_
    have hclear := tally_replace (fun mr : IbvMr => if mr.priv = k then 1 else 0) hmr none
    rw [ofEntry_none, add_zero] at hclear
    unfold leased clear
    dsimp only
    omega

/-- A domain goes that has no entries. -/
lemma Inv.deallocPd (h : s.Inv) (pd : ℕ) (hkeeps : s.KeepsCache (.deallocPd pd)) : (s.deallocPd pd).Inv := by
  unfold CacheRun.deallocPd
  by_cases hbusy : s.cache.entries.any (fun e => e.key.pd = pd && e.leases ≠ 0) = true
  · rw [if_pos hbusy]
    exact h
  · rw [if_neg hbusy]
    have hnone : ∀ e ∈ s.cache.entries, e.key.pd ≠ pd := by
      rcases hkeeps with hnone | ⟨e, he, hpd, hleased⟩
      · exact hnone
      · refine absurd (List.any_eq_true.mpr ⟨e, he, ?_⟩) hbusy
        simp [hpd, hleased]
    have hall : s.cache.entries.filter (·.key.pd ≠ pd) = s.cache.entries :=
      List.filter_eq_self.mpr fun e he => decide_eq_true (hnone e he)
    have hempty : s.cache.entries.filter (·.key.pd = pd) = [] :=
      List.filter_eq_nil_iff.mpr fun e he => by simpa using hnone e he
    rw [hall, hempty]
    exact h.kept rfl rfl rfl (fun _ => rfl) (congrArg (_ + ·) (add_zero _))

lemma Inv.startRetarget (h : s.Inv) (pd : ℕ) (rts alloc : Bool) (handle : ℕ) (children : List ℕ) :
    (s.startRetarget pd rts alloc handle children).Inv := by
  unfold CacheRun.startRetarget
  rcases entry s.handles handle with _ | mr
  · exact h
  · rcases s.privOf handle with _ | e
    · exact h
    · dsimp only
      split_ifs
      · exact h
      · rcases children.mapM (s.retargetChild pd) with _ | natives
        · exact h
        · exact h.started (fun _ => rfl) rfl

/-- Numbers that follow those below a bound. -/
lemma range_append (next made : ℕ) :
    Multiset.range (next + made) = Multiset.range next + (List.range' next made : Multiset ℕ) := by
  show ((List.range (next + made) : List ℕ) : Multiset ℕ) = _
  rw [List.range_eq_range', ← List.range'_append_1, ← Multiset.coe_add, zero_add, ← List.range_eq_range']
  rfl

section Proceed

variable {i : ℕ} {call : CacheCall}

/-- The second look, or the third, finds the buffer. -/
lemma Inv.leaseAgain (h : s.Inv) (hc : entry s.calls i = some call) (hleases : ∀ k, call.leases k = 0)
    {key : MrKey} {e : CacheEntry} (hfind : s.cache.find key = some e) {natives : Natives} {info : MrInfo}
    (howned : call.owned = natives.all) :
    (CacheRun.stand { s with cache := s.cache.lease e.id } i (.foundAgain key e.id info natives)).Inv := by
  refine h.moved ?_ (tally_lease s.cache e.id) rfl ?_
  · refine h.books.lease ⟨e, (MrCache.mem_of_find hfind).1, rfl⟩ fun k => ?_
    have hstand := leased_stand hc (.foundAgain key e.id info natives) k
    rw [hleases, add_zero] at hstand
    exact hstand
  · have hstand := callsOwned_stand hc (.foundAgain key e.id info natives)
    rw [howned] at hstand
    exact congrArg (· + _) (add_right_cancel hstand)

/-- An attempt to register. -/
lemma Inv.attempted (h : s.Inv) {key : MrKey} (hc : entry s.calls i = some (.missed key)) (a : CacheAnswers) :
    (s.proceed i a (.missed key)).Inv := by
  have hmade := a.native.register_owned key.length s.registered
  unfold proceed
  dsimp only
  generalize a.native.register key.length s.registered = r at hmade ⊢
  have hrange := range_append s.registered r.made
  rw [← h.owned, ← hmade] at hrange
  rcases hresult : r.result with _ | ⟨natives, info⟩
  · rw [hresult] at hrange
    have hfinish := callsOwned_finish hc
    have hcalls : (s.finish i).callsOwned = s.callsOwned := (add_zero _).symm.trans hfinish
    refine ⟨h.books.congr fun k => ?_, ?_⟩
    · exact (add_zero _).symm.trans (leased_finish hc k)
    · show tally CacheEntry.owned s.cache.entries + (s.finish i).callsOwned +
        (s.deregistered + (r.undone : Multiset ℕ)) = Multiset.range (s.registered + r.made)
      rw [hrange, hcalls]
      show _ = _ + ((r.undone : Multiset ℕ) + 0)
      abel
  · rw [hresult] at hrange
    have hstand := callsOwned_stand hc (.registered key natives info)
    have hcalls : (s.stand i (.registered key natives info)).callsOwned = s.callsOwned + natives.all :=
      (add_zero _).symm.trans hstand
    refine ⟨h.books.congr fun k => ?_, ?_⟩
    · exact (add_zero _).symm.trans ((leased_stand hc (.registered key natives info) k).trans (add_zero _))
    · show tally CacheEntry.owned s.cache.entries + (s.stand i (.registered key natives info)).callsOwned +
        (s.deregistered + (r.undone : Multiset ℕ)) = Multiset.range (s.registered + r.made)
      rw [hrange, hcalls]
      show _ = _ + ((r.undone : Multiset ℕ) + natives.all)
      abel

/-- A new entry takes the place of others. -/
lemma Inv.insertEntry (h : s.Inv) {key : MrKey} {natives : Natives} {info : MrInfo}
    (hc : entry s.calls i = some (.ready key natives info)) (hfind : s.cache.find key = none)
    (reallocs : ℕ → Bool) : (s.insertEntry i key natives info reallocs).Inv := by
  have hevict := MrCache.evictOk s.cache s.nextId s.leased key.length reallocs
  unfold CacheRun.insertEntry
  dsimp only
  generalize s.cache.evict key.length reallocs = r at hevict ⊢
  refine ⟨?_, ?_⟩
  · refine (hevict.books h.books).insert rfl rfl (fun b hb => ?_) fun k => ?_
    · exact MrCache.not_mem_of_find_none hfind b (hevict.subset b hb)
    · exact (add_zero _).symm.trans (leased_stand hc (.inserted key s.nextId info r.doomed) k)
  · have hstand : (s.stand i (.inserted key s.nextId info r.doomed)).callsOwned + natives.all =
        s.callsOwned + tally CacheEntry.owned r.doomed := callsOwned_stand hc _
    have hall := h.owned
    rw [← hevict.owned] at hall
    show natives.all + tally CacheEntry.owned r.cache.entries +
      (s.stand i (.inserted key s.nextId info r.doomed)).callsOwned +
      (s.deregistered + tally CacheEntry.owned r.inlined) = Multiset.range s.registered
    rw [← hall]
    calc natives.all + tally CacheEntry.owned r.cache.entries +
          (s.stand i (.inserted key s.nextId info r.doomed)).callsOwned +
          (s.deregistered + tally CacheEntry.owned r.inlined)
        = tally CacheEntry.owned r.cache.entries +
            ((s.stand i (.inserted key s.nextId info r.doomed)).callsOwned + natives.all) +
            (s.deregistered + tally CacheEntry.owned r.inlined) := by abel
      _ = tally CacheEntry.owned r.cache.entries + (s.callsOwned + tally CacheEntry.owned r.doomed) +
            (s.deregistered + tally CacheEntry.owned r.inlined) := by rw [hstand]
      _ = tally CacheEntry.owned r.cache.entries + tally CacheEntry.owned r.doomed +
            tally CacheEntry.owned r.inlined + s.callsOwned + s.deregistered := by abel

/-- A call that gives back what it holds and returns a region, for its lease. -/
lemma Inv.returned (h : s.Inv) (hc : entry s.calls i = some call) (key : MrKey) {id : ℕ} (info : MrInfo)
    (hleases : ∀ k, call.leases k = if id = k then 1 else 0) :
    ((s.give call.owned).returnMr i key id info).Inv := by
  refine h.kept rfl rfl rfl (fun k => ?_) ?_
  · have hreturn := leased_returnMr (s := s.give call.owned) hc key id info k
    rw [hleases] at hreturn
    exact Nat.add_right_cancel hreturn
  · have hreturn := callsOwned_returnMr hc key id info
    show (s.returnMr i key id info).callsOwned + (s.deregistered + call.owned) = _
    rw [← hreturn]
    abel

/-- A call that gives back what it holds and ends, without a lease. -/
lemma Inv.ended (h : s.Inv) (hc : entry s.calls i = some call) (hleases : ∀ k, call.leases k = 0) :
    ((s.give call.owned).finish i).Inv := by
  refine h.kept rfl rfl rfl (fun k => ?_) ?_
  · have hfinish := leased_finish (s := s.give call.owned) hc k
    rw [hleases, add_zero] at hfinish
    exact hfinish
  · have hfinish := callsOwned_finish hc
    show (s.finish i).callsOwned + (s.deregistered + call.owned) = _
    rw [← hfinish]
    abel

/-- A call that goes on with what it holds. -/
lemma Inv.stood (h : s.Inv) (hc : entry s.calls i = some call) {call' : CacheCall}
    (hleases : ∀ k, call'.leases k = call.leases k) (howned : call'.owned = call.owned) :
    (s.stand i call').Inv := by
  refine h.kept rfl rfl rfl (fun k => ?_) ?_
  · have hstand := leased_stand hc call' k
    rw [hleases] at hstand
    exact Nat.add_right_cancel hstand
  · have hstand := callsOwned_stand hc call'
    rw [howned] at hstand
    exact congrArg (· + _) (add_right_cancel hstand)

lemma give_zero (s : CacheRun) : s.give 0 = s := by
  unfold give
  rw [add_zero]

/-- A call goes on. -/
lemma Inv.proceed (h : s.Inv) (hc : entry s.calls i = some call) (a : CacheAnswers) (hkeeps : Keeps a call) :
    (s.proceed i a call).Inv := by
  cases call with
  | found key id info =>
      unfold CacheRun.proceed
      dsimp only
      by_cases halloc : a.alloc = true
      · rw [if_pos halloc]
        have hreturned := h.returned hc key info fun _ => rfl
        exact (give_zero s) ▸ hreturned
      · rw [if_neg halloc]
        exact h.stood hc (fun _ => rfl) rfl
  | giveBack id =>
      refine h.moved ?_ (tally_unlease s.cache id) rfl ?_
      · exact h.books.unlease fun k => (leased_finish hc k).symm
      · exact congrArg (· + _) ((add_zero _).symm.trans (callsOwned_finish hc))
  | missed key => exact h.attempted hc a
  | registered key natives info =>
      unfold CacheRun.proceed
      dsimp only
      rcases hfind : s.cache.find key with _ | e
      · exact h.stood hc (fun _ => rfl) rfl
      · exact h.leaseAgain hc (fun _ => rfl) hfind rfl
  | foundAgain key id info natives =>
      have halloc : a.alloc = true := hkeeps
      unfold CacheRun.proceed
      dsimp only
      rw [if_pos halloc]
      exact h.returned hc key info fun _ => rfl
  | unmatched key natives info =>
      unfold CacheRun.proceed
      dsimp only
      by_cases halloc : a.alloc = true
      · rw [if_pos halloc]
        exact h.stood hc (fun _ => rfl) rfl
      · rw [if_neg halloc]
        exact h.ended hc fun _ => rfl
  | ready key natives info =>
      unfold CacheRun.proceed
      dsimp only
      rcases hfind : s.cache.find key with _ | e
      · exact h.insertEntry hc hfind a.reallocs
      · exact h.leaseAgain hc (fun _ => rfl) hfind rfl
  | inserted key id info doomed => exact h.returned hc key info fun _ => rfl
  | retargeting id children =>
      have hrefused : a.activated = false := hkeeps
      unfold CacheRun.proceed
      dsimp only
      rw [if_neg (by rw [hrefused]; exact Bool.false_ne_true)]
      have hended := h.ended hc fun _ => rfl
      exact (give_zero s) ▸ hended

end Proceed

lemma Inv.step (h : s.Inv) {op : CacheOp} {s' : CacheRun} (hkeeps : s.KeepsCache op)
    (hstep : s.step op = some s') : s'.Inv := by
  cases op with
  | regMr key =>
      obtain rfl := Option.some.inj hstep
      exact h.startRegMr key
  | proceed call a =>
      unfold CacheRun.step at hstep
      dsimp only at hstep
      rcases hc : entry s.calls call with _ | c
      · rw [hc] at hstep
        cases hstep
      · rw [hc] at hstep
        obtain rfl := Option.some.inj hstep
        exact h.proceed hc a (hkeeps c hc)
  | deregMr handle =>
      obtain rfl := Option.some.inj hstep
      exact h.deregMr handle
  | retarget pd rts alloc handle children =>
      obtain rfl := Option.some.inj hstep
      exact h.startRetarget pd rts alloc handle children
  | deallocPd pd =>
      obtain rfl := Option.some.inj hstep
      exact h.deallocPd pd hkeeps

/-! ## What is leased stays -/

/-- Every leased entry of a cache is in another one. -/
def Stays (c c' : MrCache) : Prop := ∀ e ∈ c.entries, e.leases ≠ 0 → ∃ e' ∈ c'.entries, e'.id = e.id

lemma stays_refl (c : MrCache) : Stays c c := fun e he _ => ⟨e, he, rfl⟩

lemma stays_update (c : MrCache) (id : ℕ) {g : CacheEntry → CacheEntry} (hg : ∀ e, (g e).id = e.id) :
    Stays c (c.update id g) := by
  intro e he _
  have hmem : e.id ∈ c.entries.map CacheEntry.id := List.mem_map_of_mem he
  rw [← MrCache.update_map id CacheEntry.id hg] at hmem
  exact List.mem_map.mp hmem

/-- The last critical section evicts entries without leases. -/
lemma stays_insertEntry (i : ℕ) (key : MrKey) (natives : Natives) (info : MrInfo) (reallocs : ℕ → Bool) :
    Stays s.cache (s.insertEntry i key natives info reallocs).cache := by
  intro e he hleased
  have hevict := MrCache.evictOk s.cache s.nextId s.leased key.length reallocs
  exact ⟨e, List.mem_cons_of_mem _ (hevict.kept e he hleased), rfl⟩

lemma stays_proceed (i : ℕ) (a : CacheAnswers) (call : CacheCall) : Stays s.cache (s.proceed i a call).cache := by
  unfold CacheRun.proceed
  cases call with
  | found key id info =>
      dsimp only
      split_ifs <;> exact stays_refl s.cache
  | giveBack id => exact stays_update s.cache id fun _ => rfl
  | missed key =>
      dsimp only
      rcases (a.native.register key.length s.registered).result with _ | ⟨natives, info⟩ <;>
        exact stays_refl s.cache
  | registered key natives info =>
      dsimp only
      rcases s.cache.find key with _ | e
      · exact stays_refl s.cache
      · exact stays_update s.cache e.id fun _ => rfl
  | foundAgain key id info natives =>
      dsimp only
      split_ifs <;> exact stays_refl s.cache
  | unmatched key natives info =>
      dsimp only
      split_ifs <;> exact stays_refl s.cache
  | ready key natives info =>
      dsimp only
      rcases s.cache.find key with _ | e
      · exact stays_insertEntry i key natives info a.reallocs
      · exact stays_update s.cache e.id fun _ => rfl
  | inserted key id info doomed => exact stays_refl s.cache
  | retargeting id children =>
      dsimp only
      split_ifs
      · exact stays_update s.cache id fun _ => rfl
      · exact stays_refl s.cache

/-- No step takes a leased entry away. -/
lemma stays_step {op : CacheOp} {s' : CacheRun} (hstep : s.step op = some s') : Stays s.cache s'.cache := by
  cases op with
  | regMr key =>
      obtain rfl := Option.some.inj hstep
      unfold CacheRun.startRegMr
      split_ifs
      · exact stays_refl s.cache
      · rcases s.cache.find key with _ | e
        · exact stays_refl s.cache
        · intro b hb hleased
          obtain ⟨b', hb', hid⟩ := stays_update s.cache e.id (g := fun e => { e with leases := e.leases + 1 })
            (fun _ => rfl) b hb hleased
          exact ⟨b', (MrCache.moveToFront_perm e.id).mem_iff.mpr hb', hid⟩
  | proceed call a =>
      unfold CacheRun.step at hstep
      dsimp only at hstep
      rcases hc : entry s.calls call with _ | c
      · rw [hc] at hstep
        cases hstep
      · rw [hc] at hstep
        obtain rfl := Option.some.inj hstep
        exact stays_proceed call a c
  | deregMr handle =>
      obtain rfl := Option.some.inj hstep
      unfold CacheRun.deregMr
      rcases entry s.handles handle with _ | mr
      · exact stays_refl s.cache
      · exact stays_update s.cache mr.priv fun _ => rfl
  | retarget pd rts alloc handle children =>
      obtain rfl := Option.some.inj hstep
      unfold CacheRun.startRetarget
      rcases entry s.handles handle with _ | mr
      · exact stays_refl s.cache
      · rcases s.privOf handle with _ | e
        · exact stays_refl s.cache
        · dsimp only
          split_ifs
          · exact stays_refl s.cache
          · rcases children.mapM (s.retargetChild pd) with _ | natives <;> exact stays_refl s.cache
  | deallocPd pd =>
      obtain rfl := Option.some.inj hstep
      unfold CacheRun.deallocPd
      split_ifs with hbusy
      · exact stays_refl s.cache
      · intro e he hleased
        refine ⟨e, List.mem_filter.mpr ⟨he, decide_eq_true fun hpd => hbusy ?_⟩, rfl⟩
        refine List.any_eq_true.mpr ⟨e, he, ?_⟩
        simp [hpd, hleased]

lemma Inv.exact (h : s.Inv) : s.Exact :=
  ⟨h.books.count_eq, h.books.bytes_eq, h.books.keys, h.books.leases, h.owned, fun _ _ => stays_step⟩

end CacheRun

/-! ## Results -/

/-- In every interleaving in which nothing breaks them, the books of the cache are exact. -/
theorem cache_exact {maxEntries maxBytes : ℕ} {s : CacheRun}
    (run : Reach CacheRun.step CacheRun.KeepsCache (.opened maxEntries maxBytes) s) : s.Exact := by
  have hinv : s.Inv := Reach.invariant CacheRun.Inv (CacheRun.inv_opened maxEntries maxBytes)
    (fun h hkeeps hstep => h.step hkeeps hstep) run
  exact hinv.exact

/-- Every allocation succeeds, and a buffer is registered as one region. -/
def plainAnswers : CacheAnswers where
  native :=
    { page := 4096, page_pos := by decide, whole := .made ⟨1, 256, 256⟩, array := true
      chunk := fun _ _ => .failed, indirect := none }

lemma keeps_plainAnswers (call : CacheCall) : CacheRun.Keeps plainAnswers call := by
  cases call <;> first | rfl | trivial

/-- Two threads register the same buffer at the same time. -/
def sameBuffer : List CacheOp :=
  [.regMr ⟨1, 4096, 64, 1⟩, .regMr ⟨1, 4096, 64, 1⟩] ++
    [0, 1, 0, 1, 0, 1, 0, 1, 0, 1].map fun call => .proceed call plainAnswers

/-- One entry is left, with two leases. -/
theorem cache_exact_same_buffer :
    ∃ s : CacheRun, s.cache.entries.map CacheEntry.leases = [2] ∧ s.Exact := by
  have hrun : (runOps CacheRun.step (.opened 8 0) sameBuffer).map
      (fun s => s.cache.entries.map CacheEntry.leases) = some [2] := by
    decide +kernel
  obtain ⟨s, hs, hleases⟩ := Option.map_eq_some_iff.mp hrun
  refine ⟨s, hleases, cache_exact (reach_of_guardedOps sameBuffer hs ?_)⟩
  have hkeeps : ∀ {s : CacheRun} {call}, s.KeepsCache (.proceed call plainAnswers) :=
    fun c _ => keeps_plainAnswers c
  exact ⟨trivial, trivial, hkeeps, hkeeps, hkeeps, hkeeps, hkeeps, hkeeps, hkeeps, hkeeps, hkeeps, hkeeps, trivial⟩

/-- A buffer is registered and deregistered, and its domain is deallocated. -/
def deallocated : List CacheOp :=
  .regMr ⟨1, 4096, 64, 1⟩ :: [0, 0, 0, 0, 0].map (fun call => .proceed call plainAnswers) ++
    [.deregMr 0, .deallocPd 1]

/-- The list is empty and still counted as one entry. -/
theorem dealloc_leaves_counters : ¬∀ (maxEntries maxBytes : ℕ) (s : CacheRun),
    Reach CacheRun.step Unguarded (.opened maxEntries maxBytes) s → s.Exact := by
  intro h
  have hrun : (runOps CacheRun.step (.opened 8 0) deallocated).map
      (fun s => (s.cache.mrCacheEntries, s.cache.entries.length)) = some (1, 0) := by
    decide +kernel
  obtain ⟨s, hs, hvals⟩ := Option.map_eq_some_iff.mp hrun
  obtain ⟨hcount, hlength⟩ := Prod.mk.inj hvals
  have hexact := (h 8 0 s (reach_of_runOps hs)).1
  rw [hcount, hlength] at hexact
  cases hexact

end MelonDMA.Verbs
