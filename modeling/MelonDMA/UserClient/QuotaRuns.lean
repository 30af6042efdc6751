import MelonDMA.UserClient.Quota
import MelonDMA.UserClient.References

/-!
# The quotas along a run

The counters of a client are its holdings after every selector (`quotas_exact`), as long as there is memory for each
record that is put back on its list. A record for which there is none is lost with the object still there and its
units taken (`lost_record_charged`).

`Books` is the invariant. Its counters are a budget (`Budget.Exact`): a selector takes the units of its object before
there is one, and gives them back on every exit without one. The bytes of the regions are at most `fPinnedBytes`; the
rest belongs to memory that a device in quarantine may still use.
-/

namespace MelonDMA.UserClient

open MelonDMA.Lib MelonDMA.Core MelonDMA.Ib MelonDMA.Ib.QpCreate

/-! ## The lists of records -/

namespace TokenClient

variable {s s' : TokenClient} {type : TokenType} {raw : ℕ}

/-- A token depends on the registry alone. -/
lemma fst_tokenCreate_congr (hgen : s'.tokenGen = s.tokenGen) (htoken : s'.token = s.token) :
    (s'.tokenCreate type raw).1 = (s.tokenCreate type raw).1 := by
  have hfree : s'.freeSlot type = s.freeSlot type := by rw [freeSlot, freeSlot, htoken]
  unfold tokenCreate
  dsimp only
  rw [hfree, hgen]
  split_ifs
  · rfl
  · cases s.freeSlot type <;> rfl

/-- A create selector that keeps its object records it. -/
lemma owned_create_kept {memory undone : Bool} (htoken : (s.tokenCreate type raw).1 ≠ 0) (hmemory : memory = true) :
    (s.create type raw memory undone).owned = Function.update s.owned type (s.owned type ++ [raw]) := by
  subst hmemory
  have hzero : raw ≠ 0 := by
    rintro rfl
    exact htoken (by rw [tokenCreate, if_pos rfl])
  by_cases htype : type = .pd
  · subst htype
    have hsame : (((s.objectCreated .pd raw).addOwned .pd raw true).tokenCreate .pd raw).1 =
        (s.tokenCreate .pd raw).1 := fst_tokenCreate_congr rfl rfl
    rw [← hsame] at htoken
    unfold TokenClient.create
    dsimp only
    rw [if_neg hzero, if_neg Bool.false_ne_true.symm, if_neg htoken, owned_tokenCreate]
    rfl
  · have hsame : ((s.objectCreated type raw).tokenCreate type raw).1 = (s.tokenCreate type raw).1 :=
      fst_tokenCreate_congr rfl rfl
    rw [← hsame] at htoken
    rw [create_of_ne htype, if_neg (not_or.mpr ⟨htoken, Bool.false_ne_true.symm⟩), addOwned, if_pos rfl]
    dsimp only
    rw [owned_tokenCreate]
    rfl

/-- A create selector that does not leaves the lists as they are, up to their order. -/
lemma owned_create_refused {memory : Bool} (undone : Bool)
    (h : (s.tokenCreate type raw).1 = 0 ∨ memory = false) (type' : TokenType) :
    ((s.create type raw memory undone).owned type').Perm (s.owned type') := by
  by_cases htype : type = .pd
  · subst htype
    unfold TokenClient.create
    dsimp only
    split_ifs with hzero hmemory htoken
    · exact .refl _
    · rw [owned_objectDestroyed]
      exact .refl _
    · -- the record that was just added is removed
      rw [owned_objectDestroyed, removeOwned, owned_tokenCreate, addOwned, if_pos ((Bool.not_eq_false _).mp hmemory)]
      dsimp only [objectCreated]
      rw [Function.update_self, Function.update_idem]
      by_cases hpd : type' = .pd
      · subst hpd
        rw [Function.update_self]
        have hmem : raw ∈ s.owned .pd ++ [raw] := List.mem_append_right _ (List.mem_singleton_self raw)
        exact ((List.perm_cons_erase hmem).symm.trans (List.perm_append_singleton raw _)).cons_inv
      · rw [Function.update_of_ne hpd]
    · have hsame : (((s.objectCreated .pd raw).addOwned .pd raw memory).tokenCreate .pd raw).1 =
          (s.tokenCreate .pd raw).1 := by
        obtain rfl := (Bool.not_eq_false _).mp hmemory
        exact fst_tokenCreate_congr rfl rfl
      exact absurd (hsame.trans (h.resolve_right hmemory)) htoken
  · have hsame : ((s.objectCreated type raw).tokenCreate type raw).1 = (s.tokenCreate type raw).1 :=
      fst_tokenCreate_congr rfl rfl
    rw [← hsame] at h
    rw [create_of_ne htype, if_pos h, owned_objectDestroyed, owned_tokenCreate]
    exact .refl _

/-- A record is put back at the end of its list. -/
lemma owned_requeued (hmem : raw ∈ s.owned type) (type' : TokenType) :
    (((s.removeOwned type raw).addOwned type raw true).owned type').Perm (s.owned type') := by
  rw [addOwned, if_pos rfl, removeOwned]
  dsimp only
  rw [Function.update_self, Function.update_idem]
  by_cases htype : type' = type
  · subst htype
    rw [Function.update_self]
    exact (List.perm_append_singleton raw _).trans (List.perm_cons_erase hmem).symm
  · rw [Function.update_of_ne htype]

/-- A destroy selector that does not destroy leaves the lists as they are, up to their order, when there is memory
for a record that it puts back. -/
lemma owned_destroy_kept {token : ℕ} {blocked done memory : Bool} (h : ¬s.Destroys type token blocked done)
    (hother : type ≠ .pd → type ≠ .cq → blocked = false)
    (hback : s.tokenResolve token type ≠ 0 → s.tokenResolve token type ∈ s.owned type → type ≠ .srq →
      (type = .cq ∧ blocked = true ∨ blocked = false ∧ done = false) → memory = true)
    (type' : TokenType) : ((s.destroy type token blocked done memory).owned type').Perm (s.owned type') := by
  by_cases hnone : s.tokenResolve token type = 0 ∨ s.tokenResolve token type ∉ s.owned type
  · unfold TokenClient.destroy
    rw [if_pos hnone]
  obtain ⟨hne, howned⟩ := not_or.mp hnone
  rw [not_not] at howned
  have hkept : blocked = false → done = false := fun hblocked =>
    (Bool.not_eq_true _).mp fun hdone => h ⟨hne, howned, hblocked, hdone⟩
  have hrefused : blocked = false → type ≠ .srq →
      ((s.destroyOwned type token (s.tokenResolve token type) done memory).owned type').Perm (s.owned type') := by
    intro hblocked hsrq
    have hdone := hkept hblocked
    rw [hback hne howned hsrq (.inr ⟨hblocked, hdone⟩), hdone]
    exact owned_requeued howned type'
  unfold TokenClient.destroy
  rw [if_neg hnone]
  cases type with
  | pd =>
      dsimp only
      split_ifs with hblocked
      · exact .refl _
      · exact hrefused ((Bool.not_eq_true _).mp hblocked) (by decide)
  | cq =>
      dsimp only
      split_ifs with hblocked
      · rw [hback hne howned (by decide) (.inl ⟨rfl, hblocked⟩)]
        exact owned_requeued howned type'
      · exact hrefused ((Bool.not_eq_true _).mp hblocked) (by decide)
  | srq =>
      rw [hkept (hother (by decide) (by decide))]
      exact .refl _
  | _ => exact hrefused (hother (by decide) (by decide)) (by decide)

/-- A record that is not put back is lost. -/
lemma owned_destroy_lost {token : ℕ} {blocked done : Bool} (hne : s.tokenResolve token type ≠ 0)
    (howned : s.tokenResolve token type ∈ s.owned type) (hsrq : type ≠ .srq)
    (hputs : type = .cq ∧ blocked = true ∨ blocked = false ∧ done = false) :
    (s.destroy type token blocked done false).owned =
      Function.update s.owned type ((s.owned type).erase (s.tokenResolve token type)) := by
  unfold TokenClient.destroy
  rw [if_neg (not_or.mpr ⟨hne, not_not.mpr howned⟩)]
  rcases hputs with ⟨rfl, rfl⟩ | ⟨rfl, rfl⟩
  · rfl
  · cases type with
    | srq => exact absurd rfl hsrq
    | _ => rfl

end TokenClient

/-! ## Counters and holdings -/

instance : Fintype Kind :=
  .ofList [.ofType .pd, .ofType .qp, .ofType .cq, .ofType .mr, .ofType .mw, .ofType .srq, .ah, .gid] fun kind => by
    rcases kind with type | _ | _
    · cases type <;> decide
    · decide
    · decide

namespace QuotaClient

section

variable {s s' : QuotaClient} {type : TokenType} {kind : Kind} {q : Quota}

/-- The holdings are what the objects cost. -/
lemma held_eq (s : QuotaClient) : s.held = Budget.held quotasOf s.count := by
  funext q
  have hsum (f : Kind → ℕ) : ∑ kind, f kind = f (.ofType .pd) + (f (.ofType .qp) + (f (.ofType .cq) +
      (f (.ofType .mr) + (f (.ofType .mw) + (f (.ofType .srq) + (f .ah + (f .gid + 0))))))) := rfl
  rw [Budget.held, hsum]
  cases q <;> simp [held, count, list, quotasOf]

/-- Another object of a kind. -/
lemma count_succ (hkind : (s'.list kind).length = (s.list kind).length + 1)
    (hrest : ∀ k, k ≠ kind → (s'.list k).length = (s.list k).length) :
    s'.count = Function.update s.count kind (s.count kind + 1) := by
  funext k
  by_cases hk : k = kind
  · subst hk
    rw [Function.update_self]
    exact hkind
  · rw [Function.update_of_ne hk]
    exact hrest k hk

/-- The same objects. -/
lemma count_congr (h : ∀ k, (s'.list k).Perm (s.list k)) : s'.count = s.count :=
  funext fun k => (h k).length_eq

/-- The books of a client: its counters, and the bytes of its regions. -/
structure Books (s : QuotaClient) : Prop where
  exact : Budget.Exact s.limit quotasOf s.quota s.count
  pinned_le : s.pinned ≤ s.pinnedBytes
  charged : s.quarantined = false → s.pinnedBytes = s.pinned
  within : s.pinnedBytes ≤ pinnedBytesPerClient

/-- Clean books are what is promised. -/
lemma Books.quotasExact (h : s.Books) : s.QuotasExact where
  counted := fun q => by rw [held_eq, h.exact.counted]
  within := h.exact.within
  charged := h.charged
  pinned_le := h.within

/-! ### Reservations -/

/-- A refused reservation changes nothing. -/
lemma quotaReserve_refused {qs : List Quota} (h : (s.quotaReserve qs).1 = false) : (s.quotaReserve qs).2 = s := by
  unfold quotaReserve at h ⊢
  dsimp only at h ⊢
  rw [Budget.chargeAll_refused h]

/-- Nor does one that is released. -/
lemma quotaRelease_reserve {qs qs' : List Quota} (hperm : qs'.Perm qs) (h : (s.quotaReserve qs).1 = true) :
    (s.quotaReserve qs).2.quotaRelease qs' = s := by
  unfold quotaReserve at h ⊢
  unfold quotaRelease
  dsimp only at h ⊢
  rw [Budget.refundAll_chargeAll hperm h]

/-- What `mlxBytesCanReserve` lets through. -/
lemma bytes_fit {bytes : ℕ} (h : mlxBytesCanReserve s.pinnedBytes bytes pinnedBytesPerClient = true) :
    s.pinnedBytes + bytes ≤ pinnedBytesPerClient := by
  unfold mlxBytesCanReserve at h
  rw [decide_eq_true_eq] at h
  omega

/-- Bytes are released that were reserved before. -/
lemma sub64_pinned {a b : ℕ} (h : a + b ≤ pinnedBytesPerClient) : sub64 (a + b) b = a := by
  unfold pinnedBytesPerClient at h
  rw [sub64_of_le (Nat.le_add_left _ _) (by omega), Nat.add_sub_cancel]

lemma pinReserve_refused {bytes : ℕ} (h : (s.pinReserve bytes).1 = false) : (s.pinReserve bytes).2 = s := by
  unfold pinReserve at h ⊢
  split_ifs at h ⊢
  rfl

lemma pinReserve_granted {bytes : ℕ} (h : (s.pinReserve bytes).1 = true) :
    s.pinnedBytes + bytes ≤ pinnedBytesPerClient ∧
      (s.pinReserve bytes).2 = { s with pinnedBytes := s.pinnedBytes + bytes } := by
  unfold pinReserve at h ⊢
  split_ifs at h ⊢ with hfit
  exact ⟨bytes_fit hfit, rfl⟩

/-! ### Creating -/

/-- The charges of the regions do not depend on the entry of a new key. -/
lemma tally_charged {raw : ℕ} (hfresh : type = .mr ∨ type = .mw → raw ∉ s.tokens.owned .mr) (bytes : ℕ) :
    tally (s.charged type raw bytes) (s.tokens.owned .mr) = s.pinned := by
  unfold charged pinned
  split_ifs with hkey
  · refine tally_congr fun a ha => Function.update_of_ne ?_ _ _
    rintro rfl
    exact hfresh hkey ha
  · rfl

/-- The object was kept. -/
lemma record_kept {raw bytes : ℕ} {memory undone : Bool} (h : (s.record type raw bytes memory undone).1 = true) :
    (s.record type raw bytes memory undone).2 = s.made type raw bytes memory undone ∧
      (s.tokens.create type raw memory undone).owned =
        Function.update s.tokens.owned type (s.tokens.owned type ++ [raw]) := by
  have hkept := h
  unfold record at hkept ⊢
  dsimp only at hkept ⊢
  rw [if_pos hkept]
  rw [Bool.and_eq_true, decide_eq_true_eq] at hkept
  exact ⟨rfl, TokenClient.owned_create_kept hkept.1 hkept.2⟩

/-- It was not. -/
lemma record_refused {raw bytes : ℕ} {memory undone : Bool} (h : (s.record type raw bytes memory undone).1 = false) :
    (s.record type raw bytes memory undone).2 =
        (s.made type raw bytes memory undone).quotaRelease (quotasOf (.ofType type)).reverse ∧
      ∀ type', ((s.tokens.create type raw memory undone).owned type').Perm (s.tokens.owned type') := by
  have hrefused := h
  unfold record at hrefused ⊢
  dsimp only at hrefused ⊢
  rw [if_neg ((Bool.not_eq_true _).mpr hrefused)]
  rw [Bool.and_eq_false_iff, decide_eq_false_iff_not, not_not] at hrefused
  exact ⟨rfl, TokenClient.owned_create_refused undone hrefused⟩

/-- The lists of a client whose records were permuted. -/
lemma list_perm (hah : s'.ownedAh = s.ownedAh) (hgid : s'.ownedGid = s.ownedGid)
    (h : ∀ type, (s'.tokens.owned type).Perm (s.tokens.owned type)) (k : Kind) : (s'.list k).Perm (s.list k) := by
  cases k with
  | ofType type => exact h type
  | ah => exact .of_eq hah
  | gid => exact .of_eq hgid

/-- The lists of a client with another record. -/
lemma count_append {raw : ℕ} (hah : s'.ownedAh = s.ownedAh) (hgid : s'.ownedGid = s.ownedGid)
    (h : s'.tokens.owned = Function.update s.tokens.owned type (s.tokens.owned type ++ [raw])) :
    s'.count = Function.update s.count (.ofType type) (s.count (.ofType type) + 1) := by
  refine count_succ ?_ fun k hk => ?_
  · dsimp only [list]
    rw [h, Function.update_self, List.length_append, List.length_singleton]
  · cases k with
    | ofType type' =>
        dsimp only [list]
        rw [h, Function.update_of_ne fun heq => hk (congrArg Kind.ofType heq)]
    | ah => exact congrArg List.length hah
    | gid => exact congrArg List.length hgid

/-- The counters of a client that was given an object. -/
lemma exact_record (h : Budget.Exact s.limit quotasOf s.quota s.count)
    (hgranted : (s.quotaReserve (quotasOf (.ofType type))).1 = true) (raw bytes : ℕ) (memory undone : Bool)
    {t : QuotaClient} (ht : ((s.quotaReserve (quotasOf (.ofType type))).2.record type raw bytes memory undone).2 = t) :
    Budget.Exact t.limit quotasOf t.quota t.count := by
  subst ht
  generalize hreserved : (s.quotaReserve (quotasOf (.ofType type))).2 = reserved
  have hlists : reserved.tokens = s.tokens ∧ reserved.ownedAh = s.ownedAh ∧ reserved.ownedGid = s.ownedGid := by
    rw [← hreserved]
    exact ⟨rfl, rfl, rfl⟩
  cases hkept : (reserved.record type raw bytes memory undone).1 with
  | true =>
      obtain ⟨heq, howned⟩ := record_kept hkept
      rw [hlists.1] at howned
      have hcount : (reserved.made type raw bytes memory undone).count =
          Function.update s.count (.ofType type) (s.count (.ofType type) + 1) :=
        count_append hlists.2.1 hlists.2.2 (by
          rw [← howned, made, hlists.1])
      rw [heq, hcount, made, ← hreserved]
      exact h.grow hgranted
  | false =>
      obtain ⟨heq, howned⟩ := record_refused hkept
      rw [hlists.1] at howned
      have hcount : ((reserved.made type raw bytes memory undone).quotaRelease (quotasOf (.ofType type)).reverse).count =
          s.count := count_congr (list_perm hlists.2.1 hlists.2.2 (by
        rw [quotaRelease, made, hlists.1]
        exact howned))
      have hquota := Budget.refundAll_chargeAll (List.reverse_perm (quotasOf (.ofType type))) hgranted
      rw [heq, hcount, quotaRelease, made, ← hreserved]
      exact ⟨hquota.trans h.counted, hquota.le.trans h.within⟩

/-- The regions of a client that was given an object. -/
lemma pinned_record {raw bytes : ℕ} (hfresh : type = .mr ∨ type = .mw → raw ∉ s.tokens.owned .mr)
    (memory undone : Bool) : (s.record type raw bytes memory undone).2.pinned =
      s.pinned + if (s.record type raw bytes memory undone).1 = true ∧ type = .mr then bytes else 0 := by
  cases hkept : (s.record type raw bytes memory undone).1 with
  | true =>
      obtain ⟨heq, howned⟩ := record_kept hkept
      rw [heq, pinned, made]
      dsimp only
      rw [howned]
      by_cases htype : type = .mr
      · subst htype
        have hentry : s.charged .mr raw bytes raw = bytes := by
          rw [charged, if_pos (.inl rfl), Function.update_self]
        rw [Function.update_self, if_pos ⟨rfl, rfl⟩, tally_append, tally_charged hfresh, tally_cons, tally_nil,
          hentry, Nat.add_zero]
      · rw [Function.update_of_ne (Ne.symm htype), if_neg fun hboth => htype hboth.2, tally_charged hfresh,
          Nat.add_zero]
  | false =>
      obtain ⟨heq, howned⟩ := record_refused hkept
      rw [heq, if_neg fun hboth => Bool.false_ne_true hboth.1, Nat.add_zero, ← tally_charged hfresh bytes]
      exact tally_perm _ (howned .mr)

@[simp] lemma record_pinnedBytes (raw bytes : ℕ) (memory undone : Bool) :
    (s.record type raw bytes memory undone).2.pinnedBytes = s.pinnedBytes := by
  unfold record
  dsimp only
  split_ifs <;> rfl

@[simp] lemma record_quarantined (raw bytes : ℕ) (memory undone : Bool) :
    (s.record type raw bytes memory undone).2.quarantined = s.quarantined := by
  unfold record
  dsimp only
  split_ifs <;> rfl

/-- A create selector whose object pins nothing of its own. -/
lemma Books.create (hs : s.Books) {answer : Option ℕ}
    (hfresh : ∀ raw, answer = some raw → type = .mr ∨ type = .mw → raw ∉ s.tokens.owned .mr) (memory undone : Bool) :
    (s.create type answer memory undone).Books := by
  unfold QuotaClient.create
  dsimp only
  cases hgranted : (s.quotaReserve (quotasOf (.ofType type))).1 with
  | false =>
      rw [if_pos rfl, quotaReserve_refused hgranted]
      exact hs
  | true =>
      rw [if_neg Bool.false_ne_true.symm]
      cases answer with
      | none =>
          dsimp only
          rw [quotaRelease_reserve (List.reverse_perm _) hgranted]
          exact hs
      | some raw =>
          have hpinned : ((s.quotaReserve (quotasOf (.ofType type))).2.record type raw 0 memory undone).2.pinned =
              s.pinned := by
            rw [pinned_record (s := (s.quotaReserve (quotasOf (.ofType type))).2) (hfresh raw rfl), ite_self]
            rfl
          exact {
            exact := exact_record hs.exact hgranted raw 0 memory undone rfl
            pinned_le := by
              rw [hpinned, record_pinnedBytes]
              exact hs.pinned_le
            charged := by
              rw [hpinned, record_pinnedBytes, record_quarantined]
              exact hs.charged
            within := by
              rw [record_pinnedBytes]
              exact hs.within }

/-- A device in quarantine. -/
lemma Books.setQuarantined (hs : s.Books) {quarantined : Bool} (h : quarantined = false → s.quarantined = false) :
    { s with quarantined := quarantined }.Books :=
  ⟨hs.exact, hs.pinned_le, fun hq => hs.charged (h hq), hs.within⟩

/-- The device made a region under a reservation of bytes. -/
lemma Books.regRecorded {t : QuotaClient} (hs : s.Books) {bytes : ℕ}
    (ht : t = { s with pinnedBytes := s.pinnedBytes + bytes }) (hfit : s.pinnedBytes + bytes ≤ pinnedBytesPerClient)
    (hgranted : (t.quotaReserve (quotasOf (.ofType .mr))).1 = true) {raw : ℕ} (hfresh : raw ∉ s.tokens.owned .mr)
    {memory undone : Bool} {made : Bool × QuotaClient}
    (hrecord : (t.quotaReserve (quotasOf (.ofType .mr))).2.record .mr raw bytes memory undone = made) :
    (if made.1 = true then made.2
      else if undone = true then made.2.pinRelease bytes
      else { made.2 with quarantined := true }).Books := by
  have hexact : Budget.Exact t.limit quotasOf t.quota t.count := by
    rw [ht]
    exact hs.exact
  have hlists : (t.quotaReserve (quotasOf (.ofType .mr))).2.tokens = s.tokens := by
    rw [quotaReserve, ht]
  have hmade : Budget.Exact made.2.limit quotasOf made.2.quota made.2.count :=
    exact_record hexact hgranted raw bytes memory undone (congrArg Prod.snd hrecord)
  have hbytes : made.2.pinnedBytes = s.pinnedBytes + bytes := by
    rw [← hrecord, record_pinnedBytes, quotaReserve, ht]
  have hclear : made.2.quarantined = s.quarantined := by
    rw [← hrecord, record_quarantined, quotaReserve, ht]
  have hpinned : made.2.pinned = s.pinned + if made.1 = true then bytes else 0 := by
    have hbefore : (t.quotaReserve (quotasOf (.ofType .mr))).2.pinned = s.pinned := by
      rw [pinned, quotaReserve, ht]
      rfl
    rw [← hrecord, pinned_record (fun _ => hlists ▸ hfresh), hbefore]
    simp only [and_true]
  split_ifs with hkept hundone
  · rw [if_pos hkept] at hpinned
    refine ⟨hmade, ?_, fun hq => ?_, hbytes.trans_le hfit⟩
    · rw [hpinned, hbytes]
      exact Nat.add_le_add_right hs.pinned_le bytes
    · rw [hpinned, hbytes, hs.charged (hclear ▸ hq)]
  · rw [if_neg hkept, Nat.add_zero] at hpinned
    have hreturned : (made.2.pinRelease bytes).pinnedBytes = s.pinnedBytes := by
      rw [pinRelease, hbytes, sub64_pinned hfit]
    refine ⟨hmade, ?_, fun hq => ?_, hreturned.trans_le hs.within⟩
    · exact hpinned.le.trans (hs.pinned_le.trans hreturned.ge)
    · exact hreturned.trans ((hs.charged (hclear ▸ hq)).trans hpinned.symm)
  · rw [if_neg hkept, Nat.add_zero] at hpinned
    refine ⟨hmade, ?_, fun hq => absurd hq.symm Bool.false_ne_true, hbytes.trans_le hfit⟩
    exact hpinned.le.trans (hs.pinned_le.trans (hbytes ▸ Nat.le_add_right _ _))

/-- The registration of a region under its reservation of bytes. -/
lemma Books.regPinned {t : QuotaClient} (hs : s.Books) {bytes : ℕ}
    (ht : t = { s with pinnedBytes := s.pinnedBytes + bytes }) (hfit : s.pinnedBytes + bytes ≤ pinnedBytesPerClient) {answer : Option ℕ}
    (hfresh : ∀ raw, answer = some raw → raw ∉ s.tokens.owned .mr) (mapped memory undone fault : Bool) :
    (t.regPinned bytes mapped answer memory undone fault).Books := by
  have hback : t.pinRelease bytes = s := by
    rw [ht, pinRelease]
    dsimp only
    rw [sub64_pinned hfit]
  -- the bytes stay when the device is in quarantine
  have hstays : { t with quarantined := true }.Books := by
    rw [ht]
    exact ⟨hs.exact, hs.pinned_le.trans (Nat.le_add_right _ _), fun hq => absurd hq.symm Bool.false_ne_true, hfit⟩
  unfold QuotaClient.regPinned
  dsimp only
  cases hgranted : (t.quotaReserve (quotasOf (.ofType .mr))).1 with
  | false =>
      rw [if_pos rfl, quotaReserve_refused hgranted, hback]
      exact hs
  | true =>
      have hreleased := quotaRelease_reserve (List.reverse_perm _) hgranted
      rw [if_neg Bool.false_ne_true.symm]
      by_cases hmapped : mapped = false
      · rw [if_pos hmapped, hreleased, hback]
        exact hs
      rw [if_neg hmapped]
      cases answer with
      | none =>
          dsimp only
          generalize hq : ((t.quotaReserve (quotasOf (.ofType .mr))).2.quarantined || fault) = quarantined
          have hset : { (t.quotaReserve (quotasOf (.ofType .mr))).2 with quarantined := quarantined }.quotaRelease
              (quotasOf (.ofType .mr)).reverse = { t with quarantined := quarantined } :=
            congrArg (fun t : QuotaClient => { t with quarantined := quarantined }) hreleased
          rw [hset]
          cases quarantined with
          | true => exact hstays
          | false =>
              have hclear : s.quarantined = false := by
                have ht' : t.quarantined = s.quarantined := by rw [ht]
                exact ht'.symm.trans (Bool.or_eq_false_iff.mp hq).1
              have hsame : { t with quarantined := false }.pinRelease bytes = { s with quarantined := false } :=
                congrArg (fun t : QuotaClient => { t with quarantined := false }) hback
              rw [if_neg Bool.false_ne_true, hsame]
              exact hs.setQuarantined fun _ => hclear
      | some raw =>
          dsimp only
          exact hs.regRecorded ht hfit hgranted (hfresh raw rfl) rfl

/-- The registration of a region. -/
lemma Books.regMR (hs : s.Books) {req : RegMrReq} {answer : Option ℕ}
    (hfresh : ∀ raw, answer = some raw → raw ∉ s.tokens.owned .mr) (mapped memory undone fault : Bool) :
    (s.regMR req mapped answer memory undone fault).Books := by
  unfold QuotaClient.regMR
  dsimp only
  split_ifs with hbad hrefused
  · exact hs
  · rw [pinReserve_refused hrefused]
    exact hs
  · obtain ⟨hfit, heq⟩ := pinReserve_granted ((Bool.not_eq_false _).mp hrefused)
    exact hs.regPinned heq hfit hfresh mapped memory undone fault

/-! ### Destroying -/

lemma ownsToken_iff {token : ℕ} : s.ownsToken type token = true ↔
    s.tokens.tokenResolve token type ≠ 0 ∧ s.tokens.tokenResolve token type ∈ s.tokens.owned type := by
  rw [ownsToken, Bool.and_eq_true, decide_eq_true_eq, decide_eq_true_eq]

/-- When a destroy selector releases the quotas. -/
lemma destroys_iff {token : ℕ} {blocked done : Bool} : s.tokens.Destroys type token blocked done ↔
    s.ownsToken type token = true ∧ blocked = false ∧ done = true := by
  rw [ownsToken_iff, and_assoc]
  rfl

/-- The lists after a destroy selector. -/
lemma owned_destroy {token : ℕ} {blocked done memory : Bool} (hother : type ≠ .pd → type ≠ .cq → blocked = false)
    (hback : type ≠ .srq → s.PutsBack type token blocked done → memory = true) :
    (s.ownsToken type token = true ∧ blocked = false ∧ done = true ∧
        (s.tokens.destroy type token blocked done memory).owned = Function.update s.tokens.owned type
          ((s.tokens.owned type).erase (s.tokens.tokenResolve token type))) ∨
      (¬(s.ownsToken type token = true ∧ blocked = false ∧ done = true) ∧
        ∀ type', ((s.tokens.destroy type token blocked done memory).owned type').Perm (s.tokens.owned type')) := by
  by_cases hdestroys : s.tokens.Destroys type token blocked done
  · obtain ⟨hown, hblocked, hdone⟩ := destroys_iff.mp hdestroys
    exact .inl ⟨hown, hblocked, hdone, (TokenClient.destroy_done memory hdestroys).2⟩
  · refine .inr ⟨fun h => hdestroys (destroys_iff.mpr h), ?_⟩
    exact TokenClient.owned_destroy_kept hdestroys hother fun hne howned hsrq hputs =>
      hback hsrq ⟨ownsToken_iff.mpr ⟨hne, howned⟩, hputs⟩

/-- The counters after a destroy selector. -/
lemma exact_destroy (h : Budget.Exact s.limit quotasOf s.quota s.count) {token : ℕ} {blocked done memory : Bool}
    (hother : type ≠ .pd → type ≠ .cq → blocked = false)
    (hback : type ≠ .srq → s.PutsBack type token blocked done → memory = true) {t : QuotaClient}
    (ht : s.destroy type token blocked done memory = t) : Budget.Exact t.limit quotasOf t.quota t.count := by
  subst ht
  unfold QuotaClient.destroy
  dsimp only
  rcases owned_destroy hother hback with ⟨hown, hblocked, hdone, howned⟩ | ⟨hno, howned⟩
  · rw [if_pos ⟨hown, hblocked, hdone⟩]
    have hmem := (ownsToken_iff.mp hown).2
    have hcount : s.count = Function.update
        { s with tokens := s.tokens.destroy type token blocked done memory }.count (.ofType type)
        ({ s with tokens := s.tokens.destroy type token blocked done memory }.count (.ofType type) + 1) := by
      refine count_succ ?_ fun k hk => ?_
      · dsimp only [list]
        rw [howned, Function.update_self, List.length_erase_of_mem hmem,
          Nat.sub_add_cancel (List.length_pos_of_mem hmem)]
      · cases k with
        | ofType type' =>
            dsimp only [list]
            rw [howned, Function.update_of_ne fun heq => hk (congrArg Kind.ofType heq)]
        | ah => rfl
        | gid => rfl
    rw [hcount] at h
    exact h.shrink (List.reverse_perm _)
  · rw [if_neg hno]
    have hcount : { s with tokens := s.tokens.destroy type token blocked done memory }.count = s.count :=
      count_congr (list_perm rfl rfl howned)
    rw [hcount]
    exact h

/-- The destruction of an object that pins nothing. -/
lemma Books.destroy (hs : s.Books) (hmr : type ≠ .mr) {token : ℕ} {blocked done memory : Bool}
    (hother : type ≠ .pd → type ≠ .cq → blocked = false)
    (hback : type ≠ .srq → s.PutsBack type token blocked done → memory = true) :
    (s.destroy type token blocked done memory).Books := by
  have hexact := exact_destroy hs.exact hother hback rfl
  have hregions : ((s.tokens.destroy type token blocked done memory).owned .mr).Perm (s.tokens.owned .mr) := by
    rcases owned_destroy hother hback with ⟨-, -, -, howned⟩ | ⟨-, howned⟩
    · rw [howned, Function.update_of_ne hmr.symm]
    · exact howned .mr
  have hpinned : (s.destroy type token blocked done memory).pinned = s.pinned := by
    unfold QuotaClient.destroy
    dsimp only
    split_ifs <;> exact tally_perm _ hregions
  have hsame : (s.destroy type token blocked done memory).pinnedBytes = s.pinnedBytes ∧
      (s.destroy type token blocked done memory).quarantined = s.quarantined := by
    unfold QuotaClient.destroy
    dsimp only
    split_ifs <;> exact ⟨rfl, rfl⟩
  refine ⟨hexact, ?_, fun hq => ?_, ?_⟩
  · rw [hpinned, hsame.1]
    exact hs.pinned_le
  · rw [hpinned, hsame.1]
    exact hs.charged (hsame.2 ▸ hq)
  · rw [hsame.1]
    exact hs.within

/-- The deregistration of a region. -/
lemma Books.deregMR (hs : s.Books) {token : ℕ} {done memory : Bool}
    (hback : s.PutsBack .mr token false done → memory = true) :
    (s.deregMR token done memory).Books := by
  have hexact : Budget.Exact (s.destroy .mr token false done memory).limit quotasOf
      (s.destroy .mr token false done memory).quota (s.destroy .mr token false done memory).count :=
    exact_destroy hs.exact (fun _ _ => rfl) (fun _ => hback) rfl
  unfold QuotaClient.deregMR
  dsimp only
  unfold QuotaClient.destroy at hexact ⊢
  dsimp only at hexact ⊢
  rcases @owned_destroy s .mr token false done memory (fun _ _ => rfl) (fun _ => hback) with
    ⟨hown, -, hdone, howned⟩ | ⟨hno, howned⟩
  · have hreleases : s.ownsToken .mr token = true ∧ false = false ∧ done = true := ⟨hown, rfl, hdone⟩
    have hunpins : s.ownsToken .mr token = true ∧ done = true := ⟨hown, hdone⟩
    rw [if_pos hreleases] at hexact
    rw [if_pos hunpins, if_pos hreleases]
    have hsum := tally_erase s.chargedBytes (ownsToken_iff.mp hown).2
    have hle : s.chargedBytes (s.tokens.tokenResolve token .mr) ≤ s.pinnedBytes :=
      (Nat.le_add_left _ _).trans (hsum.trans_le hs.pinned_le)
    have hbytes : sub64 s.pinnedBytes (s.chargedBytes (s.tokens.tokenResolve token .mr)) =
        s.pinnedBytes - s.chargedBytes (s.tokens.tokenResolve token .mr) :=
      sub64_of_le hle (hs.within.trans_lt (by decide))
    have hpinned : tally s.chargedBytes ((s.tokens.destroy .mr token false done memory).owned .mr) +
        s.chargedBytes (s.tokens.tokenResolve token .mr) = s.pinned := by
      rw [howned, Function.update_self, hsum]
      rfl
    refine ⟨hexact, ?_, fun hq => ?_, ?_⟩
    · refine (Nat.le_sub_of_add_le ?_).trans hbytes.ge
      exact hpinned.trans_le hs.pinned_le
    · refine hbytes.trans ?_
      rw [hs.charged hq, ← hpinned, Nat.add_sub_cancel]
      rfl
    · exact hbytes.trans_le ((Nat.sub_le _ _).trans hs.within)
  · have hkeeps : ¬(s.ownsToken .mr token = true ∧ done = true) := fun h => hno ⟨h.1, rfl, h.2⟩
    rw [if_neg hno] at hexact
    rw [if_neg hkeeps, if_neg hno]
    have hpinned := tally_perm s.chargedBytes (howned .mr)
    exact ⟨hexact, hpinned.trans_le hs.pinned_le, fun hq => (hs.charged hq).trans hpinned.symm, hs.within⟩

/-! ### Address handles and GIDs -/

/-- A client with another list of address handles or of GIDs. -/
lemma list_setList (gid : Bool) (l : List ℕ) (k : Kind) :
    (s.setList gid l).list k = if k = listed gid then l else s.list k := by
  cases gid <;> rcases k with type | _ | _ <;> rfl

lemma Books.of_listed (hs : s.Books) (gid : Bool) (l : List ℕ) (quota : Quota → ℕ)
    (hexact : Budget.Exact s.limit quotasOf quota (s.setList gid l).count) :
    { s.setList gid l with quota := quota }.Books := by
  cases gid <;> exact ⟨hexact, hs.pinned_le, hs.charged, hs.within⟩

/-- A create selector. -/
lemma Books.createListed (hs : s.Books) (gid : Bool) (answer : Option ℕ) (memory : Bool) :
    (s.createListed gid answer memory).Books := by
  unfold QuotaClient.createListed
  dsimp only
  cases hgranted : (s.quotaReserve (quotasOf (listed gid))).1 with
  | false =>
      rw [if_pos rfl, quotaReserve_refused hgranted]
      exact hs
  | true =>
      rw [if_neg Bool.false_ne_true.symm]
      have hreleased := quotaRelease_reserve (.refl (quotasOf (listed gid))) hgranted
      cases answer with
      | none =>
          dsimp only
          rw [hreleased]
          exact hs
      | some handle =>
          dsimp only
          split_ifs with hmemory
          · have hcount : (s.setList gid (s.list (listed gid) ++ [handle])).count =
                Function.update s.count (listed gid) (s.count (listed gid) + 1) := by
              refine count_succ ?_ fun k hk => ?_
              · rw [list_setList, if_pos rfl, List.length_append, List.length_singleton]
              · rw [list_setList, if_neg hk]
            have hgrown := hs.exact.grow hgranted
            rw [← hcount] at hgrown
            have hbooks := hs.of_listed gid _ _ hgrown
            cases gid <;> exact hbooks
          · rw [hreleased]
            exact hs

/-- An object leaves its list, and its unit is released. -/
lemma Books.unlisted (hs : s.Books) (gid : Bool) {handle : ℕ} (hmem : handle ∈ s.list (listed gid)) :
    ((s.setList gid ((s.list (listed gid)).erase handle)).quotaRelease (quotasOf (listed gid))).Books := by
  have hcount : s.count = Function.update (s.setList gid ((s.list (listed gid)).erase handle)).count (listed gid)
      ((s.setList gid ((s.list (listed gid)).erase handle)).count (listed gid) + 1) := by
    refine count_succ ?_ fun k hk => ?_
    · rw [list_setList, if_pos rfl, List.length_erase_of_mem hmem,
        Nat.sub_add_cancel (List.length_pos_of_mem hmem)]
    · rw [list_setList, if_neg hk]
  have hshrunk := hs.exact
  rw [hcount] at hshrunk
  have hbooks := hs.of_listed gid _ _ (hshrunk.shrink (.refl (quotasOf (listed gid))))
  cases gid <;> exact hbooks

/-- A destroy selector. -/
lemma Books.destroyListed (hs : s.Books) (gid : Bool) {handle : ℕ} {done memory : Bool}
    (hback : handle ∈ s.list (listed gid) ∧ done = false → memory = true) :
    (s.destroyListed gid handle done memory).Books := by
  unfold QuotaClient.destroyListed
  dsimp only
  split_ifs with hmem hdone hmemory
  · exact hs.unlisted gid hmem
  · have hcount : (s.setList gid ((s.list (listed gid)).erase handle ++ [handle])).count = s.count := by
      refine count_congr fun k => ?_
      rw [list_setList]
      split_ifs with hk
      · rw [hk]
        exact (List.perm_append_singleton handle _).trans (List.perm_cons_erase hmem).symm
      · exact .refl _
    have hbooks := hs.of_listed gid ((s.list (listed gid)).erase handle ++ [handle]) s.quota (by
      rw [hcount]
      exact hs.exact)
    cases gid <;> exact hbooks
  · exact absurd (hback ⟨hmem, (Bool.not_eq_true _).mp hdone⟩) hmemory
  · exact hs

/-- A GID is given up, or not. -/
lemma Books.setGid (hs : s.Books) (req : SetGidReq) (done : Bool) : (s.setGid req done).Books := by
  unfold QuotaClient.setGid
  split_ifs with hmem
  · exact hs
  · exact hs
  · exact hs.unlisted true hmem
  · exact hs

/-! ### The device -/

/-- The same client with other limits. -/
lemma Books.limits (hs : s.Books) {device : DeviceLimits} (h : s.Fits device) : { s with device := device }.Books :=
  ⟨⟨hs.exact.counted, h⟩, hs.pinned_le, hs.charged, hs.within⟩

/-- The device was initialised again. -/
lemma Books.reinit (hs : s.Books) (gone : Bool) {device : DeviceLimits} (h : s.Fits device) :
    (s.reinit gone device).Books := by
  cases gone with
  | false => exact hs.limits h
  | true => exact ⟨⟨hs.exact.counted, h⟩, hs.pinned_le, hs.charged, hs.within⟩

/-- The client has a fast path: it had no queues, so nothing was above the new limits. -/
lemma Books.enableFastPath (hs : s.Books) (allocated : Bool) : (s.enableFastPath allocated).Books := by
  unfold QuotaClient.enableFastPath
  split_ifs with hbusy hallocated
  · exact hs
  · rw [not_or, not_or, not_or, not_not, not_not] at hbusy
    obtain ⟨-, -, hqp, hcq⟩ := hbusy
    have hcounted (q : Quota) : s.quota q = s.held q := by rw [held_eq, hs.exact.counted]
    refine ⟨⟨hs.exact.counted, fun q => ?_⟩, hs.pinned_le, hs.charged, hs.within⟩
    cases q with
    | qp | cq | dbRecords =>
        rw [hcounted]
        simp [held, hqp, hcq]
    | pd => exact hs.exact.within .pd
    | mr => exact hs.exact.within .mr
    | mw => exact hs.exact.within .mw
    | mkeys => exact hs.exact.within .mkeys
    | ah => exact hs.exact.within .ah
    | gid => exact hs.exact.within .gid
  · exact hs

/-! ## Every step and every run -/

/-- Every step that meets the condition keeps the books. -/
theorem Books.step (hs : s.Books) {op : QuotaOp} (hfresh : s.KeyFresh op) (hkeeps : s.Keeps op)
    (h : s.step op = some s') : s'.Books := by
  cases op with
  | allocPD answer memory undone =>
      obtain rfl := Option.some.inj h
      exact hs.create (fun _ _ hkey => by simp at hkey) memory undone
  | createCQ answer memory undone =>
      obtain rfl := Option.some.inj h
      exact hs.create (fun _ _ hkey => by simp at hkey) memory undone
  | createQP req answer memory undone =>
      obtain rfl := Option.some.inj h
      unfold QuotaClient.createQP
      split_ifs
      · exact hs
      · exact hs
      · exact hs
      · exact hs.create (fun _ _ hkey => by simp at hkey) memory undone
  | createSrq pd answer memory undone =>
      obtain rfl := Option.some.inj h
      unfold QuotaClient.createSrq
      split_ifs
      · exact hs
      · exact hs.create (fun _ _ hkey => by simp at hkey) memory undone
  | allocMW pd windowType answer memory undone =>
      obtain rfl := Option.some.inj h
      unfold QuotaClient.allocMW
      split_ifs
      · exact hs
      · exact hs.create (fun raw hraw _ => by subst hraw; exact hfresh) memory undone
  | regMRIndirect pd startAddr length childHandles answer memory undone =>
      obtain rfl := Option.some.inj h
      unfold QuotaClient.regMRIndirect
      split_ifs
      · exact hs
      · exact hs
      · exact hs.create (fun raw hraw _ => by subst hraw; exact hfresh) memory undone
  | regMR req mapped answer memory undone fault =>
      obtain rfl := Option.some.inj h
      exact hs.regMR (fun raw hraw => by subst hraw; exact hfresh) mapped memory undone fault
  | deallocPD token blocked done memory =>
      obtain rfl := Option.some.inj h
      exact hs.destroy (by decide) (fun hpd => absurd rfl hpd) fun _ => hkeeps
  | destroyCQ token blocked done memory =>
      obtain rfl := Option.some.inj h
      exact hs.destroy (by decide) (fun _ hcq => absurd rfl hcq) fun _ => hkeeps
  | destroyQP token done memory =>
      obtain rfl := Option.some.inj h
      exact hs.destroy (by decide) (fun _ _ => rfl) fun _ => hkeeps
  | destroySrq token done memory =>
      obtain rfl := Option.some.inj h
      exact hs.destroy (by decide) (fun _ _ => rfl) fun hsrq => absurd rfl hsrq
  | deallocMW token done memory =>
      obtain rfl := Option.some.inj h
      exact hs.destroy (by decide) (fun _ _ => rfl) fun _ => hkeeps
  | deregMR token done memory =>
      obtain rfl := Option.some.inj h
      exact hs.deregMR hkeeps
  | createAH answer memory =>
      obtain rfl := Option.some.inj h
      exact hs.createListed false answer memory
  | getGidIndex answer memory =>
      obtain rfl := Option.some.inj h
      exact hs.createListed true answer memory
  | destroyAH handle done memory =>
      obtain rfl := Option.some.inj h
      exact hs.destroyListed false hkeeps
  | delGid index done memory =>
      obtain rfl := Option.some.inj h
      exact hs.destroyListed true hkeeps
  | setGid req done =>
      obtain rfl := Option.some.inj h
      exact hs.setGid req done
  | enableFastPath allocated =>
      obtain rfl := Option.some.inj h
      exact hs.enableFastPath allocated
  | fwReinit device =>
      obtain rfl := Option.some.inj h
      unfold QuotaClient.fwReinit
      split_ifs with hbusy
      · exact hs
      · exact hs.reinit true (hkeeps ((Bool.not_eq_true _).mp hbusy))
  | stableInitCycle gone device =>
      obtain rfl := Option.some.inj h
      unfold QuotaClient.stableInitCycle
      split_ifs with hbusy
      · exact hs
      · rw [not_or, not_or, not_not, Bool.not_eq_true, Bool.not_eq_true] at hbusy
        exact hs.reinit gone (hkeeps hbusy)
  | elsewhere =>
      obtain rfl := Option.some.inj h
      exact ⟨hs.exact, hs.pinned_le, hs.charged, hs.within⟩
  | limits device =>
      obtain rfl := Option.some.inj h
      exact hs.limits hkeeps
  | quarantine =>
      obtain rfl := Option.some.inj h
      exact hs.setQuarantined fun hq => absurd hq.symm Bool.false_ne_true

/-- A unit is taken for a record that is lost. -/
lemma not_exact_of_lost {token : ℕ} {blocked done : Bool} (hs : s.Books)
    (hq : ∀ t : QuotaClient, t.held q = (t.tokens.owned type).length) (hsrq : type ≠ .srq)
    (hputs : s.PutsBack type token blocked done) : ¬(s.destroy type token blocked done false).QuotasExact := by
  obtain ⟨hown, hback⟩ := hputs
  obtain ⟨hne, hmem⟩ := ownsToken_iff.mp hown
  have howned := TokenClient.owned_destroy_lost hne hmem hsrq hback
  have hno : ¬(s.ownsToken type token = true ∧ blocked = false ∧ done = true) := by
    rintro ⟨-, rfl, rfl⟩
    rcases hback with ⟨-, hblocked⟩ | ⟨-, hdone⟩
    · exact Bool.false_ne_true hblocked
    · exact Bool.false_ne_true hdone.symm
  have hbefore : s.quota q = (s.tokens.owned type).length := by rw [← hq, held_eq, hs.exact.counted]
  unfold QuotaClient.destroy
  dsimp only
  rw [if_neg hno]
  intro h
  have hafter := h.counted q
  rw [hq] at hafter
  dsimp only at hafter
  rw [howned, Function.update_self, List.length_erase_of_mem hmem, hbefore] at hafter
  have hpos := List.length_pos_of_mem hmem
  omega

/-- So it is for address handles and GIDs. -/
lemma not_exact_of_unlisted (hs : s.Books) (gid : Bool) {handle : ℕ}
    (hq : ∀ t : QuotaClient, t.held q = (t.list (listed gid)).length) (hmem : handle ∈ s.list (listed gid)) :
    ¬(s.destroyListed gid handle false false).QuotasExact := by
  have hbefore : s.quota q = (s.list (listed gid)).length := by rw [← hq, held_eq, hs.exact.counted]
  unfold QuotaClient.destroyListed
  dsimp only
  rw [if_neg (not_not.mpr hmem), if_neg Bool.false_ne_true, if_neg Bool.false_ne_true]
  intro h
  have hafter := h.counted q
  have hquota : (s.setList gid ((s.list (listed gid)).erase handle)).quota q = s.quota q := by cases gid <;> rfl
  rw [hq, list_setList, if_pos rfl, List.length_erase_of_mem hmem, hquota, hbefore] at hafter
  have hpos := List.length_pos_of_mem hmem
  omega

/-- A step after which the counters are exact meets the condition. -/
theorem Books.keeps_of_exact (hs : s.Books) {op : QuotaOp} (h : s.step op = some s') (hexact : s'.QuotasExact) :
    s.Keeps op := by
  cases op with
  | deallocPD token blocked done memory =>
      obtain rfl := Option.some.inj h
      intro hputs
      by_contra hmemory
      obtain rfl := (Bool.not_eq_true _).mp hmemory
      exact not_exact_of_lost hs (q := .pd) (fun _ => rfl) (by decide) hputs hexact
  | destroyCQ token blocked done memory =>
      obtain rfl := Option.some.inj h
      intro hputs
      by_contra hmemory
      obtain rfl := (Bool.not_eq_true _).mp hmemory
      exact not_exact_of_lost hs (q := .cq) (fun _ => rfl) (by decide) hputs hexact
  | destroyQP token done memory =>
      obtain rfl := Option.some.inj h
      intro hputs
      by_contra hmemory
      obtain rfl := (Bool.not_eq_true _).mp hmemory
      exact not_exact_of_lost hs (q := .qp) (fun _ => rfl) (by decide) hputs hexact
  | deallocMW token done memory =>
      obtain rfl := Option.some.inj h
      intro hputs
      by_contra hmemory
      obtain rfl := (Bool.not_eq_true _).mp hmemory
      exact not_exact_of_lost hs (q := .mw) (fun _ => rfl) (by decide) hputs hexact
  | deregMR token done memory =>
      obtain rfl := Option.some.inj h
      intro hputs
      by_contra hmemory
      obtain rfl := (Bool.not_eq_true _).mp hmemory
      have hdone : done = false := by
        rcases hputs.2 with ⟨hcq, -⟩ | ⟨-, hdone⟩
        · exact absurd hcq (by decide)
        · exact hdone
      subst hdone
      have hsame : s.deregMR token false false = s.destroy .mr token false false false := by
        unfold QuotaClient.deregMR
        exact if_neg fun hdone => Bool.false_ne_true hdone.2
      rw [hsame] at hexact
      exact not_exact_of_lost hs (q := .mr) (fun _ => rfl) (by decide) hputs hexact
  | destroyAH handle done memory =>
      obtain rfl := Option.some.inj h
      rintro ⟨hmem, rfl⟩
      by_contra hmemory
      obtain rfl := (Bool.not_eq_true _).mp hmemory
      exact not_exact_of_unlisted hs false (q := .ah) (fun _ => rfl) hmem hexact
  | delGid index done memory =>
      obtain rfl := Option.some.inj h
      rintro ⟨hmem, rfl⟩
      by_contra hmemory
      obtain rfl := (Bool.not_eq_true _).mp hmemory
      exact not_exact_of_unlisted hs true (q := .gid) (fun _ => rfl) hmem hexact
  | fwReinit device =>
      obtain rfl := Option.some.inj h
      intro hbusy
      have hsame : s.fwReinit device = s.reinit true device := if_neg ((Bool.not_eq_true _).mpr hbusy)
      rw [hsame] at hexact
      exact hexact.within
  | stableInitCycle gone device =>
      obtain rfl := Option.some.inj h
      rintro ⟨hpd, hbundle, hbusy⟩
      have hsame : s.stableInitCycle gone device = s.reinit gone device :=
        if_neg (not_or.mpr ⟨not_not.mpr hpd, not_or.mpr ⟨(Bool.not_eq_true _).mpr hbundle,
          (Bool.not_eq_true _).mpr hbusy⟩⟩)
      rw [hsame] at hexact
      exact hexact.within
  | limits device =>
      obtain rfl := Option.some.inj h
      exact hexact.within
  | _ => trivial

/-- A new client's books. -/
lemma books_init (tokenGen hostPage : ℕ) (entitledQuotas : Bool) (device : DeviceLimits) (quarantined : Bool) :
    (init tokenGen hostPage entitledQuotas device quarantined).Books where
  exact := ⟨by rw [← held_eq]; funext q; cases q <;> rfl, fun _ => Nat.zero_le _⟩
  pinned_le := le_rfl
  charged := fun _ => rfl
  within := Nat.zero_le _

end

end QuotaClient

/-- A new client of a device whose capabilities were not read. -/
def newClient : QuotaClient := .init 1 16384 false ⟨0, 0, 0, some 32⟩ false

/-- The client gets objects of most kinds. A destruction is refused and the record put back, and the capabilities are
read. -/
def sparedDomain : List QuotaOp :=
  [.allocPD (some 5) true true, .createCQ (some 6) true true, .createSrq 512 (some 7) true true,
    .createQP ⟨512, 4195328, 4195328, 0, 64, 64, 0, 0, 0, 0, 0⟩ (some 8) true true,
    .regMR ⟨512, 4096, 4096, 0⟩ true (some 9) true true false, .createAH (some 10) true,
    .getGidIndex (some 11) true, .deallocPD 512 false false true, .limits ⟨1024, 1024, 4096, some 32⟩]

end MelonDMA.UserClient
