import MelonDMA.Lib.Runs
import MelonDMA.Verbs.AsyncObjects

/-!
# Runs of asynchronous events and their clients

Any number of clients create and destroy objects and ask for events, while the device queues events, in any
order.

* `async_events_served`: a call takes the oldest event of its client, the others keep their order, none is
  lost, and the object the event names is reported, exactly unless that event is about a queue pair.
* `qp_event_is_not_reported`: an event about a queue pair is taken and not reported.
-/

namespace MelonDMA.Verbs

open MelonDMA.Lib MelonDMA.Core UserClient

/-! ## The tokens of live objects -/

section Tokens

variable {s : TokenClient} {type type' : TokenType} {token token' raw i : ℕ} {memory undone : Bool}

lemma addOwned_token : (s.addOwned type raw memory).token = s.token := by
  unfold TokenClient.addOwned
  split_ifs <;> rfl

lemma objectDestroyed_token : (s.objectDestroyed type raw undone).token = s.token := by
  unfold TokenClient.objectDestroyed
  split_ifs <;> rfl

/-- A slot in use is not written by a minting. -/
lemma tokenCreate_token (hused : (s.token type' i).used = true) :
    (s.tokenCreate type raw).2.token type' i = s.token type' i := by
  unfold TokenClient.tokenCreate
  by_cases hraw : raw = 0
  · rw [if_pos hraw]
  · rw [if_neg hraw]
    cases hfree : s.freeSlot type with
    | none => rfl
    | some j =>
        apply TokenClient.setSlot_of_ne
        rintro ⟨rfl, rfl⟩
        exact Bool.noConfusion (hused.symm.trans (TokenClient.freeSlot_spec hfree).2)

/-- A create selector of any type but a protection domain. -/
lemma create_eq (htype : type ≠ .pd) :
    s.create type raw memory undone =
      if ((s.objectCreated type raw).tokenCreate type raw).1 = 0 ∨ memory = false then
        ((s.objectCreated type raw).tokenCreate type raw).2.objectDestroyed type raw undone
      else ((s.objectCreated type raw).tokenCreate type raw).2.addOwned type raw memory := by
  cases type with
  | pd => exact absurd rfl htype
  | qp => rfl
  | cq => rfl
  | mr => rfl
  | mw => rfl
  | srq => rfl

/-- A create selector leaves the slots in use alone. -/
lemma create_token (hused : (s.token type' i).used = true) :
    (s.create type raw memory undone).token type' i = s.token type' i := by
  by_cases htype : type = .pd
  · subst htype
    have howned : (((s.objectCreated .pd raw).addOwned .pd raw memory).token type' i).used = true := by
      rw [addOwned_token]
      exact hused
    have hminted : ((((s.objectCreated .pd raw).addOwned .pd raw memory).tokenCreate .pd raw).2.token
        type' i) = s.token type' i := by
      rw [tokenCreate_token howned, addOwned_token]
      rfl
    unfold TokenClient.create
    dsimp only
    by_cases hraw : raw = 0
    · rw [if_pos hraw]
      rfl
    · rw [if_neg hraw]
      by_cases hmemory : memory = false
      · rw [if_pos hmemory, objectDestroyed_token]
        rfl
      · rw [if_neg hmemory]
        split_ifs
        · rw [objectDestroyed_token]
          exact hminted
        · exact hminted
  · have hcreated : ((s.objectCreated type raw).token type' i).used = true := hused
    rw [create_eq htype]
    split_ifs
    · rw [objectDestroyed_token]
      exact tokenCreate_token hcreated
    · rw [addOwned_token]
      exact tokenCreate_token hcreated

/-- A token names the same number while its slot is not written. -/
lemma tokenResolve_congr {s' : TokenClient}
    (hslot : s'.token type (tokenSlotOf token) = s.token type (tokenSlotOf token)) :
    s'.tokenResolve token type = s.tokenResolve token type := by
  unfold TokenClient.tokenResolve
  rw [hslot]

/-- Only the slot of the token that is dropped is written. -/
lemma tokenDrop_token (hne : ¬(type' = type ∧ i = tokenSlotOf token)) :
    (s.tokenDrop token type).token type' i = s.token type' i := by
  unfold TokenClient.tokenDrop
  dsimp only
  split_ifs
  · rfl
  · exact TokenClient.setSlot_of_ne _ hne
  · rfl

lemma destroyOwned_token {done : Bool} (hne : done = true → ¬(type' = type ∧ i = tokenSlotOf token)) :
    (s.destroyOwned type token raw done memory).token type' i = s.token type' i := by
  unfold TokenClient.destroyOwned
  by_cases hdone : done = true
  · rw [if_pos hdone, tokenDrop_token (hne hdone)]
    show ((s.removeOwned type raw).objectDestroyed type raw true).token type' i = _
    rw [objectDestroyed_token]
    rfl
  · rw [if_neg hdone, addOwned_token]
    rfl

/-- The slots that a destroy selector may write: that of its token, when the token names something of the
client, the device destroys it, and it is not in use. -/
lemma destroy_token {blocked done : Bool}
    (hne : s.tokenResolve token type ≠ 0 → s.tokenResolve token type ∈ s.owned type → done = true →
      ¬(type = .cq ∧ blocked = true) → ¬(type' = type ∧ i = tokenSlotOf token)) :
    (s.destroy type token blocked done memory).token type' i = s.token type' i := by
  unfold TokenClient.destroy
  dsimp only
  by_cases hrefused : s.tokenResolve token type = 0 ∨ s.tokenResolve token type ∉ s.owned type
  · rw [if_pos hrefused]
  · rw [if_neg hrefused]
    obtain ⟨hresolve, howned⟩ := not_or.mp hrefused
    rw [not_not] at howned
    cases type with
    | pd =>
        dsimp only
        split_ifs
        · rfl
        · exact destroyOwned_token fun hdone => hne hresolve howned hdone (by rintro ⟨⟨⟩, -⟩)
    | cq =>
        dsimp only
        split_ifs with hblocked
        · rw [addOwned_token]
          rfl
        · exact destroyOwned_token fun hdone => hne hresolve howned hdone fun hboth => hblocked hboth.2
    | srq =>
        dsimp only
        split_ifs
        · show (s.objectDestroyed .srq (s.tokenResolve token .srq) true).token type' i = _
          rw [objectDestroyed_token]
        · rfl
    | qp => exact destroyOwned_token fun hdone => hne hresolve howned hdone (by rintro ⟨⟨⟩, -⟩)
    | mr => exact destroyOwned_token fun hdone => hne hresolve howned hdone (by rintro ⟨⟨⟩, -⟩)
    | mw => exact destroyOwned_token fun hdone => hne hresolve howned hdone (by rintro ⟨⟨⟩, -⟩)

/-- Two tokens of one type that both name something and share a slot are one. -/
lemma token_eq_of_slot (h : s.tokenResolve token type ≠ 0) (h' : s.tokenResolve token' type ≠ 0)
    (hslot : tokenSlotOf token = tokenSlotOf token') : token = token' := by
  obtain ⟨hcode, -, hgen, -⟩ := TokenClient.tokenResolve_ne_zero h
  obtain ⟨hcode', -, hgen', -⟩ := TokenClient.tokenResolve_ne_zero h'
  rw [← tokenMake_parts hcode, ← tokenMake_parts hcode', hslot, ← hgen, ← hgen', hslot]

end Tokens

/-! ## A client's context fits its tokens -/

namespace AsyncClient

/-- Each object of the context has a token that names its number, the shim's lists are those of the
context, no two objects are one, and the private pointers are the shim's objects except for queue pairs,
where they are none of them. -/
structure Fits (c : AsyncClient) : Prop where
  resolve : ∀ kind, ∀ v ∈ c.context.objects kind,
    c.tokens.tokenResolve v.handle kind.tokenType = v.raw ∧ v.raw ≠ 0
  natives : ∀ kind, c.context.natives kind = (c.context.objects kind).map VerbsObject.toNative
  raws : ∀ kind, ((c.context.objects kind).map VerbsObject.raw).Nodup
  blocks : ∀ kind, ((c.context.objects kind).map VerbsObject.native).Nodup
  priv_eq : ∀ kind, kind ≠ .qp → ∀ v ∈ c.context.objects kind, v.priv = v.native
  priv_ne : ∀ v ∈ c.context.objects .qp, ∀ w ∈ c.context.objects .qp, v.priv ≠ w.native

/-- What holds of a client in every run. -/
structure ClientInv (c : AsyncClient) : Prop where
  tokens : ∃ g, c.tokens.Inv g
  fits : c.Fits

variable {c : AsyncClient} {kind : ObjectKind} {v w : VerbsObject}

/-- The number of a live object has the object's token. -/
lemma ClientInv.tokenForRaw_eq (h : c.ClientInv) (hv : v ∈ c.context.objects kind) :
    c.tokens.tokenForRaw kind.tokenType v.raw = v.handle := by
  obtain ⟨g, htokens⟩ := h.tokens
  obtain ⟨hresolve, hraw⟩ := h.fits.resolve kind v hv
  have hback := htokens.exact.forRaw_resolve kind.tokenType v.handle (hresolve ▸ hraw)
  rwa [hresolve] at hback

/-- A live object is one the client owns. -/
lemma ClientInv.owned (h : c.ClientInv) (hv : v ∈ c.context.objects kind) :
    v.raw ∈ c.tokens.owned kind.tokenType := by
  obtain ⟨g, htokens⟩ := h.tokens
  obtain ⟨hresolve, hraw⟩ := h.fits.resolve kind v hv
  obtain ⟨-, hused, -, heq⟩ := TokenClient.tokenResolve_ne_zero (hresolve ▸ hraw)
  exact (htokens.booked.owned_iff _ _).mpr ⟨_, hused, heq.symm.trans hresolve⟩

/-- Objects with one token are one. -/
lemma Fits.eq_of_handle (h : c.Fits) (hv : v ∈ c.context.objects kind) (hw : w ∈ c.context.objects kind)
    (heq : w.handle = v.handle) : w = v := by
  apply List.inj_on_of_nodup_map (h.raws kind) hw hv
  rw [← (h.resolve kind w hw).1, ← (h.resolve kind v hv).1, heq]

/-- The handle of a live object is not zero. -/
lemma Fits.handle_ne_zero (h : c.Fits) (hv : v ∈ c.context.objects kind) : v.handle ≠ 0 := by
  intro hzero
  obtain ⟨hresolve, hraw⟩ := h.resolve kind v hv
  obtain ⟨hcode, -⟩ := TokenClient.tokenResolve_ne_zero (hresolve ▸ hraw)
  rw [hzero] at hcode
  cases kind <;> cases hcode

/-- A search that only one element passes finds it. -/
lemma find?_of_unique {α : Type} {l : List α} {p : α → Bool} {a : α} (ha : a ∈ l) (hp : p a = true)
    (hunique : ∀ b ∈ l, p b = true → b = a) : l.find? p = some a := by
  cases hfind : l.find? p with
  | none => exact absurd hp (List.find?_eq_none.mp hfind a ha)
  | some b => rw [hunique b (List.mem_of_find?_eq_some hfind) (List.find?_some hfind)]

/-- The shim finds the object behind a live one. -/
lemma Fits.findNative (h : c.Fits) (hv : v ∈ c.context.objects kind) :
    c.context.findNative kind v.handle = some v.toNative := by
  unfold IbvContext.findNative
  rw [if_neg (h.handle_ne_zero hv), h.natives kind]
  refine find?_of_unique (List.mem_map_of_mem hv) (decide_eq_true rfl) ?_
  intro n hn htoken
  obtain ⟨w, hw, rfl⟩ := List.mem_map.mp hn
  rw [h.eq_of_handle hv hw (of_decide_eq_true htoken)]

/-- The element of an object event is found for a completion queue and a shared receive queue, and is not
for a queue pair. -/
lemma Fits.lookup (h : c.Fits) (hv : v ∈ c.context.objects kind) (event : AsyncEvent)
    (htype : event.elementType.tokenType = some kind.tokenType) (hhandle : event.elementHandle = v.handle) :
    c.context.lookupElement event =
      if kind = .qp then .error .noDevice else .ok (.object kind v.address) := by
  obtain ⟨eventType, elementType, handle⟩ := event
  dsimp only at hhandle
  subst hhandle
  cases kind with
  | cq =>
      obtain rfl : elementType = .cq := by cases elementType <;> cases htype; rfl
      have hcandidate : (c.context.objects .cq).find? (fun candidate => candidate.priv = v.native) =
          some v := by
        refine find?_of_unique hv (decide_eq_true (h.priv_eq .cq (by decide) v hv)) ?_
        intro w hw hpriv
        apply List.inj_on_of_nodup_map (h.blocks .cq) hw hv
        rw [← h.priv_eq .cq (by decide) w hw, of_decide_eq_true hpriv]
      unfold IbvContext.lookupElement
      dsimp only
      rw [h.findNative hv]
      dsimp only [VerbsObject.toNative]
      rw [hcandidate]
      rfl
  | qp =>
      obtain rfl : elementType = .qp := by cases elementType <;> cases htype; rfl
      have hcandidate : (c.context.objects .qp).find? (fun candidate => candidate.priv = v.native) =
          none := by
        rw [List.find?_eq_none]
        intro w hw hpriv
        exact h.priv_ne w hw v hv (of_decide_eq_true hpriv)
      unfold IbvContext.lookupElement
      dsimp only
      rw [h.findNative hv]
      dsimp only [VerbsObject.toNative]
      rw [hcandidate]
      rfl
  | srq =>
      obtain rfl : elementType = .srq := by cases elementType <;> cases htype; rfl
      have hcandidate : (c.context.objects .srq).find? (fun candidate => candidate.handle = v.handle) =
          some v :=
        find?_of_unique hv (decide_eq_true rfl) fun w hw heq => h.eq_of_handle hv hw (of_decide_eq_true heq)
      unfold IbvContext.lookupElement
      dsimp only
      rw [hcandidate]
      rfl

/-! ## Creating and destroying objects keep it -/

lemma tokenType_ne_pd (kind : ObjectKind) : kind.tokenType ≠ .pd := by
  cases kind <;> exact TokenType.noConfusion

lemma tokenType_inj {kind kind' : ObjectKind} (h : kind.tokenType = kind'.tokenType) : kind = kind' := by
  cases kind <;> cases kind' <;> first | rfl | cases h

/-- The token a create selector gives back names the number. -/
lemma createToken_resolve {raw : ℕ} {memory : Bool} {b : Blocks} (undone : Bool)
    (htoken : c.createToken kind raw memory ≠ 0) :
    raw ≠ 0 ∧ (c.createObject kind raw memory undone b).tokens.tokenResolve
      (c.createToken kind raw memory) kind.tokenType = raw := by
  unfold createToken at htoken ⊢
  cases memory with
  | false => exact absurd rfl htoken
  | true =>
      rw [if_pos rfl] at htoken ⊢
      have hraw : raw ≠ 0 := by
        rintro rfl
        exact htoken rfl
      cases hfree : (c.tokens.objectCreated kind.tokenType raw).freeSlot kind.tokenType with
      | none =>
          rw [TokenClient.tokenCreate_none hraw hfree] at htoken
          exact absurd rfl htoken
      | some i =>
          obtain ⟨hne, hminted⟩ := TokenClient.tokenCreate_some hraw hfree
          have hcreate : (c.createObject kind raw true undone b).tokens =
              (c.tokens.objectCreated kind.tokenType raw).mintedIn kind.tokenType raw i := by
            show c.tokens.create kind.tokenType raw true undone = _
            rw [create_eq (tokenType_ne_pd kind), if_neg (by rintro (hzero | ⟨⟨⟩⟩); exact hne hzero), hminted]
          have htoken_eq : ((c.tokens.objectCreated kind.tokenType raw).tokenCreate kind.tokenType raw).1 =
              tokenMake kind.tokenType i (drawGen c.tokens.tokenGen).1 := by
            rw [TokenClient.tokenCreate, if_neg hraw]
            simp only [hfree]
            rfl
          have hslot : ((c.tokens.objectCreated kind.tokenType raw).mintedIn kind.tokenType raw i).token
              kind.tokenType i = ⟨raw, (drawGen c.tokens.tokenGen).1, true⟩ := TokenClient.setSlot_self _
          have hgen := drawGen_bounds c.tokens.tokenGen
          refine ⟨hraw, ?_⟩
          rw [hcreate, htoken_eq, TokenClient.tokenResolve_make (TokenClient.freeSlot_spec hfree).1 (by omega)
            (by rw [hslot]) (by rw [hslot]), hslot]

/-- The three blocks of a new object are new and distinct. -/
structure Fresh (c : AsyncClient) (b : Blocks) : Prop where
  native : ¬c.context.InUse b.native
  priv : ¬c.context.InUse b.priv
  object : ¬c.context.InUse b.object
  distinct : b.native ≠ b.priv ∧ b.native ≠ b.object ∧ b.priv ≠ b.object

/-- Tokens that keep naming what they name keep a context fitting. -/
lemma Fits.withTokens {tokens : TokenClient} (h : c.Fits)
    (hkeep : ∀ kind, ∀ v ∈ c.context.objects kind,
      tokens.tokenResolve v.handle kind.tokenType = c.tokens.tokenResolve v.handle kind.tokenType) :
    Fits ⟨tokens, c.context⟩ :=
  ⟨fun kind v hv => ⟨(hkeep kind v hv).trans (h.resolve kind v hv).1, (h.resolve kind v hv).2⟩, h.natives,
    h.raws, h.blocks, h.priv_eq, h.priv_ne⟩

/-- A minting leaves the tokens of live objects alone. -/
lemma Fits.create (h : c.Fits) (type : TokenType) (raw : ℕ) (memory undone : Bool) :
    Fits ⟨c.tokens.create type raw memory undone, c.context⟩ := by
  apply h.withTokens
  intro kind v hv
  obtain ⟨hresolve, hraw⟩ := h.resolve kind v hv
  obtain ⟨-, hused, -⟩ := TokenClient.tokenResolve_ne_zero (hresolve ▸ hraw)
  exact tokenResolve_congr (create_token hused)

/-- A new object of the context with a token of its own and new blocks. -/
lemma Fits.created (h : c.Fits) {token raw : ℕ} {b : Blocks}
    (hresolve : c.tokens.tokenResolve token kind.tokenType = raw) (hraw : raw ≠ 0)
    (hnew : ∀ v ∈ c.context.objects kind, v.raw ≠ raw) (hfresh : c.Fresh b) :
    Fits ⟨c.tokens, c.context.created kind token raw b⟩ := by
  have hobjects : ∀ kind', kind' ≠ kind →
      (c.context.created kind token raw b).objects kind' = c.context.objects kind' :=
    fun kind' hne => Function.update_of_ne hne _ _
  have hself : (c.context.created kind token raw b).objects kind =
      { address := b.object, priv := if kind = .qp then b.priv else b.native, handle := token,
        native := b.native, raw := raw } :: c.context.objects kind := Function.update_self ..
  have hnative : ∀ v ∈ c.context.objects kind, v.native ≠ b.native := by
    intro v hv heq
    exact hfresh.native ⟨kind, v, hv, .inr (.inr heq.symm)⟩
  refine ⟨?_, ?_, ?_, ?_, ?_, ?_⟩
  · intro kind' v hv
    by_cases hkind : kind' = kind
    · subst hkind
      change v ∈ (c.context.created kind' token raw b).objects kind' at hv
      rw [hself] at hv
      rcases List.mem_cons.mp hv with rfl | hold
      · exact ⟨hresolve, hraw⟩
      · exact h.resolve kind' v hold
    · change v ∈ (c.context.created kind token raw b).objects kind' at hv
      rw [hobjects kind' hkind] at hv
      exact h.resolve kind' v hv
  · intro kind'
    by_cases hkind : kind' = kind
    · subst hkind
      have hnatives : (c.context.created kind' token raw b).natives kind' =
          ⟨b.native, token⟩ :: c.context.natives kind' := Function.update_self ..
      show (c.context.created kind' token raw b).natives kind' =
        ((c.context.created kind' token raw b).objects kind').map _
      rw [hnatives, hself, List.map_cons, h.natives kind']
      rfl
    · have hnatives : (c.context.created kind token raw b).natives kind' = c.context.natives kind' :=
        Function.update_of_ne hkind _ _
      show (c.context.created kind token raw b).natives kind' =
        ((c.context.created kind token raw b).objects kind').map _
      rw [hnatives, hobjects kind' hkind]
      exact h.natives kind'
  · intro kind'
    by_cases hkind : kind' = kind
    · subst hkind
      show (((c.context.created kind' token raw b).objects kind').map _).Nodup
      rw [hself, List.map_cons, List.nodup_cons]
      refine ⟨?_, h.raws kind'⟩
      intro hin
      obtain ⟨v, hv, heq⟩ := List.mem_map.mp hin
      exact hnew v hv heq
    · show (((c.context.created kind token raw b).objects kind').map _).Nodup
      rw [hobjects kind' hkind]
      exact h.raws kind'
  · intro kind'
    by_cases hkind : kind' = kind
    · subst hkind
      show (((c.context.created kind' token raw b).objects kind').map _).Nodup
      rw [hself, List.map_cons, List.nodup_cons]
      refine ⟨?_, h.blocks kind'⟩
      intro hin
      obtain ⟨v, hv, heq⟩ := List.mem_map.mp hin
      exact hnative v hv heq
    · show (((c.context.created kind token raw b).objects kind').map _).Nodup
      rw [hobjects kind' hkind]
      exact h.blocks kind'
  · intro kind' hqp v hv
    by_cases hkind : kind' = kind
    · subst hkind
      change v ∈ (c.context.created kind' token raw b).objects kind' at hv
      rw [hself] at hv
      rcases List.mem_cons.mp hv with rfl | hold
      · exact if_neg hqp
      · exact h.priv_eq kind' hqp v hold
    · change v ∈ (c.context.created kind token raw b).objects kind' at hv
      rw [hobjects kind' hkind] at hv
      exact h.priv_eq kind' hqp v hv
  · intro v hv w hw
    change v ∈ (c.context.created kind token raw b).objects .qp at hv
    change w ∈ (c.context.created kind token raw b).objects .qp at hw
    by_cases hkind : ObjectKind.qp = kind
    · subst hkind
      rw [hself] at hv hw
      rcases List.mem_cons.mp hv with rfl | hv'
      · rcases List.mem_cons.mp hw with rfl | hw'
        · exact hfresh.distinct.1.symm
        · exact fun heq => hfresh.priv ⟨.qp, w, hw', .inr (.inr heq)⟩
      · rcases List.mem_cons.mp hw with rfl | hw'
        · exact fun heq => hfresh.native ⟨.qp, v, hv', .inr (.inl heq.symm)⟩
        · exact h.priv_ne v hv' w hw'
    · rw [hobjects .qp hkind] at hv hw
      exact h.priv_ne v hv w hw

/-- `ibv_create_cq`, `ibv_create_qp` and `ibv_create_srq` keep the context fitting. -/
lemma ClientInv.createObject (h : c.ClientInv) {raw : ℕ} {memory undone : Bool} {b : Blocks}
    (hdevice : DeviceFresh c.tokens (.create kind.tokenType raw memory undone))
    (hpaired : c.tokens.Paired (.create kind.tokenType raw memory undone)) (hfresh : c.Fresh b) :
    (c.createObject kind raw memory undone b).ClientInv := by
  obtain ⟨g, htokens⟩ := h.tokens
  refine ⟨⟨g, htokens.create hdevice hpaired⟩, ?_⟩
  have hkept := h.fits.create kind.tokenType raw memory undone
  by_cases htoken : c.createToken kind raw memory = 0
  · unfold AsyncClient.createObject
    rw [if_pos htoken]
    exact hkept
  · obtain ⟨hraw, hresolve⟩ := createToken_resolve (b := b) undone htoken
    have hnew : ∀ v ∈ c.context.objects kind, v.raw ≠ raw := by
      intro v hv heq
      exact hdevice (heq ▸ htokens.booked.onDevice _ _ (h.owned hv))
    have hcreated := Fits.created (c := ⟨c.tokens.create kind.tokenType raw memory undone, c.context⟩) hkept
      hresolve hraw hnew ⟨hfresh.native, hfresh.priv, hfresh.object, hfresh.distinct⟩
    unfold AsyncClient.createObject
    rw [if_neg htoken]
    exact hcreated

/-- Objects with one shim object are one. -/
lemma Fits.eq_of_toNative (h : c.Fits) (hv : v ∈ c.context.objects kind) :
    ∀ w ∈ c.context.objects kind, w.toNative = v.toNative → w = v :=
  fun _ hw heq => List.inj_on_of_nodup_map (h.blocks kind) hw hv (congrArg NativeObject.address heq)

/-- Erasing an element and erasing its image come to the same when no other element has that image. -/
lemma erase_map {α β : Type} [DecidableEq α] [DecidableEq β] {f : α → β} {l : List α} {a : α}
    (hunique : ∀ b ∈ l, f b = f a → b = a) : (l.map f).erase (f a) = (l.erase a).map f := by
  induction l with
  | nil => rfl
  | cons b l ih =>
      by_cases heq : b = a
      · subst heq
        rw [List.map_cons, List.erase_cons_head, List.erase_cons_head]
      · have hne : f b ≠ f a := fun hf => heq (hunique b List.mem_cons_self hf)
        rw [List.map_cons, List.erase_cons_tail (by rw [beq_iff_eq]; exact hne),
          List.erase_cons_tail (by rw [beq_iff_eq]; exact heq), List.map_cons,
          ih fun b' hb' => hunique b' (List.mem_cons_of_mem _ hb')]

/-- An object leaves the lists of a context. -/
lemma Fits.destroyed (h : c.Fits) (hv : v ∈ c.context.objects kind) {tokens : TokenClient}
    (hkeep : ∀ kind', ∀ w ∈ c.context.objects kind', ¬(kind' = kind ∧ w = v) →
      tokens.tokenResolve w.handle kind'.tokenType = c.tokens.tokenResolve w.handle kind'.tokenType) :
    Fits ⟨tokens, c.context.destroyed kind v⟩ := by
  have hself : (c.context.destroyed kind v).objects kind = (c.context.objects kind).erase v :=
    Function.update_self ..
  have hobjects : ∀ kind', kind' ≠ kind →
      (c.context.destroyed kind v).objects kind' = c.context.objects kind' :=
    fun kind' hne => Function.update_of_ne hne _ _
  have hsub : ∀ kind', ((c.context.destroyed kind v).objects kind').Sublist (c.context.objects kind') := by
    intro kind'
    by_cases hkind : kind' = kind
    · subst hkind
      rw [hself]
      exact List.erase_sublist
    · rw [hobjects kind' hkind]
  have hnodup : ∀ kind', (c.context.objects kind').Nodup := fun kind' => (h.raws kind').of_map
  refine ⟨?_, ?_, fun kind' => (h.raws kind').sublist ((hsub kind').map _),
    fun kind' => (h.blocks kind').sublist ((hsub kind').map _),
    fun kind' hqp w hw => h.priv_eq kind' hqp w ((hsub kind').subset hw),
    fun w hw w' hw' => h.priv_ne w ((hsub .qp).subset hw) w' ((hsub .qp).subset hw')⟩
  · intro kind' w hw
    change w ∈ (c.context.destroyed kind v).objects kind' at hw
    have hold := (hsub kind').subset hw
    refine ⟨(hkeep kind' w hold ?_).trans (h.resolve kind' w hold).1, (h.resolve kind' w hold).2⟩
    rintro ⟨rfl, rfl⟩
    rw [hself] at hw
    exact (hnodup kind').not_mem_erase hw
  · intro kind'
    by_cases hkind : kind' = kind
    · subst hkind
      have hnatives : (c.context.destroyed kind' v).natives kind' =
          (c.context.natives kind').erase v.toNative := Function.update_self ..
      show (c.context.destroyed kind' v).natives kind' = ((c.context.destroyed kind' v).objects kind').map _
      rw [hnatives, hself, h.natives kind']
      exact erase_map (h.eq_of_toNative hv)
    · have hnatives : (c.context.destroyed kind v).natives kind' = c.context.natives kind' :=
        Function.update_of_ne hkind _ _
      show (c.context.destroyed kind v).natives kind' = ((c.context.destroyed kind v).objects kind').map _
      rw [hnatives, hobjects kind' hkind]
      exact h.natives kind'

/-- A destroy selector for a token leaves the tokens of other live objects alone. -/
lemma Fits.destroy_keeps (h : c.Fits) {type : TokenType} {token : ℕ} {blocked done memory : Bool}
    (hw : w ∈ c.context.objects kind) (hother : kind.tokenType = type → w.handle ≠ token) :
    (c.tokens.destroy type token blocked done memory).tokenResolve w.handle kind.tokenType =
      c.tokens.tokenResolve w.handle kind.tokenType := by
  apply tokenResolve_congr
  apply destroy_token
  rintro hresolve - - - ⟨htype, hslot⟩
  obtain ⟨hw', hraw⟩ := h.resolve kind w hw
  subst htype
  exact hother rfl (token_eq_of_slot (hw' ▸ hraw) hresolve hslot)

/-- `ibv_destroy_cq`, `ibv_destroy_qp` and `ibv_destroy_srq` keep the context fitting. -/
lemma ClientInv.destroyObject (h : c.ClientInv) (hv : v ∈ c.context.objects kind)
    {blocked done memory : Bool}
    (hpaired : c.tokens.Paired (.destroy kind.tokenType v.handle blocked done memory)) :
    (c.destroyObject kind v blocked done memory).ClientInv := by
  obtain ⟨g, htokens⟩ := h.tokens
  refine ⟨⟨g, htokens.destroy hpaired⟩, ?_⟩
  unfold AsyncClient.destroyObject
  by_cases hdone : c.DestroySucceeds kind v.handle blocked done
  · rw [if_pos hdone]
    apply h.fits.destroyed hv
    intro kind' w hw hother
    apply h.fits.destroy_keeps hw
    intro htype heq
    obtain rfl := tokenType_inj htype
    exact hother ⟨rfl, h.fits.eq_of_handle hv hw heq⟩
  · rw [if_neg hdone]
    apply h.fits.withTokens
    intro kind' w hw
    apply tokenResolve_congr
    apply destroy_token
    -- a selector that fails writes no slot
    intro hresolve howned hdone' hfree
    refine absurd ⟨hresolve, howned, ?_, hdone'⟩ hdone
    rintro ⟨rfl, hblocked⟩
    exact hfree ⟨rfl, hblocked⟩

/-- The selector does not destroy a live object behind the context's back. -/
def SparesObjects (c : AsyncClient) : TokenOp → Prop
  | .destroy type token _ _ _ => ∀ kind, kind.tokenType = type → ∀ v ∈ c.context.objects kind, v.handle ≠ token
  | _ => True

/-- Any other create or destroy selector. -/
lemma ClientInv.selector (h : c.ClientInv) {op : TokenOp} {tokens : TokenClient}
    (hdevice : DeviceFresh c.tokens op) (hpaired : c.tokens.Paired op) (hspares : c.SparesObjects op)
    (hstep : c.tokens.step op = some tokens) : ClientInv ⟨tokens, c.context⟩ := by
  obtain ⟨g, htokens⟩ := h.tokens
  refine ⟨⟨g, htokens.step hdevice hpaired hstep⟩, ?_⟩
  cases op with
  | create type raw memory undone =>
      obtain rfl := Option.some.inj hstep
      exact h.fits.create type raw memory undone
  | destroy type token blocked done memory =>
      obtain rfl := Option.some.inj hstep
      apply h.fits.withTokens
      intro kind w hw
      exact h.fits.destroy_keeps hw fun htype => hspares kind htype w hw
  | elsewhere =>
      obtain rfl := Option.some.inj hstep
      exact h.fits.withTokens fun _ _ _ => rfl

lemma clientInv_init (g : ℕ) : ClientInv ⟨.init g, .init⟩ := by
  refine ⟨⟨g, TokenClient.inv_init g⟩, ?_, fun _ => rfl, fun _ => List.nodup_nil, fun _ => List.nodup_nil,
    ?_, ?_⟩
  · exact fun _ _ hv => absurd hv List.not_mem_nil
  · exact fun _ _ _ hv => absurd hv List.not_mem_nil
  · exact fun _ hv => absurd hv List.not_mem_nil

end AsyncClient

/-! ## The system -/

/-- The ring and the clients, with the record of the events the ring accepted and of those that were taken
off it, each with the client whose call took it. -/
structure AsyncSystem where
  ring : FifoRing AsyncEvent
  client : ℕ → AsyncClient
  accepted : List AsyncEvent
  taken : List (ℕ × AsyncEvent)

namespace AsyncSystem

/-- The events in the ring. -/
def queued (s : AsyncSystem) : List AsyncEvent := s.ring.contents eventSlots

/-- Fresh clients; the counter of generations is where earlier clients left it. -/
def init (tokenGen : ℕ) : AsyncSystem :=
  ⟨⟨fun _ => ⟨0, .device, 0⟩, 0, 0⟩, fun _ => ⟨.init tokenGen, .init⟩, [], []⟩

/-- The device queues an event. -/
def queue (s : AsyncSystem) (event : AsyncEvent) : AsyncSystem :=
  { s with
    ring := queueAsyncEvent s.ring event
    accepted := if s.ring.isFull eventSlots then s.accepted else s.accepted ++ [event] }

/-- A client calls `ibv_get_async_event`: what it gets, and the system after the call. -/
def get (s : AsyncSystem) (i : ℕ) : Except AsyncError IbvAsyncEvent × AsyncSystem :=
  match (s.client i).tokens.getAsyncEvent s.ring with
  | (result, event, ring) =>
      ((s.client i).context.reportEvent result,
        { s with ring := ring, taken := s.taken ++ (event.map fun e => (i, e)).toList })

/-- A client changes. -/
def setClient (s : AsyncSystem) (i : ℕ) (c : AsyncClient) : AsyncSystem :=
  { s with client := Function.update s.client i c }

/-- A step of the device or of a client. -/
inductive Op
  | queue (event : AsyncEvent)
  | get (i : ℕ)
  | create (i : ℕ) (kind : ObjectKind) (raw : ℕ) (memory undone : Bool) (b : Blocks)
  | destroy (i : ℕ) (kind : ObjectKind) (v : VerbsObject) (blocked done memory : Bool)
  /-- Any other create or destroy selector, or a minting for another client. -/
  | selector (i : ℕ) (op : TokenOp)

/-- One step. -/
def step (s : AsyncSystem) : Op → Option AsyncSystem
  | .queue event => some (s.queue event)
  | .get i => some (s.get i).2
  | .create i kind raw memory undone b =>
      some (s.setClient i ((s.client i).createObject kind raw memory undone b))
  | .destroy i kind v blocked done memory =>
      if v ∈ (s.client i).context.objects kind then
        some (s.setClient i ((s.client i).destroyObject kind v blocked done memory))
      else none
  | .selector i op =>
      ((s.client i).tokens.step op).map fun tokens => s.setClient i ⟨tokens, (s.client i).context⟩

/-- The device numbers new objects and the allocator places new blocks afresh; the create and destroy
selectors keep tokens paired with the objects (`TokenClient.Paired`); and no selector destroys a live object
behind its context's back. -/
def StepOk (s : AsyncSystem) : Op → Prop
  | .create i kind raw memory undone b =>
      DeviceFresh (s.client i).tokens (.create kind.tokenType raw memory undone) ∧
        (s.client i).tokens.Paired (.create kind.tokenType raw memory undone) ∧ (s.client i).Fresh b
  | .destroy i kind v blocked done memory =>
      (s.client i).tokens.Paired (.destroy kind.tokenType v.handle blocked done memory)
  | .selector i op =>
      DeviceFresh (s.client i).tokens op ∧ (s.client i).tokens.Paired op ∧ (s.client i).SparesObjects op
  | _ => True

/-! ## What a call owes its client -/

/-- What an event names in a context: a live object with its number, a port or nothing. -/
def Names (c : AsyncClient) (event : AsyncEvent) (element : IbvElement) : Prop :=
  match event.elementType with
  | .device => element = .none
  | .port => element = .port (event.elementHandle % 2 ^ 8)
  | .cq => ∃ v ∈ c.context.objects .cq, v.raw = event.elementHandle ∧ element = .object .cq v.address
  | .qp => ∃ v ∈ c.context.objects .qp, v.raw = event.elementHandle ∧ element = .object .qp v.address
  | .srq => ∃ v ∈ c.context.objects .srq, v.raw = event.elementHandle ∧ element = .object .srq v.address

/-- This is the oldest event that belongs to the client, between those before it and those behind it. -/
def Oldest (s : AsyncSystem) (i : ℕ) (pre : List AsyncEvent) (event : AsyncEvent)
    (post : List AsyncEvent) : Prop :=
  s.queued = pre ++ event :: post ∧ (∀ x ∈ pre, ¬(s.client i).tokens.Belongs x) ∧
    (s.client i).tokens.Belongs event

/-- A call takes the oldest event that belongs to its client, leaves the others in their order, and reports
what the event names; without such an event it takes none and says so. -/
structure Served (s : AsyncSystem) (i : ℕ) : Prop where
  none : (∀ x ∈ s.queued, ¬(s.client i).tokens.Belongs x) →
    (s.get i).1 = .error .again ∧ (s.get i).2.queued = s.queued
  taken : ∀ pre event post, s.Oldest i pre event post → (s.get i).2.queued = pre ++ post
  reported : ∀ pre event post, s.Oldest i pre event post → ∀ element, Names (s.client i) event element →
    (s.get i).1 = .ok ⟨event.eventType, element⟩

/-- The oldest event of the client is about a live queue pair. -/
def OldestIsQp (s : AsyncSystem) (i : ℕ) : Prop :=
  ∃ pre event post, s.Oldest i pre event post ∧ event.elementType = .qp ∧
    ∃ v ∈ (s.client i).context.objects .qp, v.raw = event.elementHandle

/-- What holds in every state reached. -/
structure SystemInv (s : AsyncSystem) : Prop where
  clients : ∀ i, (s.client i).ClientInv
  ring : ∃ xs, FifoRing.Holds eventSlots s.ring xs ∧ s.accepted.Perm (s.taken.map Prod.snd ++ xs) ∧
    xs.Sublist s.accepted

variable {s s' : AsyncSystem} {i : ℕ}

/-- A client's step leaves the others and the ring alone. -/
lemma SystemInv.setClient (h : SystemInv s) {c : AsyncClient} (hc : c.ClientInv) :
    SystemInv (s.setClient i c) := by
  refine ⟨?_, h.ring⟩
  intro j
  show AsyncClient.ClientInv (Function.update s.client i c j)
  by_cases heq : j = i
  · subst heq
    rwa [Function.update_self]
  · rw [Function.update_of_ne heq]
    exact h.clients j

lemma SystemInv.queue (h : SystemInv s) (event : AsyncEvent) : SystemInv (s.queue event) := by
  obtain ⟨xs, hring, hperm, hsub⟩ := h.ring
  refine ⟨h.clients, ?_⟩
  unfold AsyncSystem.queue queueAsyncEvent
  by_cases hfull : s.ring.isFull eventSlots
  · rw [if_pos hfull, if_pos hfull]
    exact ⟨xs, hring, hperm, hsub⟩
  · rw [if_neg hfull, if_neg hfull]
    refine ⟨xs ++ [event], hring.push hfull event, ?_, hsub.append_right [event]⟩
    rw [← List.append_assoc]
    exact hperm.append_right [event]

/-- A call's effect, in terms of the events that belong to its client. -/
lemma SystemInv.get_cases (h : SystemInv s) (i : ℕ) :
    ((∀ x ∈ s.queued, ¬(s.client i).tokens.Belongs x) ∧ s.get i = (.error .again, s)) ∨
      ∃ pre event post ring, s.Oldest i pre event post ∧ FifoRing.Holds eventSlots ring (pre ++ post) ∧
        s.get i = ((s.client i).context.reportEvent ((s.client i).tokens.publishEvent event),
          { s with ring := ring, taken := s.taken ++ [(i, event)] }) := by
  obtain ⟨xs, hring, -⟩ := h.ring
  obtain ⟨g, htokens⟩ := (h.clients i).tokens
  have hqueued : s.queued = xs := hring.contents_eq
  have hnot : ∀ x, (s.client i).tokens.asyncEventBelongsToClient x = false →
      ¬(s.client i).tokens.Belongs x := by
    intro x hx hbelongs
    exact Bool.noConfusion (hx.symm.trans ((TokenClient.belongs_iff htokens x).mpr hbelongs))
  rcases hring.takeFirst (s.client i).tokens.asyncEventBelongsToClient with ⟨hnone, hall⟩ |
    ⟨pre, event, post, ring, rfl, hpre, hevent, htake, hholds⟩
  · refine .inl ⟨fun x hx => hnot x (hall x (hqueued ▸ hx)), ?_⟩
    unfold AsyncSystem.get TokenClient.getAsyncEvent getAsyncEventMatching
    rw [hnone]
    dsimp only
    rw [Option.map_none, Option.toList_none, List.append_nil]
    rfl
  · refine .inr ⟨pre, event, post, ring, ⟨hqueued, fun x hx => hnot x (hpre x hx),
      (TokenClient.belongs_iff htokens event).mp hevent⟩, hholds, ?_⟩
    unfold AsyncSystem.get TokenClient.getAsyncEvent getAsyncEventMatching
    rw [htake]
    rfl

lemma SystemInv.get (h : SystemInv s) (i : ℕ) : SystemInv (s.get i).2 := by
  obtain ⟨xs, hring, hperm, hsub⟩ := h.ring
  rcases h.get_cases i with ⟨-, hget⟩ | ⟨pre, event, post, ring, ⟨hqueued, -⟩, hholds, hget⟩
  · rwa [hget]
  · obtain rfl : xs = pre ++ event :: post := hring.contents_eq.symm.trans hqueued
    rw [hget]
    refine ⟨h.clients, pre ++ post, hholds, ?_, ?_⟩
    · -- the event moves from the queue to the record
      rw [List.map_append, List.append_assoc]
      refine hperm.trans (List.Perm.append_left _ ?_)
      exact List.perm_middle
    · exact ((List.sublist_cons_self event post).append_left pre).trans hsub

/-- Every step keeps the invariant. -/
theorem SystemInv.step {op : Op} (h : SystemInv s) (hok : StepOk s op) (hstep : s.step op = some s') :
    SystemInv s' := by
  cases op with
  | queue event =>
      obtain rfl := Option.some.inj hstep
      exact h.queue event
  | get i =>
      obtain rfl := Option.some.inj hstep
      exact h.get i
  | create i kind raw memory undone b =>
      obtain rfl := Option.some.inj hstep
      exact h.setClient ((h.clients i).createObject hok.1 hok.2.1 hok.2.2)
  | destroy i kind v blocked done memory =>
      obtain ⟨hv, ⟨⟩⟩ := Option.ite_none_right_eq_some.mp hstep
      exact h.setClient ((h.clients i).destroyObject hv hok)
  | selector i op =>
      obtain ⟨tokens, htokens, rfl⟩ := Option.map_eq_some_iff.mp hstep
      exact h.setClient ((h.clients i).selector hok.1 hok.2.1 hok.2.2 htokens)

lemma systemInv_init (g : ℕ) : SystemInv (init g) :=
  ⟨fun _ => AsyncClient.clientInv_init g, [], FifoRing.holds_empty (by decide) _, List.Perm.refl _,
    List.Sublist.refl _⟩

/-! ## Results -/

/-- A list has one first element with a property. -/
lemma first_unique {α : Type} {P : α → Prop} {pre pre' post post' : List α} {a a' : α}
    (heq : pre ++ a :: post = pre' ++ a' :: post') (hpre : ∀ x ∈ pre, ¬P x) (ha : P a)
    (hpre' : ∀ x ∈ pre', ¬P x) (ha' : P a') : pre = pre' ∧ a = a' ∧ post = post' := by
  induction pre generalizing pre' with
  | nil =>
      cases pre' with
      | nil =>
          obtain ⟨rfl, rfl⟩ := List.cons.inj heq
          exact ⟨rfl, rfl, rfl⟩
      | cons x pre' =>
          obtain ⟨rfl, -⟩ := List.cons.inj heq
          exact absurd ha (hpre' a List.mem_cons_self)
  | cons y pre ih =>
      cases pre' with
      | nil =>
          obtain ⟨rfl, -⟩ := List.cons.inj heq
          exact absurd ha' (hpre y List.mem_cons_self)
      | cons x pre' =>
          obtain ⟨rfl, hrest⟩ := List.cons.inj heq
          obtain ⟨rfl, hboth⟩ := ih hrest (fun z hz => hpre z (List.mem_cons_of_mem _ hz))
            fun z hz => hpre' z (List.mem_cons_of_mem _ hz)
          exact ⟨rfl, hboth⟩

/-- What a call reports of an event about a live object. -/
lemma report_object {c : AsyncClient} (h : c.ClientInv) {kind : ObjectKind} {v : VerbsObject}
    (hv : v ∈ c.context.objects kind) {event : AsyncEvent}
    (htype : event.elementType.tokenType = some kind.tokenType) (hraw : v.raw = event.elementHandle) :
    c.context.reportEvent (c.tokens.publishEvent event) =
      if kind = .qp then .error .noDevice else .ok ⟨event.eventType, .object kind v.address⟩ := by
  obtain ⟨g, htokens⟩ := h.tokens
  have hbelongs : c.tokens.Belongs event := by
    intro type heq
    obtain rfl := Option.some.inj (htype.symm.trans heq)
    exact hraw ▸ h.owned hv
  have htoken : c.tokens.tokenForRaw kind.tokenType event.elementHandle = v.handle := by
    rw [← hraw, h.tokenForRaw_eq hv]
  rw [TokenClient.publishEvent_object htokens htype hbelongs, htoken]
  unfold IbvContext.reportEvent rdmaGetAsyncEvent
  dsimp only
  rw [h.fits.lookup hv { event with elementHandle := v.handle } htype rfl]
  by_cases hqp : kind = .qp
  · rw [if_pos hqp, if_pos hqp]
  · rw [if_neg hqp, if_neg hqp]

/-- What a call reports of any event that names something and is not about a queue pair. -/
lemma report_named {c : AsyncClient} (h : c.ClientInv) {event : AsyncEvent} {element : IbvElement}
    (hnames : Names c event element) (hqp : event.elementType ≠ .qp) :
    c.context.reportEvent (c.tokens.publishEvent event) = .ok ⟨event.eventType, element⟩ := by
  obtain ⟨eventType, elementType, handle⟩ := event
  cases elementType with
  | device =>
      obtain rfl : element = .none := hnames
      rfl
  | port =>
      obtain rfl : element = .port (handle % 2 ^ 8) := hnames
      rfl
  | cq =>
      obtain ⟨v, hv, hraw, rfl⟩ := hnames
      exact report_object h hv rfl hraw
  | qp => exact absurd rfl hqp
  | srq =>
      obtain ⟨v, hv, hraw, rfl⟩ := hnames
      exact report_object h hv rfl hraw

/-- A call serves its client exactly unless the client's oldest event is about a live queue pair. -/
theorem SystemInv.served_iff (h : SystemInv s) (i : ℕ) : Served s i ↔ ¬OldestIsQp s i := by
  constructor
  · rintro hserved ⟨pre, event, post, holdest, hqp, v, hv, hraw⟩
    have hok := hserved.reported pre event post holdest (.object .qp v.address) (by
      unfold Names
      rw [hqp]
      exact ⟨v, hv, hraw, rfl⟩)
    rcases h.get_cases i with ⟨hnone, -⟩ | ⟨pre', event', post', ring, holdest', -, hget⟩
    · exact hnone event (by rw [holdest.1]; exact List.mem_append_right _ List.mem_cons_self) holdest.2.2
    · obtain ⟨-, rfl, -⟩ := first_unique (holdest.1.symm.trans holdest'.1) holdest.2.1 holdest.2.2
        holdest'.2.1 holdest'.2.2
      rw [hget, report_object (h.clients i) hv (by rw [hqp]; rfl) hraw, if_pos rfl] at hok
      cases hok
  · intro hnot
    rcases h.get_cases i with ⟨hnone, hget⟩ | ⟨pre, event, post, ring, holdest, hholds, hget⟩
    · have hnever : ∀ pre event post, ¬s.Oldest i pre event post := fun pre event post holdest =>
        hnone event (by rw [holdest.1]; exact List.mem_append_right _ List.mem_cons_self) holdest.2.2
      refine ⟨fun _ => by rw [hget]; exact ⟨rfl, rfl⟩, ?_, ?_⟩
      · exact fun pre event post holdest => absurd holdest (hnever pre event post)
      · exact fun pre event post holdest => absurd holdest (hnever pre event post)
    · refine ⟨?_, ?_, ?_⟩
      · intro hnone
        refine absurd holdest.2.2 (hnone event ?_)
        rw [holdest.1]
        exact List.mem_append_right _ List.mem_cons_self
      · intro pre' event' post' holdest'
        obtain ⟨rfl, -, rfl⟩ := first_unique (holdest.1.symm.trans holdest'.1) holdest.2.1 holdest.2.2
          holdest'.2.1 holdest'.2.2
        rw [hget]
        exact hholds.contents_eq
      · intro pre' event' post' holdest' element hnames
        obtain ⟨-, rfl, -⟩ := first_unique (holdest.1.symm.trans holdest'.1) holdest.2.1 holdest.2.2
          holdest'.2.1 holdest'.2.2
        rw [hget]
        refine report_named (h.clients i) hnames fun hqp => hnot ⟨pre, event, post, holdest, hqp, ?_⟩
        unfold Names at hnames
        rw [hqp] at hnames
        obtain ⟨v, hv, hraw, -⟩ := hnames
        exact ⟨v, hv, hraw⟩

lemma SystemInv.queue_room (h : SystemInv s) (event : AsyncEvent)
    (hroom : s.queued.length + 1 < eventSlots) : (s.queue event).queued = s.queued ++ [event] := by
  obtain ⟨xs, hring, -⟩ := h.ring
  have hqueued : s.queued = xs := hring.contents_eq
  rw [hqueued] at hroom ⊢
  have hfree : ¬s.ring.isFull eventSlots := fun hfull => by
    have := hring.isFull_iff.mp hfull
    omega
  unfold AsyncSystem.queue queueAsyncEvent
  rw [if_neg hfree]
  exact (hring.push hfree event).contents_eq

theorem systemInv_of_reach {g : ℕ} (run : Reach AsyncSystem.step StepOk (init g) s) : SystemInv s :=
  run.invariant SystemInv (systemInv_init g) fun h hok hstep => h.step hok hstep

/-- However the device's events, the calls and the clients' creates and destroys interleave: the events
accepted are those taken, each once, and those queued, in their order; an event is accepted while fewer
than the ring's capacity are queued; and a call takes the oldest event of its client, leaves the others
alone and reports what it names, exactly unless that event is about a live queue pair. -/
theorem async_events_served {g : ℕ} {s : AsyncSystem} (run : Reach AsyncSystem.step StepOk (init g) s) :
    s.accepted.Perm (s.taken.map Prod.snd ++ s.queued) ∧ s.queued.Sublist s.accepted ∧
      (∀ event, s.queued.length + 1 < eventSlots → (s.queue event).queued = s.queued ++ [event]) ∧
      ∀ i, Served s i ↔ ¬OldestIsQp s i := by
  have h := systemInv_of_reach run
  obtain ⟨xs, hring, hperm, hsub⟩ := h.ring
  have hqueued : s.queued = xs := hring.contents_eq
  rw [← hqueued] at hperm hsub
  exact ⟨hperm, hsub, h.queue_room, h.served_iff⟩

/-- Where the first object of a client lies. -/
def firstBlocks : Blocks := ⟨100, 200, 300⟩

/-- A client without objects has no blocks. -/
lemma fresh_init (g : ℕ) : AsyncClient.Fresh ⟨.init g, .init⟩ firstBlocks := by
  have hnone : ∀ address, ¬IbvContext.InUse .init address := by
    rintro address ⟨kind, v, hv, -⟩
    exact absurd hv List.not_mem_nil
  exact ⟨hnone _, hnone _, hnone _, by decide, by decide, by decide⟩

/-- An object of a kind is created with number 5, and an event about it comes in. -/
def oneEvent (kind : ObjectKind) (element : ElementType) : List Op :=
  [.create 0 kind 5 true true firstBlocks, .queue ⟨1, element, 5⟩]

theorem oneEvent_ok (kind : ObjectKind) (element : ElementType) :
    GuardedOps AsyncSystem.step StepOk (init 0) (oneEvent kind element) := by
  have hdevice : DeviceFresh (.init 0) (.create kind.tokenType 5 true true) := List.not_mem_nil
  have hpaired : TokenClient.Paired (.init 0) (.create kind.tokenType 5 true true) := by
    cases kind <;> decide +kernel
  exact ⟨⟨hdevice, hpaired, fresh_init 0⟩, trivial, trivial⟩

/-- An event about a completion queue is served. -/
theorem async_events_served_cq : ∃ s, s.queued = [⟨1, .cq, 5⟩] ∧ (Served s 0 ↔ ¬OldestIsQp s 0) := by
  have hrun : (runOps AsyncSystem.step (init 0) (oneEvent .cq .cq)).map queued = some [⟨1, .cq, 5⟩] := by
    decide +kernel
  obtain ⟨s, hs, hqueued⟩ := Option.map_eq_some_iff.mp hrun
  exact ⟨s, hqueued, (async_events_served (reach_of_guardedOps _ hs (oneEvent_ok .cq .cq))).2.2.2 0⟩

/-- A queue pair's event is taken off the ring and reported to nobody. -/
theorem qp_event_is_not_reported :
    ¬∀ s, Reach AsyncSystem.step StepOk (init 0) s → ∀ i, Served s i := by
  intro h
  have hrun : (runOps AsyncSystem.step (init 0) (oneEvent .qp .qp)).map
      (fun s => (s.queued, ((s.client 0).context.objects .qp).map VerbsObject.raw)) =
      some ([⟨1, .qp, 5⟩], [5]) := by decide +kernel
  obtain ⟨s, hs, hend⟩ := Option.map_eq_some_iff.mp hrun
  obtain ⟨hqueued, hobjects⟩ := Prod.mk.inj hend
  have run := reach_of_guardedOps _ hs (oneEvent_ok .qp .qp)
  have hinv := systemInv_of_reach run
  obtain ⟨v, hv, hraw⟩ : ∃ v ∈ (s.client 0).context.objects .qp, v.raw = 5 := by
    apply List.mem_map.mp
    rw [hobjects]
    exact List.mem_cons_self
  refine (hinv.served_iff 0).mp (h s run 0) ⟨[], ⟨1, .qp, 5⟩, [], ⟨hqueued, ?_, ?_⟩, rfl, v, hv, hraw⟩
  · exact fun x hx => absurd hx List.not_mem_nil
  · intro type htype
    obtain rfl : TokenType.qp = type := Option.some.inj htype
    exact hraw ▸ (hinv.clients 0).owned hv

end AsyncSystem

end MelonDMA.Verbs
