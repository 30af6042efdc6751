import MelonDMA.Lib.References
import MelonDMA.UserClient.TokenRuns

/-!
# Objects of a client that name others

A queue pair names a protection domain, two completion queues and maybe a shared receive queue; a region, a
window and a shared receive queue name a domain. The create selectors take these names from tokens of the
client; `DeallocPD` and `DestroyCQ` look through the client's lists for an object that names theirs,
`DestroySrq` through none.

* What the quotas or the device turn down before there is an object changes nothing here, and is no step.
* A destruction is searched for by kind: `DeallocPD` does not look at shared receive queues. And the lists can lack
  a live object, when it could not be undone or its record could not be put back.

While no destruction misses an object that names what it destroys, whatever a live object names is live, and the
first destruction that does leaves a live object that names a dead one (`names_live`).
-/

namespace MelonDMA.UserClient

open MelonDMA.Lib MelonDMA.Core

/-! ## The objects of a client -/

namespace TokenClient

/-- The live objects, with their types. -/
def live (s : TokenClient) : Set (TokenType × ℕ) := {x | x.2 ∈ s.objects x.1}

/-- Nothing is on a list twice, and what is on the client's lists is on the device. -/
structure Sound (s : TokenClient) : Prop where
  owned_nodup : ∀ type, (s.owned type).Nodup
  objects_nodup : ∀ type, (s.objects type).Nodup
  onDevice : ∀ type raw, raw ∈ s.owned type → raw ∈ s.objects type

section

variable {s s' : TokenClient} {type : TokenType} {raw : ℕ}

@[simp] lemma owned_tokenCreate : (s.tokenCreate type raw).2.owned = s.owned := by
  unfold tokenCreate
  split_ifs
  · rfl
  · cases s.freeSlot type <;> rfl

@[simp] lemma objects_tokenCreate : (s.tokenCreate type raw).2.objects = s.objects := by
  unfold tokenCreate
  split_ifs
  · rfl
  · cases s.freeSlot type <;> rfl

@[simp] lemma owned_tokenDrop {token : ℕ} : (s.tokenDrop token type).owned = s.owned := by
  unfold tokenDrop
  dsimp only
  split_ifs <;> rfl

@[simp] lemma objects_tokenDrop {token : ℕ} : (s.tokenDrop token type).objects = s.objects := by
  unfold tokenDrop
  dsimp only
  split_ifs <;> rfl

@[simp] lemma owned_objectDestroyed {done : Bool} : (s.objectDestroyed type raw done).owned = s.owned := by
  unfold objectDestroyed
  split_ifs <;> rfl

@[simp] lemma objects_addOwned {memory : Bool} : (s.addOwned type raw memory).objects = s.objects := by
  unfold addOwned
  split_ifs <;> rfl

/-- A new object is taken back, or stays. -/
lemma objects_undone (hsame : s'.objects = (s.objectCreated type raw).objects) (undone : Bool) :
    (s'.objectDestroyed type raw undone).objects = s.objects ∨
      (s'.objectDestroyed type raw undone).objects = (s.objectCreated type raw).objects := by
  unfold objectDestroyed
  split_ifs
  · left
    dsimp only
    rw [hsame]
    unfold objectCreated
    dsimp only
    rw [Function.update_self, List.erase_cons_head, Function.update_idem, Function.update_eq_self]
  · exact .inr hsame

lemma create_of_ne (htype : type ≠ .pd) {memory undone : Bool} : s.create type raw memory undone =
    if ((s.objectCreated type raw).tokenCreate type raw).1 = 0 ∨ memory = false then
      ((s.objectCreated type raw).tokenCreate type raw).2.objectDestroyed type raw undone
    else ((s.objectCreated type raw).tokenCreate type raw).2.addOwned type raw memory := by
  cases type with
  | pd => exact absurd rfl htype
  | _ => rfl

/-- The lists after a create selector: the object stays or not, and only an object that stays is recorded. -/
lemma create_tables (hnew : raw ∉ s.owned type) (memory undone : Bool) :
    ((s.create type raw memory undone).owned = s.owned ∧
        ((s.create type raw memory undone).objects = s.objects ∨
          (s.create type raw memory undone).objects = (s.objectCreated type raw).objects)) ∨
      ((s.create type raw memory undone).owned = Function.update s.owned type (s.owned type ++ [raw]) ∧
        (s.create type raw memory undone).objects = (s.objectCreated type raw).objects) := by
  by_cases htype : type = .pd
  · subst htype
    unfold TokenClient.create
    dsimp only
    split_ifs with hzero hmemory htoken
    · exact .inl ⟨rfl, .inr rfl⟩
    · exact .inl ⟨owned_objectDestroyed, objects_undone rfl undone⟩
    · -- the record that was just added is removed
      refine .inl ⟨?_, objects_undone ?_ undone⟩
      · have herase : (s.owned .pd ++ [raw]).erase raw = s.owned .pd := by
          rw [List.erase_append_right _ hnew, List.erase_cons_head, List.append_nil]
        rw [owned_objectDestroyed, removeOwned, owned_tokenCreate, addOwned, if_pos ((Bool.not_eq_false _).mp hmemory)]
        dsimp only [objectCreated]
        rw [Function.update_self, herase, Function.update_idem, Function.update_eq_self]
      · exact objects_tokenCreate.trans objects_addOwned
    · refine .inr ⟨?_, objects_tokenCreate.trans objects_addOwned⟩
      rw [owned_tokenCreate, addOwned, if_pos ((Bool.not_eq_false _).mp hmemory)]
      rfl
  · rw [create_of_ne htype]
    split_ifs with hrefused
    · refine .inl ⟨?_, objects_undone objects_tokenCreate undone⟩
      rw [owned_objectDestroyed, owned_tokenCreate]
      rfl
    · obtain ⟨-, hmemory⟩ := not_or.mp hrefused
      refine .inr ⟨?_, objects_addOwned.trans objects_tokenCreate⟩
      rw [addOwned, if_pos ((Bool.not_eq_false _).mp hmemory)]
      dsimp only
      rw [owned_tokenCreate]
      rfl

/-- A record leaves the list, or comes back at its end. -/
lemma requeued_tables (memory : Bool) :
    ((s.removeOwned type raw).addOwned type raw memory).objects = s.objects ∧
      (((s.removeOwned type raw).addOwned type raw memory).owned =
          Function.update s.owned type ((s.owned type).erase raw) ∨
        ((s.removeOwned type raw).addOwned type raw memory).owned =
          Function.update s.owned type ((s.owned type).erase raw ++ [raw])) := by
  refine ⟨objects_addOwned, ?_⟩
  unfold addOwned removeOwned
  split_ifs
  · right
    dsimp only
    rw [Function.update_self, Function.update_idem]
  · exact .inl rfl

lemma destroyOwned_tables {token : ℕ} (memory : Bool) :
    (s.destroyOwned type token raw true memory).objects =
        Function.update s.objects type ((s.objects type).erase raw) ∧
      (s.destroyOwned type token raw true memory).owned =
        Function.update s.owned type ((s.owned type).erase raw) := by
  unfold destroyOwned
  rw [if_pos rfl, objects_tokenDrop, owned_tokenDrop]
  exact ⟨rfl, rfl⟩

/-- A destroy selector gets as far as the device, and the device destroys the object. -/
def Destroys (s : TokenClient) (type : TokenType) (token : ℕ) (blocked done : Bool) : Prop :=
  s.tokenResolve token type ≠ 0 ∧ s.tokenResolve token type ∈ s.owned type ∧ blocked = false ∧ done = true

/-- The lists after a destroy selector that does. -/
lemma destroy_done {token : ℕ} {blocked done : Bool} (memory : Bool) (h : s.Destroys type token blocked done) :
    (s.destroy type token blocked done memory).objects =
        Function.update s.objects type ((s.objects type).erase (s.tokenResolve token type)) ∧
      (s.destroy type token blocked done memory).owned =
        Function.update s.owned type ((s.owned type).erase (s.tokenResolve token type)) := by
  obtain ⟨hne, howned, rfl, rfl⟩ := h
  unfold TokenClient.destroy
  rw [if_neg (not_or.mpr ⟨hne, not_not.mpr howned⟩)]
  cases type with
  | srq => exact ⟨rfl, rfl⟩
  | _ => exact destroyOwned_tables memory

/-- The lists after one that does not: a record can be lost or go to the end. -/
lemma destroy_kept {token : ℕ} {blocked done : Bool} (memory : Bool)
    (hother : type ≠ .pd → type ≠ .cq → blocked = false)
    (h : ¬s.Destroys type token blocked done) :
    (s.destroy type token blocked done memory).objects = s.objects ∧
      ((s.destroy type token blocked done memory).owned = s.owned ∨
        (s.destroy type token blocked done memory).owned =
          Function.update s.owned type ((s.owned type).erase (s.tokenResolve token type)) ∨
        s.tokenResolve token type ∈ s.owned type ∧ (s.destroy type token blocked done memory).owned =
          Function.update s.owned type
            ((s.owned type).erase (s.tokenResolve token type) ++ [s.tokenResolve token type])) := by
  by_cases hnone : s.tokenResolve token type = 0 ∨ s.tokenResolve token type ∉ s.owned type
  · unfold TokenClient.destroy
    rw [if_pos hnone]
    exact ⟨rfl, .inl rfl⟩
  obtain ⟨hne, howned⟩ := not_or.mp hnone
  rw [not_not] at howned
  have hkept : blocked = true ∨ done = false := by
    by_contra hgoes
    obtain ⟨hblocked, hdone⟩ := not_or.mp hgoes
    exact h ⟨hne, howned, (Bool.not_eq_true _).mp hblocked, (Bool.not_eq_false _).mp hdone⟩
  have hback := @requeued_tables s type (s.tokenResolve token type) memory
  have hrefused : done = false →
      s.destroyOwned type token (s.tokenResolve token type) done memory =
        (s.removeOwned type (s.tokenResolve token type)).addOwned type (s.tokenResolve token type) memory := by
    rintro rfl
    rfl
  unfold TokenClient.destroy
  rw [if_neg hnone]
  cases type with
  | pd =>
      dsimp only
      split_ifs with hblocked
      · exact ⟨rfl, .inl rfl⟩
      · rw [hrefused (hkept.resolve_left hblocked)]
        exact ⟨hback.1, .inr (hback.2.imp_right fun heq => ⟨howned, heq⟩)⟩
  | cq =>
      dsimp only
      split_ifs with hblocked
      · exact ⟨hback.1, .inr (hback.2.imp_right fun heq => ⟨howned, heq⟩)⟩
      · rw [hrefused (hkept.resolve_left hblocked)]
        exact ⟨hback.1, .inr (hback.2.imp_right fun heq => ⟨howned, heq⟩)⟩
  | srq =>
      have hdone : done = false := hkept.resolve_left (by rw [hother (by decide) (by decide)]; decide)
      rw [hdone]
      exact ⟨rfl, .inl rfl⟩
  | _ =>
      have hdone : done = false := hkept.resolve_left (by rw [hother (by decide) (by decide)]; decide)
      dsimp only
      rw [hrefused hdone]
      exact ⟨hback.1, .inr (hback.2.imp_right fun heq => ⟨howned, heq⟩)⟩

lemma live_congr (h : s'.objects = s.objects) : s'.live = s.live := by
  unfold live
  rw [h]

lemma live_created (h : s'.objects = (s.objectCreated type raw).objects) :
    s'.live = insert (type, raw) s.live := by
  ext ⟨type', raw'⟩
  unfold live objectCreated at *
  rw [Set.mem_ofPred_eq, Set.mem_insert_iff, Set.mem_ofPred_eq, h]
  by_cases htype : type' = type
  · subst htype
    simp
  · simp [htype]

lemma live_destroyed (hs : s.Sound) (h : s'.objects = Function.update s.objects type ((s.objects type).erase raw)) :
    s'.live = s.live \ {(type, raw)} := by
  ext ⟨type', raw'⟩
  unfold live
  rw [Set.mem_ofPred_eq, Set.mem_sdiff, Set.mem_ofPred_eq, Set.mem_singleton_iff, h]
  by_cases htype : type' = type
  · subst htype
    simp [(hs.objects_nodup type').mem_erase_iff, and_comm]
  · simp [htype]

/-- New lists of one type. -/
lemma Sound.of_tables (hs : s.Sound) {owned objects : List ℕ} (howned : s'.owned = Function.update s.owned type owned)
    (hobjects : s'.objects = Function.update s.objects type objects) (hownedNodup : owned.Nodup)
    (hobjectsNodup : objects.Nodup) (hon : ∀ raw ∈ owned, raw ∈ objects) : s'.Sound := by
  refine ⟨fun type' => ?_, fun type' => ?_, fun type' raw' => ?_⟩
  · rw [howned]
    by_cases htype : type' = type
    · subst htype
      rwa [Function.update_self]
    · rw [Function.update_of_ne htype]
      exact hs.owned_nodup type'
  · rw [hobjects]
    by_cases htype : type' = type
    · subst htype
      rwa [Function.update_self]
    · rw [Function.update_of_ne htype]
      exact hs.objects_nodup type'
  · rw [howned, hobjects]
    by_cases htype : type' = type
    · subst htype
      rw [Function.update_self, Function.update_self]
      exact hon raw'
    · rw [Function.update_of_ne htype, Function.update_of_ne htype]
      exact hs.onDevice type' raw'

/-- A create selector makes one object at most. -/
lemma Sound.create (hs : s.Sound) (hfresh : raw ∉ s.objects type) (memory undone : Bool) :
    (s.create type raw memory undone).Sound ∧
      ((s.create type raw memory undone).live = s.live ∨
        (s.create type raw memory undone).live = insert (type, raw) s.live) := by
  have hnew : raw ∉ s.owned type := mt (hs.onDevice type raw) hfresh
  have hcons : (raw :: s.objects type).Nodup := List.nodup_cons.mpr ⟨hfresh, hs.objects_nodup type⟩
  have hsame : s.owned = Function.update s.owned type (s.owned type) := (Function.update_eq_self _ _).symm
  rcases create_tables hnew memory undone with ⟨howned, hobjects | hobjects⟩ | ⟨howned, hobjects⟩
  · refine ⟨⟨?_, ?_, ?_⟩, .inl (live_congr hobjects)⟩
    · rw [howned]
      exact hs.owned_nodup
    · rw [hobjects]
      exact hs.objects_nodup
    · rw [howned, hobjects]
      exact hs.onDevice
  · refine ⟨hs.of_tables (howned.trans hsame) hobjects (hs.owned_nodup type) hcons ?_, .inr (live_created hobjects)⟩
    exact fun raw' hraw' => List.mem_cons_of_mem _ (hs.onDevice type raw' hraw')
  · refine ⟨hs.of_tables howned hobjects ?_ hcons ?_, .inr (live_created hobjects)⟩
    · exact List.nodup_append.mpr ⟨hs.owned_nodup type, List.nodup_singleton raw, by
        rintro a ha b hb rfl
        exact hnew (List.mem_singleton.mp hb ▸ ha)⟩
    · intro raw' hraw'
      rcases List.mem_append.mp hraw' with hold | hone
      · exact List.mem_cons_of_mem _ (hs.onDevice type raw' hold)
      · rw [List.mem_singleton.mp hone]
        exact List.mem_cons_self

/-- A destroy selector destroys the object of its token or none. -/
lemma Sound.destroy (hs : s.Sound) {token : ℕ} {blocked done memory : Bool}
    (hother : type ≠ .pd → type ≠ .cq → blocked = false) :
    (s.destroy type token blocked done memory).Sound ∧
      (s.Destroys type token blocked done → (s.destroy type token blocked done memory).live =
        s.live \ {(type, s.tokenResolve token type)}) ∧
      (¬s.Destroys type token blocked done → (s.destroy type token blocked done memory).live = s.live) := by
  have hsame : s.objects = Function.update s.objects type (s.objects type) := (Function.update_eq_self _ _).symm
  have herase := (hs.owned_nodup type).erase (s.tokenResolve token type)
  by_cases h : s.Destroys type token blocked done
  · obtain ⟨hobjects, howned⟩ := destroy_done memory h
    refine ⟨hs.of_tables howned hobjects herase ((hs.objects_nodup type).erase _) ?_,
      fun _ => live_destroyed hs hobjects, fun hno => absurd h hno⟩
    intro raw' hraw'
    obtain ⟨hne, hmem⟩ := (hs.owned_nodup type).mem_erase_iff.mp hraw'
    exact (List.mem_erase_of_ne hne).mpr (hs.onDevice type raw' hmem)
  · obtain ⟨hobjects, howned⟩ := destroy_kept memory hother h
    refine ⟨?_, fun hyes => absurd hyes h, fun _ => live_congr hobjects⟩
    rcases howned with howned | howned | ⟨hmem, howned⟩
    · refine ⟨?_, ?_, ?_⟩
      · rw [howned]
        exact hs.owned_nodup
      · rw [hobjects]
        exact hs.objects_nodup
      · rw [howned, hobjects]
        exact hs.onDevice
    · refine hs.of_tables howned (hobjects.trans hsame) herase (hs.objects_nodup type) fun raw' hraw' => ?_
      exact hs.onDevice type raw' (List.mem_of_mem_erase hraw')
    · refine hs.of_tables howned (hobjects.trans hsame) ?_ (hs.objects_nodup type) fun raw' hraw' => ?_
      · exact ((List.perm_cons_erase hmem).trans (List.perm_append_singleton _ _).symm).nodup_iff.mp
          (hs.owned_nodup type)
      · rcases List.mem_append.mp hraw' with hold | hone
        · exact hs.onDevice type raw' (List.mem_of_mem_erase hold)
        · rw [List.mem_singleton.mp hone]
          exact hs.onDevice type _ hmem

end

end TokenClient

/-! ## The selectors -/

/-- The objects that an object names; `srqn` is `0` for a pair with its own ring. Source: `MlxQPContext`,
`MlxMRContext`, `MlxSRQContext`. -/
structure Names where
  pd : ℕ := 0
  sendCq : ℕ := 0
  recvCq : ℕ := 0
  srqn : ℕ := 0
  deriving DecidableEq, Repr

/-- What an object of a type with these names refers to. -/
def Names.To (names : Names) (type : TokenType) (a : TokenType × ℕ) : Prop :=
  match type, a.1 with
  | .qp, .pd | .mr, .pd | .mw, .pd | .srq, .pd => names.pd = a.2
  | .qp, .cq => names.sendCq = a.2 ∨ names.recvCq = a.2
  | .qp, .srq => names.srqn = a.2 ∧ a.2 ≠ 0
  | _, _ => False

/-- A client and what its objects name. -/
structure NamingClient where
  tokens : TokenClient
  names : TokenType → ℕ → Names

namespace NamingClient

variable (s : NamingClient)

/-- The token names an object that the client owns. -/
def ownsToken (type : TokenType) (token : ℕ) : Bool :=
  s.tokens.tokenResolve token type ≠ 0 && s.tokens.tokenResolve token type ∈ s.tokens.owned type

/-- A create selector whose device command gave a raw number. -/
def create (type : TokenType) (names : Names) (raw : ℕ) (memory undone : Bool) : NamingClient where
  tokens := s.tokens.create type raw memory undone
  names := fun type' raw' => if type' = type ∧ raw' = raw then names else s.names type' raw'

/-- A create selector of an object in a protection domain. -/
def createIn (type : TokenType) (pd raw : ℕ) (memory undone : Bool) : NamingClient :=
  if s.ownsToken .pd pd = false then s
  else s.create type { pd := s.tokens.tokenResolve pd .pd } raw memory undone

/-- Source: `kMlxUCMethodAllocPD`. -/
def allocPD := s.create .pd {}

/-- Source: `kMlxUCMethodCreateCQ`. -/
def createCQ := s.create .cq {}

/-- Source: `kMlxUCMethodRegMR`, `kMlxUCMethodRegMRIndirect`. -/
def regMR := s.createIn .mr

/-- Source: `kMlxUCMethodAllocMW`. -/
def allocMW := s.createIn .mw

/-- Source: `kMlxUCMethodCreateSrq`. -/
def createSrq := s.createIn .srq

/-- The tokens in a request for a pair; `srqn` is `0` when it has none. Source: `mlx_create_qp_req`. -/
structure CreateQpTokens where
  pd : ℕ
  sendCq : ℕ
  recvCq : ℕ
  srqn : ℕ
  deriving DecidableEq, Repr

/-- Source: `kMlxUCMethodCreateQP`. -/
def createQP (req : CreateQpTokens) (raw : ℕ) (memory undone : Bool) : NamingClient :=
  if req.srqn ≠ 0 ∧ s.ownsToken .srq req.srqn = false then s
  else if s.ownsToken .pd req.pd = false ∨ s.ownsToken .cq req.sendCq = false ∨
      s.ownsToken .cq req.recvCq = false then s
  else s.create .qp
    { pd := s.tokens.tokenResolve req.pd .pd
      sendCq := s.tokens.tokenResolve req.sendCq .cq
      recvCq := s.tokens.tokenResolve req.recvCq .cq
      srqn := if req.srqn = 0 then 0 else s.tokens.tokenResolve req.srqn .srq } raw memory undone

/-- An object on the client's list of a type that is live and named so. -/
def listed (type : TokenType) (naming : Names → Bool) : Bool :=
  (s.tokens.owned type).any fun raw => raw ∈ s.tokens.objects type && naming (s.names type raw)

/-- The searches of the destroy selectors. `DestroySrq` makes none. -/
def blocked (type : TokenType) (raw : ℕ) : Bool :=
  match type with
  | .pd => s.listed .qp (·.pd = raw) || s.listed .mr (·.pd = raw) || s.listed .mw (·.pd = raw)
  | .cq => s.listed .qp fun names => names.sendCq = raw || names.recvCq = raw
  | _ => false

/-- Source: `kMlxUCMethodDeallocPD`, `kMlxUCMethodDestroyQP`, `kMlxUCMethodDestroyCQ`, `kMlxUCMethodDeregMR`,
`kMlxUCMethodDeallocMW`, `kMlxUCMethodDestroySrq`. -/
def destroy (type : TokenType) (token : ℕ) (done memory : Bool) : NamingClient :=
  { s with
    tokens := s.tokens.destroy type token (s.blocked type (s.tokens.tokenResolve token type)) done memory }

end NamingClient

/-- A step of the client's life. -/
inductive NamingOp
  | allocPD (raw : ℕ) (memory undone : Bool)
  | createCQ (raw : ℕ) (memory undone : Bool)
  | createSrq (pd raw : ℕ) (memory undone : Bool)
  | createQP (req : NamingClient.CreateQpTokens) (raw : ℕ) (memory undone : Bool)
  | regMR (pd raw : ℕ) (memory undone : Bool)
  | allocMW (pd raw : ℕ) (memory undone : Bool)
  | destroy (type : TokenType) (token : ℕ) (done memory : Bool)
  /-- Another client mints a token. -/
  | elsewhere

namespace NamingClient

variable (s : NamingClient)

/-- One step. -/
def step : NamingOp → Option NamingClient
  | .allocPD raw memory undone => some (s.allocPD raw memory undone)
  | .createCQ raw memory undone => some (s.createCQ raw memory undone)
  | .createSrq pd raw memory undone => some (s.createSrq pd raw memory undone)
  | .createQP req raw memory undone => some (s.createQP req raw memory undone)
  | .regMR pd raw memory undone => some (s.regMR pd raw memory undone)
  | .allocMW pd raw memory undone => some (s.allocMW pd raw memory undone)
  | .destroy type token done memory => some (s.destroy type token done memory)
  | .elsewhere => some { s with tokens := s.tokens.drawn }

/-- A new client. -/
def init (tokenGen : ℕ) : NamingClient := ⟨.init tokenGen, fun _ _ => {}⟩

/-- The device gives a new object a number that no object of the type has. -/
def DeviceFresh : NamingOp → Prop
  | .allocPD raw _ _ => raw ∉ s.tokens.objects .pd
  | .createCQ raw _ _ => raw ∉ s.tokens.objects .cq
  | .createSrq _ raw _ _ => raw ∉ s.tokens.objects .srq
  | .createQP _ raw _ _ => raw ∉ s.tokens.objects .qp
  | .regMR _ raw _ _ => raw ∉ s.tokens.objects .mr
  | .allocMW _ raw _ _ => raw ∉ s.tokens.objects .mw
  | _ => True

instance (s : NamingClient) (op : NamingOp) : Decidable (s.DeviceFresh op) := by
  unfold DeviceFresh
  cases op <;> dsimp only <;> infer_instance

/-- Which object names which. -/
def refers (b a : TokenType × ℕ) : Prop := (s.names b.1 b.2).To b.1 a

/-- Whatever a live object names is live. -/
def NamesLive : Prop := Closed s.tokens.live s.refers

/-- The kinds of objects that a destroy selector searches for one that names its own. -/
def searched : TokenType → TokenType → Bool
  | .pd, .qp | .pd, .mr | .pd, .mw | .cq, .qp => true
  | _, _ => false

/-- A live object that the search does not come to: of another kind, or not on the client's list. -/
def Missed (type : TokenType) (b : TokenType × ℕ) : Prop :=
  b ∈ s.tokens.live ∧ (searched type b.1 = false ∨ b.2 ∉ s.tokens.owned b.1)

/-- The condition on a step: no object that the search of a destruction misses names what is destroyed. -/
def Keeps : NamingOp → Prop
  | .destroy type token done _ =>
      s.tokens.Destroys type token (s.blocked type (s.tokens.tokenResolve token type)) done →
        ∀ b, s.Missed type b → ¬s.refers b (type, s.tokens.tokenResolve token type)
  | _ => True

/-! ## Every step -/

section Steps

variable {s s' : NamingClient} {type : TokenType} {names : Names} {raw token : ℕ} {memory undone done : Bool}

/-- Objects name objects of other types. -/
lemma To_ne {a : TokenType × ℕ} (h : names.To type a) : type ≠ a.1 := by
  rintro rfl
  obtain ⟨type', raw'⟩ := a
  cases type' <;> exact h

/-- Domains and completion queues name nothing. -/
lemma not_To (htype : type = .pd ∨ type = .cq) (a : TokenType × ℕ) : ¬names.To type a := by
  obtain ⟨type', raw'⟩ := a
  rcases htype with rfl | rfl
  · cases type' <;> exact id
  · cases type' <;> exact id

/-- An object of the client that a token names is live. -/
lemma ownsToken_live (hs : s.tokens.Sound) (h : s.ownsToken type token = true) :
    (type, s.tokens.tokenResolve token type) ∈ s.tokens.live := by
  simp only [ownsToken, Bool.and_eq_true, decide_eq_true_eq] at h
  exact hs.onDevice type _ h.2

/-- A new object may name what is live. -/
lemma NamesLive.create (hs : s.tokens.Sound) (h : s.NamesLive) (hfresh : raw ∉ s.tokens.objects type)
    (hnames : ∀ a, names.To type a → a ∈ s.tokens.live) : (s.create type names raw memory undone).NamesLive := by
  have hold : ∀ b ∈ s.tokens.live, ∀ c, (s.create type names raw memory undone).refers b c → s.refers b c := by
    rintro ⟨type', raw'⟩ hb c hbc
    have hother : ¬(type' = type ∧ raw' = raw) := by
      rintro ⟨rfl, rfl⟩
      exact hfresh hb
    unfold refers NamingClient.create at hbc
    dsimp only at hbc
    rwa [if_neg hother] at hbc
  unfold NamesLive
  rcases (hs.create hfresh memory undone).2 with hlive | hlive
  · show Closed (s.tokens.create type raw memory undone).live _
    rw [hlive]
    exact Closed.congr h hold
  · show Closed (s.tokens.create type raw memory undone).live _
    rw [hlive]
    refine Closed.insert h (fun b hb _ => hold b hb) fun c hc => Set.mem_insert_of_mem _ (hnames c ?_)
    unfold refers NamingClient.create at hc
    dsimp only at hc
    rwa [if_pos ⟨rfl, rfl⟩] at hc

/-- A selector that makes an object in a domain of the client. -/
lemma NamesLive.createIn (hs : s.tokens.Sound) (h : s.NamesLive) (hfresh : raw ∉ s.tokens.objects type)
    (hqp : type ≠ .qp) : (s.createIn type token raw memory undone).NamesLive := by
  unfold NamingClient.createIn
  split_ifs with howns
  · exact h
  · refine h.create hs hfresh ?_
    rintro ⟨type', raw'⟩ hto
    have hlive := ownsToken_live hs ((Bool.not_eq_false _).mp howns)
    cases type <;> cases type' <;>
      first | exact absurd rfl hqp | exact absurd hto id | exact (show _ = raw' from hto) ▸ hlive

/-- A pair is made of objects of the client. -/
lemma NamesLive.createQP (hs : s.tokens.Sound) (h : s.NamesLive) {req : CreateQpTokens}
    (hfresh : raw ∉ s.tokens.objects .qp) : (s.createQP req raw memory undone).NamesLive := by
  unfold NamingClient.createQP
  by_cases hsrq : req.srqn ≠ 0 ∧ s.ownsToken .srq req.srqn = false
  · rwa [if_pos hsrq]
  rw [if_neg hsrq]
  by_cases howns : s.ownsToken .pd req.pd = false ∨ s.ownsToken .cq req.sendCq = false ∨
      s.ownsToken .cq req.recvCq = false
  · rwa [if_pos howns]
  rw [if_neg howns]
  obtain ⟨hpd, hsend, hrecv⟩ : s.ownsToken .pd req.pd = true ∧ s.ownsToken .cq req.sendCq = true ∧
      s.ownsToken .cq req.recvCq = true := by
    simpa only [not_or, Bool.not_eq_false] using howns
  refine h.create hs hfresh ?_
  rintro ⟨type', raw'⟩ hto
  cases type' with
  | pd => exact (show _ = raw' from hto) ▸ ownsToken_live hs hpd
  | cq =>
      rcases (show _ = raw' ∨ _ = raw' from hto) with rfl | rfl
      · exact ownsToken_live hs hsend
      · exact ownsToken_live hs hrecv
  | srq =>
      obtain ⟨rfl, hne⟩ := (show _ = raw' ∧ raw' ≠ 0 from hto)
      by_cases hzero : req.srqn = 0
      · rw [if_pos hzero] at hne
        exact absurd rfl hne
      · rw [if_neg hzero]
        exact ownsToken_live hs ((Bool.not_eq_false _).mp fun hno => hsrq ⟨hzero, hno⟩)
  | _ => exact absurd hto id

/-- A search comes to what it does not miss. -/
lemma blocked_of_refers {b : TokenType × ℕ} (hb : b ∈ s.tokens.live) (hreach : ¬s.Missed type b)
    (href : s.refers b (type, raw)) : s.blocked type raw = true := by
  obtain ⟨hkind, howned⟩ : searched type b.1 = true ∧ b.2 ∈ s.tokens.owned b.1 := by
    simpa only [Missed, hb, true_and, not_or, Bool.not_eq_false, not_not] using hreach
  obtain ⟨type', raw'⟩ := b
  have hlisted : ∀ {naming : Names → Bool}, naming (s.names type' raw') = true → s.listed type' naming = true := by
    intro naming hnaming
    refine List.any_eq_true.mpr ⟨raw', howned, ?_⟩
    rw [Bool.and_eq_true]
    exact ⟨decide_eq_true hb, hnaming⟩
  cases type with
  | pd =>
      cases type' with
      | qp =>
          have hfound : s.listed .qp (·.pd = raw) = true := hlisted (decide_eq_true href)
          exact Bool.or_eq_true_iff.mpr (.inl (Bool.or_eq_true_iff.mpr (.inl hfound)))
      | mr =>
          have hfound : s.listed .mr (·.pd = raw) = true := hlisted (decide_eq_true href)
          exact Bool.or_eq_true_iff.mpr (.inl (Bool.or_eq_true_iff.mpr (.inr hfound)))
      | mw =>
          have hfound : s.listed .mw (·.pd = raw) = true := hlisted (decide_eq_true href)
          exact Bool.or_eq_true_iff.mpr (.inr hfound)
      | _ => cases hkind
  | cq =>
      cases type' with
      | qp =>
          have hfound : s.listed .qp (fun names => names.sendCq = raw || names.recvCq = raw) = true :=
            hlisted (Bool.or_eq_true_iff.mpr
              ((show _ = raw ∨ _ = raw from href).imp decide_eq_true decide_eq_true))
          exact hfound
      | _ => cases hkind
  | _ => cases type' <;> cases hkind

/-- Only two of the selectors search. -/
lemma blocked_other (s : NamingClient) (type : TokenType) (raw : ℕ) (hpd : type ≠ .pd) (hcq : type ≠ .cq) :
    s.blocked type raw = false := by
  cases type with
  | pd => exact absurd rfl hpd
  | cq => exact absurd rfl hcq
  | _ => rfl

/-- A destruction that goes through leaves whatever a live object names live exactly when its search misses no
object that names what it destroys. -/
lemma NamesLive.destroy_iff (hs : s.tokens.Sound) (h : s.NamesLive) :
    (s.destroy type token done memory).NamesLive ↔ s.Keeps (.destroy type token done memory) := by
  obtain ⟨-, hdone, hkept⟩ :=
    @TokenClient.Sound.destroy s.tokens type hs token _ done memory (blocked_other s type _)
  unfold NamesLive
  show Closed (s.destroy type token done memory).tokens.live s.refers ↔ _
  by_cases hgoes : s.tokens.Destroys type token (s.blocked type (s.tokens.tokenResolve token type)) done
  · have hlive : (s.destroy type token done memory).tokens.live =
        s.tokens.live \ {(type, s.tokens.tokenResolve token type)} := hdone hgoes
    rw [hlive, Closed.remove_iff h]
    constructor
    · intro hfree _ b hmissed href
      refine hfree b hmissed.1 ?_ href
      rintro rfl
      exact To_ne href rfl
    · intro hkeeps b hb _ href
      by_cases hmissed : s.Missed type b
      · exact hkeeps hgoes b hmissed href
      · have hblocked := blocked_of_refers hb hmissed href
        rw [hgoes.2.2.1] at hblocked
        cases hblocked
  · have hlive : (s.destroy type token done memory).tokens.live = s.tokens.live := hkept hgoes
    rw [hlive]
    exact ⟨fun _ hyes => absurd hyes hgoes, fun _ => h⟩

/-- A step keeps what live objects name live exactly when it meets the condition. -/
lemma NamesLive.step_iff {op : NamingOp} (hs : s.tokens.Sound) (h : s.NamesLive) (hfresh : s.DeviceFresh op)
    (hstep : s.step op = some s') : s'.NamesLive ↔ s.Keeps op := by
  cases op with
  | allocPD raw memory undone =>
      obtain rfl := Option.some.inj hstep
      exact iff_of_true (h.create hs hfresh fun a hto => absurd hto (not_To (.inl rfl) a)) trivial
  | createCQ raw memory undone =>
      obtain rfl := Option.some.inj hstep
      exact iff_of_true (h.create hs hfresh fun a hto => absurd hto (not_To (.inr rfl) a)) trivial
  | createQP req raw memory undone =>
      obtain rfl := Option.some.inj hstep
      exact iff_of_true (h.createQP hs hfresh) trivial
  | createSrq pd raw memory undone | regMR pd raw memory undone | allocMW pd raw memory undone =>
      obtain rfl := Option.some.inj hstep
      exact iff_of_true (h.createIn hs hfresh (by decide)) trivial
  | destroy type token done memory =>
      obtain rfl := Option.some.inj hstep
      exact h.destroy_iff hs
  | elsewhere =>
      obtain rfl := Option.some.inj hstep
      exact iff_of_true h trivial

lemma sound_createIn (hs : s.tokens.Sound) (hfresh : raw ∉ s.tokens.objects type) :
    (s.createIn type token raw memory undone).tokens.Sound := by
  unfold NamingClient.createIn
  split_ifs
  · exact hs
  · exact (hs.create hfresh memory undone).1

/-- The lists stay sound. -/
lemma sound_step {op : NamingOp} (hs : s.tokens.Sound) (hfresh : s.DeviceFresh op) (hstep : s.step op = some s') :
    s'.tokens.Sound := by
  cases op with
  | createQP req raw memory undone =>
      obtain rfl := Option.some.inj hstep
      unfold NamingClient.createQP
      split_ifs <;> first | exact hs | exact (hs.create hfresh memory undone).1
  | destroy type token done memory =>
      obtain rfl := Option.some.inj hstep
      exact (hs.destroy (blocked_other s type _)).1
  | elsewhere =>
      obtain rfl := Option.some.inj hstep
      exact ⟨hs.owned_nodup, hs.objects_nodup, hs.onDevice⟩
  | allocPD raw memory undone | createCQ raw memory undone =>
      obtain rfl := Option.some.inj hstep
      exact (hs.create hfresh memory undone).1
  | createSrq pd raw memory undone | regMR pd raw memory undone | allocMW pd raw memory undone =>
      obtain rfl := Option.some.inj hstep
      exact sound_createIn hs hfresh

end Steps

end NamingClient

/-! ## Every run -/

/-- In every run whose steps meet the condition, whatever a live object names is live; and it stays so over the
next step exactly when that step meets the condition. -/
theorem names_live {g : ℕ} {s : NamingClient}
    (run : Reach NamingClient.step (fun s op => s.DeviceFresh op ∧ s.Keeps op) (.init g) s) :
    s.NamesLive ∧ ∀ op s', s.DeviceFresh op → s.step op = some s' → (s'.NamesLive ↔ s.Keeps op) := by
  have hsound : (NamingClient.init g).tokens.Sound :=
    ⟨fun _ => List.nodup_nil, fun _ => List.nodup_nil, fun _ _ hraw => absurd hraw List.not_mem_nil⟩
  have hinit : (NamingClient.init g).NamesLive := fun _ hb => absurd hb List.not_mem_nil
  have hinv : s.tokens.Sound ∧ s.NamesLive := by
    refine run.invariant (fun s => s.tokens.Sound ∧ s.NamesLive) ⟨hsound, hinit⟩ ?_
    rintro s s' op ⟨hs, h⟩ ⟨hfresh, hkeeps⟩ hstep
    exact ⟨NamingClient.sound_step hs hfresh hstep, (h.step_iff hs hfresh hstep).mpr hkeeps⟩
  exact ⟨hinv.2, fun op s' hfresh hstep => hinv.2.step_iff hinv.1 hfresh hstep⟩

/-- A domain, two queues and a pair that names all three. -/
def boundPair : List NamingOp :=
  [.allocPD 5 true true, .createCQ 6 true true, .createSrq 512 7 true true,
    .createQP ⟨512, 4195328, 4195328, 10487296⟩ 8 true true]

/-- The pair is destroyed. -/
theorem names_live_pair : ∃ s, runOps NamingClient.step (.init 1) (boundPair ++ [.destroy .qp 2099200 true true]) = some s ∧
    s.tokens.objects .qp = [] ∧ s.NamesLive := by
  have hguard : GuardedOps NamingClient.step (fun s op => s.DeviceFresh op ∧ s.Keeps op) (.init 1)
      (boundPair ++ [.destroy .qp 2099200 true true]) := by
    refine ⟨⟨by decide +kernel, trivial⟩, ⟨by decide +kernel, trivial⟩, ⟨by decide +kernel, trivial⟩,
      ⟨by decide +kernel, trivial⟩, ⟨trivial, fun _ b _ href => ?_⟩, trivial⟩
    obtain ⟨type', raw'⟩ := b
    cases type' <;> exact href
  exact ⟨_, rfl, by decide +kernel, (names_live (reach_of_guardedOps _ rfl hguard)).1⟩

/-- The shared receive queue of a live pair is destroyed. -/
theorem pair_names_destroyed_queue : ∃ s, Reach NamingClient.step (fun s op => s.DeviceFresh op) (.init 1) s ∧
    s.tokens.objects .qp = [8] ∧ (s.names .qp 8).srqn = 7 ∧ s.tokens.objects .srq = [] ∧ ¬s.NamesLive := by
  have hguard : GuardedOps NamingClient.step (fun s op => s.DeviceFresh op) (.init 1)
      (boundPair ++ [.destroy .srq 10487296 true true]) := by
    decide +kernel
  obtain ⟨s, run, hqp, hsrqn, hsrq⟩ : ∃ s, Reach NamingClient.step (fun s op => s.DeviceFresh op) (.init 1) s ∧
      s.tokens.objects .qp = [8] ∧ (s.names .qp 8).srqn = 7 ∧ s.tokens.objects .srq = [] :=
    ⟨_, reach_of_guardedOps _ rfl hguard, by decide +kernel, by decide +kernel, by decide +kernel⟩
  refine ⟨s, run, hqp, hsrqn, hsrq, fun h => ?_⟩
  have hpair : 8 ∈ s.tokens.objects .qp := by
    rw [hqp]
    exact List.mem_singleton_self 8
  have hgone : 7 ∈ s.tokens.objects .srq := h (.qp, 8) hpair (.srq, 7) ⟨hsrqn, by decide⟩
  rw [hsrq] at hgone
  exact List.not_mem_nil hgone

end MelonDMA.UserClient
