import MelonDMA.Core.Cmd
import MelonDMA.Lib.Runs
import Mathlib.Data.List.Nodup

/-!
# Client tokens

`MlxUserClient.cpp`: a client names its objects by tokens, a slot of a table with the generation of its
minting. `TokenMake`, `TokenCreate`, `TokenResolve`, `TokenDrop` and `TokenForRaw` are the registry; the
create and destroy selectors pair it with the ownership tables and with the objects of the device.

* What the device answers and whether an ownership record could be allocated are inputs of a selector.
  Everything a selector refuses before it reaches the device or a table is one case of its input.
* The generation counter is shared with the other clients, so their mintings are steps too.
* `mints`, `mintedAt` and `destroyed` record the history: how many tokens were minted, when the token of
  each slot was, and the tokens whose objects were destroyed.
-/

namespace MelonDMA.UserClient

open MelonDMA.Lib MelonDMA.Core

/-! ## The registry -/

/-- The types of objects that have tokens. Source: `MLX_T_*`. -/
inductive TokenType
  | pd
  | qp
  | cq
  | mr
  | mw
  | srq
  deriving DecidableEq, Repr

/-- The number of a type. -/
def TokenType.code : TokenType → ℕ
  | .pd => 0
  | .qp => 1
  | .cq => 2
  | .mr => 3
  | .mw => 4
  | .srq => 5

/-- `MLX_T_SLOTS`. -/
def tokenSlots : ℕ := 512

/-- Source: `struct MlxTokenSlot`. -/
structure TokenSlot where
  raw : ℕ
  generation : ℕ
  used : Bool
  deriving DecidableEq, Repr

/-- A token whose object was destroyed, with the counts of mintings up to its own and up to then. -/
structure Retired where
  type : TokenType
  token : ℕ
  mintedAt : ℕ
  destroyedAt : ℕ
  deriving DecidableEq

/-- What a client has. -/
structure TokenClient where
  /-- `sTokenGen`. -/
  tokenGen : ℕ
  /-- `fToken`. -/
  token : TokenType → ℕ → TokenSlot
  /-- `fOwnedPd` to `fOwnedSrq`. -/
  owned : TokenType → List ℕ
  /-- The client's objects on the device. -/
  objects : TokenType → List ℕ
  mints : ℕ
  mintedAt : TokenType → ℕ → ℕ
  destroyed : List Retired

/-- Source: `TokenMake`. -/
def tokenMake (type : TokenType) (slot gen : ℕ) : ℕ :=
  type.code <<< 21 ||| (gen &&& 0xfff) <<< 9 ||| slot &&& 511

/-- The type, the slot and the generation in a token. -/
def tokenTypeCode (token : ℕ) : ℕ := token >>> 21

def tokenSlotOf (token : ℕ) : ℕ := token &&& 511

def tokenGenOf (token : ℕ) : ℕ := token >>> 9 &&& 0xfff

/-- One draw of a generation, with a second one in place of `0`, and the counter after it. -/
def drawGen (tokenGen : ℕ) : ℕ × ℕ :=
  if tokenGen &&& 0xfff = 0 then
    ((tokenGen + 1) % 2 ^ 32 &&& 0xfff, (tokenGen + 2) % 2 ^ 32)
  else (tokenGen &&& 0xfff, (tokenGen + 1) % 2 ^ 32)

namespace TokenClient

variable (s : TokenClient)

/-- The first slot of a type that is not used. -/
def freeSlot (type : TokenType) : Option ℕ :=
  (List.range tokenSlots).find? fun i => !(s.token type i).used

/-- Write a slot. -/
def setSlot (type : TokenType) (i : ℕ) (slot : TokenSlot) : TokenType → ℕ → TokenSlot :=
  fun type' i' => if type' = type ∧ i' = i then slot else s.token type' i'

/-- The client after a generation was drawn. -/
def drawn : TokenClient := { s with tokenGen := (drawGen s.tokenGen).2, mints := s.mints + 1 }

/-- A token, or `0`, for a raw number. Source: `TokenCreate`. -/
def tokenCreate (type : TokenType) (raw : ℕ) : ℕ × TokenClient :=
  if raw = 0 then (0, s)
  else
    let gen := (drawGen s.tokenGen).1
    match s.freeSlot type with
    | none => (0, s.drawn)
    | some i =>
        (tokenMake type i gen,
          { s.drawn with
            token := s.setSlot type i ⟨raw, gen, true⟩
            mintedAt := fun type' i' => if type' = type ∧ i' = i then s.mints + 1 else s.mintedAt type' i' })

/-- The raw number that a token names, or `0`. Source: `TokenResolve`. -/
def tokenResolve (token : ℕ) (type : TokenType) : ℕ :=
  if tokenTypeCode token ≠ type.code then 0
  else
    let slot := s.token type (tokenSlotOf token)
    if slot.used = true ∧ slot.generation = tokenGenOf token then slot.raw else 0

/-- Free the slot of a token. Source: `TokenDrop`. -/
def tokenDrop (token : ℕ) (type : TokenType) : TokenClient :=
  if tokenTypeCode token ≠ type.code then s
  else
    let slot := s.token type (tokenSlotOf token)
    if slot.used = true ∧ slot.generation = tokenGenOf token then
      { s with token := s.setSlot type (tokenSlotOf token) { slot with raw := 0, used := false } }
    else s

/-- The token of a raw number, or `0`. Source: `TokenForRaw`. -/
def tokenForRaw (type : TokenType) (raw : ℕ) : ℕ :=
  if raw = 0 then 0
  else
    match (List.range tokenSlots).find? fun i => (s.token type i).used && (s.token type i).raw == raw with
    | some i => tokenMake type i (s.token type i).generation
    | none => 0

/-! ## The selectors -/

/-- A record is added, if there is memory for it. Source: `AddOwned`. -/
def addOwned (type : TokenType) (raw : ℕ) (memory : Bool) : TokenClient :=
  if memory = true then { s with owned := Function.update s.owned type (s.owned type ++ [raw]) } else s

/-- A record is removed. Source: `RemoveOwned`. -/
def removeOwned (type : TokenType) (raw : ℕ) : TokenClient :=
  { s with owned := Function.update s.owned type ((s.owned type).erase raw) }

/-- The device has a new object. -/
def objectCreated (type : TokenType) (raw : ℕ) : TokenClient :=
  { s with objects := Function.update s.objects type (raw :: s.objects type) }

/-- The device destroyed an object, if it did. -/
def objectDestroyed (type : TokenType) (raw : ℕ) (done : Bool) : TokenClient :=
  if done = true then { s with objects := Function.update s.objects type ((s.objects type).erase raw) }
  else s

/-- The object of a token was destroyed. -/
def retire (type : TokenType) (token : ℕ) : TokenClient :=
  { s with
    destroyed := ⟨type, token, s.mintedAt type (tokenSlotOf token), s.mints⟩ :: s.destroyed }

/-- A create selector whose device command gave a raw number. Protection domains are recorded before
their token is made, the other objects after it.
Source: `kMlxUCMethodAllocPD`, `kMlxUCMethodCreateQP`, `kMlxUCMethodCreateCQ`, `kMlxUCMethodRegMR`,
`kMlxUCMethodRegMRIndirect`, `kMlxUCMethodAllocMW`, `kMlxUCMethodCreateSrq`. -/
def create (type : TokenType) (raw : ℕ) (memory undone : Bool) : TokenClient :=
  let s := s.objectCreated type raw
  match type with
  | .pd =>
      if raw = 0 then s
      else if memory = false then s.objectDestroyed .pd raw undone
      else
        let s := s.addOwned .pd raw memory
        let r := s.tokenCreate .pd raw
        if r.1 = 0 then (r.2.removeOwned .pd raw).objectDestroyed .pd raw undone else r.2
  | type =>
      let r := s.tokenCreate type raw
      if r.1 = 0 ∨ memory = false then r.2.objectDestroyed type raw undone
      else r.2.addOwned type raw memory

/-- An object leaves the ownership table for its destruction and comes back when the device refuses; else
its token is dropped. -/
def destroyOwned (type : TokenType) (token raw : ℕ) (done memory : Bool) : TokenClient :=
  let s := s.removeOwned type raw
  if done = true then ((s.objectDestroyed type raw true).retire type token).tokenDrop token type
  else s.addOwned type raw memory

/-- A destroy selector. `blocked` says that other objects of the client use this one, `done` that the
device destroyed it, and `memory` that there is memory to record it again.
Source: `kMlxUCMethodDeallocPD`, `kMlxUCMethodDestroyQP`, `kMlxUCMethodDestroyCQ`, `kMlxUCMethodDeregMR`,
`kMlxUCMethodDeallocMW`, `kMlxUCMethodDestroySrq`. -/
def destroy (type : TokenType) (token : ℕ) (blocked done memory : Bool) : TokenClient :=
  let raw := s.tokenResolve token type
  if raw = 0 ∨ raw ∉ s.owned type then s
  else
    match type with
    | .pd => if blocked = true then s else s.destroyOwned .pd token raw done memory
    | .cq =>
        if blocked = true then (s.removeOwned .cq raw).addOwned .cq raw memory
        else s.destroyOwned .cq token raw done memory
    -- the token is not dropped here
    | .srq =>
        if done = true then ((s.objectDestroyed .srq raw true).removeOwned .srq raw).retire .srq token
        else s
    | type => s.destroyOwned type token raw done memory

end TokenClient

/-- A step of the client's life. -/
inductive TokenOp
  /-- A create selector that gets an object from the device. -/
  | create (type : TokenType) (raw : ℕ) (memory undone : Bool)
  /-- A destroy selector. -/
  | destroy (type : TokenType) (token : ℕ) (blocked done memory : Bool)
  /-- Another client mints a token. -/
  | elsewhere

/-- One step. -/
def TokenClient.step (s : TokenClient) : TokenOp → Option TokenClient
  | .create type raw memory undone => some (s.create type raw memory undone)
  | .destroy type token blocked done memory => some (s.destroy type token blocked done memory)
  | .elsewhere => some s.drawn

/-- A new client; the counter is where the clients before it left it. -/
def TokenClient.init (tokenGen : ℕ) : TokenClient :=
  ⟨tokenGen, fun _ _ => ⟨0, 0, false⟩, fun _ => [], fun _ => [], 0, fun _ _ => 0, []⟩

/-- The device gives a new object a number that no object of the type has. -/
def DeviceFresh (s : TokenClient) : TokenOp → Prop
  | .create type raw _ _ => raw ∉ s.objects type
  | _ => True

/-! ## What the registry is for -/

/-- The slots in use of each type are exactly the objects that the client owns, one for each, and tokens
and raw numbers are inverse to each other on them. -/
structure TokenClient.Exact (s : TokenClient) : Prop where
  used_iff : ∀ type raw, (∃ i < tokenSlots, (s.token type i).used = true ∧ (s.token type i).raw = raw) ↔
    raw ∈ s.owned type ∧ raw ∈ s.objects type
  once : ∀ type i j, (s.token type i).used = true → (s.token type j).used = true →
    (s.token type i).raw = (s.token type j).raw → i = j
  resolve_forRaw : ∀ type raw, raw ∈ s.owned type → s.tokenResolve (s.tokenForRaw type raw) type = raw
  forRaw_resolve : ∀ type token, s.tokenResolve token type ≠ 0 →
    s.tokenForRaw type (s.tokenResolve token type) = token

/-- A token whose object was destroyed names nothing until 4095 more tokens were minted. -/
def TokenClient.StaleDead (s : TokenClient) : Prop :=
  ∀ r ∈ s.destroyed, s.mints < r.destroyedAt + 4095 → s.tokenResolve r.token r.type = 0

/-! ## Tokens as numbers -/

lemma mask_511 (n : ℕ) : n &&& 511 = n % 512 := Nat.and_two_pow_sub_one_eq_mod n 9

lemma mask_fff (n : ℕ) : n &&& 0xfff = n % 4096 := Nat.and_two_pow_sub_one_eq_mod n 12

/-- The parts of a token do not overlap. -/
lemma tokenMake_eq (type : TokenType) (slot gen : ℕ) :
    tokenMake type slot gen = type.code * 2 ^ 21 + gen % 4096 * 2 ^ 9 + slot % 512 := by
  have hlow : slot % 512 < 2 ^ 9 := Nat.mod_lt _ (by decide)
  have hmid : (gen % 4096) <<< 9 < 2 ^ 21 := by
    rw [Nat.shiftLeft_eq]
    omega
  have hhigh : type.code <<< 21 ||| (gen % 4096) <<< 9 = (type.code * 2 ^ 12 + gen % 4096) <<< 9 := by
    rw [← Nat.shiftLeft_add_eq_or_of_lt hmid, Nat.shiftLeft_eq, Nat.shiftLeft_eq, Nat.shiftLeft_eq]
    omega
  rw [tokenMake, mask_511, mask_fff, hhigh, ← Nat.shiftLeft_add_eq_or_of_lt hlow, Nat.shiftLeft_eq]
  omega

lemma tokenTypeCode_make (type : TokenType) (slot gen : ℕ) :
    tokenTypeCode (tokenMake type slot gen) = type.code := by
  rw [tokenTypeCode, tokenMake_eq, Nat.shiftRight_eq_div_pow]
  omega

lemma tokenSlotOf_make (type : TokenType) {slot : ℕ} (gen : ℕ) (h : slot < 512) :
    tokenSlotOf (tokenMake type slot gen) = slot := by
  rw [tokenSlotOf, mask_511, tokenMake_eq]
  omega

lemma tokenGenOf_make (type : TokenType) (slot : ℕ) {gen : ℕ} (h : gen < 4096) :
    tokenGenOf (tokenMake type slot gen) = gen := by
  rw [tokenGenOf, mask_fff, tokenMake_eq, Nat.shiftRight_eq_div_pow]
  omega

/-- A token is made of its parts. -/
lemma tokenMake_parts {type : TokenType} {token : ℕ} (h : tokenTypeCode token = type.code) :
    tokenMake type (tokenSlotOf token) (tokenGenOf token) = token := by
  rw [tokenTypeCode, Nat.shiftRight_eq_div_pow] at h
  rw [tokenMake_eq, tokenSlotOf, tokenGenOf, mask_511, mask_fff, Nat.shiftRight_eq_div_pow]
  omega

/-! ## Generations -/

/-- The generation of a minting, counted from `1`, when the counter starts at `tokenGen`. -/
def genAt (tokenGen n : ℕ) : ℕ := ((drawGen tokenGen).1 - 1 + (n - 1)) % 4095 + 1

/-- A generation is never `0`. -/
lemma drawGen_bounds (g : ℕ) : 1 ≤ (drawGen g).1 ∧ (drawGen g).1 ≤ 4095 := by
  unfold drawGen
  rw [mask_fff]
  split_ifs with h
  · rw [mask_fff]
    dsimp only
    omega
  · dsimp only
    omega

/-- The generations go round from `1` to `4095`. -/
lemma drawGen_next (g : ℕ) : (drawGen (drawGen g).2).1 = (drawGen g).1 % 4095 + 1 := by
  unfold drawGen
  simp only [mask_fff]
  by_cases h : g % 4096 = 0
  · rw [if_pos h]
    have hnext : ¬(g + 2) % 2 ^ 32 % 4096 = 0 := by omega
    rw [if_neg hnext]
    dsimp only
    omega
  · rw [if_neg h]
    dsimp only
    by_cases hnext : (g + 1) % 2 ^ 32 % 4096 = 0
    · rw [if_pos hnext]
      dsimp only
      omega
    · rw [if_neg hnext]
      dsimp only
      omega

lemma genAt_one (g : ℕ) : genAt g 1 = (drawGen g).1 := by
  have := drawGen_bounds g
  unfold genAt
  omega

lemma genAt_succ {g n : ℕ} (h : 1 ≤ n) : genAt g (n + 1) = genAt g n % 4095 + 1 := by
  unfold genAt
  omega

lemma genAt_lt (g n : ℕ) : genAt g n < 4096 := by
  unfold genAt
  omega

/-- Two mintings have the same generation exactly whole rounds apart. -/
lemma genAt_eq_iff {g m n : ℕ} (hm : 1 ≤ m) (hmn : m ≤ n) : genAt g m = genAt g n ↔ (n - m) % 4095 = 0 := by
  unfold genAt
  omega

end MelonDMA.UserClient
