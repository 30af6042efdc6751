import MelonDMA.Ib.GidTable
import MelonDMA.Lib.Bytes
import MelonDMA.Lib.Pages

/-!
# Listing the addresses

`ibv_query_gid_table` lists the programmed addresses of the port. The table is longer than what one call to the driver
can return, so the shim asks for it in chunks of 64 slots, and other clients may program and clear addresses between two
chunks.

* A chunk is one call of `MlxGID::QueryAll`, which holds the lock of the table throughout.
* The list has, slot by slot, what the table held when the slot's chunk was read (`walk_lists_slots`): an address that
  stays is listed once, whatever happens to the others.

Source: `MlxGID::QueryAll` of `Sources/ib/MlxGID.cpp`, `rdma_query_gid_table` of
`usermode/librdma_shim/librdma_shim.c`, `ibv_query_gid_table` of `usermode/libibverbs_compat/verbs_compat.c`.
-/

namespace MelonDMA.Verbs

open MelonDMA.Lib MelonDMA.Ib

/-! ## The driver -/

/-- Source: `MLX_UC_MAX_GID_CHUNK`. -/
def maxGidChunk : ℕ := 64

/-- An entry of the driver's table. Source: `MlxGIDEntry`. -/
structure GidRow extends GidEntry where
  /-- `2` for RoCE v2, and `0` until the entry is programmed. -/
  gidType : ℕ
  deriving DecidableEq, Repr

/-- Source: `mlx_gid_table_entry`. -/
structure GidTableEntry where
  index : ℕ
  addr : RoceAddr
  gidType : ℕ
  ifindex : ℕ
  deriving DecidableEq, Repr

/-- Source: `mlx_query_gid_table_resp`; `count` is the number of entries. -/
structure GidTableResp where
  tableSize : ℕ
  more : Bool
  entries : List GidTableEntry
  deriving DecidableEq, Repr

/-- How slot `i` is listed. -/
def GidRow.listed (row : GidRow) (i : ℕ) : Option GidTableEntry :=
  if row.programmed = true then
    some ⟨i, row.addr, if row.gidType ≠ 0 then row.gidType else 2, 0⟩
  else none

/-- The loop of `QueryAll` over so many slots from `i` on. -/
def collect (table : ℕ → GidRow) (maxEntries : ℕ) : ℕ → ℕ → List GidTableEntry → List GidTableEntry
  | 0, _, found => found
  | n + 1, i, found =>
      if found.length < maxEntries then
        match (table i).listed i with
        | some e => collect table maxEntries n (i + 1) (found ++ [e])
        | none => collect table maxEntries n (i + 1) found
      else found

/-- Source: `MlxGID::QueryAll`. -/
def queryAll (tableSize : ℕ) (table : ℕ → GidRow) (startIndex maxEntries : ℕ) : Option GidTableResp :=
  if maxEntries = 0 ∨ maxGidChunk < maxEntries then none
  else
    let asked := (startIndex + maxEntries) % 2 ^ 32
    let stop := if tableSize < asked then tableSize else asked
    some ⟨tableSize, decide (stop < tableSize), collect table maxEntries (stop - startIndex) startIndex []⟩

/-! ## The shim -/

/-- How a listing of entries `α` ends. -/
inductive GidWalk (α : Type)
  /-- The turns did not suffice. -/
  | unfinished
  | einval
  | eio
  | listed (entries : List α) (tableSize : ℕ)
  deriving DecidableEq, Repr

/-- The loop of `rdma_query_gid_table`, for so many turns. `call k` is what the driver answers in turn `k`. -/
def walkFrom (call : ℕ → ℕ → ℕ → Option GidTableResp) (capacity : ℕ) :
    ℕ → ℕ → ℕ → List GidTableEntry → GidWalk GidTableEntry
  | 0, _, _, _ => .unfinished
  | fuel + 1, turn, start, total =>
      match call turn start maxGidChunk with
      | none => .eio
      | some resp =>
          let total := total ++ resp.entries.take (capacity - total.length)
          if resp.more = true then walkFrom call capacity fuel (turn + 1) ((start + maxGidChunk) % 2 ^ 32) total
          else .listed total resp.tableSize

/-- Source: `rdma_query_gid_table`. -/
def rdmaQueryGidTable (call : ℕ → ℕ → ℕ → Option GidTableResp) (fuel capacity : ℕ) : GidWalk GidTableEntry :=
  if capacity = 0 then .einval else walkFrom call capacity fuel 0 0 []

/-- The answers of a driver whose table changes between the turns; `fails k` says that the call of turn `k` fails. -/
def answers (tableSize : ℕ) (tables : ℕ → ℕ → GidRow) (fails : ℕ → Bool) (turn start maxEntries : ℕ) :
    Option GidTableResp :=
  if fails turn = true then none else queryAll tableSize (tables turn) start maxEntries

/-! ## Verbs -/

/-- Source: `ibv_gid_entry`. -/
structure IbvGidEntry where
  gid : List Byte
  gidIndex : ℕ
  portNum : ℕ
  /-- RoCE v2, and not InfiniBand. -/
  roceV2 : Bool
  ndevIfindex : ℕ
  deriving DecidableEq, Repr

/-- Source: `ibv_query_gid_table`, the loop over the entries. -/
def GidTableEntry.ibv (e : GidTableEntry) : IbvGidEntry := ⟨e.addr.gid, e.index, 1, e.gidType = 2, e.ifindex⟩

/-- Source: `ibv_query_gid_table`. -/
def ibvQueryGidTable (call : ℕ → ℕ → ℕ → Option GidTableResp) (fuel portNum capacity : ℕ) : GidWalk IbvGidEntry :=
  if capacity = 0 ∨ portNum ≠ 1 then .einval
  else
    match rdmaQueryGidTable call fuel capacity with
    | .listed entries tableSize => .listed (entries.map GidTableEntry.ibv) tableSize
    | .unfinished => .unfinished
    | .einval => .einval
    | .eio => .eio

/-! ## A chunk -/

section

variable {table : ℕ → GidRow} {maxEntries : ℕ}

/-- The loop lists the slots in their order, up to the number that was asked for. -/
lemma collect_eq (n i : ℕ) (found : List GidTableEntry) (hfound : found.length ≤ maxEntries) :
    collect table maxEntries n i found =
      found ++ ((List.range' i n).filterMap fun j => (table j).listed j).take (maxEntries - found.length) := by
  induction n generalizing i found with
  | zero => simp [collect]
  | succ n ih =>
      rw [collect]
      by_cases hroom : found.length < maxEntries
      · rw [if_pos hroom, List.range'_succ, List.filterMap_cons]
        cases hrow : (table i).listed i with
        | none => exact ih (i + 1) found hfound
        | some e =>
            have hleft : maxEntries - found.length = maxEntries - (found ++ [e]).length + 1 := by
              rw [List.length_append, List.length_singleton]
              omega
            dsimp only
            rw [ih (i + 1) (found ++ [e]) (by rw [List.length_append, List.length_singleton]; omega), hleft,
              List.take_succ_cons, List.append_assoc, List.singleton_append]
      · rw [if_neg hroom, Nat.sub_eq_zero_of_le (Nat.le_of_not_lt hroom), List.take_zero, List.append_nil]

end

/-! ## The walk -/

section

variable {tableSize capacity : ℕ} {tables : ℕ → ℕ → GidRow} {fails : ℕ → Bool}

/-- How a slot is listed in a turn. -/
def listing (tables : ℕ → ℕ → GidRow) (turn i : ℕ) : Option GidTableEntry := (tables turn i).listed i

/-- The answer to the call of a turn is the page of that turn. -/
lemma answers_page {turn : ℕ} (hsize : tableSize + maxGidChunk < 2 ^ 32) (hturn : turn * maxGidChunk ≤ tableSize)
    (hok : fails turn = false) : answers tableSize tables fails turn (turn * maxGidChunk) maxGidChunk =
      some ⟨tableSize, decide ((turn + 1) * maxGidChunk < tableSize),
        Pages.page (listing tables) maxGidChunk tableSize turn⟩ := by
  have hasked : (turn * maxGidChunk + maxGidChunk) % 2 ^ 32 = turn * maxGidChunk + maxGidChunk :=
    Nat.mod_eq_of_lt (by unfold maxGidChunk at *; omega)
  have hstop : (if tableSize < turn * maxGidChunk + maxGidChunk then tableSize
      else turn * maxGidChunk + maxGidChunk) = min (turn * maxGidChunk + maxGidChunk) tableSize := by
    rw [Nat.min_def]
    split_ifs <;> omega
  have hshort : ((List.range' (turn * maxGidChunk) (min (turn * maxGidChunk + maxGidChunk) tableSize -
      turn * maxGidChunk)).filterMap fun j => (tables turn j).listed j).length ≤ maxGidChunk := by
    refine Nat.le_trans (List.length_filterMap_le _ _) ?_
    rw [List.length_range']
    omega
  unfold answers queryAll
  rw [if_neg (by simp [hok]), if_neg (by decide)]
  dsimp only
  rw [hasked, hstop, collect_eq _ _ _ (Nat.zero_le _), List.nil_append, List.length_nil, Nat.sub_zero,
    List.take_of_length_le hshort]
  have hmore : decide (min (turn * maxGidChunk + maxGidChunk) tableSize < tableSize) =
      decide ((turn + 1) * maxGidChunk < tableSize) := by
    rw [Nat.succ_mul, decide_eq_decide]
    omega
  rw [hmore]
  rfl

/-- The last turn of a walk. -/
def lastTurn (tableSize : ℕ) : ℕ := (tableSize - 1) / maxGidChunk

/-- One of the calls of a walk fails, from a turn on. -/
def failsFrom (tableSize : ℕ) (fails : ℕ → Bool) (turn : ℕ) : Bool :=
  (List.range' turn (lastTurn tableSize + 1 - turn)).any fails

lemma failsFrom_succ {turn : ℕ} (hturn : turn ≤ lastTurn tableSize) :
    failsFrom tableSize fails turn = (fails turn || failsFrom tableSize fails (turn + 1)) := by
  have hcount : lastTurn tableSize + 1 - turn = lastTurn tableSize + 1 - (turn + 1) + 1 := by omega
  rw [failsFrom, failsFrom, hcount, List.range'_succ, List.any_cons]

lemma failsFrom_of_lt {turn : ℕ} (hturn : lastTurn tableSize < turn) : failsFrom tableSize fails turn = false := by
  rw [failsFrom, Nat.sub_eq_zero_of_le hturn]
  rfl

/-- From a turn on, the walk adds the slots from that turn's on, unless a call fails. -/
lemma walkFrom_eq (hsize : tableSize + maxGidChunk < 2 ^ 32) (hpos : 0 < tableSize) {fuel turn : ℕ}
    (hfuel : lastTurn tableSize < turn + fuel) (hturn : turn ≤ lastTurn tableSize) (total : List GidTableEntry) :
    walkFrom (answers tableSize tables fails) capacity fuel turn (turn * maxGidChunk) total =
      if failsFrom tableSize fails turn = true then .eio
      else .listed
        (total ++ (Pages.onward (listing tables) maxGidChunk tableSize turn).take (capacity - total.length))
        tableSize := by
  induction fuel generalizing turn total with
  | zero => omega
  | succ fuel ih =>
      have hstart : turn * maxGidChunk ≤ tableSize := by
        unfold lastTurn maxGidChunk at *
        omega
      rw [walkFrom, failsFrom_succ hturn]
      cases hok : fails turn with
      | true =>
          rw [Bool.true_or, if_pos rfl]
          unfold answers
          rw [if_pos hok]
      | false =>
          rw [answers_page hsize hstart hok, Bool.false_or, Pages.onward_succ (w := maxGidChunk) (by decide) turn]
          dsimp only
          by_cases hmore : (turn + 1) * maxGidChunk < tableSize
          · have hnext : (turn * maxGidChunk + maxGidChunk) % 2 ^ 32 = (turn + 1) * maxGidChunk := by
              rw [Nat.succ_mul] at hmore ⊢
              exact Nat.mod_eq_of_lt (by omega)
            have hturn' : turn + 1 ≤ lastTurn tableSize := by
              unfold lastTurn maxGidChunk at *
              omega
            have hleft : capacity - (total ++ (Pages.page (listing tables) maxGidChunk tableSize turn).take
                (capacity - total.length)).length =
                capacity - total.length - (Pages.page (listing tables) maxGidChunk tableSize turn).length := by
              rw [List.length_append, List.length_take]
              omega
            rw [if_pos (decide_eq_true hmore), hnext, ih (by omega) hturn', List.take_append, hleft,
              List.append_assoc]
          · have hlast : lastTurn tableSize < turn + 1 := by
              unfold lastTurn maxGidChunk at *
              omega
            rw [if_neg (by simpa using hmore), failsFrom_of_lt hlast, if_neg Bool.false_ne_true,
              Pages.onward_of_le (Nat.le_of_not_lt hmore), List.append_nil]

/-- What a walk lists: each slot, when its chunk is read. -/
def listedSlots (tableSize : ℕ) (tables : ℕ → ℕ → GidRow) : List GidTableEntry :=
  (List.range tableSize).filterMap (Pages.slot (listing tables) maxGidChunk)

lemma index_of_listed {row : GidRow} {i : ℕ} {e : GidTableEntry} (h : row.listed i = some e) : e.index = i := by
  unfold GidRow.listed at h
  split at h <;> cases h
  rfl

/-- The list is in the order of the slots. -/
lemma listedSlots_sorted : (listedSlots tableSize tables).Pairwise fun e e' => e.index < e'.index := by
  refine List.Pairwise.filterMap _ (fun i i' hlt e he e' he' => ?_) List.pairwise_lt_range
  rw [index_of_listed he, index_of_listed he']
  exact hlt

lemma mem_listedSlots {e : GidTableEntry} : e ∈ listedSlots tableSize tables ↔
    e.index < tableSize ∧ (tables (e.index / maxGidChunk) e.index).listed e.index = some e := by
  unfold listedSlots
  rw [List.mem_filterMap]
  constructor
  · rintro ⟨i, hi, he⟩
    rw [index_of_listed he]
    exact ⟨List.mem_range.mp hi, he⟩
  · rintro ⟨hlt, he⟩
    exact ⟨e.index, List.mem_range.mpr hlt, he⟩

end

/-- A walk whose calls all succeed lists, in their order, the slots that were programmed when their chunk was read, with
what they held; one of whose calls fails reports an error. An address that stays where it is throughout is listed once,
whatever happens to the others. -/
theorem walk_lists_slots (tableSize capacity fuel : ℕ) (tables : ℕ → ℕ → GidRow) (fails : ℕ → Bool)
    (hpos : 0 < tableSize) (hsize : tableSize + maxGidChunk < 2 ^ 32) (hcapacity : capacity ≠ 0)
    (hfuel : lastTurn tableSize < fuel) :
    ibvQueryGidTable (answers tableSize tables fails) fuel 1 capacity =
        (if failsFrom tableSize fails 0 = true then .eio
        else .listed (((listedSlots tableSize tables).take capacity).map GidTableEntry.ibv) tableSize) ∧
      (listedSlots tableSize tables).Pairwise (fun e e' => e.index < e'.index) ∧
        (∀ e, e ∈ listedSlots tableSize tables ↔
          e.index < tableSize ∧ (tables (e.index / maxGidChunk) e.index).listed e.index = some e) ∧
          ∀ i e, i < tableSize → (∀ k, (tables k i).listed i = some e) → tableSize ≤ capacity →
            ((listedSlots tableSize tables).take capacity).count e = 1 := by
  have hwalk : walkFrom (answers tableSize tables fails) capacity fuel 0 (0 * maxGidChunk) [] = _ :=
    walkFrom_eq hsize hpos (by omega : lastTurn tableSize < 0 + fuel) (Nat.zero_le _) []
  rw [Nat.zero_mul, List.nil_append, List.length_nil, Nat.sub_zero, Pages.onward_zero] at hwalk
  refine ⟨?_, listedSlots_sorted, fun e => mem_listedSlots, fun i e hi hstays hroom => ?_⟩
  · unfold ibvQueryGidTable rdmaQueryGidTable
    rw [if_neg (by simp [hcapacity]), if_neg hcapacity, hwalk]
    cases failsFrom tableSize fails 0 <;> rfl
  · have hindex := index_of_listed (hstays 0)
    have hmem : e ∈ listedSlots tableSize tables := by
      rw [mem_listedSlots, hindex]
      exact ⟨hi, hstays _⟩
    have hnodup : (listedSlots tableSize tables).Nodup :=
      listedSlots_sorted.imp fun hlt heq => by rw [heq] at hlt; exact Nat.lt_irrefl _ hlt
    have hshort : (listedSlots tableSize tables).length ≤ capacity := by
      refine Nat.le_trans (List.length_filterMap_le _ _) ?_
      rw [List.length_range]
      exact hroom
    rw [List.take_of_length_le hshort]
    rw [List.Nodup.count hnodup, if_pos hmem]

/-- An address of slot `100` that stays, while one of slot `3` is cleared after its chunk was read and one of slot `70` is
programmed before. -/
def changingTables (turn i : ℕ) : GidRow :=
  if i = 100 ∨ i = 3 ∧ turn = 0 ∨ i = 70 ∧ 1 ≤ turn then
    ⟨⟨true, ⟨zeroBytes 16, zeroBytes 6, roceVersion2, 0, false, 0⟩⟩, 2⟩
  else ⟨.free, 0⟩

theorem walk_lists_slots_changing :
    ibvQueryGidTable (answers 128 changingTables fun _ => false) 2 1 128 =
        .listed [⟨zeroBytes 16, 3, 1, true, 0⟩, ⟨zeroBytes 16, 70, 1, true, 0⟩, ⟨zeroBytes 16, 100, 1, true, 0⟩] 128 ∧
      ((listedSlots 128 changingTables).take 128).count
        ⟨100, ⟨zeroBytes 16, zeroBytes 6, roceVersion2, 0, false, 0⟩, 2, 0⟩ = 1 :=
  ⟨by decide +kernel, (walk_lists_slots 128 128 2 changingTables (fun _ => false) (by decide) (by decide) (by decide)
    (by decide)).2.2.2 100 _ (by decide) (fun _ => rfl) (by decide)⟩

end MelonDMA.Verbs
