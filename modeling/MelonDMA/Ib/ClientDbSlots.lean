import MelonDMA.Ib.BfRegister
import MelonDMA.Lib.Mask
import MelonDMA.Lib.Runs
import Mathlib.Data.List.Nodup
import Mathlib.Logic.Function.Basic

/-!
# Doorbell records of a client

`MlxUAR.cpp`: the pairs and completion queues of a client draw their doorbell records from one pool of pages,
32 records a page, and the pool grows by a page when every record is taken. `AllocClientDbSlot` looks for a
record under the lock, reads the page count, drops the lock to allocate and store the page, and takes the
lock again to publish the new count.

Any number of calls run at once. A locked section is one step, and outside the lock every entry of a page is
a step of its own, in the order of `AllocClientDbPage`. What is in the records is left out.

Two calls that read the same count store at the same index, and the later one replaces the page whose
records the first has already given out. Where no call stores at an index that was stored before, records
are apart, resolve to their own page and keep it (`client_db_records`).
-/

namespace MelonDMA.Ib.ClientDb

open MelonDMA.Lib MelonDMA.Ib.BfRegister

/-- Source: `MLX_CLIENT_MAX_DB_PAGES`. -/
def mlxClientMaxDbPages : ℕ := 8

/-- Source: `MLX_CLIENT_DB_PAGE_SIZE`. -/
def mlxClientDbPageSize : ℕ := 4096

/-- Source: `MLX_CLIENT_DB_SLOT_SIZE`. -/
def mlxClientDbSlotSize : ℕ := 128

/-- Source: `MLX_CLIENT_DB_SLOTS_PER_PAGE`. -/
def mlxClientDbSlotsPerPage : ℕ := 32

/-! ## The bundle -/

/-- What the allocation of a page obtains: a descriptor, the DMA command on it, the device's address and the
driver's. -/
structure Page where
  mem : ℕ
  dma : ℕ
  iova : ℕ
  cpu : ℕ
  deriving DecidableEq, Repr

/-- The doorbell pages of a client; a null pointer is `none`. Source: `MlxClientDoorbellBundle`. -/
structure Bundle where
  dbPageCount : ℕ
  dbMemory : ℕ → Option ℕ
  dbDma : ℕ → Option ℕ
  dbIova : ℕ → ℕ
  dbCpu : ℕ → Option ℕ
  dbSlotBitmap : ℕ → BitVec 32

/-- Source: `MlxUAR::ClientDbMemory`. -/
def Bundle.clientDbMemory (b : Bundle) (page : ℕ) : Option ℕ :=
  if b.dbPageCount ≤ page then none else b.dbMemory page

/-- Source: `MlxUAR::GetClientDbRecord`. -/
def Bundle.getClientDbRecord (b : Bundle) (offset : ℕ) : Option ℕ :=
  if offset % mlxClientDbSlotSize ≠ 0 then none
  else if b.dbPageCount ≤ offset / mlxClientDbPageSize then none
  else (b.dbCpu (offset / mlxClientDbPageSize)).map (· + offset % mlxClientDbPageSize)

/-- The record the scan of `AllocClientDbSlot` stops at: its page and its number in the page. -/
def Bundle.freeSlot (b : Bundle) : Option (ℕ × ℕ) :=
  (List.range b.dbPageCount).findSome? fun p =>
    match b.dbCpu p with
    | none => none
    | some _ =>
        ((List.range mlxClientDbSlotsPerPage).find? fun i => !maskHas (b.dbSlotBitmap p) i).map (p, ·)

/-- The entries of a page, in the order they are stored. -/
inductive Entry
  | dbMemory
  | dbDma
  | dbIova
  | dbCpu
  | dbSlotBitmap
  deriving DecidableEq, Repr

/-- Source: `MlxUAR::AllocClientDbPage`, its last five statements. -/
def Bundle.store (b : Bundle) (grow : ℕ) (page : Page) : Entry → Bundle
  | .dbMemory => { b with dbMemory := Function.update b.dbMemory grow (some page.mem) }
  | .dbDma => { b with dbDma := Function.update b.dbDma grow (some page.dma) }
  | .dbIova => { b with dbIova := Function.update b.dbIova grow page.iova }
  | .dbCpu => { b with dbCpu := Function.update b.dbCpu grow (some page.cpu) }
  | .dbSlotBitmap => { b with dbSlotBitmap := Function.update b.dbSlotBitmap grow 0#32 }

/-! ## Calls -/

/-- Where a call of `AllocClientDbSlot` is. -/
inductive Phase
  | idle
  /-- At the head of its loop. -/
  | trying
  /-- About to allocate the page with this number. -/
  | growing (grow : ℕ)
  /-- The page is allocated, the entry is the next one to store. -/
  | storing (grow : ℕ) (page : Page) (next : Entry)
  /-- About to publish the count. -/
  | publishing (grow : ℕ)
  deriving DecidableEq, Repr

/-- Where a call is once an entry is stored. -/
def Phase.stored (grow : ℕ) (page : Page) : Entry → Phase
  | .dbMemory => .storing grow page .dbDma
  | .dbDma => .storing grow page .dbIova
  | .dbIova => .storing grow page .dbCpu
  | .dbCpu => .storing grow page .dbSlotBitmap
  | .dbSlotBitmap => .publishing grow

/-- A record handed out: `*outOffset` and `*outDMA`. -/
structure DbRecord where
  offset : ℕ
  dma : ℕ
  deriving DecidableEq, Repr

/-- The bundle, the calls under way, the records handed out and not given back, and every page allocated. -/
structure Pool where
  bundle : Bundle
  calls : ℕ → Phase
  live : List DbRecord
  pages : List Page

/-- Source: `MlxUAR::AllocClientBundle`, once its first page is there. -/
def Pool.init (first : Page) : Pool where
  bundle :=
    { dbPageCount := 1
      dbMemory := Function.update (fun _ => none) 0 (some first.mem)
      dbDma := Function.update (fun _ => none) 0 (some first.dma)
      dbIova := Function.update (fun _ => 0) 0 first.iova
      dbCpu := Function.update (fun _ => none) 0 (some first.cpu)
      dbSlotBitmap := fun _ => 0#32 }
  calls := fun _ => .idle
  live := []
  pages := [first]

def Pool.goto (s : Pool) (c : ℕ) (phase : Phase) : Pool :=
  { s with calls := Function.update s.calls c phase }

/-- Record `i` of page `p` goes to call `c`. -/
def Pool.take (s : Pool) (c p i : ℕ) : Pool where
  bundle :=
    { s.bundle with
      dbSlotBitmap := Function.update s.bundle.dbSlotBitmap p (maskSet (s.bundle.dbSlotBitmap p) i) }
  calls := Function.update s.calls c .idle
  live :=
    ⟨mlxFlatOffset p mlxClientDbPageSize (i * mlxClientDbSlotSize),
      s.bundle.dbIova p + i * mlxClientDbSlotSize⟩ :: s.live
  pages := s.pages

/-- Source: `MlxUAR::AllocClientDbSlot`, its first locked section and the check behind it. -/
def Pool.scan (s : Pool) (c : ℕ) : Pool :=
  match s.bundle.freeSlot with
  | some (p, i) => s.take c p i
  | none =>
      if mlxClientMaxDbPages ≤ s.bundle.dbPageCount then s.goto c .idle
      else s.goto c (.growing s.bundle.dbPageCount)

/-- Source: `MlxUAR::FreeClientDbSlot`. -/
def Pool.free (s : Pool) (offset : ℕ) (dmaQuarantined : Bool) : Pool :=
  if offset % mlxClientDbSlotSize ≠ 0 then s
  else if dmaQuarantined = true then s
  else
    let page := offset / mlxClientDbPageSize
    let within := offset % mlxClientDbPageSize
    if page < s.bundle.dbPageCount ∧ (s.bundle.dbCpu page).isSome = true then
      { s with
        bundle :=
          { s.bundle with
            dbSlotBitmap := Function.update s.bundle.dbSlotBitmap page
              (maskClear (s.bundle.dbSlotBitmap page) (within / mlxClientDbSlotSize)) }
        live := s.live.filter fun r => r.offset ≠ offset }
    else s

/-- A step of one of the calls. -/
inductive Op
  /-- Call `c` of `AllocClientDbSlot` begins. -/
  | call (c : ℕ)
  | scan (c : ℕ)
  /-- `granted` is the page, or `none` when a step of the allocation fails and the call returns. -/
  | allocate (c : ℕ) (granted : Option Page)
  | store (c : ℕ)
  | publish (c : ℕ)
  | free (offset : ℕ) (dmaQuarantined : Bool)
  deriving DecidableEq, Repr

/-- Source: `MlxUAR::AllocClientDbSlot`, `MlxUAR::AllocClientDbPage`, `MlxUAR::FreeClientDbSlot`. -/
def Pool.step (s : Pool) : Op → Option Pool
  | .call c =>
      match s.calls c with
      | .idle => some (s.goto c .trying)
      | _ => none
  | .scan c =>
      match s.calls c with
      | .trying => some (s.scan c)
      | _ => none
  | .allocate c granted =>
      match s.calls c with
      | .growing grow =>
          match granted with
          | none => some (s.goto c .idle)
          | some page => some { s.goto c (.storing grow page .dbMemory) with pages := page :: s.pages }
      | _ => none
  | .store c =>
      match s.calls c with
      | .storing grow page next =>
          some { s.goto c (.stored grow page next) with bundle := s.bundle.store grow page next }
      | _ => none
  | .publish c =>
      match s.calls c with
      | .publishing grow =>
          some { s.goto c .trying with bundle := { s.bundle with dbPageCount := grow + 1 } }
      | _ => none
  | .free offset dmaQuarantined => some (s.free offset dmaQuarantined)

/-! ## What is asked -/

/-- The offset of a record leads to one page: the memory the client maps, the driver's address and the
device's address that was handed out with it. -/
def Pool.Resolves (s : Pool) (r : DbRecord) : Prop :=
  ∃ page ∈ s.pages,
    s.bundle.clientDbMemory (mlxFlatPage r.offset mlxClientDbPageSize) = some page.mem ∧
      s.bundle.getClientDbRecord r.offset =
        some (page.cpu + mlxFlatWithin r.offset mlxClientDbPageSize) ∧
      r.dma = page.iova + mlxFlatWithin r.offset mlxClientDbPageSize

/-- No two records share a slot, and each resolves. -/
structure Pool.Sound (s : Pool) : Prop where
  apart : (s.live.map DbRecord.offset).Nodup
  resolves : ∀ r ∈ s.live, s.Resolves r

/-- The page of a record is neither replaced nor lost. -/
structure Bundle.Keeps (b b' : Bundle) (p : ℕ) : Prop where
  counted : p < b'.dbPageCount
  dbMemory : b'.dbMemory p = b.dbMemory p
  dbDma : b'.dbDma p = b.dbDma p
  dbIova : b'.dbIova p = b.dbIova p
  dbCpu : b'.dbCpu p = b.dbCpu p

/-- The index of a page about to be stored has no page. -/
def Phase.First (b : Bundle) : Phase → Prop
  | .storing grow _ .dbMemory => b.dbMemory grow = none
  | _ => True

/-- A call that begins to store its page is the first to store at that index. -/
def FirstStore (s : Pool) : Op → Prop
  | .store c => (s.calls c).First s.bundle
  | _ => True

instance Phase.decidableFirst (b : Bundle) : (phase : Phase) → Decidable (phase.First b)
  | .storing grow _ .dbMemory => inferInstanceAs (Decidable (b.dbMemory grow = none))
  | .storing _ _ .dbDma | .storing _ _ .dbIova | .storing _ _ .dbCpu | .storing _ _ .dbSlotBitmap =>
      .isTrue trivial
  | .idle | .trying | .growing _ | .publishing _ => .isTrue trivial

instance FirstStore.decidable (s : Pool) : (op : Op) → Decidable (FirstStore s op)
  | .store c => Phase.decidableFirst s.bundle (s.calls c)
  | .call _ | .scan _ | .allocate _ _ | .publish _ | .free _ _ => .isTrue trivial

/-! ## The invariant -/

/-- The entries of page `p` are those of one allocation. -/
structure Bundle.Holds (b : Bundle) (p : ℕ) (page : Page) : Prop where
  dbMemory : b.dbMemory p = some page.mem
  dbDma : b.dbDma p = some page.dma
  dbIova : b.dbIova p = page.iova
  dbCpu : b.dbCpu p = some page.cpu

/-- Marks and the number of pages are no part of that. -/
lemma Bundle.Holds.remark {b : Bundle} {p : ℕ} {page : Page} (h : b.Holds p page) {dbSlotBitmap : ℕ → BitVec 32}
    {dbPageCount : ℕ} :
    Bundle.Holds { b with dbSlotBitmap := dbSlotBitmap, dbPageCount := dbPageCount } p page :=
  ⟨h.dbMemory, h.dbDma, h.dbIova, h.dbCpu⟩

/-- The entries before this one are stored. -/
def Bundle.StoredUpTo (b : Bundle) (p : ℕ) (page : Page) : Entry → Prop
  | .dbMemory => True
  | .dbDma => b.dbMemory p = some page.mem
  | .dbIova => b.dbMemory p = some page.mem ∧ b.dbDma p = some page.dma
  | .dbCpu => b.dbMemory p = some page.mem ∧ b.dbDma p = some page.dma ∧ b.dbIova p = page.iova
  | .dbSlotBitmap => b.Holds p page

/-- What a call knows of the bundle. One that has stored an entry works on the index behind the last page. -/
def Pool.Fits (s : Pool) : Phase → Prop
  | .idle => True
  | .trying => True
  | .growing grow => grow ≤ s.bundle.dbPageCount
  | .storing grow page .dbMemory => grow ≤ s.bundle.dbPageCount ∧ page ∈ s.pages
  | .storing grow page next =>
      grow = s.bundle.dbPageCount ∧ page ∈ s.pages ∧ s.bundle.StoredUpTo grow page next
  | .publishing grow => grow = s.bundle.dbPageCount ∧ ∃ page ∈ s.pages, s.bundle.Holds grow page

/-- The call has stored an entry and not published. -/
def Phase.Stores : Phase → Prop
  | .storing _ _ .dbMemory => False
  | .storing _ _ _ => True
  | .publishing _ => True
  | _ => False

/-- A record lies in a slot of a counted page that is marked used, and its address is the page's. -/
structure Pool.Placed (s : Pool) (r : DbRecord) : Prop where
  aligned : r.offset % mlxClientDbSlotSize = 0
  counted : r.offset / mlxClientDbPageSize < s.bundle.dbPageCount
  used : maskHas (s.bundle.dbSlotBitmap (r.offset / mlxClientDbPageSize))
    (r.offset % mlxClientDbPageSize / mlxClientDbSlotSize) = true
  address : r.dma = s.bundle.dbIova (r.offset / mlxClientDbPageSize) + r.offset % mlxClientDbPageSize

/-- The counted pages are whole, every call fits, one call at most has begun to store, and the records are
placed and apart. -/
structure Pool.Inv (s : Pool) : Prop where
  whole : ∀ p < s.bundle.dbPageCount, ∃ page ∈ s.pages, s.bundle.Holds p page
  fits : ∀ c, s.Fits (s.calls c)
  single : ∀ c c', (s.calls c).Stores → (s.calls c').Stores → c = c'
  placed : ∀ r ∈ s.live, s.Placed r
  apart : (s.live.map DbRecord.offset).Nodup

section Steps

variable {s s' : Pool} {phase : Phase} {c : ℕ}

/-- A call that has stored nothing fits later too. -/
lemma Pool.Fits.mono (h : s.Fits phase) (hstores : ¬phase.Stores)
    (hcount : s.bundle.dbPageCount ≤ s'.bundle.dbPageCount) (hpages : s.pages ⊆ s'.pages) :
    s'.Fits phase := by
  cases phase with
  | idle => trivial
  | trying => trivial
  | growing grow => exact Nat.le_trans h hcount
  | storing grow page next =>
      cases next with
      | dbMemory => exact ⟨Nat.le_trans h.1 hcount, hpages h.2⟩
      | dbDma | dbIova | dbCpu | dbSlotBitmap => exact absurd trivial hstores
  | publishing grow => exact absurd trivial hstores

/-- While a call stores, the index behind the last page is taken. -/
lemma Pool.Fits.taken (h : s.Fits phase) (hstores : phase.Stores) :
    s.bundle.dbMemory s.bundle.dbPageCount ≠ none := by
  cases phase with
  | idle | trying | growing grow => exact absurd hstores id
  | storing grow page next =>
      cases next with
      | dbMemory => exact absurd hstores id
      | dbDma =>
          obtain ⟨rfl, _, hmemory⟩ := h
          rw [hmemory]
          exact Option.some_ne_none _
      | dbIova | dbCpu =>
          obtain ⟨rfl, _, hmemory, _⟩ := h
          rw [hmemory]
          exact Option.some_ne_none _
      | dbSlotBitmap =>
          obtain ⟨rfl, _, hholds⟩ := h
          rw [hholds.dbMemory]
          exact Option.some_ne_none _
  | publishing grow =>
      obtain ⟨rfl, page, _, hholds⟩ := h
      rw [hholds.dbMemory]
      exact Option.some_ne_none _

/-- A step of call `c`: the others stay where they are, so each has to fit still, and may only store when
`c` does not. -/
lemma calls_goto (h : ∀ c', c' ≠ c → s'.Fits (s.calls c')) (hphase : s'.Fits phase) :
    ∀ c', s'.Fits (Function.update s.calls c phase c') := by
  intro c'
  by_cases hc : c' = c
  · rw [hc, Function.update_self]
    exact hphase
  · rw [Function.update_of_ne hc]
    exact h c' hc

lemma single_goto (h : s.Inv) (hphase : phase.Stores → ∀ c', c' ≠ c → ¬(s.calls c').Stores) (a a' : ℕ)
    (ha : (Function.update s.calls c phase a).Stores) (ha' : (Function.update s.calls c phase a').Stores) :
    a = a' := by
  by_cases hac : a = c
  · subst hac
    rw [Function.update_self] at ha
    by_contra hne
    rw [Function.update_of_ne (Ne.symm hne)] at ha'
    exact hphase ha a' (Ne.symm hne) ha'
  · rw [Function.update_of_ne hac] at ha
    by_cases hac' : a' = c
    · subst hac'
      rw [Function.update_self] at ha'
      exact absurd ha (hphase ha' a hac)
    · rw [Function.update_of_ne hac'] at ha'
      exact h.single a a' ha ha'

/-- A record stays placed while its page stays counted, its slot used and its page's address the same. -/
lemma Pool.Placed.mono {r : DbRecord} (h : s.Placed r)
    (hcount : s.bundle.dbPageCount ≤ s'.bundle.dbPageCount)
    (hused : s'.bundle.dbSlotBitmap (r.offset / mlxClientDbPageSize) =
      s.bundle.dbSlotBitmap (r.offset / mlxClientDbPageSize))
    (hiova : s'.bundle.dbIova (r.offset / mlxClientDbPageSize) =
      s.bundle.dbIova (r.offset / mlxClientDbPageSize)) : s'.Placed r where
  aligned := h.aligned
  counted := Nat.lt_of_lt_of_le h.counted hcount
  used := by rw [hused]; exact h.used
  address := by rw [hiova]; exact h.address

/-- A call goes on without a change of the bundle. -/
lemma Pool.Inv.goto (h : s.Inv) (hstores : ¬phase.Stores) (hphase : s.Fits phase) :
    (s.goto c phase).Inv where
  whole := h.whole
  fits :=
    have hstay : ∀ c', c' ≠ c → (s.goto c phase).Fits (s.calls c') := fun c' _ => h.fits c'
    calls_goto hstay hphase
  single := single_goto h fun hnow => absurd hnow hstores
  placed := fun r hr => (h.placed r hr).mono (Nat.le_refl _) rfl rfl
  apart := h.apart

/-! ## The scan and the release -/

/-- The scan stops at a slot of a counted page that is not in use. -/
lemma Bundle.freeSlot_spec {b : Bundle} {p i : ℕ} (h : b.freeSlot = some (p, i)) :
    p < b.dbPageCount ∧ i < mlxClientDbSlotsPerPage ∧ maskHas (b.dbSlotBitmap p) i = false := by
  unfold Bundle.freeSlot at h
  obtain ⟨q, hq, hfound⟩ := List.exists_of_findSome?_eq_some h
  cases hcpu : b.dbCpu q with
  | none =>
      rw [hcpu] at hfound
      cases hfound
  | some cpu =>
      rw [hcpu] at hfound
      obtain ⟨j, hj, heq⟩ := Option.map_eq_some_iff.mp hfound
      obtain ⟨rfl, rfl⟩ := Prod.mk.inj heq
      have hfree := List.find?_some hj
      exact ⟨List.mem_range.mp hq, List.mem_range.mp (List.mem_of_find?_eq_some hj),
        (Bool.not_eq_true' _).mp hfree⟩

/-- The page and the number of a slot, read off its flat offset. -/
lemma flatOffset_slot {p i : ℕ} (hi : i < mlxClientDbSlotsPerPage) :
    let offset := mlxFlatOffset p mlxClientDbPageSize (i * mlxClientDbSlotSize)
    offset / mlxClientDbPageSize = p ∧ offset % mlxClientDbPageSize = i * mlxClientDbSlotSize ∧
      offset % mlxClientDbSlotSize = 0 ∧
      offset % mlxClientDbPageSize / mlxClientDbSlotSize = i := by
  unfold mlxFlatOffset mlxClientDbPageSize mlxClientDbSlotSize mlxClientDbSlotsPerPage at *
  omega

lemma slot_lt (offset : ℕ) : offset % mlxClientDbPageSize / mlxClientDbSlotSize < 32 := by
  unfold mlxClientDbPageSize mlxClientDbSlotSize
  omega

/-- A call that has only changed marks of counted pages leaves the others as they were. -/
lemma Pool.Fits.remark {dbSlotBitmap : ℕ → BitVec 32} {calls : ℕ → Phase} {live : List DbRecord}
    (h : s.Fits phase) :
    Pool.Fits ⟨{ s.bundle with dbSlotBitmap := dbSlotBitmap }, calls, live, s.pages⟩ phase := by
  cases phase with
  | idle | trying => trivial
  | growing grow => exact h
  | storing grow page next =>
      cases next with
      | dbMemory | dbDma | dbIova | dbCpu => exact h
      | dbSlotBitmap =>
          obtain ⟨hgrow, hpage, hholds⟩ := h
          exact ⟨hgrow, hpage, hholds.remark⟩
  | publishing grow =>
      obtain ⟨hgrow, page, hpage, hholds⟩ := h
      exact ⟨hgrow, page, hpage, hholds.remark⟩

/-- A slot that is not in use goes to a call: no record is in it. -/
lemma Pool.Inv.take (h : s.Inv) {p i : ℕ} (hp : p < s.bundle.dbPageCount)
    (hi : i < mlxClientDbSlotsPerPage) (hfree : maskHas (s.bundle.dbSlotBitmap p) i = false) :
    (s.take c p i).Inv where
  whole := fun q hq =>
    have ⟨page, hpage, hholds⟩ := h.whole q hq
    ⟨page, hpage, hholds.remark⟩
  fits :=
    have hstay : ∀ c', c' ≠ c → (s.take c p i).Fits (s.calls c') := fun c' _ => (h.fits c').remark
    calls_goto hstay trivial
  single := single_goto h fun hnow => absurd hnow id
  placed := by
    obtain ⟨hpage, hwithin, haligned, hslot⟩ := flatOffset_slot (p := p) hi
    have hbit : i < 32 := hi
    intro r hr
    rcases List.mem_cons.mp hr with rfl | hr
    · refine ⟨haligned, ?_, ?_, ?_⟩
      · rw [hpage]
        exact hp
      · rw [hpage, hslot]
        show maskHas (Function.update s.bundle.dbSlotBitmap p _ p) i = true
        rw [Function.update_self, maskHas_maskSet hbit hbit, decide_eq_true rfl, Bool.or_true]
      · rw [hpage, hwithin]
        rfl
    · have hplaced := h.placed r hr
      refine ⟨hplaced.aligned, hplaced.counted, ?_, hplaced.address⟩
      show maskHas (Function.update s.bundle.dbSlotBitmap p _ _) _ = true
      by_cases hsame : r.offset / mlxClientDbPageSize = p
      · rw [hsame, Function.update_self, maskHas_maskSet hbit (slot_lt r.offset), ← hsame, hplaced.used,
          Bool.true_or]
      · rw [Function.update_of_ne hsame]
        exact hplaced.used
  apart := by
    obtain ⟨hpage, _, _, hslot⟩ := flatOffset_slot (p := p) hi
    refine List.nodup_cons.mpr ⟨fun hmem => ?_, h.apart⟩
    -- a record at this offset would have the slot marked
    obtain ⟨r, hr, hoffset⟩ := List.mem_map.mp hmem
    have hused := (h.placed r hr).used
    rw [hoffset, hpage, hslot, hfree] at hused
    cases hused

lemma Pool.Inv.scan (h : s.Inv) : (s.scan c).Inv := by
  unfold Pool.scan
  cases hslot : s.bundle.freeSlot with
  | some slot =>
      obtain ⟨hp, hi, hfree⟩ := Bundle.freeSlot_spec hslot
      exact h.take hp hi hfree
  | none =>
      by_cases hfull : mlxClientMaxDbPages ≤ s.bundle.dbPageCount
      · dsimp only
        rw [if_pos hfull]
        exact h.goto id trivial
      · dsimp only
        rw [if_neg hfull]
        exact h.goto id (Nat.le_refl _)

/-- A record given back leaves the marks of the others. -/
lemma Pool.Inv.free (h : s.Inv) (offset : ℕ) (dmaQuarantined : Bool) :
    (s.free offset dmaQuarantined).Inv := by
  unfold Pool.free
  by_cases haligned : offset % mlxClientDbSlotSize ≠ 0
  · rw [if_pos haligned]
    exact h
  rw [if_neg haligned]
  by_cases hdma : dmaQuarantined = true
  · rw [if_pos hdma]
    exact h
  rw [if_neg hdma]
  dsimp only
  by_cases hpage : offset / mlxClientDbPageSize < s.bundle.dbPageCount ∧
      (s.bundle.dbCpu (offset / mlxClientDbPageSize)).isSome = true
  · rw [if_pos hpage]
    refine ⟨?_, fun c => (h.fits c).remark, h.single, ?_, (h.apart.sublist (List.filter_sublist.map _))⟩
    · intro q hq
      obtain ⟨page, hmem, hholds⟩ := h.whole q hq
      exact ⟨page, hmem, hholds.remark⟩
    · intro r hr
      obtain ⟨hr, hother⟩ := List.mem_filter.mp hr
      have hother : r.offset ≠ offset := of_decide_eq_true hother
      have hplaced := h.placed r hr
      refine ⟨hplaced.aligned, hplaced.counted, ?_, hplaced.address⟩
      show maskHas (Function.update s.bundle.dbSlotBitmap (offset / mlxClientDbPageSize) _ _) _ = true
      by_cases hsame : r.offset / mlxClientDbPageSize = offset / mlxClientDbPageSize
      · have hr128 := hplaced.aligned
        rw [hsame, Function.update_self, maskHas_maskClear, ← hsame, hplaced.used, Bool.true_and,
          Bool.not_eq_true', decide_eq_false_iff_not]
        all_goals
          unfold mlxClientDbPageSize mlxClientDbSlotSize at *
          omega
      · rw [Function.update_of_ne hsame]
        exact hplaced.used
  · rw [if_neg hpage]
    exact h

/-! ## Growing -/

@[simp] lemma Bundle.store_dbPageCount (b : Bundle) (grow : ℕ) (page : Page) (e : Entry) :
    (b.store grow page e).dbPageCount = b.dbPageCount := by
  cases e <;> rfl

/-- Storing at one index leaves the entries of every other. -/
lemma Bundle.store_other {b : Bundle} {p grow : ℕ} (hp : p ≠ grow) (page : Page) (e : Entry) :
    let b' := b.store grow page e
    b'.dbMemory p = b.dbMemory p ∧ b'.dbDma p = b.dbDma p ∧ b'.dbIova p = b.dbIova p ∧
      b'.dbCpu p = b.dbCpu p ∧ b'.dbSlotBitmap p = b.dbSlotBitmap p := by
  have hother {α : Type} (f : ℕ → α) (a : α) : Function.update f grow a p = f p :=
    Function.update_of_ne hp ..
  cases e <;> simp only [Bundle.store, hother, and_self]

/-- The call that stores in order fits the next phase. -/
lemma Pool.fits_stored {grow : ℕ} {page : Page} {e : Entry} {calls : ℕ → Phase}
    (hgrow : grow = s.bundle.dbPageCount) (hpage : page ∈ s.pages)
    (h : s.bundle.StoredUpTo grow page e) :
    Pool.Fits ⟨s.bundle.store grow page e, calls, s.live, s.pages⟩ (.stored grow page e) := by
  have hself {α : Type} (f : ℕ → α) (a : α) : Function.update f grow a grow = a := Function.update_self ..
  cases e with
  | dbMemory => exact ⟨hgrow, hpage, hself _ _⟩
  | dbDma => exact ⟨hgrow, hpage, h, hself _ _⟩
  | dbIova => exact ⟨hgrow, hpage, h.1, h.2, hself _ _⟩
  | dbCpu => exact ⟨hgrow, hpage, h.1, h.2.1, h.2.2, hself _ _⟩
  | dbSlotBitmap => exact ⟨hgrow, page, hpage, h.remark⟩

/-- A call that stores works behind the last page, and alone. -/
lemma Pool.Inv.alone (h : s.Inv) {grow : ℕ} {page : Page} {next : Entry}
    (hcall : s.calls c = .storing grow page next) (hfirst : FirstStore s (.store c)) :
    grow = s.bundle.dbPageCount ∧ page ∈ s.pages ∧ s.bundle.StoredUpTo grow page next ∧
      ∀ c', c' ≠ c → ¬(s.calls c').Stores := by
  have hfits := h.fits c
  replace hfirst : (s.calls c).First s.bundle := hfirst
  rw [hcall] at hfits hfirst
  have hthen (hstores : (s.calls c).Stores) : ∀ c', c' ≠ c → ¬(s.calls c').Stores :=
    fun c' hne hstores' => hne (h.single c' c hstores' hstores)
  rw [hcall] at hthen
  cases next with
  | dbMemory =>
      -- the index has no page yet, so it is not a counted one, and nobody stores there
      have hempty : s.bundle.dbMemory grow = none := hfirst
      have hgrow : grow = s.bundle.dbPageCount := by
        refine Nat.le_antisymm hfits.1 (Nat.le_of_not_lt fun hlt => ?_)
        obtain ⟨whole, _, hholds⟩ := h.whole grow hlt
        rw [hholds.dbMemory] at hempty
        cases hempty
      exact ⟨hgrow, hfits.2, trivial, fun c' _ hstores => (h.fits c').taken hstores (hgrow ▸ hempty)⟩
  | dbDma | dbIova | dbCpu | dbSlotBitmap =>
      exact ⟨hfits.1, hfits.2.1, hfits.2.2, hthen trivial⟩

lemma Pool.Inv.store (h : s.Inv) {grow : ℕ} {page : Page} {next : Entry}
    (hcall : s.calls c = .storing grow page next) (hfirst : FirstStore s (.store c)) :
    Pool.Inv { s.goto c (.stored grow page next) with bundle := s.bundle.store grow page next } := by
  obtain ⟨hgrow, hpage, hstored, halone⟩ := h.alone hcall hfirst
  have hcount := Bundle.store_dbPageCount s.bundle grow page next
  have hother (p : ℕ) (hp : p < s.bundle.dbPageCount) := Bundle.store_other (b := s.bundle)
    (Nat.ne_of_lt (hgrow ▸ hp)) page next
  refine ⟨?_, calls_goto ?_ (Pool.fits_stored hgrow hpage hstored), single_goto h fun _ => halone, ?_,
    h.apart⟩
  · intro p hp
    obtain ⟨hmemory, hdma, hiova, hcpu, _⟩ := hother p (hcount ▸ hp)
    obtain ⟨whole, hwhole, hholds⟩ := h.whole p (hcount ▸ hp)
    exact ⟨whole, hwhole, hmemory.trans hholds.dbMemory, hdma.trans hholds.dbDma,
      hiova.trans hholds.dbIova, hcpu.trans hholds.dbCpu⟩
  · intro c' hc'
    exact (h.fits c').mono (halone c' hc') (Nat.le_of_eq hcount.symm) (List.Subset.refl _)
  · intro r hr
    have hplaced := h.placed r hr
    obtain ⟨_, _, hiova, _, hbits⟩ := hother _ hplaced.counted
    exact hplaced.mono (Nat.le_of_eq hcount.symm) hbits hiova

/-- The page of the call that publishes is the one behind the last. -/
lemma Pool.Inv.publish (h : s.Inv) {grow : ℕ} (hcall : s.calls c = .publishing grow) :
    Pool.Inv { s.goto c .trying with bundle := { s.bundle with dbPageCount := grow + 1 } } := by
  have hfits := h.fits c
  have hstores : (s.calls c).Stores := by
    rw [hcall]
    trivial
  rw [hcall] at hfits
  obtain ⟨hgrow, page, hpage, hholds⟩ := hfits
  have hcount : s.bundle.dbPageCount ≤ grow + 1 := by omega
  refine ⟨?_, calls_goto ?_ trivial, single_goto h fun hnow => absurd hnow id, ?_, h.apart⟩
  · intro p hp
    by_cases hnew : p = grow
    · subst hnew
      exact ⟨page, hpage, hholds.remark⟩
    · have hp : p < grow + 1 := hp
      obtain ⟨whole, hwhole, hholds⟩ := h.whole p (by omega)
      exact ⟨whole, hwhole, hholds.remark⟩
  · intro c' hc'
    exact (h.fits c').mono (fun hstores' => hc' (h.single c' c hstores' hstores)) hcount
      (List.Subset.refl _)
  · intro r hr
    exact (h.placed r hr).mono hcount rfl rfl

/-- A call obtains its page. -/
lemma Pool.Inv.allocate (h : s.Inv) {grow : ℕ} (hcall : s.calls c = .growing grow) (page : Page) :
    Pool.Inv { s.goto c (.storing grow page .dbMemory) with pages := page :: s.pages } := by
  have hfits := h.fits c
  rw [hcall] at hfits
  have hstay (c' : ℕ) : Pool.Fits ⟨s.bundle, Function.update s.calls c (.storing grow page .dbMemory), s.live,
      page :: s.pages⟩ (s.calls c') := by
    have hfits := h.fits c'
    cases hphase : s.calls c' with
    | idle | trying => trivial
    | growing grow' =>
        rw [hphase] at hfits
        exact hfits
    | storing grow' page' next =>
        rw [hphase] at hfits
        cases next with
        | dbMemory => exact ⟨hfits.1, List.mem_cons_of_mem _ hfits.2⟩
        | dbDma | dbIova | dbCpu | dbSlotBitmap =>
            exact ⟨hfits.1, List.mem_cons_of_mem _ hfits.2.1, hfits.2.2⟩
    | publishing grow' =>
        rw [hphase] at hfits
        obtain ⟨hgrow', page', hpage', hholds⟩ := hfits
        exact ⟨hgrow', page', List.mem_cons_of_mem _ hpage', hholds⟩
  refine ⟨?_, calls_goto (fun c' _ => hstay c') ⟨hfits, List.mem_cons_self⟩,
    single_goto h fun hnow => absurd hnow id, ?_, h.apart⟩
  · intro p hp
    obtain ⟨whole, hwhole, hholds⟩ := h.whole p hp
    exact ⟨whole, List.mem_cons_of_mem _ hwhole, hholds⟩
  · intro r hr
    exact (h.placed r hr).mono (Nat.le_refl _) rfl rfl

/-! ## Runs -/

lemma inv_init (first : Page) : (Pool.init first).Inv where
  whole := by
    intro p hp
    obtain rfl : p = 0 := Nat.lt_one_iff.mp hp
    exact ⟨first, List.mem_singleton_self _, rfl, rfl, rfl, rfl⟩
  fits := fun _ => trivial
  single := fun _ _ hstores => absurd hstores id
  placed := fun _ hr => absurd hr List.not_mem_nil
  apart := List.nodup_nil

/-- Every step that is the first to store at its index keeps the invariant. -/
lemma Pool.Inv.step (h : s.Inv) {op : Op} (hfirst : FirstStore s op) (hstep : s.step op = some s') :
    s'.Inv := by
  cases op with
  | call c =>
      rw [Pool.step] at hstep
      split at hstep
      case h_1 => exact Option.some.inj hstep ▸ h.goto id trivial
      case h_2 => cases hstep
  | scan c =>
      rw [Pool.step] at hstep
      split at hstep
      case h_1 => exact Option.some.inj hstep ▸ h.scan
      case h_2 => cases hstep
  | allocate c granted =>
      rw [Pool.step] at hstep
      split at hstep
      case h_1 grow hcall =>
        cases granted with
        | none => exact Option.some.inj hstep ▸ h.goto id trivial
        | some page => exact Option.some.inj hstep ▸ h.allocate hcall page
      case h_2 => cases hstep
  | store c =>
      rw [Pool.step] at hstep
      split at hstep
      case h_1 grow page next hcall => exact Option.some.inj hstep ▸ h.store hcall hfirst
      case h_2 => cases hstep
  | publish c =>
      rw [Pool.step] at hstep
      split at hstep
      case h_1 grow hcall => exact Option.some.inj hstep ▸ h.publish hcall
      case h_2 => cases hstep
  | free offset dmaQuarantined => exact Option.some.inj hstep ▸ h.free offset dmaQuarantined

/-- The invariant says that the records are sound. -/
lemma Pool.Inv.sound (h : s.Inv) : s.Sound where
  apart := h.apart
  resolves := by
    intro r hr
    obtain ⟨haligned, hcounted, _, haddress⟩ := h.placed r hr
    obtain ⟨page, hpage, hholds⟩ := h.whole _ hcounted
    refine ⟨page, hpage, ?_, ?_, ?_⟩
    · show s.bundle.clientDbMemory (r.offset / mlxClientDbPageSize) = _
      rw [Bundle.clientDbMemory, if_neg (Nat.not_le.mpr hcounted)]
      exact hholds.dbMemory
    · rw [Bundle.getClientDbRecord, if_neg (not_not.mpr haligned), if_neg (Nat.not_le.mpr hcounted),
        hholds.dbCpu]
      rfl
    · rw [haddress, hholds.dbIova]
      rfl

/-- The pages of records are kept by every step that is the first to store at its index. -/
lemma Pool.Inv.keeps (h : s.Inv) {op : Op} (hfirst : FirstStore s op) (hstep : s.step op = some s')
    {r : DbRecord} (hr : r ∈ s.live) : s.bundle.Keeps s'.bundle (r.offset / mlxClientDbPageSize) := by
  have hcounted := (h.placed r hr).counted
  have hsame : s.bundle.Keeps s.bundle (r.offset / mlxClientDbPageSize) := ⟨hcounted, rfl, rfl, rfl, rfl⟩
  cases op with
  | call c =>
      rw [Pool.step] at hstep
      split at hstep
      case h_1 => exact Option.some.inj hstep ▸ hsame
      case h_2 => cases hstep
  | scan c =>
      rw [Pool.step] at hstep
      split at hstep
      case h_1 =>
        obtain rfl := Option.some.inj hstep
        unfold Pool.scan
        split
        · exact ⟨hcounted, rfl, rfl, rfl, rfl⟩
        · split_ifs <;> exact hsame
      case h_2 => cases hstep
  | allocate c granted =>
      rw [Pool.step] at hstep
      split at hstep
      case h_1 =>
        cases granted with
        | none | some page => exact Option.some.inj hstep ▸ hsame
      case h_2 => cases hstep
  | store c =>
      rw [Pool.step] at hstep
      split at hstep
      case h_1 grow page next hcall =>
        obtain rfl := Option.some.inj hstep
        have hgrow := (h.alone hcall hfirst).1
        obtain ⟨hmemory, hdma, hiova, hcpu, _⟩ := Bundle.store_other (b := s.bundle)
          (Nat.ne_of_lt (hgrow ▸ hcounted)) page next
        exact ⟨(Bundle.store_dbPageCount ..).symm ▸ hcounted, hmemory, hdma, hiova, hcpu⟩
      case h_2 => cases hstep
  | publish c =>
      rw [Pool.step] at hstep
      split at hstep
      case h_1 grow hcall =>
        obtain rfl := Option.some.inj hstep
        have hfits := h.fits c
        rw [hcall] at hfits
        exact ⟨Nat.lt_succ_of_lt (hfits.1.symm ▸ hcounted), rfl, rfl, rfl, rfl⟩
      case h_2 => cases hstep
  | free offset dmaQuarantined =>
      obtain rfl := Option.some.inj hstep
      unfold Pool.free
      dsimp only
      split_ifs
      · exact hsame
      · exact hsame
      · exact ⟨hcounted, rfl, rfl, rfl, rfl⟩
      · exact hsame

end Steps

/-- In every run whose calls are each the first to store at their index, the records are apart and resolve,
and the next such step keeps the page of every record. -/
theorem client_db_records {first : Page} {s : Pool} (run : Reach Pool.step FirstStore (Pool.init first) s) :
    s.Sound ∧ ∀ op s', FirstStore s op → s.step op = some s' →
      ∀ r ∈ s.live, s.bundle.Keeps s'.bundle (mlxFlatPage r.offset mlxClientDbPageSize) := by
  have h : s.Inv := run.invariant Pool.Inv (inv_init first) fun h hfirst hstep => h.step hfirst hstep
  exact ⟨h.sound, fun op s' hfirst hstep r hr => h.keeps hfirst hstep hr⟩

/-! ## Two calls at once -/

def firstPage : Page := ⟨0, 0, 0x8000, 0x18000⟩

/-- Call `c` stores the five entries of its page and publishes the count. -/
def storePage (c : ℕ) : List Op := List.replicate 5 (.store c) ++ [.publish c]

/-- The records of the first page are taken, and call 0 finds no other. -/
def firstPageFull : List Op := (List.replicate 33 [Op.call 0, .scan 0]).flatten

def growOnce : List Op :=
  firstPageFull ++ [.allocate 0 (some ⟨1, 1, 0x9000, 0x19000⟩)] ++ storePage 0 ++ [.scan 0]

/-- A pool that has grown by a page, with a record on each. -/
theorem client_db_records_grown :
    ∃ s, runOps Pool.step (Pool.init firstPage) growOnce = some s ∧
      s.live.take 2 = [⟨4096, 0x9000⟩, ⟨3968, 0x8f80⟩] ∧
      s.Sound ∧ ∀ op s', FirstStore s op → s.step op = some s' →
        ∀ r ∈ s.live, s.bundle.Keeps s'.bundle (mlxFlatPage r.offset mlxClientDbPageSize) := by
  have hrun : ∃ s, runOps Pool.step (Pool.init firstPage) growOnce = some s ∧
      s.live.take 2 = [⟨4096, 0x9000⟩, ⟨3968, 0x8f80⟩] :=
    ⟨_, rfl, by decide +kernel⟩
  obtain ⟨s, hrun, hlive⟩ := hrun
  exact ⟨s, hrun, hlive, client_db_records (reach_of_guardedOps growOnce hrun (by decide +kernel))⟩

/-- Call 1 reads the count before call 0 publishes it, and stores its page when a record of the page of
call 0 is handed out. -/
def growTwice : List Op :=
  firstPageFull ++ [.call 1, .scan 1, .allocate 0 (some ⟨1, 1, 0x9000, 0x19000⟩)] ++ storePage 0 ++
    [.scan 0, .allocate 1 (some ⟨2, 2, 0xa000, 0x1a000⟩)] ++ storePage 1 ++ [.scan 1]

/-- Both calls have the record at offset 4096. -/
theorem growers_share_slot :
    ∃ s, Reach Pool.step Unguarded (Pool.init firstPage) s ∧
      s.live.take 2 = [⟨4096, 0xa000⟩, ⟨4096, 0x9000⟩] ∧ ¬s.Sound := by
  have hrun : ∃ s, runOps Pool.step (Pool.init firstPage) growTwice = some s ∧
      s.live.take 2 = [⟨4096, 0xa000⟩, ⟨4096, 0x9000⟩] :=
    ⟨_, rfl, by decide +kernel⟩
  obtain ⟨s, hrun, hlive⟩ := hrun
  refine ⟨s, reach_of_runOps hrun, hlive, fun h => ?_⟩
  have hapart : ((s.live.take 2).map DbRecord.offset).Nodup :=
    h.apart.sublist ((List.take_sublist 2 s.live).map _)
  rw [hlive] at hapart
  revert hapart
  decide

end MelonDMA.Ib.ClientDb
