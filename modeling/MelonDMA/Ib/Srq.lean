import MelonDMA.Core.Cmd
import MelonDMA.Hw.Wqe
import MelonDMA.Lib.Chain
import MelonDMA.Lib.Runs
import Mathlib.Data.Finset.Erase
import Mathlib.Data.Finset.Insert

/-!
# Shared receive queues

`MlxSRQ.cpp`, `BuildFreeList`, `PostRecv` and `ReturnWqe`: the elements of a shared receive queue are one
chain, linked through a 16-bit index in the element itself. Posting takes the head of the chain, a
completion appends its element at the tail, and the firmware walks the same links.

`SrqRun` runs a queue beside a record of what was posted and what is outstanding, and beside the firmware,
which takes an element with the link it finds there. The free chain is the list of what is not outstanding
(`SrqRun.Chained`); put after the elements that the firmware has not taken yet it is still one chain
(`SrqRun.Walked`), so the firmware's next element is always the next one posted (`srq_chain`).
-/

namespace MelonDMA.Ib

open MelonDMA.Core MelonDMA.Hw MelonDMA.Lib

/-! ## The queue -/

/-- `MLX_SRQ_WQE_BYTES`. -/
def srqWqeBytes : ℕ := 64

/-- `MLX_SRQ_MAX_SGE`. -/
def srqMaxSge : ℕ := 3

/-- `SRQ_INVALID_LKEY`. -/
def srqInvalidLkey : ℕ := 0x100

/-- A shared receive queue.
Source: `MlxSRQ.hpp`, `struct MlxSRQContext`. -/
structure MlxSrq where
  /-- log2 of the element count. -/
  logSize : ℕ
  /-- The elements. -/
  mem : Memory
  /-- Next element to hand to hardware. -/
  head : ℕ
  /-- Last element in the chain. -/
  tail : ℕ
  freeCount : ℕ
  /-- Posted elements, mirrored into the doorbell record. -/
  counter : ℕ
  dbRecord : ℕ
  wrId : ℕ → ℕ

/-- The number of elements. -/
def MlxSrq.count (q : MlxSrq) : ℕ := 2 ^ q.logSize

/-- The link of an element: the 16-bit big-endian number at its byte 2. -/
def linkIn (mem : Memory) (i : ℕ) : ℕ :=
  (mem (i * srqWqeBytes + 2)).toNat * 256 + (mem (i * srqWqeBytes + 3)).toNat

/-- The store of a link. -/
def linkStore (i next : ℕ) : Store := ⟨i * srqWqeBytes + 2, beBytes 2 next⟩

/-- The link of an element of the queue. -/
def MlxSrq.next (q : MlxSrq) (i : ℕ) : ℕ := linkIn q.mem i

/-- A queue of `2 ^ logSize` elements, all free.
Source: `MlxSRQ.cpp`, `MlxSRQ::BuildFreeList`. -/
def buildFreeList (logSize : ℕ) : MlxSrq where
  logSize := logSize
  mem := Memory.zero.writeAll ((List.range (2 ^ logSize)).map fun i =>
    linkStore i (if i + 1 < 2 ^ logSize then i + 1 else 0))
  head := 0
  tail := 2 ^ logSize - 1
  -- the tail is the spare
  freeCount := 2 ^ logSize - 1
  counter := 0
  dbRecord := 0
  wrId := fun _ => 0

/-- The loop of `CreateSRQ` that sizes a queue. -/
def logSizeFrom (maxWr : ℕ) : ℕ → ℕ → ℕ
  | 0, logSize => logSize
  | fuel + 1, logSize => if 2 ^ logSize < maxWr then logSizeFrom maxWr fuel (logSize + 1) else logSize

/-- A new queue.
Source: `MlxSRQ.cpp`, `MlxSRQ::CreateSRQ`. -/
def createSrq (maxWr maxSge : ℕ) : Option MlxSrq :=
  if maxWr = 0 ∨ maxWr > 4096 then none
  else if maxSge = 0 ∨ maxSge > srqMaxSge then none
  else
    let logSize := logSizeFrom maxWr 12 0
    some (buildFreeList (if logSize < 4 then 4 else logSize))

/-- The data segments of an element, and the segment that closes a short list. -/
def scatterStores (index : ℕ) (sge : List RcSge) : List Store :=
  let scat := index * srqWqeBytes + 16
  (sge.zipIdx.map fun si =>
    ⟨scat + si.2 * 16, beBytes 4 si.1.length ++ beBytes 4 si.1.lkey ++ beBytes 8 si.1.addr⟩) ++
  if sge.length < srqMaxSge then
    [⟨scat + sge.length * 16, beBytes 4 0 ++ beBytes 4 srqInvalidLkey ++ beBytes 8 0⟩]
  else []

/-- Post a receive request.
Source: `MlxSRQ.cpp`, `MlxSRQ::PostRecv`. -/
def MlxSrq.postRecv (q : MlxSrq) (sge : List RcSge) (wrId : ℕ) : KernReturn × MlxSrq :=
  if sge.length = 0 ∨ sge.length > srqMaxSge then (.badArgument, q)
  else if q.head = q.tail then (.noSpace, q)
  else
    (.success,
      { q with
        -- the link stays as it is: it is the chain firmware walks
        head := q.next q.head
        freeCount := if q.freeCount ≠ 0 then q.freeCount - 1 else q.freeCount
        mem := q.mem.writeAll (scatterStores q.head sge)
        wrId := Function.update q.wrId q.head wrId
        counter := (q.counter + 1) % 2 ^ 32
        dbRecord := (q.counter + 1) % 2 ^ 32 })

/-- Append a consumed element at the tail.
Source: `MlxSRQ.cpp`, `MlxSRQ::ReturnWqe`. -/
def MlxSrq.returnWqe (q : MlxSrq) (wqeIndex : ℕ) : MlxSrq :=
  if wqeIndex < q.count then
    { q with
      mem := q.mem.write (linkStore q.tail wqeIndex)
      tail := wqeIndex
      freeCount := q.freeCount + 1 }
  else q

/-- The work request identifier recorded for an element.
Source: `MlxSRQ.cpp`, `MlxSRQ::WrIdFor`. -/
def MlxSrq.wrIdFor (q : MlxSrq) (wqeIndex : ℕ) : ℕ :=
  if wqeIndex < q.count then q.wrId wqeIndex else 0

/-- The free list, read off the links from the head to the tail. -/
def MlxSrq.freeList (q : MlxSrq) : List ℕ := pathTo q.next q.tail q.count q.head

/-! ## Its links -/

section Links

variable {mem : Memory} {i j next : ℕ}

/-- Reading a link after storing one. -/
lemma linkIn_write : linkIn (mem.write (linkStore i next)) j = if j = i then next % 65536 else linkIn mem j := by
  by_cases hji : j = i
  · subst hji
    have hhigh : (linkStore j next).Covers (j * srqWqeBytes + 2) := by
      unfold Store.Covers linkStore
      simp
    have hlow : (linkStore j next).Covers (j * srqWqeBytes + 3) := by
      unfold Store.Covers linkStore
      simp
    rw [if_pos rfl, linkIn, Memory.write_of_covers hhigh 0#8, Memory.write_of_covers hlow 0#8]
    simp only [linkStore, Nat.sub_self, beBytes, List.getD_cons_zero, BitVec.toNat_ofNat]
    have hone : j * srqWqeBytes + 3 - (j * srqWqeBytes + 2) = 1 := by omega
    rw [hone, List.getD_cons_succ, List.getD_cons_zero, BitVec.toNat_ofNat]
    omega
  · have hmiss : ∀ o, o = 2 ∨ o = 3 → ¬(linkStore i next).Covers (j * srqWqeBytes + o) := by
      intro o ho
      unfold Store.Covers linkStore srqWqeBytes
      rw [length_beBytes]
      dsimp only
      omega
    rw [if_neg hji, linkIn, linkIn, Memory.write_of_not_covers (hmiss 2 (.inl rfl)),
      Memory.write_of_not_covers (hmiss 3 (.inr rfl))]

/-- Data segments leave every link alone. -/
lemma linkIn_scatter {index : ℕ} {sge : List RcSge} (h : sge.length ≤ srqMaxSge) :
    linkIn (mem.writeAll (scatterStores index sge)) j = linkIn mem j := by
  have hmiss : ∀ o, o = 2 ∨ o = 3 → ∀ st ∈ scatterStores index sge, ¬st.Covers (j * srqWqeBytes + o) := by
    intro o ho st hst
    have hstart : index * srqWqeBytes + 16 ≤ st.offset ∧
        st.offset + st.bytes.length ≤ index * srqWqeBytes + 64 := by
      unfold scatterStores srqMaxSge at hst
      unfold srqMaxSge at h
      rcases List.mem_append.mp hst with hdata | hend
      · obtain ⟨⟨seg, k⟩, hk, rfl⟩ := List.mem_map.mp hdata
        have hlt := List.snd_lt_of_mem_zipIdx hk
        simp only [List.length_append, length_beBytes]
        omega
      · split_ifs at hend with hshort
        · obtain rfl := List.mem_singleton.mp hend
          simp only [List.length_append, length_beBytes]
          omega
        · cases hend
    unfold Store.Covers srqWqeBytes at *
    omega
  rw [linkIn, linkIn, Memory.writeAll_of_not_covers (hmiss 2 (.inl rfl)),
    Memory.writeAll_of_not_covers (hmiss 3 (.inr rfl))]

/-- The links of a list of link stores to elements numbered in order. -/
lemma linkIn_writeAll_range {n : ℕ} {f : ℕ → ℕ} (hi : i < n) :
    linkIn (mem.writeAll ((List.range n).map fun i => linkStore i (f i))) i = f i % 65536 := by
  induction n with
  | zero => omega
  | succ n ih =>
      rw [List.range_succ, List.map_append, Memory.writeAll_append]
      show linkIn (Memory.write _ (linkStore n (f n))) i = _
      rw [linkIn_write]
      by_cases hin : i = n
      · rw [if_pos hin, hin]
      · rw [if_neg hin, ih (by omega)]

end Links

/-! ## Runs -/

/-- A queue with what was posted, in order, what is outstanding, and the firmware: the element it takes
next and those it took. -/
structure SrqRun where
  queue : MlxSrq
  /-- Index and identifier of each request posted. -/
  posted : List (ℕ × ℕ)
  outstanding : Finset ℕ
  cursor : ℕ
  taken : List ℕ

/-- What happens to a queue. -/
inductive SrqOp
  /-- A request is posted. -/
  | post (sge : List RcSge) (wrId : ℕ)
  /-- The firmware takes an element, with the link it finds in it. -/
  | take
  /-- A completion returns an element. -/
  | complete (index : ℕ)

/-- A new queue, with the firmware at its first element. -/
def SrqRun.init (q : MlxSrq) : SrqRun := ⟨q, [], ∅, 0, []⟩

/-- One step. -/
def SrqRun.step (s : SrqRun) : SrqOp → Option SrqRun
  | .post sge wrId =>
      let r := s.queue.postRecv sge wrId
      if r.1 = .success then
        some { s with
          queue := r.2
          posted := s.posted ++ [(s.queue.head, wrId)]
          outstanding := insert s.queue.head s.outstanding }
      else some { s with queue := r.2 }
  | .take =>
      if s.taken.length < s.posted.length then
        some { s with taken := s.taken ++ [s.cursor], cursor := s.queue.next s.cursor }
      else none
  | .complete index =>
      some { s with queue := s.queue.returnWqe index, outstanding := s.outstanding.erase index }

/-- A completion is of an outstanding element. -/
def Returns (s : SrqRun) : SrqOp → Prop
  | .complete index => index ∈ s.outstanding
  | _ => True

/-- The elements posted that the firmware has not taken. -/
def SrqRun.pending (s : SrqRun) : List ℕ := (s.posted.map Prod.fst).drop s.taken.length

/-- A completion is of an outstanding element that the firmware took. -/
def ReturnsTaken (s : SrqRun) : SrqOp → Prop
  | .complete index => index ∈ s.outstanding ∧ index ∉ s.pending
  | _ => True

/-- The identifier posted last for an element. -/
def lastPosted (posted : List (ℕ × ℕ)) (index : ℕ) : Option ℕ :=
  (posted.reverse.find? fun request => request.1 == index).map Prod.snd

/-- The free chain: linked from the head to the tail, without repetition, what is not outstanding. -/
structure SrqRun.Chained (s : SrqRun) (free : List ℕ) : Prop where
  size : s.queue.count ≤ 65536
  linked : Linked s.queue.next free
  nodup : free.Nodup
  head : free.head? = some s.queue.head
  last : free.getLast? = some s.queue.tail
  mem_iff : ∀ i, i ∈ free ↔ i < s.queue.count ∧ i ∉ s.outstanding
  outstanding_lt : ∀ i ∈ s.outstanding, i < s.queue.count
  freeCount : s.queue.freeCount + 1 = free.length
  wrId : ∀ i ∈ s.outstanding, lastPosted s.posted i = some (s.queue.wrIdFor i)

/-- What the firmware has not taken, with the free chain after it, is one chain from its cursor on. -/
structure SrqRun.Walked (s : SrqRun) (free : List ℕ) : Prop where
  posted : s.posted.map Prod.fst = s.taken ++ s.pending
  linked : Linked s.queue.next (s.pending ++ free)
  nodup : (s.pending ++ free).Nodup
  head : (s.pending ++ free).head? = some s.cursor

section Queue

variable {q : MlxSrq} {sge : List RcSge} {wrId : ℕ}

lemma logSizeFrom_le (maxWr fuel logSize : ℕ) : logSizeFrom maxWr fuel logSize ≤ logSize + fuel := by
  induction fuel generalizing logSize with
  | zero => exact le_refl logSize
  | succ fuel ih =>
      rw [logSizeFrom]
      split_ifs
      · have := ih (logSize + 1)
        omega
      · omega

/-- A new queue has a power of two of elements, at most `2 ^ 12`. -/
lemma createSrq_spec {maxWr maxSge : ℕ} (h : createSrq maxWr maxSge = some q) :
    ∃ logSize, logSize ≤ 12 ∧ q = buildFreeList logSize := by
  unfold createSrq at h
  split_ifs at h with hwr hsge
  obtain rfl := Option.some.inj h
  refine ⟨_, ?_, rfl⟩
  have hle := logSizeFrom_le maxWr 12 0
  split_ifs <;> omega

/-- The queue after a request that is accepted. -/
def MlxSrq.accepted (q : MlxSrq) (sge : List RcSge) (wrId : ℕ) : MlxSrq :=
  { q with
    head := q.next q.head
    freeCount := if q.freeCount ≠ 0 then q.freeCount - 1 else q.freeCount
    mem := q.mem.writeAll (scatterStores q.head sge)
    wrId := Function.update q.wrId q.head wrId
    counter := (q.counter + 1) % 2 ^ 32
    dbRecord := (q.counter + 1) % 2 ^ 32 }

/-- A request is accepted when its segments fit and an element is free beside the spare one; else it
changes nothing. -/
lemma postRecv_cases (q : MlxSrq) (sge : List RcSge) (wrId : ℕ) :
    (sge.length ≤ srqMaxSge ∧ q.head ≠ q.tail ∧ q.postRecv sge wrId = (.success, q.accepted sge wrId)) ∨
      ((q.postRecv sge wrId).1 ≠ .success ∧ (q.postRecv sge wrId).2 = q) := by
  unfold MlxSrq.postRecv
  by_cases hsge : sge.length = 0 ∨ sge.length > srqMaxSge
  · rw [if_pos hsge]
    exact .inr ⟨by rintro ⟨⟩, rfl⟩
  rw [if_neg hsge]
  by_cases hfull : q.head = q.tail
  · rw [if_pos hfull]
    exact .inr ⟨by rintro ⟨⟩, rfl⟩
  · rw [if_neg hfull]
    exact .inl ⟨by omega, hfull, rfl⟩

/-- A request that is accepted finds a free element beside the spare one. -/
lemma postRecv_success (h : (q.postRecv sge wrId).1 = .success) :
    sge.length ≤ srqMaxSge ∧ q.head ≠ q.tail := by
  rcases postRecv_cases q sge wrId with ⟨hsge, hne, -⟩ | ⟨hrefused, -⟩
  · exact ⟨hsge, hne⟩
  · exact absurd h hrefused

/-- What an accepted request does to the queue. -/
lemma postRecv_eq (h : (q.postRecv sge wrId).1 = .success) :
    (q.postRecv sge wrId).2 = q.accepted sge wrId := by
  rcases postRecv_cases q sge wrId with ⟨-, -, heq⟩ | ⟨hrefused, -⟩
  · rw [heq]
  · exact absurd h hrefused

/-- A request changes no link. -/
lemma postRecv_next (h : (q.postRecv sge wrId).1 = .success) : (q.postRecv sge wrId).2.next = q.next := by
  funext j
  rw [postRecv_eq h]
  exact linkIn_scatter (postRecv_success h).1

/-- A request that is refused changes nothing. -/
lemma postRecv_refused (h : (q.postRecv sge wrId).1 ≠ .success) : (q.postRecv sge wrId).2 = q := by
  rcases postRecv_cases q sge wrId with ⟨-, -, heq⟩ | ⟨-, heq⟩
  · rw [heq] at h
    exact absurd rfl h
  · exact heq

/-- A return changes the link of the tail alone. -/
lemma returnWqe_next {index : ℕ} (h : index < q.count) (hsize : q.count ≤ 65536) (j : ℕ) :
    (q.returnWqe index).next j = if j = q.tail then index else q.next j := by
  have hmod : index % 65536 = index := Nat.mod_eq_of_lt (by omega)
  rw [MlxSrq.returnWqe, if_pos h]
  show linkIn (q.mem.write (linkStore q.tail index)) j = _
  rw [linkIn_write, hmod]
  rfl

/-- The elements of a new queue are linked in order. -/
lemma buildFreeList_next {logSize i : ℕ} (hsize : logSize ≤ 12) (hi : i + 1 < 2 ^ logSize) :
    (buildFreeList logSize).next i = i + 1 := by
  have hpow : 2 ^ logSize ≤ 2 ^ 12 := Nat.pow_le_pow_right (by decide) hsize
  show linkIn (Memory.zero.writeAll _) i = i + 1
  rw [linkIn_writeAll_range (by omega), if_pos hi]
  exact Nat.mod_eq_of_lt (by omega)

end Queue

section Steps

variable {s s' : SrqRun} {free : List ℕ}

lemma lastPosted_append (posted : List (ℕ × ℕ)) (index wrId i : ℕ) :
    lastPosted (posted ++ [(index, wrId)]) i = if index = i then some wrId else lastPosted posted i := by
  rw [lastPosted, List.reverse_append, List.reverse_singleton, List.singleton_append, List.find?_cons]
  by_cases h : index = i
  · have hb : (index == i) = true := beq_iff_eq.mpr h
    rw [if_pos h]
    dsimp only
    rw [hb]
    rfl
  · have hb : (index == i) = false := beq_eq_false_iff_ne.mpr h
    rw [if_neg h]
    dsimp only
    rw [hb]
    rfl

/-- A new queue is one free chain. -/
lemma SrqRun.init_chained {logSize : ℕ} (hsize : logSize ≤ 12) :
    (SrqRun.init (buildFreeList logSize)).Chained (List.range (2 ^ logSize)) := by
  have hpos : 0 < 2 ^ logSize := Nat.two_pow_pos logSize
  have hpow : 2 ^ logSize ≤ 2 ^ 12 := Nat.pow_le_pow_right (by decide) hsize
  constructor
  · show 2 ^ logSize ≤ 65536
    omega
  · refine List.isChain_iff_getElem.mpr fun i hi => ?_
    rw [List.length_range] at hi
    rw [List.getElem_range, List.getElem_range]
    exact buildFreeList_next hsize hi
  · exact List.nodup_range
  · rw [List.head?_range, if_neg (by omega)]
    rfl
  · rw [List.getLast?_range, if_neg (by omega)]
    rfl
  · intro i
    rw [List.mem_range]
    exact (and_iff_left (Finset.notMem_empty i)).symm
  · intro i hi
    exact absurd hi (Finset.notMem_empty i)
  · rw [List.length_range]
    exact Nat.sub_add_cancel hpos
  · intro i hi
    exact absurd hi (Finset.notMem_empty i)

/-- The head of a free chain of two elements or more. -/
lemma SrqRun.Chained.cons_cons (h : s.Chained free) (hne : s.queue.head ≠ s.queue.tail) :
    ∃ rest, free = s.queue.head :: s.queue.next s.queue.head :: rest := by
  obtain ⟨hhead, hlast, hlinked⟩ := And.intro h.head (And.intro h.last h.linked)
  cases free with
  | nil => cases hhead
  | cons a free =>
      obtain rfl : a = s.queue.head := by simpa using hhead
      cases free with
      | nil =>
          obtain heq : s.queue.head = s.queue.tail := by simpa using hlast
          exact absurd heq hne
      | cons b rest => exact ⟨rest, by rw [hlinked.next_eq]⟩

/-- Posting takes the head off the free chain. -/
lemma SrqRun.Chained.post (h : s.Chained free) {sge : List RcSge} {wrId : ℕ}
    (hok : (s.queue.postRecv sge wrId).1 = .success)
    (hstep : s.step (.post sge wrId) = some s') : s'.Chained free.tail := by
  rw [SrqRun.step, if_pos hok] at hstep
  obtain rfl := Option.some.inj hstep
  obtain ⟨rest, hfree⟩ := h.cons_cons (postRecv_success hok).2
  have hheadLt : s.queue.head < s.queue.count ∧ s.queue.head ∉ s.outstanding := by
    refine (h.mem_iff _).mp ?_
    rw [hfree]
    exact List.mem_cons_self
  have hcount : (s.queue.postRecv sge wrId).2.count = s.queue.count := by
    rw [postRecv_eq hok]
    rfl
  have hnodup := h.nodup
  rw [hfree] at hnodup
  constructor
  · show (s.queue.postRecv sge wrId).2.count ≤ 65536
    rw [hcount]
    exact h.size
  · show Linked (s.queue.postRecv sge wrId).2.next free.tail
    rw [postRecv_next hok, hfree]
    have hlinked := h.linked
    rw [hfree] at hlinked
    exact hlinked.tail
  · rw [hfree]
    exact (List.nodup_cons.mp hnodup).2
  · show free.tail.head? = some (s.queue.postRecv sge wrId).2.head
    rw [hfree, postRecv_eq hok]
    rfl
  · show free.tail.getLast? = some (s.queue.postRecv sge wrId).2.tail
    have hlast := h.last
    rw [hfree, List.getLast?_cons_cons] at hlast
    rw [hfree, postRecv_eq hok]
    exact hlast
  · intro i
    show i ∈ free.tail ↔ i < (s.queue.postRecv sge wrId).2.count ∧ i ∉ insert s.queue.head s.outstanding
    have hmem := h.mem_iff i
    rw [hfree, List.mem_cons] at hmem
    rw [hcount, Finset.mem_insert, hfree]
    constructor
    · intro hi
      have hne : i ≠ s.queue.head := by
        rintro rfl
        exact (List.nodup_cons.mp hnodup).1 hi
      obtain ⟨hlt, hnot⟩ := hmem.mp (.inr hi)
      exact ⟨hlt, fun hor => hor.elim hne hnot⟩
    · rintro ⟨hlt, hnot⟩
      rcases hmem.mpr ⟨hlt, fun hout => hnot (.inr hout)⟩ with heq | hi
      · exact absurd (.inl heq) hnot
      · exact hi
  · intro i hi
    show i < (s.queue.postRecv sge wrId).2.count
    rw [hcount]
    rcases Finset.mem_insert.mp hi with rfl | hi
    · exact hheadLt.1
    · exact h.outstanding_lt i hi
  · show (s.queue.postRecv sge wrId).2.freeCount + 1 = free.tail.length
    have hlength := h.freeCount
    rw [hfree, List.length_cons, List.length_cons] at hlength
    rw [postRecv_eq hok, hfree, List.tail_cons, List.length_cons]
    show (if s.queue.freeCount ≠ 0 then s.queue.freeCount - 1 else s.queue.freeCount) + 1 = _
    rw [if_pos (by omega)]
    omega
  · intro i hi
    show lastPosted (s.posted ++ [(s.queue.head, wrId)]) i = some ((s.queue.postRecv sge wrId).2.wrIdFor i)
    have hlt : i < s.queue.count := by
      rcases Finset.mem_insert.mp hi with rfl | hi
      · exact hheadLt.1
      · exact h.outstanding_lt i hi
    rw [lastPosted_append, MlxSrq.wrIdFor, hcount, if_pos hlt, postRecv_eq hok]
    by_cases hih : i = s.queue.head
    · rw [if_pos hih.symm, hih]
      show some wrId = some (Function.update s.queue.wrId s.queue.head wrId s.queue.head)
      rw [Function.update_self]
    · rw [if_neg (Ne.symm hih)]
      have hold := h.wrId i ((Finset.mem_insert.mp hi).resolve_left hih)
      rw [MlxSrq.wrIdFor, if_pos hlt] at hold
      rw [hold]
      exact congrArg some (Function.update_of_ne hih ..).symm

/-- A return puts its element on the end of the free chain. -/
lemma SrqRun.Chained.complete (h : s.Chained free) {index : ℕ} (hout : index ∈ s.outstanding)
    (hstep : s.step (.complete index) = some s') : s'.Chained (free ++ [index]) := by
  obtain rfl := Option.some.inj hstep
  have hlt := h.outstanding_lt index hout
  have hnot : index ∉ free := fun hmem => ((h.mem_iff index).mp hmem).2 hout
  have hreturn : s.queue.returnWqe index =
      { s.queue with
        mem := s.queue.mem.write (linkStore s.queue.tail index)
        tail := index
        freeCount := s.queue.freeCount + 1 } := by
    rw [MlxSrq.returnWqe, if_pos hlt]
  have hcount : (s.queue.returnWqe index).count = s.queue.count := by
    rw [hreturn]
    rfl
  have hnext := returnWqe_next hlt h.size
  constructor
  · show (s.queue.returnWqe index).count ≤ 65536
    rw [hcount]
    exact h.size
  · refine h.linked.append h.last h.nodup (fun a _ hne => ?_) ?_
    · exact (hnext a).trans (if_neg hne)
    · exact (hnext s.queue.tail).trans (if_pos rfl)
  · exact List.nodup_append.mpr ⟨h.nodup, List.nodup_singleton index, fun a ha b hb => by
      obtain rfl := List.mem_singleton.mp hb
      rintro rfl
      exact hnot ha⟩
  · show (free ++ [index]).head? = some (s.queue.returnWqe index).head
    rw [List.head?_append, h.head, hreturn]
    rfl
  · show (free ++ [index]).getLast? = some (s.queue.returnWqe index).tail
    rw [List.getLast?_append, hreturn]
    rfl
  · intro i
    show i ∈ free ++ [index] ↔ i < (s.queue.returnWqe index).count ∧ i ∉ s.outstanding.erase index
    rw [hcount, List.mem_append, List.mem_singleton, h.mem_iff, Finset.mem_erase]
    by_cases hi : i = index
    · subst hi
      simp [hlt]
    · simp [hi]
  · intro i hi
    show i < (s.queue.returnWqe index).count
    rw [hcount]
    exact h.outstanding_lt i (Finset.mem_of_mem_erase hi)
  · show (s.queue.returnWqe index).freeCount + 1 = (free ++ [index]).length
    rw [hreturn, List.length_append, List.length_singleton, ← h.freeCount]
  · intro i hi
    show lastPosted s.posted i = some ((s.queue.returnWqe index).wrIdFor i)
    rw [h.wrId i (Finset.mem_of_mem_erase hi), MlxSrq.wrIdFor, MlxSrq.wrIdFor, hcount, hreturn]

/-- A refused request and the firmware leave the free chain alone. -/
lemma SrqRun.Chained.same (h : s.Chained free) (hqueue : s'.queue = s.queue)
    (hposted : s'.posted = s.posted) (hout : s'.outstanding = s.outstanding) : s'.Chained free := by
  obtain ⟨queue, posted, outstanding, cursor, taken⟩ := s
  obtain ⟨queue', posted', outstanding', cursor', taken'⟩ := s'
  obtain rfl : queue' = queue := hqueue
  obtain rfl : posted' = posted := hposted
  obtain rfl : outstanding' = outstanding := hout
  exact ⟨h.size, h.linked, h.nodup, h.head, h.last, h.mem_iff, h.outstanding_lt, h.freeCount, h.wrId⟩

/-- Every step keeps what is not outstanding one free chain. -/
lemma SrqRun.Chained.step {op : SrqOp} (h : s.Chained free) (hok : Returns s op)
    (hstep : s.step op = some s') : ∃ free', s'.Chained free' := by
  cases op with
  | post sge wrId =>
      by_cases haccepted : (s.queue.postRecv sge wrId).1 = .success
      · exact ⟨_, h.post haccepted hstep⟩
      · rw [SrqRun.step, if_neg haccepted] at hstep
        obtain rfl := Option.some.inj hstep
        exact ⟨free, h.same (postRecv_refused haccepted) rfl rfl⟩
  | take =>
      rw [SrqRun.step] at hstep
      split_ifs at hstep with hlt
      obtain rfl := Option.some.inj hstep
      exact ⟨free, h.same rfl rfl rfl⟩
  | complete index => exact ⟨_, h.complete hok hstep⟩

/-- The free list read off the links is the free chain. -/
lemma SrqRun.Chained.freeList_eq (h : s.Chained free) : s.queue.freeList = free := by
  obtain ⟨hhead, hlast, hlinked, hnodup⟩ := And.intro h.head (And.intro h.last (And.intro h.linked h.nodup))
  cases hfree : free with
  | nil =>
      rw [hfree] at hhead
      cases hhead
  | cons a rest =>
      rw [hfree] at hhead hlast hlinked hnodup
      obtain rfl : a = s.queue.head := by simpa using hhead
      refine hlinked.pathTo_eq hlast hnodup ?_
      -- the chain has no more elements than the queue
      have hsub : (s.queue.head :: rest) ⊆ List.range s.queue.count := by
        intro i hi
        rw [← hfree] at hi
        exact List.mem_range.mpr ((h.mem_iff i).mp hi).1
      have hle := (List.subperm_of_subset hnodup hsub).length_le
      rw [List.length_cons, List.length_range] at hle
      omega

/-! ## The firmware -/

/-- Posting moves the head from the free chain to what the firmware has not taken. -/
lemma SrqRun.Walked.post (hw : s.Walked free) (h : s.Chained free) {sge : List RcSge} {wrId : ℕ}
    (hok : (s.queue.postRecv sge wrId).1 = .success) (hstep : s.step (.post sge wrId) = some s') :
    s'.Walked free.tail := by
  rw [SrqRun.step, if_pos hok] at hstep
  obtain rfl := Option.some.inj hstep
  obtain ⟨rest, hfree⟩ := h.cons_cons (postRecv_success hok).2
  have hle : s.taken.length ≤ (s.posted.map Prod.fst).length := by
    rw [hw.posted, List.length_append]
    omega
  have hpending : ((s.posted ++ [(s.queue.head, wrId)]).map Prod.fst).drop s.taken.length =
      s.pending ++ [s.queue.head] := by
    rw [List.map_append, List.drop_append_of_le_length hle]
    rfl
  have hsame : ((s.posted ++ [(s.queue.head, wrId)]).map Prod.fst).drop s.taken.length ++ free.tail =
      s.pending ++ free := by
    rw [hpending, hfree, List.append_assoc]
    rfl
  constructor
  · show (s.posted ++ [(s.queue.head, wrId)]).map Prod.fst = s.taken ++ List.drop _ _
    rw [hpending, List.map_append, hw.posted, List.append_assoc]
    rfl
  · show Linked (s.queue.postRecv sge wrId).2.next (List.drop _ _ ++ free.tail)
    rw [hsame, postRecv_next hok]
    exact hw.linked
  · show (List.drop _ _ ++ free.tail).Nodup
    rw [hsame]
    exact hw.nodup
  · show (List.drop _ _ ++ free.tail).head? = some s.cursor
    rw [hsame]
    exact hw.head

/-- The firmware takes the first element it has not taken. -/
lemma SrqRun.Walked.take (hw : s.Walked free) (h : s.Chained free) (hstep : s.step .take = some s') :
    s'.Walked free := by
  rw [SrqRun.step] at hstep
  split_ifs at hstep with hlt
  obtain rfl := Option.some.inj hstep
  -- there is an element to take, and the free chain after it
  have hlength : (s.posted.map Prod.fst).length = s.posted.length := List.length_map ..
  cases hpending : s.pending with
  | nil =>
      have hposted := congrArg List.length hw.posted
      rw [hpending, List.append_nil, hlength] at hposted
      omega
  | cons p rest =>
      obtain ⟨hposted, hlinked, hnodup, hhead⟩ := hw
      rw [hpending] at hposted hlinked hnodup hhead
      obtain rfl : p = s.cursor := by simpa using hhead
      have hrest : (s.posted.map Prod.fst).drop (s.taken ++ [s.cursor]).length = rest := by
        rw [hposted, List.length_append, List.length_singleton, List.drop_append]
        simp
      constructor
      · show s.posted.map Prod.fst = s.taken ++ [s.cursor] ++ List.drop _ _
        rw [hrest, hposted, List.append_assoc]
        rfl
      · show Linked s.queue.next (List.drop _ _ ++ free)
        rw [hrest]
        exact hlinked.tail
      · show (List.drop _ _ ++ free).Nodup
        rw [hrest]
        exact (List.nodup_cons.mp hnodup).2
      · show (List.drop _ _ ++ free).head? = some (s.queue.next s.cursor)
        rw [hrest]
        cases hnext : rest ++ free with
        | nil =>
            obtain ⟨-, hfree⟩ := List.append_eq_nil_iff.mp hnext
            have := h.head
            rw [hfree] at this
            cases this
        | cons b l =>
            rw [List.cons_append, hnext] at hlinked
            rw [hlinked.next_eq]
            rfl

/-- An element that comes back was taken: it goes behind the free chain. -/
lemma SrqRun.Walked.complete (hw : s.Walked free) (h : s.Chained free) {index : ℕ}
    (hout : index ∈ s.outstanding) (hnot : index ∉ s.pending)
    (hstep : s.step (.complete index) = some s') : s'.Walked (free ++ [index]) := by
  obtain rfl := Option.some.inj hstep
  have hnext := returnWqe_next (h.outstanding_lt index hout) h.size
  have hfree : index ∉ free := fun hmem => ((h.mem_iff index).mp hmem).2 hout
  have hlast : (s.pending ++ free).getLast? = some s.queue.tail := by
    rw [List.getLast?_append, h.last]
    rfl
  refine ⟨hw.posted, ?_, ?_, ?_⟩
  · show Linked (s.queue.returnWqe index).next (s.pending ++ (free ++ [index]))
    rw [← List.append_assoc]
    refine hw.linked.append hlast hw.nodup (fun a _ hne => ?_) ?_
    · exact (hnext a).trans (if_neg hne)
    · exact (hnext s.queue.tail).trans (if_pos rfl)
  · show (s.pending ++ (free ++ [index])).Nodup
    rw [← List.append_assoc]
    refine List.nodup_append.mpr ⟨hw.nodup, List.nodup_singleton index, fun a ha b hb => ?_⟩
    obtain rfl := List.mem_singleton.mp hb
    rintro rfl
    exact (List.mem_append.mp ha).elim hnot hfree
  · show (s.pending ++ (free ++ [index])).head? = some s.cursor
    rw [← List.append_assoc, List.head?_append, hw.head]
    rfl

/-- Every step keeps what the firmware has not taken one chain with the free list. -/
lemma SrqRun.Walked.step {op : SrqOp} (hw : s.Walked free) (h : s.Chained free) (hok : ReturnsTaken s op)
    (hstep : s.step op = some s') : ∃ free', s'.Chained free' ∧ s'.Walked free' := by
  cases op with
  | post sge wrId =>
      by_cases haccepted : (s.queue.postRecv sge wrId).1 = .success
      · exact ⟨_, h.post haccepted hstep, hw.post h haccepted hstep⟩
      · rw [SrqRun.step, if_neg haccepted, postRecv_refused haccepted] at hstep
        obtain rfl := Option.some.inj hstep
        exact ⟨free, h, hw⟩
  | take =>
      refine ⟨free, ?_, hw.take h hstep⟩
      rw [SrqRun.step] at hstep
      split_ifs at hstep with hlt
      obtain rfl := Option.some.inj hstep
      exact h.same rfl rfl rfl
  | complete index => exact ⟨_, h.complete hok.1 hstep, hw.complete h hok.1 hok.2 hstep⟩

end Steps

/-! ## Every order of posts and completions -/

/-- For every queue. Whatever is posted and whatever outstanding elements come back: the free list from
the head to the tail is linked, without repetition, and holds exactly what is not outstanding; the free
count is its length without the spare element; a request that is accepted gets an element that is not
outstanding; and the identifier recorded for an outstanding element is the one posted last for it. And
the firmware, while what comes back is what it took, takes the elements in the order of their posts. -/
theorem srq_chain {maxWr maxSge : ℕ} {q : MlxSrq} (hcreate : createSrq maxWr maxSge = some q) :
    (∀ s, Reach SrqRun.step Returns (.init q) s →
      Linked s.queue.next s.queue.freeList ∧ s.queue.freeList.Nodup ∧
      s.queue.freeList.head? = some s.queue.head ∧ s.queue.freeList.getLast? = some s.queue.tail ∧
      (∀ i, i ∈ s.queue.freeList ↔ i < s.queue.count ∧ i ∉ s.outstanding) ∧
      s.queue.freeCount + 1 = s.queue.freeList.length ∧
      (∀ sge wrId, (s.queue.postRecv sge wrId).1 = .success → s.queue.head ∉ s.outstanding) ∧
      ∀ i ∈ s.outstanding, lastPosted s.posted i = some (s.queue.wrIdFor i)) ∧
    ∀ s, Reach SrqRun.step ReturnsTaken (.init q) s →
      s.taken = (s.posted.map Prod.fst).take s.taken.length := by
  obtain ⟨logSize, hsize, rfl⟩ := createSrq_spec hcreate
  have hinit := SrqRun.init_chained hsize
  constructor
  · intro s run
    obtain ⟨free, h⟩ : ∃ free, s.Chained free := by
      refine run.invariant (fun s => ∃ free, s.Chained free) ⟨_, hinit⟩ ?_
      rintro s s' op ⟨free, h⟩ hok hstep
      exact h.step hok hstep
    rw [h.freeList_eq]
    refine ⟨h.linked, h.nodup, h.head, h.last, h.mem_iff, h.freeCount, fun sge wrId hok => ?_, h.wrId⟩
    obtain ⟨rest, hfree⟩ := h.cons_cons (postRecv_success hok).2
    exact ((h.mem_iff _).mp (by rw [hfree]; exact List.mem_cons_self)).2
  · intro s run
    obtain ⟨free, -, hw⟩ : ∃ free, s.Chained free ∧ s.Walked free := by
      have hwalked : (SrqRun.init (buildFreeList logSize)).Walked (List.range (2 ^ logSize)) :=
        ⟨rfl, hinit.linked, hinit.nodup, hinit.head⟩
      refine run.invariant (fun s => ∃ free, s.Chained free ∧ s.Walked free) ⟨_, hinit, hwalked⟩ ?_
      rintro s s' op ⟨free, h, hw⟩ hok hstep
      exact hw.step h hok hstep
    rw [hw.posted, List.take_left]

/-- The smallest queue. -/
theorem srq_chain_smallest :
    ∃ q, createSrq 1 1 = some q ∧
      ∀ s, Reach SrqRun.step Returns (.init q) s → s.queue.freeCount + 1 = s.queue.freeList.length :=
  ⟨_, rfl, fun s run => ((srq_chain (rfl : createSrq 1 1 = some _)).1 s run).2.2.2.2.2.1⟩

/-- The free count of a new queue is not the length of its free list. -/
theorem freeCount_ne_length :
    ∃ q, createSrq 1 1 = some q ∧ q.freeCount = 15 ∧ q.freeList.length = 16 :=
  ⟨buildFreeList 4, rfl, rfl, by decide +kernel⟩

end MelonDMA.Ib
