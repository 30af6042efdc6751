import MelonDMA.Core.Cmd
import MelonDMA.Hw.WqeRoundTrip
import MelonDMA.Lib.Runs
import MelonDMA.Lib.SlotTable
import Mathlib.Tactic.SplitIfs

/-!
# Address handles

`MlxAH` keeps sixteen address vectors for all clients, each under a handle that it draws from a 32-bit counter. A client
that sends a datagram names a handle, and the kernel copies the vector into the element that it encodes.

* `named` is what the clients know: the request of each handle that was given out and not destroyed. The table is
  looked up under a handle, and gives the vector of its request, as long as no handle is drawn that is still in use
  (`handles_name_requests`).
* `EncodeAV` writes the two words of the vector that are longer than a byte in the order of the host, where all other
  words of an element are in the order of the network. So the hardware reads no GRH flag and no source index, whatever
  was asked for.
-/

namespace MelonDMA.Ib

open MelonDMA.Lib MelonDMA.Core MelonDMA.Hw

/-! ## Address vectors -/

/-- Source: `mlx_create_ah_req`, without what only InfiniBand has. -/
structure CreateAhReq where
  dmac : List Byte
  dmac_length : dmac.length = 6
  dgid : List Byte
  dgid_length : dgid.length = 16
  sgidIndex : ℕ
  hopLimit : Byte
  trafficClass : Byte
  udpSport : ℕ
  portNum : ℕ
  ahType : ℕ

namespace CreateAhReq

variable (r : CreateAhReq)

/-- Source: `grh_gid_fl` in `MlxAH::EncodeAV`. -/
def grhGidFl : ℕ := 2 ^ 30 ||| r.sgidIndex * 2 ^ 20 % 2 ^ 32

/-- Source: `MlxAH::EncodeAV`, on a host that stores the low byte first. -/
def encodeAv : List Byte :=
  zeroBytes 14 ++ leBytes 2 r.udpSport ++ zeroBytes 4 ++ r.dmac ++ [r.trafficClass, r.hopLimit] ++
    leBytes 4 r.grhGidFl ++ r.dgid

end CreateAhReq

/-- What the hardware takes of an address vector. Source: the comments of `MlxAV`. -/
structure Route where
  udpSport : ℕ
  rmac : List Byte
  tclass : ℕ
  hopLimit : ℕ
  grhPresent : Bool
  sgidIndex : ℕ
  flowLabel : ℕ
  rgid : List Byte
  deriving DecidableEq, Repr

/-- The vector of an element, whose words are in the order of the network. Source: `MlxWqeDatagramSeg`. -/
def readRoute (m : Memory) : Route where
  udpSport := m.be 30 2
  rmac := m.slice 36 6
  tclass := m.be 42 1
  hopLimit := m.be 43 1
  grhPresent := (m.be 44 4).testBit 30
  sgidIndex := m.be 44 4 / 2 ^ 20 % 2 ^ 10
  flowLabel := m.be 44 4 % 2 ^ 20
  rgid := m.slice 48 16

namespace CreateAhReq

variable (r : CreateAhReq)

/-- The word of the flag, the index and the label as the hardware reads it. -/
def grhRead : ℕ := beNat (leBytes 4 r.grhGidFl)

/-- What the hardware takes of a request. -/
def route : Route where
  udpSport := beNat (leBytes 2 r.udpSport)
  rmac := r.dmac
  tclass := r.trafficClass.toNat
  hopLimit := r.hopLimit.toNat
  grhPresent := false
  sgidIndex := 0
  flowLabel := r.grhRead
  rgid := r.dgid

lemma length_encodeAv : r.encodeAv.length = 48 := by
  unfold encodeAv
  simp [r.dmac_length, r.dgid_length]

/-- The low twenty bits of the word are clear. -/
lemma grhGidFl_mod : r.grhGidFl % 2 ^ 20 = 0 := by
  unfold grhGidFl
  rw [Nat.or_mod_two_pow]
  have hlow : r.sgidIndex * 2 ^ 20 % 2 ^ 32 % 2 ^ 20 = 0 := by
    rw [Nat.mod_mod_of_dvd _ (pow_dvd_pow 2 (by decide)), Nat.mul_mod_left]
  rw [hlow]
  rfl

/-- So only the low two bytes of what the hardware reads are set. -/
lemma grhRead_lt : r.grhRead < 2 ^ 16 := by
  have hmod := r.grhGidFl_mod
  have hread : r.grhRead = r.grhGidFl % 256 * 2 ^ 24 + r.grhGidFl / 256 % 256 * 2 ^ 16 +
      r.grhGidFl / 2 ^ 16 % 256 * 2 ^ 8 + r.grhGidFl / 2 ^ 24 % 256 := by
    unfold grhRead leBytes
    simp [beBytes, beNat]
    omega
  omega

/-- A part of a vector, by what is in front of it and behind it. -/
lemma part {v b : List Byte} {k n : ℕ} (a c : List Byte) (hv : v = a ++ (b ++ c)) (ha : a.length = k)
    (hb : b.length = n) : (v.drop k).take n = b := by
  rw [hv, List.drop_left' ha, List.take_left' hb]

/-- The parts of the vector of a request. -/
lemma encodeAv_parts :
    (r.encodeAv.drop 14).take 2 = leBytes 2 r.udpSport ∧ (r.encodeAv.drop 20).take 6 = r.dmac ∧
      (r.encodeAv.drop 26).take 1 = [r.trafficClass] ∧ (r.encodeAv.drop 27).take 1 = [r.hopLimit] ∧
        (r.encodeAv.drop 28).take 4 = leBytes 4 r.grhGidFl ∧ (r.encodeAv.drop 32).take 16 = r.dgid := by
  have hmac := r.dmac_length
  have hgid := r.dgid_length
  let start := zeroBytes 14 ++ leBytes 2 r.udpSport ++ zeroBytes 4
  let rest := leBytes 4 r.grhGidFl ++ r.dgid
  have hstart : start.length = 20 := by simp [start]
  refine ⟨part (zeroBytes 14) (zeroBytes 4 ++ r.dmac ++ [r.trafficClass, r.hopLimit] ++ rest) ?_ (by simp) (by simp),
    part start ([r.trafficClass, r.hopLimit] ++ rest) ?_ hstart hmac,
    part (start ++ r.dmac) ([r.hopLimit] ++ rest) ?_ (by simp [hstart, hmac]) rfl,
    part (start ++ r.dmac ++ [r.trafficClass]) rest ?_ (by simp [hstart, hmac]) rfl,
    part (start ++ r.dmac ++ [r.trafficClass, r.hopLimit]) r.dgid ?_ (by simp [hstart, hmac]) (by simp),
    part (start ++ r.dmac ++ [r.trafficClass, r.hopLimit] ++ leBytes 4 r.grhGidFl) [] ?_ (by simp [hstart, hmac])
      hgid⟩
  all_goals simp [encodeAv, start, rest]

/-- An accepted datagram with the vector of a request goes where the request says, but for the two words. -/
lemma readRoute_of_ud (m : Memory) {bufferBytes qpn wqeCounter remoteQpn qkey : ℕ} {opcode : HwOpcode}
    {sges : List RcSge} {signaled solicited : Bool}
    (h : (mlxEncodeUdSendWqe bufferBytes qpn wqeCounter opcode r.encodeAv remoteQpn qkey sges signaled
      solicited).ds ≠ 0) :
    readRoute (m.writeAll (mlxEncodeUdSendWqe bufferBytes qpn wqeCounter opcode r.encodeAv remoteQpn qkey sges signaled
      solicited).stores) = r.route := by
  obtain ⟨-, -, hstores⟩ := ud_accepted h
  obtain ⟨hport, hmac, hclass, hhop, hgrh, hgid⟩ := r.encodeAv_parts
  have hroute : ∀ {o n : ℕ}, 28 ≤ o ∧ o + n ≤ 64 →
      (m.writeAll (mlxEncodeUdSendWqe bufferBytes qpn wqeCounter opcode r.encodeAv remoteQpn qkey sges signaled
        solicited).stores).slice o n = (r.encodeAv.drop (o - 16)).take n := by
    intro o n hpart
    rw [hstores]
    apply route_of_udMemory m _ qpn wqeCounter opcode _ _ remoteQpn qkey sges r.length_encodeAv
    exact .inr hpart
  have hlt := r.grhRead_lt
  have hword : (m.writeAll (mlxEncodeUdSendWqe bufferBytes qpn wqeCounter opcode r.encodeAv remoteQpn qkey sges signaled
      solicited).stores).be 44 4 = r.grhRead := by
    rw [Memory.be, hroute (by decide), hgrh]
    rfl
  unfold readRoute route
  rw [hword, Nat.testBit_lt_two_pow (Nat.lt_trans hlt (by decide)),
    Nat.div_eq_of_lt (Nat.lt_trans hlt (by decide)), Nat.mod_eq_of_lt (Nat.lt_trans hlt (by decide)), Memory.be,
    Memory.be, Memory.be, hroute (by decide), hroute (by decide), hroute (by decide), hroute (by decide),
    hroute (by decide), hport, hmac, hclass, hhop, hgid]
  simp [beNat]

end CreateAhReq

/-! ## The table -/

/-- Source: `MlxAHContext`. -/
structure AhContext where
  ahHandle : ℕ
  portNum : ℕ
  av : List Byte
  isRoce : Bool
  deriving DecidableEq, Repr

/-- Source: `MLX_AH_TABLE_CAP`. -/
def ahTableCap : ℕ := 16

/-- Source: `MlxAH::State`. -/
structure MlxAh where
  table : List (Option AhContext)
  nextHandle : ℕ

namespace MlxAh

variable (s : MlxAh)

/-- Source: `MlxAH::Init`. -/
def init : MlxAh := ⟨List.replicate ahTableCap none, 1⟩

/-- The slot of a handle. -/
def slotOf (ahHandle : ℕ) : Option ℕ := s.table.findIdx? (Option.any fun c => c.ahHandle = ahHandle)

/-- Source: `MlxAH::Lookup`. -/
def lookup (ahHandle : ℕ) : Option AhContext := (s.slotOf ahHandle).bind (entry s.table)

/-- Source: `ctx` in `MlxAH::CreateAH`. -/
def context (ahHandle : ℕ) (r : CreateAhReq) : AhContext := ⟨ahHandle, r.portNum, r.encodeAv, r.ahType = 0⟩

/-- Source: `MlxAH::CreateAH`. -/
def createAh (r : CreateAhReq) : MlxAh × Except KernReturn ℕ :=
  if firstFree s.table < ahTableCap then
    (⟨put s.table (firstFree s.table) (context s.nextHandle r), (s.nextHandle + 1) % 2 ^ 32⟩, .ok s.nextHandle)
  else (s, .error .noMemory)

/-- Source: `MlxAH::DestroyAH`. -/
def destroyAh (ahHandle : ℕ) : MlxAh × KernReturn :=
  match s.slotOf ahHandle with
  | some i => ({ s with table := clear s.table i }, .success)
  | none => (s, .notFound)

end MlxAh

/-! ## What the clients know -/

/-- The table, and the requests of the handles that were given out and not destroyed. -/
structure AhClients where
  ah : MlxAh
  named : ℕ → Option CreateAhReq

/-- A call of any client. -/
inductive AhOp
  | create (r : CreateAhReq)
  | destroy (ahHandle : ℕ)

namespace AhClients

variable (s : AhClients)

/-- No handle is given out. -/
def init : AhClients := ⟨.init, fun _ => none⟩

/-- One call. -/
def step : AhOp → Option AhClients
  | .create r =>
      match s.ah.createAh r with
      | (ah, .ok ahHandle) => some ⟨ah, Function.update s.named ahHandle (some r)⟩
      | (ah, .error _) => some ⟨ah, s.named⟩
  | .destroy ahHandle =>
      match s.ah.destroyAh ahHandle with
      | (ah, .success) => some ⟨ah, Function.update s.named ahHandle none⟩
      | (ah, _) => some ⟨ah, s.named⟩

/-- The counter does not come back to a handle that is in use. -/
def Fresh : AhOp → Prop
  | .create _ => s.named s.ah.nextHandle = none
  | .destroy _ => True

/-- The table holds the context of each handle that is known, once, and nothing else. -/
structure Listed : Prop where
  length : s.ah.table.length = ahTableCap
  keyed : Keyed AhContext.ahHandle s.ah.table
  known : ∀ i c, entry s.ah.table i = some c → ∃ r, s.named c.ahHandle = some r ∧ c = MlxAh.context c.ahHandle r
  there : ∀ ahHandle r, s.named ahHandle = some r → ∃ i, entry s.ah.table i = some (MlxAh.context ahHandle r)

variable {s} {s' : AhClients} {ahHandle : ℕ} {r : CreateAhReq}

lemma listed_init : init.Listed where
  length := List.length_replicate
  keyed i j a b ha := by
    rw [show entry init.ah.table i = none from entry_replicate ..] at ha
    cases ha
  known i c hc := by
    rw [show entry init.ah.table i = none from entry_replicate ..] at hc
    cases hc
  there ahHandle r hr := by cases hr

namespace Listed

/-- The scan finds the slot of a handle that is known. -/
lemma slotOf_named (h : s.Listed) (hr : s.named ahHandle = some r) :
    ∃ i, s.ah.slotOf ahHandle = some i ∧ entry s.ah.table i = some (MlxAh.context ahHandle r) := by
  obtain ⟨i, hi⟩ := h.there ahHandle r hr
  exact ⟨i, h.keyed.find hi, hi⟩

/-- The scan finds nothing else. -/
lemma slotOf_unnamed (h : s.Listed) (hr : s.named ahHandle = none) : s.ah.slotOf ahHandle = none := by
  cases hslot : s.ah.slotOf ahHandle with
  | none => rfl
  | some i =>
      obtain ⟨c, hc, hkey⟩ := entry_of_find hslot
      obtain ⟨r, hnamed, -⟩ := h.known i c hc
      rw [of_decide_eq_true hkey, hr] at hnamed
      cases hnamed

/-- A handle is looked up as its request. -/
lemma lookup (h : s.Listed) (ahHandle : ℕ) :
    s.ah.lookup ahHandle = (s.named ahHandle).map (MlxAh.context ahHandle) := by
  unfold MlxAh.lookup
  cases hr : s.named ahHandle with
  | none =>
      rw [h.slotOf_unnamed hr]
      rfl
  | some r =>
      obtain ⟨i, hslot, hi⟩ := h.slotOf_named hr
      rw [hslot, Option.bind_some, hi]
      rfl

lemma create (h : s.Listed) (hfresh : s.named s.ah.nextHandle = none) (hstep : s.step (.create r) = some s') :
    s'.Listed := by
  unfold step MlxAh.createAh at hstep
  dsimp only at hstep
  by_cases hroom : firstFree s.ah.table < ahTableCap
  · rw [if_pos hroom] at hstep
    cases hstep
    have hle := firstFree_le_length s.ah.table
    have hnew : ∀ j b, entry s.ah.table j = some b → b.ahHandle ≠ s.ah.nextHandle := by
      intro j b hb hkey
      obtain ⟨q, hq, -⟩ := h.known j b hb
      rw [hkey, hfresh] at hq
      cases hq
    refine ⟨?_, h.keyed.put hle hnew, ?_, ?_⟩
    · show (put s.ah.table _ _).length = _
      unfold put
      rw [if_pos (by rw [h.length]; exact hroom), List.length_set, h.length]
    · intro i c hc
      dsimp only at hc ⊢
      rw [entry_put hle] at hc
      split_ifs at hc with hi
      · cases hc
        exact ⟨r, Function.update_self .., rfl⟩
      · rw [Function.update_of_ne (hnew i c hc)]
        exact h.known i c hc
    · intro ahHandle q hq
      dsimp only at hq ⊢
      by_cases hkey : ahHandle = s.ah.nextHandle
      · subst hkey
        rw [Function.update_self] at hq
        cases hq
        exact ⟨firstFree s.ah.table, by rw [entry_put hle, if_pos rfl]⟩
      · rw [Function.update_of_ne hkey] at hq
        obtain ⟨i, hi⟩ := h.there ahHandle q hq
        have hother : firstFree s.ah.table ≠ i := by
          intro hfree
          rw [← hfree, entry_firstFree] at hi
          cases hi
        exact ⟨i, by rw [entry_put hle, if_neg hother, hi]⟩
  · rw [if_neg hroom] at hstep
    cases hstep
    exact h

lemma destroy (h : s.Listed) (hstep : s.step (.destroy ahHandle) = some s') : s'.Listed := by
  unfold step MlxAh.destroyAh at hstep
  dsimp only at hstep
  cases hslot : s.ah.slotOf ahHandle with
  | none =>
      rw [hslot] at hstep
      cases hstep
      exact h
  | some i =>
      rw [hslot] at hstep
      cases hstep
      obtain ⟨c, hc, hkey⟩ := entry_of_find hslot
      have hhandle : c.ahHandle = ahHandle := of_decide_eq_true hkey
      have hlt := entry_lt_length hc
      have hentry : ∀ j, entry (clear s.ah.table i) j = if i = j then none else entry s.ah.table j := by
        intro j
        exact entry_set hlt none j
      refine ⟨List.length_set.trans h.length, h.keyed.clear hlt, ?_, ?_⟩
      · intro j b hb
        dsimp only at hb ⊢
        rw [hentry] at hb
        split_ifs at hb with hj
        have hne : b.ahHandle ≠ ahHandle := by
          intro hsame
          apply hj
          exact h.keyed hc hb (hhandle.trans hsame.symm)
        rw [Function.update_of_ne hne]
        exact h.known j b hb
      · intro k q hq
        dsimp only at hq ⊢
        have hne : k ≠ ahHandle := by
          intro hk
          rw [hk, Function.update_self] at hq
          cases hq
        rw [Function.update_of_ne hne] at hq
        obtain ⟨j, hj⟩ := h.there k q hq
        have hother : i ≠ j := by
          intro hij
          apply hne
          rw [← hij, hc] at hj
          rw [← hhandle, Option.some.inj hj]
          rfl
        exact ⟨j, by rw [hentry, if_neg hother, hj]⟩

end Listed

/-- One call. -/
lemma listed_step {op : AhOp} (h : s.Listed) (hfresh : s.Fresh op) (hstep : s.step op = some s') : s'.Listed := by
  cases op with
  | create r => exact h.create hfresh hstep
  | destroy ahHandle => exact h.destroy hstep

/-! ## Runs -/

/-- As long as the counter does not come back to a handle in use: after any calls, exactly the handles that are known
are found and destroyed, each with the context of its request; and every datagram that the kernel encodes with what it
finds goes to the address, the GID, the class and the hop limit of the request, with the port's bytes exchanged,
without the GRH flag and with the source index zero. -/
theorem handles_name_requests (s : AhClients) (run : Reach step Fresh init s) :
    (∀ ahHandle, s.ah.lookup ahHandle = (s.named ahHandle).map (MlxAh.context ahHandle)) ∧
      (∀ ahHandle, (s.ah.destroyAh ahHandle).2 = .success ↔ s.named ahHandle ≠ none) ∧
        ∀ ahHandle r ctx, s.named ahHandle = some r → s.ah.lookup ahHandle = some ctx →
          ∀ (m : Memory) (bufferBytes qpn wqeCounter remoteQpn qkey : ℕ) (opcode : HwOpcode) (sges : List RcSge)
            (signaled solicited : Bool),
            (mlxEncodeUdSendWqe bufferBytes qpn wqeCounter opcode ctx.av remoteQpn qkey sges signaled
              solicited).ds ≠ 0 →
            readRoute (m.writeAll (mlxEncodeUdSendWqe bufferBytes qpn wqeCounter opcode ctx.av remoteQpn qkey sges
              signaled solicited).stores) = r.route := by
  have hlisted : s.Listed := run.invariant Listed listed_init listed_step
  refine ⟨hlisted.lookup, ?_, ?_⟩
  · intro ahHandle
    unfold MlxAh.destroyAh
    cases hr : s.named ahHandle with
    | none =>
        rw [hlisted.slotOf_unnamed hr]
        simp
    | some r =>
        obtain ⟨i, hslot, -⟩ := hlisted.slotOf_named hr
        rw [hslot]
        simp
  · intro ahHandle r ctx hr hctx m _ _ _ _ _ _ _ _ _ hds
    rw [hlisted.lookup, hr] at hctx
    cases hctx
    exact r.readRoute_of_ud m hds

/-- A request for a peer. -/
def peer (last : Byte) : CreateAhReq where
  dmac := [2, 0, 0, 0, 0, last]
  dmac_length := rfl
  dgid := zeroBytes 10 ++ [255, 255, 10, 0, 0, last]
  dgid_length := rfl
  sgidIndex := 3
  hopLimit := 64
  trafficClass := 0
  udpSport := 49152
  portNum := 1
  ahType := 0

/-- The handle of a peer keeps its vector while another one is replaced. -/
theorem handles_name_requests_three : ∃ s,
    runOps step init [.create (peer 1), .create (peer 2), .destroy 1, .create (peer 3)] = some s ∧
      (s.ah.lookup 1).map AhContext.av = none ∧ (s.ah.lookup 2).map AhContext.av = some (peer 2).encodeAv ∧
        (s.ah.destroyAh 3).2 = .success := by
  obtain ⟨s, hrun⟩ : ∃ s,
      runOps step init [.create (peer 1), .create (peer 2), .destroy 1, .create (peer 3)] = some s := ⟨_, rfl⟩
  obtain ⟨hlookup, hdestroy, -⟩ := handles_name_requests s
    (reach_of_guardedOps [.create (peer 1), .create (peer 2), .destroy 1, .create (peer 3)] hrun
      ⟨rfl, rfl, trivial, rfl, trivial⟩)
  refine ⟨s, hrun, ?_, ?_, (hdestroy 3).mpr ?_⟩
  · rw [hlookup]
    obtain rfl := Option.some.inj hrun
    rfl
  · rw [hlookup]
    obtain rfl := Option.some.inj hrun
    rfl
  · obtain rfl := Option.some.inj hrun
    exact fun h => (by cases h)

end AhClients

end MelonDMA.Ib
