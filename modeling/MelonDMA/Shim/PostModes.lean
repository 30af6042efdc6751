import MelonDMA.Shim.SendElement

/-!
# The three ways of posting

What each of the ways accepts, for a pair that is ready to be posted to, with room for the element and
keys that are valid. A path has one lemma, a `Verdict`: it accepts the requests that meet a condition
and leaves the request's element in the ring, and it refuses the others.
-/

namespace MelonDMA.Shim

open MelonDMA.Lib MelonDMA.Core MelonDMA.Hw MelonDMA.Ib MelonDMA.UserClient
open MelonDMA.Ib.QpContext (Room Postable)

/-! ## Pairs that can be posted to -/

/-- A connected pair of a mode, in `RTS` on both sides, that the client owns. -/
structure Ready (c : Client) (m : PostMode) (p : Pair) : Prop where
  directSq : p.qp.directSq = (decide (m ≠ .kernel) && decide (p.qp.st = .rc))
  trusted : p.qp.trustedFastPath = decide (m = .trusted)
  connected : p.qp.st ≠ .ud
  rts : p.qp.state = .rts
  service : p.ctx.st = p.qp.st
  size : p.ctx.sq = p.qp.sq
  number : p.ctx.qpNum = p.qp.hwQpn
  nonzero : p.qp.hwQpn ≠ 0
  post : Postable c.toWorld p.ctx
  token : c.resolveQp p.qp.qpn = p.qp.hwQpn
  owned : c.ownsQp p.qp.hwQpn = true
  device : c.phase2Ready = true
  bundle : m ≠ .kernel → c.fastBundle = true

/-- The driver can post to a pair that the client names, whatever its service. -/
structure Driven (c : Client) (p : Pair) : Prop where
  service : p.ctx.st = p.qp.st
  size : p.ctx.sq = p.qp.sq
  number : p.ctx.qpNum = p.qp.hwQpn
  nonzero : p.qp.hwQpn ≠ 0
  post : Postable c.toWorld p.ctx
  token : c.resolveQp p.qp.qpn = p.qp.hwQpn
  owned : c.ownsQp p.qp.hwQpn = true
  device : c.phase2Ready = true

/-- The modes of a pair are those that `rdma_create_qp` sets. -/
theorem createModes_flags (qp : RdmaQp) (m : PostMode) (rqMapped : Bool) (hst : qp.st ≠ .ud)
    (hdirect : qp.directSq = false) (htrusted : qp.trustedFastPath = false) :
    (qp.createModes (decide (m = .trusted)) (decide (m ≠ .kernel)) rqMapped).directSq =
        (decide (m ≠ .kernel) && decide (qp.st = .rc)) ∧
      (qp.createModes (decide (m = .trusted)) (decide (m ≠ .kernel)) rqMapped).trustedFastPath =
        decide (m = .trusted) := by
  cases m <;> simp [RdmaQp.createModes, RdmaQp.publishShadowForce, hst, hdirect, htrusted]

/-- Both sides have room for `k` slots, each where it posts. -/
structure HasRoom (m : PostMode) (p : Pair) (k : ℕ) : Prop where
  client : p.qp.directSq = true → Room p.qp.sq p.qp.sqHead p.qp.sqTail k
  driver : ¬(m = .trusted ∧ p.qp.directSq = true) → Room p.ctx.sq p.ctx.sqHead p.ctx.sqTail k

/-- The entries name regions that the client owns and that hold them. -/
def KeysValid (c : Client) (p : Pair) (localWrite : Bool) (sges : List RcSge) : Prop :=
  ∀ s ∈ sges, c.ownsLkey s.lkey = true ∧
    (s.length ≠ 0 → c.validateRange s.lkey p.ctx.pd s.addr s.length localWrite = true)

variable {c : Client} {m : PostMode} {p : Pair} {mem : Memory}

lemma Ready.driven (h : Ready c m p) : Driven c p :=
  ⟨h.service, h.size, h.number, h.nonzero, h.post, h.token, h.owned, h.device⟩

lemma Driven.qpLive (h : Driven c p) : c.qpLive p.qp.qpn = true := by
  unfold Client.qpLive
  rw [h.token, h.owned, Bool.and_true, decide_eq_true_eq]
  exact h.nonzero

lemma KeysValid.owned {localWrite : Bool} {sges : List RcSge} (h : KeysValid c p localWrite sges) :
    sges.all (fun s => c.ownsLkey s.lkey) = true :=
  List.all_eq_true.mpr fun s hs => (h s hs).1

lemma KeysValid.valid {localWrite : Bool} {sges : List RcSge} (h : KeysValid c p localWrite sges)
    (hlens : ∀ s ∈ sges, s.length ≠ 0) :
    sges.all (p.ctx.sgeValid c.toWorld localWrite) = true := by
  refine List.all_eq_true.mpr fun s hs => ?_
  unfold QpContext.sgeValid
  rw [Bool.and_eq_true, decide_eq_true_eq]
  exact ⟨hlens s hs, (h s hs).2 (hlens s hs)⟩

lemma full_of_room {k : ℕ} (h : Room p.qp.sq p.qp.sqHead p.qp.sqTail k) : p.full k = false := by
  unfold Pair.full
  rw [decide_eq_false_iff_not, not_lt]
  exact h.used_le

/-! ## Verdicts -/

/-- The producer of the side that writes the element. -/
def Pair.producer (p : Pair) (client : Bool) : ℕ := if client = true then p.qp.sqHead else p.ctx.sqHead

/-- A request was accepted: its element is in the slots from the producer on, and the producer is
behind it. -/
structure Accepted (p : Pair) (out : Outcome) (client : Bool) (e : Encoded) : Prop where
  rc : out.rc = .ok
  producer : out.pair.producer client = add64 (p.producer client) (wqeSpan e.ds)
  bytes : ∀ o < wqeSpan e.ds * 64, elementAt p.qp.sq out.pair.ring (p.producer client) o = e.flat o

/-- What becomes of a request: accepted when it meets the condition, refused when not. -/
inductive Verdict (accept : Prop) (p : Pair) (out : Outcome) (client : Bool) (e : Encoded) : Prop
  | accepted (meets : accept) (accepted : Accepted p out client e)
  | refused (fails : ¬accept) (rc : out.rc ≠ .ok)

lemma Verdict.iff {accept : Prop} {out : Outcome} {client : Bool} {e : Encoded}
    (h : Verdict accept p out client e) : out.rc = .ok ↔ accept := by
  cases h with
  | accepted meets accepted => exact ⟨fun _ => meets, fun _ => accepted.rc⟩
  | refused fails rc => exact ⟨fun h => absurd h rc, fun h => absurd h fails⟩

lemma Verdict.congr {accept accept' : Prop} {out : Outcome} {client : Bool} {e : Encoded}
    (h : Verdict accept p out client e) (heq : accept ↔ accept') : Verdict accept' p out client e := by
  cases h with
  | accepted meets accepted => exact .accepted (heq.mp meets) accepted
  | refused fails rc => exact .refused (mt heq.mpr fails) rc

/-- An element that the client copied and told. -/
lemma accepted_client {e : Encoded} {written : Pair} (hspan : wqeSpan e.ds ≤ p.qp.sq.slots)
    (hring : written.ring = p.ring.writeAll
      (QpContext.copyBlocks p.qp.sq p.qp.sqHead (wqeSpan e.ds) e.flat)) :
    Accepted p ⟨written.tell (add64 p.qp.sqHead (wqeSpan e.ds)), .ok⟩ true e := by
  refine ⟨rfl, ?_, fun o ho => ?_⟩
  · exact Pair.tell_sqHead _ _
  · rw [Pair.tell_ring, hring]
    exact QpContext.elementAt_copyBlocks hspan ho

/-- An element that the driver published. -/
lemma accepted_driver {e : Encoded} {wrId opcode : ℕ} {out : Outcome} (hdriven : Driven c p)
    (hrc : out.rc = .ok)
    (hctx : out.pair.ctx = (p.ctx.publishBlocks c.toWorld e.stores (wqeSpan e.ds) wrId opcode).ctx)
    (hring : out.pair.ring = p.ring.writeAll
      (p.ctx.publishBlocks c.toWorld e.stores (wqeSpan e.ds) wrId opcode).sqStores)
    (hspan : wqeSpan e.ds ≤ p.ctx.sq.slots) : Accepted p out false e := by
  refine ⟨hrc, ?_, fun o ho => ?_⟩
  · unfold Pair.producer
    rw [hctx, if_neg (by decide), if_neg (by decide)]
    unfold QpContext.publishBlocks
    dsimp only
    rw [if_pos hdriven.post.doorbell]
    rfl
  · rw [hring, ← hdriven.size]
    exact QpContext.elementAt_copyBlocks hspan ho

/-! ## Scatter lists -/

/-- Writes and reads name remote memory. -/
def Named (opcode remoteAddr rkey : ℕ) : Prop :=
  QpContext.namesRemote opcode = true → remoteAddr ≠ 0 ∧ rkey ≠ 0

instance (opcode remoteAddr rkey : ℕ) : Decidable (Named opcode remoteAddr rkey) := by
  unfold Named
  infer_instance

/-- What the client checks of a scatter list that it writes itself. -/
def DirectSgeOk (wr : SendWr) : Prop :=
  flagsBad wr.sendFlags = false ∧ SgeFits 256 (sgeHwOpcode wr.opcode) wr

lemma SgeFits.listed {bufferBytes : ℕ} {wr : SendWr}
    (h : SgeFits bufferBytes (sgeHwOpcode wr.opcode) wr) (hdata : isData wr.opcode = true) :
    ¬(zeroWriteImm wr = false ∧ wr.sgList = []) := by
  rintro ⟨hzero, hnil⟩
  rcases h.1.1 with himm | hne
  · apply absurd hzero
    rcases isData_cases hdata with h' | h' | h' | h' | h' | h'
    all_goals
      rw [h'] at himm
      simp [zeroWriteImm, hnil, h', sgeHwOpcode, RdmaWr.code] at himm ⊢
  · exact hne hnil

lemma element_ds {wr : SendWr} {bufferBytes hwQpn : ℕ} (hnonzero : hwQpn ≠ 0)
    (hdata : isData wr.opcode = true) (hfits : SgeFits bufferBytes (sgeHwOpcode wr.opcode) wr)
    (producer : ℕ) :
    (wr.element hwQpn producer).ds = rcSendDs (sgeHwOpcode wr.opcode) wr.sgList.length := by
  rw [SendWr.element, encodeSge_of_fits hnonzero (sgeHwOpcode_isRc _)
    (sgeHwOpcode_ne (isData_ne_localInv hdata)) hfits.largest, sgeElement_ds]

lemma element_ds_ne {wr : SendWr} {bufferBytes hwQpn : ℕ} (hnonzero : hwQpn ≠ 0)
    (hdata : isData wr.opcode = true) (hfits : SgeFits bufferBytes (sgeHwOpcode wr.opcode) wr)
    (producer : ℕ) : (wr.element hwQpn producer).ds ≠ 0 := by
  rw [element_ds hnonzero hdata hfits]
  exact rcSendDs_pos _ _

/-- The client writes a scatter list: it is refused, or it is copied and then told or synchronized. -/
lemma postSendDirectSge_of_ok {wr : SendWr} (hdata : isData wr.opcode = true)
    (hdirect : p.qp.directSq = true) (hrts : p.qp.state = .rts) (hnonzero : p.qp.hwQpn ≠ 0)
    (hok : DirectSgeOk wr)
    (hroom : Room p.qp.sq p.qp.sqHead p.qp.sqTail
      (wqeSpan (wr.element p.qp.hwQpn (p.qp.sqHead % 2 ^ 16)).ds)) :
    postSendDirectSge c p wr =
      (let e := wr.element p.qp.hwQpn (p.qp.sqHead % 2 ^ 16)
       let written := p.copyElement p.qp.sqHead (wqeSpan e.ds) e.flat
       let head := add64 p.qp.sqHead (wqeSpan e.ds)
       let posted := c.syncSendSge p.ctx (wr.sgeReq p.qp.qpn wr.opcode)
       let synced := written.afterKernel posted
       if p.qp.trustedFastPath = true then
         ⟨(written.noteSend p.qp.sqHead wr.wrId wr.opcode (wqeSpan e.ds)).tell head, .ok⟩
       else if posted.kr ≠ .success then synced.refuse (rcOf posted.kr)
       else ⟨(synced.noteSend p.qp.sqHead wr.wrId wr.opcode (wqeSpan e.ds)).tell head, .ok⟩) := by
  obtain ⟨hflags, hfits⟩ := hok
  have henc : encodeSge 256 p.qp.hwQpn (p.qp.sqHead % 2 ^ 16) (sgeHwOpcode wr.opcode) wr =
      wr.element p.qp.hwQpn (p.qp.sqHead % 2 ^ 16) :=
    encodeSge_eq_element hnonzero (isData_ne_localInv hdata) hfits
  have hspan := wqeSpan_pos (element_ds_ne hnonzero hdata hfits (p.qp.sqHead % 2 ^ 16))
  unfold postSendDirectSge
  rw [if_neg]
  · dsimp only
    rw [henc, if_neg]
    · rfl
    · rw [full_of_room hroom]
      rintro (hzero | hfull)
      · omega
      · cases hfull
  · rintro (h | h | h | h | h)
    · rw [hdirect] at h
      cases h
    · exact hfits.listed hdata h
    · have hmax := hfits.1.2.1
      unfold rcMaxSge at hmax
      unfold rdmaMaxSge at h
      omega
    · rw [hflags] at h
      cases h
    · exact h hrts

/-- A list that does not fit is refused. -/
lemma postSendDirectSge_of_not_ok {wr : SendWr} (hdata : isData wr.opcode = true)
    (hok : ¬DirectSgeOk wr) : (postSendDirectSge c p wr).rc ≠ .ok := by
  unfold postSendDirectSge
  dsimp only
  split_ifs with hreq hspan
  · simp [Pair.refuse]
  · simp [Pair.refuse]
  all_goals
    push Not at hreq hspan
    refine absurd ⟨by simpa using hreq.2.2.2.1, ?_⟩ hok
    by_contra hfits
    apply hspan.1
    rw [encodeSge_of_not_fits (sgeHwOpcode_ne (isData_ne_localInv hdata)) hfits]
    rfl

/-- The driver counts the slots of a list as its element takes them. -/
lemma syncSendDs_sgeReq {wr : SendWr} {qpn : ℕ} (hdata : isData wr.opcode = true) :
    QpContext.syncSendDs (wr.sgeReq qpn wr.opcode) =
      rcSendDs (sgeHwOpcode wr.opcode) wr.sgList.length := by
  unfold QpContext.syncSendDs rcSendDs SendWr.sgeReq
  rcases isData_cases hdata with h | h | h | h | h | h
  all_goals
    rw [h]
    rfl

/-- A list within the client's bounds passes the bounds of the driver. -/
lemma counts_of_listed {wr : SendWr} {opcode : ℕ} (qpn : ℕ)
    (hlisted : ¬(zeroWriteImm wr = false ∧ wr.sgList = [])) (hmax : wr.sgList.length ≤ rdmaMaxSge)
    (hop : opcode = RdmaWr.rdmaWriteImm.code ↔ wr.opcode = RdmaWr.rdmaWriteImm.code) :
    QpContext.sgeCountBad opcode wr.sgList = false ∧ Client.sgeListBad (wr.sgeReq qpn opcode) = false := by
  have hcode : UcWr.rdmaWriteImm.code = RdmaWr.rdmaWriteImm.code := rfl
  unfold rdmaMaxSge at hmax
  unfold QpContext.sgeCountBad Client.sgeListBad SendWr.sgeReq ucMaxSge
  dsimp only
  rw [hcode]
  unfold zeroWriteImm at hlisted
  by_cases himm : wr.opcode = RdmaWr.rdmaWriteImm.code
  · simp [hop.mpr himm, not_lt.mpr hmax]
  · have hne : wr.sgList ≠ [] := fun hnil => hlisted ⟨by simp [himm], hnil⟩
    simp [mt hop.mp himm, hne, not_lt.mpr hmax]

/-- The driver notes a list that the client wrote, unless it invalidates, whose number is past the
driver's, or names no remote memory where it should. -/
lemma syncSendSge_iff {wr : SendWr} (hready : Ready c .validated p) (hrc : p.qp.st = .rc)
    (hdata : isData wr.opcode = true) (hok : DirectSgeOk wr)
    (hkeys : KeysValid c p (wr.opcode = RdmaWr.rdmaRead.code) wr.sgList)
    (hroom : Room p.ctx.sq p.ctx.sqHead p.ctx.sqTail
      (wqeSpan (wr.element p.qp.hwQpn (p.qp.sqHead % 2 ^ 16)).ds)) :
    (c.syncSendSge p.ctx (wr.sgeReq p.qp.qpn wr.opcode)).kr = .success ↔
      wr.opcode ≠ RdmaWr.sendInv.code ∧ Named wr.opcode wr.remoteAddr wr.rkey := by
  obtain ⟨hflags, hfits⟩ := hok
  obtain ⟨hcount, hlist⟩ := counts_of_listed p.qp.qpn (hfits.listed hdata) hfits.1.2.1 Iff.rfl
  have hvalid := hkeys.valid hfits.1.2.2.1
  have hspan : (rcSendDs (sgeHwOpcode wr.opcode) wr.sgList.length + 3) / 4 =
      wqeSpan (wr.element p.qp.hwQpn (p.qp.sqHead % 2 ^ 16)).ds := by
    rw [element_ds hready.nonzero hdata hfits]
    unfold wqeSpan
    omega
  have hplain : wr.sendFlags / 8 = 0 := by simpa [flagsBad] using hflags
  have hcode : UcWr.sendInv.code < wr.opcode ↔ wr.opcode = RdmaWr.sendInv.code := by
    rcases isData_cases hdata with h | h | h | h | h | h <;> rw [h] <;> decide
  have hnine : wr.opcode ≠ UcWr.sendInv.code := by
    rcases isData_cases hdata with h | h | h | h | h | h <;> rw [h] <;> decide
  have hselected : c.syncSendSge p.ctx (wr.sgeReq p.qp.qpn wr.opcode) =
      p.ctx.syncSendSge c.toWorld (wr.sgeReq p.qp.hwQpn wr.opcode) := by
    have hqpn : (wr.sgeReq p.qp.qpn wr.opcode).qpn = p.qp.qpn := rfl
    unfold Client.syncSendSge
    rw [hlist, hqpn, hready.driven.qpLive, hready.bundle (by decide), if_neg (by simp), if_neg,
      hready.token]
    · rfl
    · rw [Bool.not_eq_false]
      exact hkeys.owned
  rw [hselected, QpContext.syncSendSge_iff (wr.sgeReq p.qp.hwQpn wr.opcode) hcount
    hready.number hready.post.ready hplain hvalid (by rw [hready.service, hrc]; decide)
    (by rw [syncSendDs_sgeReq hdata, hspan]; exact hroom)]
  constructor
  · rintro ⟨hle, hnamed, -⟩
    exact ⟨fun h => absurd (hcode.mpr h) (not_lt.mpr hle), hnamed⟩
  · rintro ⟨hinv, hnamed⟩
    exact ⟨not_lt.mp (mt hcode.mp hinv), hnamed, fun h => absurd h hnine⟩

/-- A list that the client does not take to the ring is refused. -/
lemma postSendSge_direct {wr : SendWr} (hdata : isData wr.opcode = true)
    (hdirect : p.qp.directSq = true) :
    postSendSge c p wr = postSendDirectSge c p wr ∨
      (postSendSge c p wr).rc ≠ .ok ∧ ¬DirectSgeOk wr := by
  unfold postSendSge
  by_cases htaken : wr.sgList ≠ [] ∨ zeroWriteImm wr = true
  · rw [if_pos ⟨hdirect, htaken⟩]
    exact .inl rfl
  · rw [if_neg fun h => htaken h.2, if_pos (.inr (.inr (.inl hdirect)))]
    push Not at htaken
    exact .inr ⟨by simp [Pair.refuse], fun h => h.2.listed hdata ⟨by simpa using htaken.2, htaken.1⟩⟩

lemma verdict_sge_trusted {wr : SendWr} (hready : Ready c .trusted p) (hrc : p.qp.st = .rc)
    (hdata : isData wr.opcode = true)
    (hroom : HasRoom .trusted p (wqeSpan (wr.element p.qp.hwQpn (p.qp.sqHead % 2 ^ 16)).ds)) :
    Verdict (DirectSgeOk wr) p (postSendSge c p wr) true
      (wr.element p.qp.hwQpn (p.qp.sqHead % 2 ^ 16)) := by
  have hdirect : p.qp.directSq = true := by simp [hready.directSq, hrc]
  rcases postSendSge_direct (c := c) hdata hdirect with heq | ⟨hrefused, hbad⟩
  · rw [heq]
    by_cases hok : DirectSgeOk wr
    · refine .accepted hok ?_
      rw [postSendDirectSge_of_ok hdata hdirect hready.rts hready.nonzero hok (hroom.client hdirect)]
      dsimp only
      rw [if_pos (by simp [hready.trusted])]
      exact accepted_client (hroom.client hdirect).le_slots rfl
    · exact .refused hok (postSendDirectSge_of_not_ok hdata hok)
  · exact .refused hbad hrefused

lemma verdict_sge_validated {wr : SendWr} (hready : Ready c .validated p) (hrc : p.qp.st = .rc)
    (hdata : isData wr.opcode = true)
    (hkeys : KeysValid c p (wr.opcode = RdmaWr.rdmaRead.code) wr.sgList)
    (hroom : HasRoom .validated p (wqeSpan (wr.element p.qp.hwQpn (p.qp.sqHead % 2 ^ 16)).ds)) :
    Verdict (DirectSgeOk wr ∧ wr.opcode ≠ RdmaWr.sendInv.code ∧
        Named wr.opcode wr.remoteAddr wr.rkey) p (postSendSge c p wr) true
      (wr.element p.qp.hwQpn (p.qp.sqHead % 2 ^ 16)) := by
  have hdirect : p.qp.directSq = true := by simp [hready.directSq, hrc]
  rcases postSendSge_direct (c := c) hdata hdirect with heq | ⟨hrefused, hbad⟩
  · rw [heq]
    by_cases hok : DirectSgeOk wr
    · have hsync := syncSendSge_iff hready hrc hdata hok hkeys (hroom.driver (by rintro ⟨⟨⟩, -⟩))
      rw [postSendDirectSge_of_ok hdata hdirect hready.rts hready.nonzero hok (hroom.client hdirect)]
      dsimp only
      rw [if_neg (by simp [hready.trusted])]
      by_cases hkr : (c.syncSendSge p.ctx (wr.sgeReq p.qp.qpn wr.opcode)).kr = .success
      · rw [if_neg (not_not.mpr hkr)]
        refine .accepted ⟨hok, hsync.mp hkr⟩ (accepted_client (hroom.client hdirect).le_slots ?_)
        -- the driver notes the list and writes nothing
        unfold Pair.noteSend Pair.afterKernel Pair.copyElement
        dsimp only
        rw [Client.syncSendSge_sqStores]
        rfl
      · rw [if_pos hkr]
        refine .refused (fun h => hkr (hsync.mpr h.2)) ?_
        exact mt rcOf_eq_ok.mp hkr
    · exact .refused (fun h => hok h.1) (postSendDirectSge_of_not_ok hdata hok)
  · exact .refused (fun h => hbad h.1) hrefused

/-! ## Scatter lists that the driver posts -/

/-- What the driver takes as a scatter list. -/
def DriverSgeOk (st : ServiceType) (wr : SendWr) : Prop :=
  flagsBad wr.sendFlags = false ∧ SgeFits 128 (sgeHwOpcode wr.opcode) wr ∧
    Named wr.opcode wr.remoteAddr wr.rkey ∧
    (wr.opcode = RdmaWr.sendInv.code → wr.remoteAddr = 0) ∧
    (st = .uc → wr.opcode ≠ RdmaWr.rdmaRead.code ∧ wr.opcode ≠ RdmaWr.sendInv.code)

/-- The checks of the driver on a scatter list, in the shim's numbers. -/
lemma sendSgeBad_sgeReq {wr : SendWr} (qpn : ℕ) (hdata : isData wr.opcode = true) :
    QpContext.sendSgeBad (wr.sgeReq qpn (sgeUcOpcode wr.opcode)) = false ↔
      flagsBad wr.sendFlags = false ∧ Named wr.opcode wr.remoteAddr wr.rkey ∧
        (wr.opcode = RdmaWr.sendInv.code → wr.rkey ≠ 0 ∧ wr.remoteAddr = 0) := by
  unfold QpContext.sendSgeBad SendWr.sgeReq sgeUcOpcode Named QpContext.namesRemote flagsBad
  rcases isData_cases hdata with h | h | h | h | h | h
  all_goals
    rw [h]
    simp [RdmaWr.code, UcWr.code]

/-- The numbers that the driver asks a scatter list for. -/
lemma sgeUcOpcode_eq {opcode : ℕ} (hdata : isData opcode = true) :
    (sgeUcOpcode opcode = RdmaWr.rdmaWriteImm.code ↔ opcode = RdmaWr.rdmaWriteImm.code) ∧
      (sgeUcOpcode opcode = UcWr.rdmaRead.code ↔ opcode = RdmaWr.rdmaRead.code) ∧
      (sgeUcOpcode opcode = UcWr.sendInv.code ↔ opcode = RdmaWr.sendInv.code) ∧
      sgeUcOpcode opcode ≠ UcWr.localInv.code := by
  rcases isData_cases hdata with h | h | h | h | h | h <;> rw [h] <;> decide

/-- A list that passes the client's own checks is judged by the queue pair. -/
lemma postSendSge_selected {wr : SendWr} (hdriven : Driven c p) (hdata : isData wr.opcode = true)
    (hdirect : p.qp.directSq = false) (hflags : flagsBad wr.sendFlags = false)
    (hlisted : ¬(zeroWriteImm wr = false ∧ wr.sgList = [])) (hmax : wr.sgList.length ≤ rdmaMaxSge)
    (hkeys : KeysValid c p (wr.opcode = RdmaWr.rdmaRead.code) wr.sgList) :
    postSendSge c p wr =
      (let posted := p.ctx.postSendSge c.toWorld (wr.sgeReq p.qp.hwQpn (sgeUcOpcode wr.opcode))
       ⟨p.afterKernel posted, rcOf posted.kr⟩) := by
  have hselected : c.postSendSge p.ctx (wr.sgeReq p.qp.qpn (sgeUcOpcode wr.opcode)) =
      p.ctx.postSendSge c.toWorld (wr.sgeReq p.qp.hwQpn (sgeUcOpcode wr.opcode)) := by
    have hlist := (counts_of_listed p.qp.qpn hlisted hmax (sgeUcOpcode_eq hdata).1).2
    have hqpn : (wr.sgeReq p.qp.qpn (sgeUcOpcode wr.opcode)).qpn = p.qp.qpn := rfl
    unfold Client.postSendSge
    rw [hlist, hqpn, hdriven.qpLive, hdriven.device, if_neg (by simp), if_neg (by simp), if_neg,
      hdriven.token]
    · rfl
    · rw [Bool.not_eq_false]
      exact hkeys.owned
  unfold postSendSge
  rw [if_neg (by simp [hdirect]), if_neg, hselected]
  rintro (h | h | h | h)
  · exact hlisted h
  · omega
  · rw [hdirect] at h
    cases h
  · rw [hflags] at h
    cases h

lemma verdict_sge_driver {wr : SendWr} (hdriven : Driven c p) (hdirect : p.qp.directSq = false)
    (hdata : isData wr.opcode = true)
    (hkeys : KeysValid c p (wr.opcode = RdmaWr.rdmaRead.code) wr.sgList)
    (hroom : HasRoom m p (wqeSpan (wr.element p.qp.hwQpn (p.ctx.sqHead % 2 ^ 16)).ds)) :
    Verdict (DriverSgeOk p.qp.st wr) p (postSendSge c p wr) false
      (wr.element p.qp.hwQpn (p.ctx.sqHead % 2 ^ 16)) := by
  have hroomy := hroom.driver (by simp [hdirect])
  obtain ⟨himm, hread, hinv, hlocal⟩ := sgeUcOpcode_eq hdata
  have henc := encodeSendSge_sgeReq p.ctx p.qp.hwQpn hdata
  have hsound := sendSgeBad_sgeReq p.qp.hwQpn hdata
  by_cases hclient : flagsBad wr.sendFlags = false ∧ ¬(zeroWriteImm wr = false ∧ wr.sgList = []) ∧
      wr.sgList.length ≤ rdmaMaxSge
  · obtain ⟨hflags, hlisted, hmax⟩ := hclient
    rw [postSendSge_selected hdriven hdata hdirect hflags hlisted hmax hkeys]
    dsimp only
    by_cases hok : DriverSgeOk p.qp.st wr
    · obtain ⟨-, hfits, hnamed, hinvOk, huc⟩ := hok
      have helement : p.ctx.encodeSendSge (wr.sgeReq p.qp.hwQpn (sgeUcOpcode wr.opcode)) =
          wr.element p.qp.hwQpn (p.ctx.sqHead % 2 ^ 16) := by
        rw [henc, hdriven.number]
        exact encodeSge_eq_element hdriven.nonzero (isData_ne_localInv hdata) hfits
      have haccepted : QpContext.SgeAccepted c.toWorld p.ctx
          (wr.sgeReq p.qp.hwQpn (sgeUcOpcode wr.opcode)) := by
        refine ⟨(counts_of_listed p.qp.qpn hlisted hmax himm).1, hdriven.number.symm,
          hsound.mpr ⟨hflags, hnamed, fun h => ⟨hfits.2 (by rw [h]; rfl), hinvOk h⟩⟩, ?_, ?_, ?_⟩
        · rintro ⟨hst, h | h | h⟩
          · exact (huc (by rw [← hdriven.service]; exact hst)).1 (hread.mp h)
          · exact hlocal h
          · exact (huc (by rw [← hdriven.service]; exact hst)).2 (hinv.mp h)
        · have hkeys' := hkeys.valid hfits.1.2.2.1
          simpa only [SendWr.sgeReq, hread] using hkeys'
        · rw [helement]
          exact element_ds_ne hdriven.nonzero hdata hfits _
      have hposted := QpContext.postSendSge_accepts hdriven.post haccepted
        (by rw [helement]; exact hroomy)
      rw [helement] at hposted
      rw [hposted]
      refine .accepted ⟨hflags, hfits, hnamed, hinvOk, huc⟩
        (accepted_driver hdriven ?_ rfl rfl hroomy.le_slots)
      exact rcOf_eq_ok.mpr (QpContext.publishBlocks_kr hdriven.post)
    · refine .refused hok fun hrc => hok ?_
      have haccepted := QpContext.sgeAccepted_of_success (rcOf_eq_ok.mp hrc)
      obtain ⟨-, hnamed, hinvOk⟩ := hsound.mp haccepted.sound
      refine ⟨hflags, ?_, hnamed, fun h => (hinvOk h).2, fun hst => ⟨fun h => ?_, fun h => ?_⟩⟩
      · by_contra hfits
        apply haccepted.encodes
        rw [henc]
        exact encodeSge_of_not_fits (sgeHwOpcode_ne (isData_ne_localInv hdata)) hfits
      · exact haccepted.service ⟨hdriven.service.trans hst, .inl (hread.mpr h)⟩
      · exact haccepted.service ⟨hdriven.service.trans hst, .inr (.inr (hinv.mpr h))⟩
  · refine .refused (fun h => hclient ⟨h.1, h.2.1.listed hdata, ?_⟩) ?_
    · have hmax := h.2.1.1.2.1
      exact hmax
    · unfold postSendSge
      rw [if_neg (by simp [hdirect]), if_pos]
      · simp [Pair.refuse]
      · by_contra hall
        apply hclient
        refine ⟨?_, fun h => hall (.inl h), ?_⟩
        · by_contra h
          exact hall (.inr (.inr (.inr (by simpa using h))))
        · exact not_lt.mp fun h => hall (.inr (.inl h))

end MelonDMA.Shim
