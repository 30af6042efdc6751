import MelonDMA.Ib.QpConfine
import MelonDMA.Shim.BatchModes
import MelonDMA.Shim.InlineModes

/-!
# One request, three modes

What each way of posting accepts of a request, in one table (`SendRequest.Accepts`,
`verdict_submit`), and for which requests the three of them act alike (`posts_alike_iff`). They differ on:

* a send with invalidate, whose number of the shim the driver does not know when it notes the request;
* a list whose element needs more than the 128 bytes of the driver's buffer;
* a remote address or key of zero, which the trusted client does not look at;
* an inline write, which the driver's selector does not let through, and the inline flag of
  `rdma_post_send`, which only the trusted client knows;
* an unreliable pair: its ring is not mapped, and when it is trusted, one-entry requests are refused.
-/

namespace MelonDMA.Shim

open MelonDMA.Lib MelonDMA.Core MelonDMA.Hw MelonDMA.Ib MelonDMA.UserClient

variable {c : Client} {m : PostMode} {p : Pair} {mem : Memory}

/-! ## What each mode accepts -/

/-- The requests that `rdma_post_send` hands to `rdma_post_send_sge`. -/
def Listed (wr : SendWr) : Prop :=
  1 < wr.sgList.length ∨ wr.opcode = RdmaWr.sendImm.code ∨ wr.opcode = RdmaWr.sendInv.code ∨
    wr.opcode = RdmaWr.rdmaWriteImm.code

instance (wr : SendWr) : Decidable (Listed wr) := by unfold Listed; infer_instance

/-- The pair's own client writes the element, in the mapped ring. -/
def SendRequest.byClient (st : ServiceType) (m : PostMode) : SendRequest → Bool
  | .post _ => m ≠ .kernel && st = .rc
  | .inlined .. => m = .trusted && st = .rc
  | .atomic .. => m = .trusted && st = .rc

/-- What a mode accepts of a scatter list, on a pair of a service. -/
def AcceptsListed (st : ServiceType) (m : PostMode) (wr : SendWr) : Prop :=
  match st, m with
  | .rc, .trusted => DirectSgeOk wr
  | .rc, .validated =>
      DirectSgeOk wr ∧ wr.opcode ≠ RdmaWr.sendInv.code ∧ Named wr.opcode wr.remoteAddr wr.rkey
  | _, _ => DriverSgeOk st wr

/-- What a mode accepts of a batch of one. -/
def AcceptsPlain (st : ServiceType) (m : PostMode) (wr : SendWr) : Prop :=
  match st, m with
  | .rc, .trusted => PlainOk wr ∨ InlineEntryOk wr
  | _, .trusted => False
  | _, _ => DriverPlainOk st wr

/-- What a mode accepts. -/
def SendRequest.Accepts (st : ServiceType) (m : PostMode) : SendRequest → Prop
  | .post wr => if Listed wr then AcceptsListed st m wr else AcceptsPlain st m wr
  | .inlined _ opcode data remoteAddr rkey _ flags =>
      InlineOk opcode data remoteAddr rkey flags ∧
        (m = .trusted ∧ st = .rc ∨ isInlineWrite opcode = false)
  | .atomic _ opcode remoteAddr rkey _ _ resultAddr resultLkey flags =>
      st ≠ .uc ∧ AtomicOk opcode remoteAddr rkey resultAddr resultLkey flags

/-- The local keys of a request are valid; a payload that is copied has none. -/
def SendRequest.KeysOk (c : Client) (p : Pair) : SendRequest → Prop
  | .post wr => KeysValid c p (wr.opcode = RdmaWr.rdmaRead.code) wr.sgList
  | .inlined .. => True
  | .atomic _ _ _ _ _ _ resultAddr resultLkey _ =>
      c.validateRange resultLkey p.ctx.pd resultAddr 8 true = true

/-- The opcodes of `rdma_post_send` are those that move data; the other two calls check their own. -/
def SendRequest.WellFormed : SendRequest → Prop
  | .post wr => isData wr.opcode = true
  | .inlined .. => True
  | .atomic .. => True

/-- A list with flags that are not plain is refused before it is looked at. -/
lemma postSendSge_of_flagsBad {wr : SendWr} (hflags : flagsBad wr.sendFlags = true) :
    (postSendSge c p wr).rc ≠ .ok := by
  unfold postSendSge
  split_ifs with hdirect hbad
  · unfold postSendDirectSge
    rw [if_pos (.inr (.inr (.inr (.inl hflags))))]
    simp [Pair.refuse]
  · simp [Pair.refuse]
  · exact absurd (.inr (.inr (.inr hflags))) hbad

/-- A list has the element of its scatter list when its flags are plain, and is refused when not. -/
lemma verdict_listed {accept : Prop} {client : Bool} {wr : SendWr} {hwQpn producer : ℕ}
    (hroom : HasRoom m p (wqeSpan ((SendRequest.post wr).element mem hwQpn producer).ds))
    (hflags : accept → flagsBad wr.sendFlags = false)
    (hverdict : HasRoom m p (wqeSpan (wr.element hwQpn producer).ds) →
      Verdict accept p (postSendSge c p wr) client (wr.element hwQpn producer)) :
    Verdict accept p (postSendSge c p wr) client
      ((SendRequest.post wr).element mem hwQpn producer) := by
  by_cases hplain : flagsBad wr.sendFlags = false
  · have helement : (SendRequest.post wr).element mem hwQpn producer = wr.element hwQpn producer :=
      if_neg (by rw [not_inlineFlag_of_plain hplain]; exact Bool.false_ne_true)
    rw [helement] at hroom ⊢
    exact hverdict hroom
  · exact .refused (fun h => hplain (hflags h)) (postSendSge_of_flagsBad (by simpa using hplain))

/-- A request that is not listed is plain and has at most one entry. -/
lemma plain_of_not_listed {wr : SendWr} (hdata : isData wr.opcode = true) (hlisted : ¬Listed wr) :
    isPlain wr.opcode = true ∧ wr.sgList.length ≤ 1 := by
  unfold Listed at hlisted
  push Not at hlisted
  obtain ⟨hmax, himm, hinv, hwriteImm⟩ := hlisted
  refine ⟨?_, hmax⟩
  unfold isPlain
  rcases isData_cases hdata with h | h | h | h | h | h
  · simp [h]
  · simp [h]
  · simp [h]
  · exact absurd h himm
  · exact absurd h hwriteImm
  · exact absurd h hinv

section

variable {st : ServiceType} {wr : SendWr}

lemma verdict_post_listed (hready : Ready c m p) (hst : p.qp.st = st)
    (hdata : isData wr.opcode = true)
    (hkeys : KeysValid c p (wr.opcode = RdmaWr.rdmaRead.code) wr.sgList)
    (hroom : HasRoom m p (wqeSpan ((SendRequest.post wr).element mem p.qp.hwQpn
      (p.producer ((SendRequest.post wr).byClient st m) % 2 ^ 16)).ds)) :
    Verdict (AcceptsListed st m wr) p (postSendSge c p wr)
      ((SendRequest.post wr).byClient st m) ((SendRequest.post wr).element mem p.qp.hwQpn
        (p.producer ((SendRequest.post wr).byClient st m) % 2 ^ 16)) := by
  cases st with
  | ud => exact absurd hst hready.connected
  | uc =>
      have hdirect : p.qp.directSq = false := by simp [hready.directSq, hst]
      have hside : (SendRequest.post wr).byClient .uc m = false := by simp [SendRequest.byClient]
      rw [hside] at hroom ⊢
      refine verdict_listed hroom (fun h => h.1) fun hroom' => ?_
      have hverdict := verdict_sge_driver hready.driven hdirect hdata hkeys hroom'
      rw [hst] at hverdict
      exact hverdict
  | rc =>
      cases m with
      | trusted =>
          exact verdict_listed hroom (fun h => h.1) fun hroom' =>
            verdict_sge_trusted hready hst hdata hroom'
      | validated =>
          exact verdict_listed hroom (fun h => h.1.1) fun hroom' =>
            verdict_sge_validated hready hst hdata hkeys hroom'
      | kernel =>
          refine verdict_listed hroom (fun h => h.1) fun hroom' => ?_
          have hverdict := verdict_sge_driver hready.driven (by simp [hready.directSq]) hdata hkeys hroom'
          rw [hst] at hverdict
          exact hverdict

lemma verdict_post_plain (hready : Ready c m p) (hst : p.qp.st = st)
    (hplain : isPlain wr.opcode = true) (hmax : wr.sgList.length ≤ 1)
    (hkeys : KeysValid c p (wr.opcode = RdmaWr.rdmaRead.code) wr.sgList)
    (hroom : HasRoom m p (wqeSpan ((SendRequest.post wr).element mem p.qp.hwQpn
      (p.producer ((SendRequest.post wr).byClient st m) % 2 ^ 16)).ds)) :
    Verdict (AcceptsPlain st m wr) p (postSendBatch c mem p [wr])
      ((SendRequest.post wr).byClient st m) ((SendRequest.post wr).element mem p.qp.hwQpn
        (p.producer ((SendRequest.post wr).byClient st m) % 2 ^ 16)) := by
  cases st with
  | ud => exact absurd hst hready.connected
  | uc =>
      have hdirect : p.qp.directSq = false := by simp [hready.directSq, hst]
      have hside : (SendRequest.post wr).byClient .uc m = false := by simp [SendRequest.byClient]
      rw [hside] at hroom ⊢
      cases m with
      | trusted => exact .refused id (postSendBatch_unmapped hready hdirect)
      | validated =>
          have hverdict := verdict_plain_driver hready (by decide) hdirect hplain hkeys hroom
          rw [hst] at hverdict
          exact hverdict
      | kernel =>
          have hverdict := verdict_plain_driver hready (by decide) hdirect hplain hkeys hroom
          rw [hst] at hverdict
          exact hverdict
  | rc =>
      cases m with
      | trusted => exact verdict_plain_trusted hready hst hplain hmax hroom
      | validated =>
          have hverdict := verdict_plain_validated hready hst hplain hkeys hroom
          rw [hst] at hverdict
          exact hverdict
      | kernel =>
          have hverdict := verdict_plain_driver hready (by decide) (by simp [hready.directSq]) hplain
            hkeys hroom
          rw [hst] at hverdict
          exact hverdict

end

/-- What becomes of a request, in every mode and on every connected pair. -/
lemma verdict_submit {st : ServiceType} {req : SendRequest} (hready : Ready c m p)
    (hst : p.qp.st = st) (hwf : req.WellFormed) (hkeys : req.KeysOk c p)
    (hroom : HasRoom m p
      (wqeSpan (req.element mem p.qp.hwQpn (p.producer (req.byClient st m) % 2 ^ 16)).ds)) :
    Verdict (req.Accepts st m) p (req.submit c mem p) (req.byClient st m)
      (req.element mem p.qp.hwQpn (p.producer (req.byClient st m) % 2 ^ 16)) := by
  cases req with
  | post wr =>
      unfold SendRequest.Accepts SendRequest.submit
      dsimp only
      by_cases hlisted : Listed wr
      · have hposted : postSend c mem p wr = postSendSge c p wr := if_pos hlisted
        rw [if_pos hlisted, hposted]
        exact verdict_post_listed hready hst hwf hkeys hroom
      · obtain ⟨hplain, hmax⟩ := plain_of_not_listed hwf hlisted
        have hposted : postSend c mem p wr = postSendBatch c mem p [wr] := if_neg hlisted
        rw [if_neg hlisted, hposted]
        exact verdict_post_plain hready hst hplain hmax hkeys hroom
  | inlined wrId opcode data remoteAddr rkey immData flags =>
      by_cases hclient : m = .trusted ∧ st = .rc
      · obtain ⟨rfl, rfl⟩ := hclient
        exact (verdict_inline_trusted hready hst hroom).congr
          ⟨fun h => ⟨h, .inl ⟨rfl, rfl⟩⟩, fun h => h.1⟩
      · have hside : SendRequest.byClient st m
            (.inlined wrId opcode data remoteAddr rkey immData flags) = false := by
          simpa [SendRequest.byClient] using hclient
        rw [hside] at hroom ⊢
        rw [← hst] at hclient
        refine (verdict_inline_driver hready hclient hroom).congr ?_
        rw [hst] at hclient
        exact ⟨fun h => ⟨h.1, .inr h.2⟩, fun h => ⟨h.1, h.2.resolve_left hclient⟩⟩
  | atomic wrId opcode remoteAddr rkey compare swapAdd resultAddr resultLkey flags =>
      by_cases huc : st = .uc
      · refine .refused (fun h => h.1 huc) ?_
        unfold SendRequest.submit postSendAtomic
        dsimp only
        rw [if_pos (.inl (hst.trans huc))]
        simp [Pair.refuse]
      · have hst' : p.qp.st ≠ .uc := by rw [hst]; exact huc
        by_cases hclient : m = .trusted ∧ st = .rc
        · obtain ⟨rfl, rfl⟩ := hclient
          exact (verdict_atomic_trusted hready hst hroom).congr ⟨fun h => ⟨huc, h⟩, fun h => h.2⟩
        · have hside : SendRequest.byClient st m
              (.atomic wrId opcode remoteAddr rkey compare swapAdd resultAddr resultLkey flags) =
                false := by
            simpa [SendRequest.byClient] using hclient
          rw [hside] at hroom ⊢
          rw [← hst] at hclient
          exact (verdict_atomic_driver hready hclient hst' hkeys hroom).congr
            ⟨fun h => ⟨huc, h⟩, fun h => h.2⟩

/-! ## Acting alike -/

/-- Three pairs of one service and one number, one in each mode, that can take the request. -/
structure Offered (c : PostMode → Client) (mem : Memory) (st : ServiceType) (hwQpn : ℕ)
    (req : SendRequest) (p : PostMode → Pair) : Prop where
  ready : ∀ m, Ready (c m) m (p m)
  service : ∀ m, (p m).qp.st = st
  number : ∀ m, (p m).qp.hwQpn = hwQpn
  keys : ∀ m, req.KeysOk (c m) (p m)
  room : ∀ m, HasRoom m (p m) (wqeSpan (req.element mem hwQpn 0).ds)

/-- Two posts moved their producers by one span, and the slots between have the same bytes except for
the queue index, the second and third byte of the control segment. -/
def SameElement (p p' : Pair) (out out' : Outcome) (client client' : Bool) : Prop :=
  ∃ span, out.pair.producer client = add64 (p.producer client) span ∧
    out'.pair.producer client' = add64 (p'.producer client') span ∧
    ∀ o < span * 64, o ≠ 1 → o ≠ 2 → elementAt p.qp.sq out.pair.ring (p.producer client) o =
      elementAt p'.qp.sq out'.pair.ring (p'.producer client') o

/-- The three modes accept the request and write the same element, or they refuse it. -/
def Alike (c : PostMode → Client) (mem : Memory) (st : ServiceType) (req : SendRequest)
    (p : PostMode → Pair) : Prop :=
  (∀ m m', (req.submit (c m) mem (p m)).rc = .ok ∧
    SameElement (p m) (p m') (req.submit (c m) mem (p m)) (req.submit (c m') mem (p m'))
      (req.byClient st m) (req.byClient st m')) ∨
  ∀ m, (req.submit (c m) mem (p m)).rc ≠ .ok

section

variable {c : PostMode → Client} {st : ServiceType} {hwQpn : ℕ} {req : SendRequest}
  {p : PostMode → Pair}

lemma Offered.verdict (h : Offered c mem st hwQpn req p) (hwf : req.WellFormed) (m : PostMode) :
    Verdict (req.Accepts st m) (p m) (req.submit (c m) mem (p m)) (req.byClient st m)
      (req.element mem hwQpn ((p m).producer (req.byClient st m) % 2 ^ 16)) := by
  have hds : (req.element mem hwQpn 0).ds =
      (req.element mem hwQpn ((p m).producer (req.byClient st m) % 2 ^ 16)).ds :=
    ((indexed_element mem hwQpn req).sameButIndex (by decide) (Nat.mod_lt _ (by decide))).ds
  have hroom := h.room m
  rw [hds] at hroom
  rw [← h.number m] at hroom ⊢
  exact verdict_submit (h.ready m) (h.service m) hwf (h.keys m) hroom

/-- Two accepted posts of one request wrote the same element. -/
lemma sameElement_of_accepted {p p' : Pair} {out out' : Outcome} {client client' : Bool} {k k' : ℕ}
    (hk : k < 2 ^ 16) (hk' : k' < 2 ^ 16)
    (h : Accepted p out client (req.element mem hwQpn k))
    (h' : Accepted p' out' client' (req.element mem hwQpn k')) :
    SameElement p p' out out' client client' := by
  obtain ⟨hds, hbytes⟩ := (indexed_element mem hwQpn req).sameButIndex hk hk'
  refine ⟨wqeSpan (req.element mem hwQpn k).ds, h.producer, ?_, fun o ho h1 h2 => ?_⟩
  · rw [h'.producer, hds]
  · rw [h.bytes o ho, h'.bytes o (by rw [← hds]; exact ho)]
    exact hbytes o h1 h2

lemma Verdict.of_meets {accept : Prop} {p : Pair} {out : Outcome} {client : Bool} {e : Encoded}
    (h : Verdict accept p out client e) (hmeets : accept) : Accepted p out client e := by
  cases h with
  | accepted meets accepted => exact accepted
  | refused fails rc => exact absurd hmeets fails

/-- The modes act alike when they accept alike. -/
lemma alike_iff_accepts (h : Offered c mem st hwQpn req p) (hwf : req.WellFormed) :
    Alike c mem st req p ↔ ∀ m m', req.Accepts st m → req.Accepts st m' := by
  constructor
  · rintro (hall | hnone) m m' haccepts
    · exact (h.verdict hwf m').iff.mp (hall m' m').1
    · exact absurd ((h.verdict hwf m).iff.mpr haccepts) (hnone m)
  · intro hsame
    by_cases haccepts : req.Accepts st .trusted
    · refine .inl fun m m' => ⟨(h.verdict hwf m).iff.mpr (hsame _ m haccepts), ?_⟩
      exact sameElement_of_accepted (Nat.mod_lt _ (by decide)) (Nat.mod_lt _ (by decide))
        ((h.verdict hwf m).of_meets (hsame _ m haccepts))
        ((h.verdict hwf m').of_meets (hsame _ m' haccepts))
    · exact .inr fun m hrc => haccepts (hsame m _ ((h.verdict hwf m).iff.mp hrc))

end

/-! ## Which requests are treated alike -/

/-- On a reliable pair a list is treated alike when the client's own checks refuse it, or when it does
not invalidate, names its remote memory, and fits the driver's buffer. -/
def ListedUniform (st : ServiceType) (wr : SendWr) : Prop :=
  st = .uc ∨ ¬DirectSgeOk wr ∨ (wr.opcode ≠ RdmaWr.sendInv.code ∧
    Named wr.opcode wr.remoteAddr wr.rkey ∧ SgeFits 128 (sgeHwOpcode wr.opcode) wr)

/-- On a reliable pair a request with one entry is treated alike when it names its remote memory and
has no inline flag that is taken; on an unreliable one, when every mode refuses it. -/
def PlainUniform (st : ServiceType) (wr : SendWr) : Prop :=
  if st = .uc then ¬DriverPlainOk .uc wr
  else ¬InlineEntryOk wr ∧ (PlainOk wr → Named wr.opcode wr.remoteAddr wr.rkey)

/-- The requests that the three modes treat alike. -/
def SendRequest.Uniform (st : ServiceType) : SendRequest → Prop
  | .post wr => if Listed wr then ListedUniform st wr else PlainUniform st wr
  | .inlined _ opcode data remoteAddr rkey _ flags =>
      st = .uc ∨ isInlineWrite opcode = false ∨ ¬InlineOk opcode data remoteAddr rkey flags
  | .atomic .. => True

/-- What fits the driver's buffer fits the client's. -/
lemma SgeFits.mono {bufferBytes bufferBytes' : ℕ} {opcode : HwOpcode} {wr : SendWr}
    (h : SgeFits bufferBytes opcode wr) (hle : bufferBytes ≤ bufferBytes') :
    SgeFits bufferBytes' opcode wr :=
  ⟨⟨h.1.1, h.1.2.1, h.1.2.2.1, Nat.le_trans h.1.2.2.2 hle⟩, h.2⟩

lemma DriverSgeOk.direct {st : ServiceType} {wr : SendWr} (h : DriverSgeOk st wr) : DirectSgeOk wr :=
  ⟨h.1, h.2.1.mono (by decide)⟩

lemma acceptsListed_iff {st : ServiceType} (hst : st ≠ .ud) (wr : SendWr) :
    (∀ m m', AcceptsListed st m wr → AcceptsListed st m' wr) ↔ ListedUniform st wr := by
  cases st with
  | ud => exact absurd rfl hst
  | uc => exact ⟨fun _ => .inl rfl, fun _ _ _ h => h⟩
  | rc =>
      constructor
      · intro hsame
        by_cases hok : DirectSgeOk wr
        · have hvalidated : DirectSgeOk wr ∧ wr.opcode ≠ RdmaWr.sendInv.code ∧
              Named wr.opcode wr.remoteAddr wr.rkey := hsame .trusted .validated hok
          have hkernel : DriverSgeOk .rc wr := hsame .trusted .kernel hok
          exact .inr (.inr ⟨hvalidated.2.1, hvalidated.2.2, hkernel.2.1⟩)
        · exact .inr (.inl hok)
      · intro huniform m m' h
        have hok : DirectSgeOk wr := by
          cases m with
          | trusted => exact h
          | validated => exact h.1
          | kernel => exact DriverSgeOk.direct h
        obtain huc | hbad | ⟨hinv, hnamed, hfits⟩ := huniform
        · cases huc
        · exact absurd hok hbad
        · cases m' with
          | trusted => exact hok
          | validated => exact ⟨hok, hinv, hnamed⟩
          | kernel =>
              exact ⟨hok.1, hfits, hnamed, fun h' => absurd h' hinv, by rintro ⟨⟩⟩

lemma acceptsPlain_iff {st : ServiceType} (hst : st ≠ .ud) (wr : SendWr) :
    (∀ m m', AcceptsPlain st m wr → AcceptsPlain st m' wr) ↔ PlainUniform st wr := by
  unfold PlainUniform
  cases st with
  | ud => exact absurd rfl hst
  | uc =>
      rw [if_pos rfl]
      constructor
      · intro hsame h
        exact hsame .kernel .trusted h
      · intro hnone m m' h
        cases m with
        | trusted => cases h
        | validated => exact absurd h hnone
        | kernel => exact absurd h hnone
  | rc =>
      rw [if_neg (by decide)]
      have hdriver : DriverPlainOk .rc wr ↔ PlainOk wr ∧ Named wr.opcode wr.remoteAddr wr.rkey :=
        ⟨fun h => ⟨h.1, h.2.1⟩, fun h => ⟨h.1, h.2, by rintro ⟨⟩⟩⟩
      constructor
      · intro hsame
        refine ⟨fun h => ?_, fun h => ?_⟩
        · have hkernel : DriverPlainOk .rc wr := hsame .trusted .kernel (.inr h)
          have hflags := flagsBad_of_inlineFlag h.1
          rw [hkernel.1.1] at hflags
          cases hflags
        · have hkernel : DriverPlainOk .rc wr := hsame .trusted .kernel (.inl h)
          exact hkernel.2.1
      · rintro ⟨hinline, hnamed⟩ m m' h
        have hok : PlainOk wr := by
          cases m with
          | trusted => exact h.resolve_right hinline
          | validated => exact (hdriver.mp h).1
          | kernel => exact (hdriver.mp h).1
        cases m' with
        | trusted => exact .inl hok
        | validated => exact hdriver.mpr ⟨hok, hnamed hok⟩
        | kernel => exact hdriver.mpr ⟨hok, hnamed hok⟩

lemma accepts_iff_uniform {st : ServiceType} (hst : st ≠ .ud) (req : SendRequest) :
    (∀ m m', req.Accepts st m → req.Accepts st m') ↔ req.Uniform st := by
  cases req with
  | post wr =>
      unfold SendRequest.Accepts SendRequest.Uniform
      dsimp only
      by_cases hlisted : Listed wr
      · simp only [if_pos hlisted]
        exact acceptsListed_iff hst wr
      · simp only [if_neg hlisted]
        exact acceptsPlain_iff hst wr
  | inlined wrId opcode data remoteAddr rkey immData flags =>
      unfold SendRequest.Accepts SendRequest.Uniform
      dsimp only
      constructor
      · intro hsame
        by_cases hrc : st = .rc
        · by_cases hok : InlineOk opcode data remoteAddr rkey flags
          · have hkernel := hsame .trusted .kernel ⟨hok, .inl ⟨rfl, hrc⟩⟩
            exact .inr (.inl (hkernel.2.resolve_left (by rintro ⟨⟨⟩, -⟩)))
          · exact .inr (.inr hok)
        · refine .inl ?_
          cases st with
          | rc => exact absurd rfl hrc
          | uc => rfl
          | ud => exact absurd rfl hst
      · rintro (huc | hsend | hbad) m m' ⟨hok, hside⟩
        · refine ⟨hok, .inr (hside.resolve_left ?_)⟩
          rw [huc]
          rintro ⟨-, ⟨⟩⟩
        · exact ⟨hok, .inr hsend⟩
        · exact absurd hok hbad
  | atomic wrId opcode remoteAddr rkey compare swapAdd resultAddr resultLkey flags =>
      exact ⟨fun _ => trivial, fun _ _ _ h => h⟩

/-- **The three ways of posting act alike on exactly the uniform requests**: on those every mode accepts
the request and writes one element, up to the queue index, or every mode refuses it. -/
theorem posts_alike_iff (c : PostMode → Client) (mem : Memory) (st : ServiceType) (hwQpn : ℕ)
    (req : SendRequest) (p : PostMode → Pair) (hwf : req.WellFormed)
    (hoffered : Offered c mem st hwQpn req p) : Alike c mem st req p ↔ req.Uniform st := by
  have hst : st ≠ .ud := by
    rw [← hoffered.service .kernel]
    exact (hoffered.ready .kernel).connected
  rw [alike_iff_accepts hoffered hwf, accepts_iff_uniform hst]

/-- A client that owns what it names, and whose doorbell rings. -/
def owningClient : Client where
  validateRange := fun _ _ _ _ _ => true
  lookup := fun _ => none
  lookupByRkey := fun _ => true
  lookupAh := fun _ => none
  ringSendDoorbell := .success
  resolveQp := fun token => token + 4
  ownsQp := fun _ => true
  ownsLkey := fun _ => true
  ownsRkey := fun _ => true
  resolveMr := fun token => token
  ownsMr := fun _ => true
  invalidateKey := fun _ => .success
  phase2Ready := true
  fastBundle := true

/-- Counters of zero fit the shared page. -/
lemma zero_fits : 0 < 2 ^ 64 ∧ 0 < 2 ^ 64 ∧ 0 < 2 ^ 64 ∧ 0 < 2 ^ 64 := by decide

/-- An idle pair of a mode, in `RTS`. -/
def idlePair (st : ServiceType) (m : PostMode) : Pair where
  qp :=
    { qpn := 1
      hwQpn := 5
      st := st
      state := .rts
      sq := (lastSlotPair st).sq
      rq := (lastSlotPair st).rq
      shadow := ⟨0, 0, 0, 0, zero_fits⟩
      directSq := decide (m ≠ .kernel) && decide (st = .rc)
      trustedFastPath := decide (m = .trusted) }
  ctx :=
    { qpNum := 5
      state := .rts
      st := st
      sq := (lastSlotPair st).sq
      rq := (lastSlotPair st).rq }
  ring := Memory.zero

lemma ready_idlePair {st : ServiceType} (hst : st ≠ .ud) (m : PostMode) :
    Ready owningClient m (idlePair st m) where
  directSq := rfl
  trusted := rfl
  connected := hst
  rts := rfl
  service := rfl
  size := rfl
  number := rfl
  nonzero := by rintro ⟨⟩
  post := ⟨rfl, rfl⟩
  token := rfl
  owned := rfl
  device := rfl
  bundle := fun _ => rfl

/-- An idle pair has room for an element of one slot. -/
lemma room_idlePair (st : ServiceType) (m : PostMode) : HasRoom m (idlePair st m) 1 where
  client := fun _ => by
    have hempty : sub64 0 0 + 1 ≤ 2 ^ 6 := by decide
    exact hempty
  driver := fun _ => by
    have hempty : sub64 0 0 + 1 ≤ 2 ^ 6 := by decide
    exact hempty

/-- A request with one entry and the key 9. -/
def oneEntry (opcode : RdmaWr) : SendRequest :=
  .post { opcode := opcode.code, sgList := [⟨4096, 8, 3⟩], rkey := 9, sendFlags := 1 }

lemma offered_oneEntry {opcode : RdmaWr} (hop : opcode = .send ∨ opcode = .sendInv) :
    Offered (fun _ => owningClient) Memory.zero .rc 5 (oneEntry opcode) (idlePair .rc) where
  ready := ready_idlePair (by decide)
  service := fun _ => rfl
  number := fun _ => rfl
  keys := fun _ _ _ => ⟨rfl, fun _ => rfl⟩
  room := by
    have hspan : wqeSpan ((oneEntry opcode).element Memory.zero 5 0).ds = 1 := by
      rcases hop with rfl | rfl <;> decide +kernel
    rw [hspan]
    exact room_idlePair .rc

/-- A send with one entry is treated alike. -/
theorem posts_alike_iff_send :
    Alike (fun _ => owningClient) Memory.zero .rc (oneEntry .send) (idlePair .rc) := by
  have hwf : (oneEntry .send).WellFormed := by
    change isData 0 = true
    rfl
  refine (posts_alike_iff (fun _ => owningClient) Memory.zero .rc 5 (oneEntry .send) (idlePair .rc) hwf
    (offered_oneEntry (.inl rfl))).mpr ?_
  unfold SendRequest.Uniform oneEntry
  dsimp only
  rw [if_neg (by decide)]
  exact ⟨by decide, fun _ => by decide⟩

/-- A send with invalidate is taken by the client that is trusted, and refused when the driver has to
note it. -/
theorem posts_differ_on_send_inv : ¬∀ (c : PostMode → Client) (mem : Memory) (st : ServiceType)
    (hwQpn : ℕ) (req : SendRequest) (p : PostMode → Pair), req.WellFormed →
    Offered c mem st hwQpn req p → Alike c mem st req p := by
  intro h
  have hwf : (oneEntry .sendInv).WellFormed := by
    change isData 10 = true
    rfl
  have halike := h (fun _ => owningClient) Memory.zero .rc 5 (oneEntry .sendInv) (idlePair .rc) hwf
    (offered_oneEntry (.inr rfl))
  have hsame := (alike_iff_accepts (offered_oneEntry (.inr rfl)) hwf).mp halike .trusted .validated
  unfold SendRequest.Accepts oneEntry at hsame
  dsimp only at hsame
  rw [if_pos (by decide), if_pos (by decide)] at hsame
  have hvalidated := hsame ⟨rfl, by decide⟩
  exact hvalidated.2.1 rfl

end MelonDMA.Shim
