import MelonDMA.Verbs.IbvRegMr
import Mathlib.Algebra.BigOperators.Group.Multiset.Basic
import Mathlib.Tactic.Abel

/-!
# The children of a registration

What `ibv_reg_mr` leaves behind, whatever the driver answers:

* the children are consecutive, not empty and at most 240 (`Consecutive`), and those under an indirect
  region make up the whole buffer (`Partition`, `partition_covers`);
* every region the driver made is held, or has been handed to a deregistration (`Balanced`), so when the
  call returns nothing all of them have been.
-/

namespace MelonDMA.Verbs

open MelonDMA.Lib MelonDMA.Core

/-! ## Ranges -/

/-- The regions lie one after the other, from an offset of the buffer on, and none is empty. Addresses
wrap as pointers do. -/
def Consecutive (addr : ℕ) : ℕ → List RdmaMr → Prop
  | _, [] => True
  | off, mr :: rest =>
      mr.addr = (addr + off) % 2 ^ 64 ∧ 0 < mr.length ∧ Consecutive addr (off + mr.length) rest

/-- Bytes in all. -/
def span (mrs : List RdmaMr) : ℕ := (mrs.map RdmaMr.length).sum

/-- The regions cut up the buffer, in order. -/
structure Partition (addr length : ℕ) (mrs : List RdmaMr) : Prop where
  consecutive : Consecutive addr 0 mrs
  span : span mrs = length

@[simp] lemma span_nil : span [] = 0 := rfl

@[simp] lemma span_cons (mr : RdmaMr) (mrs : List RdmaMr) : span (mr :: mrs) = mr.length + span mrs := rfl

@[simp] lemma span_append (mrs mrs' : List RdmaMr) : span (mrs ++ mrs') = span mrs + span mrs' := by
  simp [span]

/-- One more region at the end. -/
lemma Consecutive.snoc {addr off : ℕ} {mrs : List RdmaMr} {mr : RdmaMr} (h : Consecutive addr off mrs)
    (haddr : mr.addr = (addr + (off + span mrs)) % 2 ^ 64) (hpos : 0 < mr.length) :
    Consecutive addr off (mrs ++ [mr]) := by
  induction mrs generalizing off with
  | nil => exact ⟨haddr, hpos, trivial⟩
  | cons m mrs ih =>
      obtain ⟨hm, hmpos, hrest⟩ := h
      refine ⟨hm, hmpos, ih hrest ?_⟩
      rw [haddr, span_cons, Nat.add_assoc off]

/-- A region has a byte. -/
def RdmaMr.has (mr : RdmaMr) (x : ℕ) : Bool := mr.addr ≤ x && x < mr.addr + mr.length

/-- Of a buffer that does not wrap, every byte is in one region of a partition, and no other byte is in
any. -/
theorem partition_covers {addr length : ℕ} {mrs : List RdmaMr} (h : Partition addr length mrs)
    (hfit : addr + length ≤ 2 ^ 64) (x : ℕ) :
    mrs.countP (fun mr => mr.has x) = if addr ≤ x ∧ x < addr + length then 1 else 0 := by
  have hfrom : ∀ off (mrs : List RdmaMr), Consecutive addr off mrs → addr + off + span mrs ≤ 2 ^ 64 →
      mrs.countP (fun mr => mr.has x) =
        if addr + off ≤ x ∧ x < addr + off + span mrs then 1 else 0 := by
    intro off mrs
    induction mrs generalizing off with
    | nil => exact fun _ _ => by simp
    | cons mr mrs ih =>
        rintro ⟨haddr, hpos, hrest⟩ hle
        rw [span_cons] at hle
        have haddr' : mr.addr = addr + off := by
          rw [haddr]
          exact Nat.mod_eq_of_lt (by omega)
        have htail := ih (off + mr.length) hrest (by omega)
        rw [List.countP_cons, htail, span_cons]
        simp only [RdmaMr.has, haddr', Bool.and_eq_true, decide_eq_true_eq]
        split_ifs <;> omega
  have hall := hfrom 0 mrs h.consecutive (by rw [h.span]; exact hfit)
  rw [h.span] at hall
  exact hall

/-! ## What the driver was asked -/

/-- The region that a call made. -/
def UcCall.made : UcCall → Multiset ℕ
  | .regMr _ _ reply => if reply.made = true then {reply.mrHandle} else 0
  | .regMrIndirect _ _ _ reply => if reply.made = true then {reply.mrHandle} else 0
  | .deregMr _ _ => 0

/-- The region that a call was to deregister. -/
def UcCall.asked : UcCall → Multiset ℕ
  | .deregMr handle _ => {handle}
  | _ => 0

/-- The region that a call did deregister. -/
def UcCall.deregistered : UcCall → Multiset ℕ
  | .deregMr handle kr => if kr = .success then {handle} else 0
  | _ => 0

/-- The indirect registration that a call asked for: address, length and children. -/
def UcCall.indirect : UcCall → Option (ℕ × ℕ × List ℕ)
  | .regMrIndirect startAddr length childHandles _ => some (startAddr, length, childHandles)
  | _ => none

/-- The regions made by some calls. -/
def made (calls : List UcCall) : Multiset ℕ := (calls.map UcCall.made).sum

/-- The regions they were to deregister. -/
def asked (calls : List UcCall) : Multiset ℕ := (calls.map UcCall.asked).sum

/-- The regions they deregistered. -/
def deregistered (calls : List UcCall) : Multiset ℕ := (calls.map UcCall.deregistered).sum

/-- The indirect registrations they asked for. -/
def indirects (calls : List UcCall) : List (ℕ × ℕ × List ℕ) := calls.filterMap UcCall.indirect

/-- The handles of regions. -/
def handles (mrs : List RdmaMr) : Multiset ℕ := (mrs.map RdmaMr.mrHandle : List ℕ)

@[simp] lemma handles_append (mrs mrs' : List RdmaMr) :
    handles (mrs ++ mrs') = handles mrs + handles mrs' := by
  simp [handles]

/-- Every region made so far is held by the caller or was handed to a deregistration, and none twice. -/
def Balanced (calls : List UcCall) (held : Multiset ℕ) : Prop := made calls = asked calls + held

section Calls

variable {w : RegWorld} {p : RegProcess} {held : Multiset ℕ}

@[simp] lemma made_call (c : UcCall) : made (p.call c).calls = made p.calls + c.made := by
  simp [made, RegProcess.call]

@[simp] lemma asked_call (c : UcCall) : asked (p.call c).calls = asked p.calls + c.asked := by
  simp [asked, RegProcess.call]

/-- A region that is held is handed to a deregistration. -/
lemma Balanced.dereg {handle : ℕ} (h : Balanced p.calls ({handle} + held)) :
    Balanced (p.dereg w handle).calls held := by
  unfold Balanced RegProcess.dereg at *
  rw [made_call, asked_call, h]
  simp only [UcCall.made, UcCall.asked, add_zero, add_assoc]

lemma Balanced.deregAll {mrs : List RdmaMr} (h : Balanced p.calls (handles mrs + held)) :
    Balanced (p.deregAll w mrs).calls held := by
  induction mrs generalizing p with
  | nil => simpa [RegProcess.deregAll, handles] using h
  | cons mr mrs ih =>
      refine ih (p := p.dereg w mr.mrHandle) (Balanced.dereg ?_)
      simpa [handles, ← add_assoc, Multiset.singleton_add] using h

@[simp] lemma indirects_call (c : UcCall) :
    indirects (p.call c).calls = indirects p.calls ++ c.indirect.toList := by
  cases hc : c.indirect <;> simp [indirects, RegProcess.call, hc]

@[simp] lemma indirects_dereg (handle : ℕ) : indirects (p.dereg w handle).calls = indirects p.calls := by
  simp [RegProcess.dereg, UcCall.indirect]

@[simp] lemma made_dereg (handle : ℕ) : made (p.dereg w handle).calls = made p.calls := by
  simp [RegProcess.dereg, UcCall.made]

/-- Deregistering regions changes nothing else. -/
lemma deregAll_frame (mrs : List RdmaMr) (p : RegProcess) :
    (p.deregAll w mrs).children = p.children ∧
      indirects (p.deregAll w mrs).calls = indirects p.calls ∧
      made (p.deregAll w mrs).calls = made p.calls := by
  induction mrs generalizing p with
  | nil => exact ⟨rfl, rfl, rfl⟩
  | cons mr mrs ih =>
      obtain ⟨hchildren, hindirects, hmade⟩ := ih (p.dereg w mr.mrHandle)
      exact ⟨hchildren, hindirects.trans (indirects_dereg mr.mrHandle), hmade.trans (made_dereg mr.mrHandle)⟩

/-- What an attempt to register does: the region it returns is one more that is held, and the array of the
children stays. -/
structure RegEffect (p : RegProcess) (r : RegProcess × Option RdmaMr) (asks : List (ℕ × ℕ × List ℕ)) :
    Prop where
  balanced : ∀ held, Balanced p.calls held → Balanced r.1.calls (handles r.2.toList + held)
  children : r.1.children = p.children
  indirects : indirects r.1.calls = indirects p.calls ++ asks

/-- A failed attempt, and then another one. -/
lemma RegEffect.retry {p₁ : RegProcess} {r : RegProcess × Option RdmaMr} {asks : List (ℕ × ℕ × List ℕ)}
    (h : RegEffect p (p₁, none) []) (h' : RegEffect p₁ r asks) : RegEffect p r asks where
  balanced held hb := h'.balanced held (by simpa [handles] using h.balanced held hb)
  children := h'.children.trans h.children
  indirects := by rw [h'.indirects, h.indirects, List.append_nil]

/-- The answer to a call is accepted, or what it made is handed back. -/
lemma regEffect_settle (c : UcCall) (reply : RegReply) (startAddr length : ℕ) (failed : RegErrno)
    (hmade : c.made = if reply.made = true then {reply.mrHandle} else 0) (hasked : c.asked = 0) :
    RegEffect p ((p.call c).settle w startAddr length reply failed) c.indirect.toList := by
  have hcall : ∀ held, Balanced p.calls held → Balanced (p.call c).calls (c.made + held) := by
    intro held hb
    unfold Balanced at hb ⊢
    rw [made_call, asked_call, hb, hasked, add_zero, add_assoc, add_comm held]
  unfold RegProcess.settle
  by_cases hrefused : reply.refused startAddr = true
  · rw [if_pos hrefused]
    by_cases hreply : reply.made = true
    · rw [if_pos hreply] at hmade ⊢
      refine ⟨fun held hb => ?_, rfl, ?_⟩
      · have hback := hcall held hb
        rw [hmade] at hback
        simpa [handles] using Balanced.dereg (w := w) hback
      · exact (indirects_dereg reply.mrHandle).trans (indirects_call c)
    · rw [if_neg hreply] at hmade ⊢
      refine ⟨fun held hb => ?_, rfl, indirects_call c⟩
      have hback := hcall held hb
      rw [hmade] at hback
      simpa [handles] using hback
  · rw [if_neg hrefused]
    have hreply : reply.made = true := by
      simp only [RegReply.refused, Bool.or_eq_true, decide_eq_true_eq, not_or, ne_eq, not_not] at hrefused
      simp [RegReply.made, hrefused.1.1.1.1, hrefused.1.1.2]
    rw [if_pos hreply] at hmade
    split_ifs
    · refine ⟨fun held hb => ?_, rfl, ?_⟩
      · have hback := hcall held hb
        rw [hmade] at hback
        simpa [handles] using Balanced.dereg (w := w) (p := (p.call c).tick) hback
      · exact (indirects_dereg (p := (p.call c).tick) reply.mrHandle).trans (indirects_call c)
    · refine ⟨fun held hb => ?_, rfl, indirects_call c⟩
      have hback := hcall held hb
      rw [hmade] at hback
      exact hback

lemma regEffect_rdmaRegMr (w : RegWorld) (p : RegProcess) (addr length : ℕ) :
    RegEffect p (p.rdmaRegMr w addr length) [] := by
  unfold RegProcess.rdmaRegMr
  split_ifs
  · exact ⟨fun held hb => by simpa [handles] using hb, rfl, by simp⟩
  · exact regEffect_settle (.regMr addr length _) _ addr length _ rfl rfl

lemma regEffect_rdmaRegMrIndirect (w : RegWorld) (p : RegProcess) (mrs : List RdmaMr) (addr length : ℕ) :
    RegEffect p (p.rdmaRegMrIndirect w mrs addr length) [(addr, length, mrs.map RdmaMr.mrHandle)] ∨
      RegEffect p (p.rdmaRegMrIndirect w mrs addr length) [] ∧
        (p.rdmaRegMrIndirect w mrs addr length).2 = none := by
  unfold RegProcess.rdmaRegMrIndirect
  split_ifs
  · exact .inr ⟨⟨fun held hb => by simpa [handles] using hb, rfl, by simp⟩, rfl⟩
  · exact .inl (regEffect_settle (.regMrIndirect addr length _ _) _ addr length _ rfl rfl)

/-- Trying shorter and shorter chunks is one attempt. -/
lemma regEffect_tryChild (w : RegWorld) (start : ℕ) (t : TryLoop) :
    RegEffect t.p ((tryChild w start t).1.p, (tryChild w start t).2) [] := by
  obtain ⟨visited, hrounds⟩ := rounds_tryChild w start t
  refine hrounds.result (fun t' => RegEffect t.p (t'.p, none) [])
    (fun r => RegEffect t.p (r.1.p, r.2) []) ⟨fun held hb => by simpa [handles] using hb, rfl, by simp⟩ ?_ ?_
  · intro t₁ t₂ h hgo
    obtain ⟨hp, hnone, _⟩ := tryRound_go hgo
    have hreg := h.retry (regEffect_rdmaRegMr w t₁.p start t₁.chunk)
    rw [hp]
    rw [← hnone]
    exact hreg
  · intro t₁ r h hleave
    obtain rfl := tryRound_leave hleave
    exact h.retry (regEffect_rdmaRegMr w t₁.p start t₁.chunk)

/-! ## The outer loop -/

/-- The children so far: consecutive from the buffer's start, held, and no indirect region yet. -/
structure Registering (addr length : ℕ) (p : RegProcess) : Prop where
  balanced : Balanced p.calls (handles p.children)
  consecutive : Consecutive addr 0 p.children
  within : span p.children ≤ length
  few : p.children.length ≤ rdmaMaxIndirectMrChildren
  noIndirect : indirects p.calls = []

/-- One more child. -/
lemma Registering.child {addr length : ℕ} {t : ChunkLoop} (h : Registering addr length t.p)
    (hoff : t.off = span t.p.children) (hmore : t.off < length)
    (hroom : t.p.children.length < rdmaMaxIndirectMrChildren) {r : TryLoop} {child : RdmaMr}
    (htry : tryChild w ((addr + t.off) % 2 ^ 64) ⟨t.p, min (length - t.off) t.maxChunk, t.maxChunk⟩ =
      (r, some child)) :
    Registering addr length { r.p with children := r.p.children ++ [child] } ∧
      t.off + r.chunk = span (r.p.children ++ [child]) := by
  have heffect := regEffect_tryChild w ((addr + t.off) % 2 ^ 64)
    ⟨t.p, min (length - t.off) t.maxChunk, t.maxChunk⟩
  have hchild := tryChild_some (congrArg Prod.snd htry)
  rw [htry] at heffect hchild
  obtain ⟨haddr, hlength, hpos, hle⟩ := hchild
  have hchildren : r.p.children = t.p.children := heffect.children
  dsimp only at haddr hlength hpos hle
  refine ⟨⟨?_, ?_, ?_, ?_, ?_⟩, ?_⟩
  · have hb := heffect.balanced _ h.balanced
    dsimp only at hb ⊢
    rw [hchildren, handles_append, add_comm]
    exact hb
  · dsimp only
    rw [hchildren]
    refine h.consecutive.snoc ?_ (by omega)
    rw [haddr, hoff, Nat.zero_add]
  · dsimp only
    rw [hchildren, span_append, span_cons, span_nil, hlength]
    omega
  · dsimp only
    rw [hchildren, List.length_append, List.length_singleton]
    omega
  · exact heffect.indirects.trans (by simp [h.noIndirect])
  · rw [hchildren, span_append, span_cons, span_nil, hlength, hoff]
    omega

lemma rounds_registerChildren (w : RegWorld) (p : RegProcess) (addr length : ℕ) :
    ∃ visited, Rounds (chunkRound w addr length)
      ⟨p, 0, pageMask w.pageSize ((rdmaMaxDirectMrBytes + 2 ^ 64 - w.pageSize) % 2 ^ 64)⟩ visited
      (registerChildren w p addr length) :=
  rounds_runLoop (fun t : ChunkLoop => length - t.off) (chunkRound_falls w addr length) _

/-- However the loop ends, the children are as they should be; when it says that all are registered, they
make up the buffer. -/
lemma registering_registerChildren {addr length : ℕ} (h : Registering addr length p)
    (hnone : p.children = []) :
    Registering addr length (registerChildren w p addr length).1 ∧
      ((registerChildren w p addr length).2 = true →
        span (registerChildren w p addr length).1.children = length) := by
  obtain ⟨visited, hrounds⟩ := rounds_registerChildren w p addr length
  refine hrounds.result
    (fun t => Registering addr length t.p ∧ t.off = span t.p.children)
    (fun r => Registering addr length r.1 ∧ (r.2 = true → span r.1.children = length))
    ⟨h, by simp [hnone]⟩ ?_ ?_
  · rintro t t' ⟨hreg, hoff⟩ hgo
    unfold chunkRound at hgo
    split_ifs at hgo with hdone hfull
    split at hgo
    · cases hgo
    · rename_i r child htry
      obtain rfl := Sum.inl.inj hgo
      have hfew := hreg.few
      exact hreg.child hoff (by omega) (by omega) htry
  · rintro t r ⟨hreg, hoff⟩ hleave
    have hwithin := hreg.within
    unfold chunkRound at hleave
    split_ifs at hleave with hdone hfull
    · obtain rfl := Sum.inr.inj hleave
      exact ⟨hreg, fun _ => by dsimp only; omega⟩
    · obtain rfl := Sum.inr.inj hleave
      exact ⟨⟨hreg.balanced, hreg.consecutive, hreg.within, hreg.few, hreg.noIndirect⟩, fun h => by cases h⟩
    · split at hleave
      · rename_i r' htry
        obtain rfl := Sum.inr.inj hleave
        have heffect := regEffect_tryChild w ((addr + t.off) % 2 ^ 64)
          ⟨t.p, min (length - t.off) t.maxChunk, t.maxChunk⟩
        rw [htry] at heffect
        have hchildren : r'.p.children = t.p.children := heffect.children
        refine ⟨⟨?_, ?_, ?_, ?_, ?_⟩, fun h => by cases h⟩
        · simpa [handles, hchildren] using heffect.balanced _ hreg.balanced
        · rw [hchildren]
          exact hreg.consecutive
        · rw [hchildren]
          exact hreg.within
        · rw [hchildren]
          exact hreg.few
        · exact heffect.indirects.trans (by simp [hreg.noIndirect])
      · cases hleave

/-! ## The whole call -/

/-- What registering the buffer leaves: the children, the indirect region if one was asked for, and what is
held. -/
structure Registered (addr length : ℕ) (r : RegProcess × Option RdmaMr) : Prop where
  consecutive : Consecutive addr 0 r.1.children
  few : r.1.children.length ≤ rdmaMaxIndirectMrChildren
  exist : handles r.1.children ≤ made r.1.calls
  indirect : ∀ x ∈ indirects r.1.calls,
    x = (addr, length, r.1.children.map RdmaMr.mrHandle) ∧ Partition addr length r.1.children
  composed : r.2 ≠ none → r.1.children ≠ [] → indirects r.1.calls ≠ []
  balanced : Balanced r.1.calls (handles r.2.toList + if r.2 = none then 0 else handles r.1.children)

/-- The children are handed back when the buffer is not registered. -/
lemma Registering.giveUp {addr length : ℕ} (h : Registering addr length p) (failed : RegErrno) :
    Registered addr length ({ p.deregAll w p.children with errno := failed }, none) := by
  obtain ⟨hchildren, hindirects, hmade⟩ := deregAll_frame (w := w) p.children p
  have hback : Balanced (p.deregAll w p.children).calls 0 :=
    Balanced.deregAll (by simpa using h.balanced)
  refine ⟨?_, ?_, ?_, ?_, fun hsome => absurd rfl hsome, by simpa [handles] using hback⟩
  · dsimp only
    rw [hchildren]
    exact h.consecutive
  · dsimp only
    rw [hchildren]
    exact h.few
  · dsimp only
    rw [hchildren, hmade]
    rw [h.balanced]
    exact Multiset.le_add_left _ _
  · dsimp only
    rw [hindirects, h.noIndirect]
    simp

/-- The indirect region over all the children. -/
lemma Registering.indirect {addr length : ℕ} (h : Registering addr length p)
    (hall : span p.children = length) :
    Registered addr length
      (match p.rdmaRegMrIndirect w p.children addr length with
      | (p, some native) => (p, some native)
      | (p, none) => ({ p.deregAll w p.children with errno := .eio }, none)) := by
  have hpartition : Partition addr length p.children := ⟨h.consecutive, hall⟩
  have heffect := regEffect_rdmaRegMrIndirect w p p.children addr length
  generalize p.rdmaRegMrIndirect w p.children addr length = r at heffect
  obtain ⟨p', res⟩ := r
  have hasks : ∃ asks, RegEffect p (p', res) asks ∧
      (∀ x ∈ asks, x = (addr, length, p.children.map RdmaMr.mrHandle)) ∧ (res ≠ none → asks ≠ []) := by
    rcases heffect with heffect | ⟨heffect, hnone⟩
    · exact ⟨_, heffect, by simp, fun _ => by simp⟩
    · exact ⟨_, heffect, by simp, fun hsome => absurd hnone hsome⟩
  obtain ⟨asks, heffect, hwhat, hsome⟩ := hasks
  have hchildren : p'.children = p.children := heffect.children
  have hindirects : indirects p'.calls = asks := by simpa [h.noIndirect] using heffect.indirects
  have hb := heffect.balanced _ h.balanced
  have hmade : handles p.children ≤ made p'.calls := by
    refine Multiset.le_iff_exists_add.mpr ⟨asked p'.calls + handles res.toList, ?_⟩
    rw [hb]
    abel
  cases res with
  | some native =>
      refine ⟨?_, ?_, ?_, ?_, fun _ _ => ?_, ?_⟩
      · simpa [hchildren] using h.consecutive
      · simpa [hchildren] using h.few
      · simpa [hchildren] using hmade
      · simp only [hindirects, hchildren]
        exact fun x hx => ⟨hwhat x hx, hpartition⟩
      · simpa [hindirects] using hsome (by simp)
      · simpa [hchildren] using hb
  | none =>
      obtain ⟨hchildren', hindirects', hmade'⟩ := deregAll_frame (w := w) p'.children p'
      refine ⟨?_, ?_, ?_, ?_, fun hbad => absurd rfl hbad, ?_⟩
      · dsimp only
        rw [hchildren', hchildren]
        exact h.consecutive
      · dsimp only
        rw [hchildren', hchildren]
        exact h.few
      · dsimp only
        rw [hchildren', hmade', hchildren]
        exact hmade
      · dsimp only
        rw [hindirects', hindirects, hchildren', hchildren]
        exact fun x hx => ⟨hwhat x hx, hpartition⟩
      · have hback : Balanced (p'.deregAll w p'.children).calls 0 :=
          Balanced.deregAll (by simpa [handles, hchildren] using hb)
        simpa [handles] using hback

lemma registered_registerBuffer {addr length : ℕ} (hcalls : p.calls = []) (hnone : p.children = []) :
    Registered addr length (p.registerBuffer w addr length) := by
  have hstart : Registering addr length p := by
    refine ⟨?_, by simp [hnone, Consecutive], by simp [hnone], by simp [hnone], by simp [hcalls, indirects]⟩
    simp [Balanced, hcalls, hnone, made, asked, handles]
  have heffect := regEffect_rdmaRegMr w p addr length
  unfold RegProcess.registerBuffer
  generalize p.rdmaRegMr w addr length = r at heffect
  obtain ⟨p', res⟩ := r
  have hchildren : p'.children = [] := heffect.children.trans hnone
  have hindirects : indirects p'.calls = [] := by simpa [hstart.noIndirect] using heffect.indirects
  have hb := heffect.balanced _ hstart.balanced
  have hsimple : Registered addr length (p', res) := by
    refine ⟨?_, ?_, ?_, ?_, ?_, ?_⟩
    · simp [hchildren, Consecutive]
    · simp [hchildren]
    · rw [hchildren]
      exact Multiset.zero_le _
    · simp [hindirects]
    · simp [hchildren]
    · simpa [hchildren, hnone, handles] using hb
  cases res with
  | some native => exact hsimple
  | none =>
      dsimp only
      split_ifs with hbig hcalloc
      · exact hsimple
      · exact ⟨hsimple.consecutive, hsimple.few, hsimple.exist, hsimple.indirect, hsimple.composed,
          hsimple.balanced⟩
      · have hstart' : Registering addr length p'.tick := by
          refine ⟨?_, ?_, ?_, ?_, hindirects⟩
          · simpa [RegProcess.tick, hchildren, hnone, handles] using hb
          · simp [RegProcess.tick, hchildren, Consecutive]
          · simp [RegProcess.tick, hchildren]
          · simp [RegProcess.tick, hchildren]
        have hloop := registering_registerChildren (w := w) hstart' hchildren
        generalize registerChildren w p'.tick addr length = r at hloop ⊢
        obtain ⟨p₁, done⟩ := r
        obtain ⟨hreg, hspan⟩ := hloop
        cases done with
        | false => exact hreg.giveUp p₁.errno
        | true => exact hreg.indirect (hspan rfl)

/-- What a call of `ibv_reg_mr` leaves. -/
structure RegMrOutcome (addr length : ℕ) (r : RegProcess × Option MrInfo) : Prop where
  /-- The children are consecutive from the buffer's start, and none is empty. -/
  consecutive : Consecutive addr 0 r.1.children
  /-- They are at most 240. -/
  few : r.1.children.length ≤ rdmaMaxIndirectMrChildren
  /-- They are regions that the driver made. -/
  exist : handles r.1.children ≤ made r.1.calls
  /-- An indirect registration is of the buffer, over exactly the children, and these cut up the buffer. -/
  indirect : ∀ x ∈ indirects r.1.calls,
    x = (addr, length, r.1.children.map RdmaMr.mrHandle) ∧ Partition addr length r.1.children
  /-- A call that succeeds and has registered children has registered an indirect region over them. -/
  composed : r.2 ≠ none → r.1.children ≠ [] → indirects r.1.calls ≠ []
  /-- When nothing is returned, every region the driver made has been handed to a deregistration once. -/
  undone : r.2 = none → made r.1.calls = asked r.1.calls

/-- What `ibv_reg_mr` does after the buffer is registered does not touch the children. -/
lemma RegMrOutcome.of_frame {addr length : ℕ} {native : RdmaMr} {r : RegProcess × Option MrInfo}
    (h : Registered addr length (p, some native)) (hchildren : r.1.children = p.children)
    (hindirects : indirects r.1.calls = indirects p.calls) (hmade : made r.1.calls = made p.calls)
    (hundone : r.2 = none → made r.1.calls = asked r.1.calls) : RegMrOutcome addr length r := by
  refine ⟨?_, ?_, ?_, ?_, fun _ hsome => ?_, hundone⟩
  · rw [hchildren]
    exact h.consecutive
  · rw [hchildren]
    exact h.few
  · rw [hchildren, hmade]
    exact h.exist
  · rw [hindirects, hchildren]
    exact h.indirect
  · rw [hindirects]
    exact h.composed (by simp) (by rwa [hchildren] at hsome)

/-- Everything is handed back. -/
lemma giveBack_spec {addr length : ℕ} {native : RdmaMr} (h : Registered addr length (p, some native))
    {p' : RegProcess} (hcalls : p'.calls = p.calls) (hchildren : p'.children = p.children) :
    (p'.giveBack w native).children = p.children ∧
      indirects (p'.giveBack w native).calls = indirects p.calls ∧
      made (p'.giveBack w native).calls = made p.calls ∧
      made (p'.giveBack w native).calls = asked (p'.giveBack w native).calls := by
  obtain ⟨hkeep, hindirects, hmade⟩ := deregAll_frame (w := w) (native :: p'.children) p'
  have hback : Balanced (p'.giveBack w native).calls 0 := by
    refine Balanced.deregAll ?_
    have hb := h.balanced
    rw [hcalls, hchildren]
    simpa [handles, Multiset.singleton_add] using hb
  exact ⟨hkeep.trans hchildren, hindirects.trans (by rw [hcalls]), hmade.trans (by rw [hcalls]),
    hback.trans (add_zero (asked (p'.giveBack w native).calls))⟩

/-- A region is returned for an entry of the cache, or nothing. -/
lemma returnCached_frame (info : MrInfo) (p : RegProcess) :
    (p.returnCached w info).1.children = p.children ∧ (p.returnCached w info).1.calls = p.calls := by
  unfold RegProcess.returnCached
  split_ifs <;> exact ⟨rfl, rfl⟩

lemma regMrOutcome_adopt {addr length : ℕ} {native : RdmaMr}
    (h : Registered addr length (p, some native)) : RegMrOutcome addr length (p.adopt w native) := by
  have hcached : ∀ (p' : RegProcess) (info : MrInfo), p'.calls = p.calls → p'.children = p.children →
      RegMrOutcome addr length ((p'.giveBack w native).returnCached w info) := by
    intro p' info hcalls hchildren
    obtain ⟨hkeep, hindirects, hmade, hundone⟩ := giveBack_spec (w := w) h hcalls hchildren
    obtain ⟨hkeep', hcalls'⟩ := returnCached_frame (w := w) info (p'.giveBack w native)
    refine RegMrOutcome.of_frame h (hkeep'.trans hkeep) (by rw [hcalls', hindirects])
      (by rw [hcalls', hmade]) fun _ => ?_
    rw [hcalls']
    exact hundone
  have hnoMemory : ∀ p' : RegProcess, p'.calls = p.calls → p'.children = p.children →
      RegMrOutcome addr length ({ p'.giveBack w native with errno := .enomem }, none) := by
    intro p' hcalls hchildren
    obtain ⟨hkeep, hindirects, hmade, hundone⟩ := giveBack_spec (w := w) h hcalls hchildren
    exact RegMrOutcome.of_frame h hkeep hindirects hmade fun _ => hundone
  unfold RegProcess.adopt
  split
  · exact hcached _ _ rfl rfl
  · dsimp only
    split_ifs
    · exact hnoMemory _ rfl rfl
    · exact hnoMemory _ rfl rfl
    · split
      · exact hcached _ _ rfl rfl
      · exact RegMrOutcome.of_frame h rfl rfl rfl fun hnone => by cases hnone

end Calls

/-- The thread as it enters the function. -/
def RegProcess.enter (errno : RegErrno) : RegProcess := { errno := errno }

lemma deregistered_eq_asked {calls : List UcCall}
    (h : ∀ handle kr, .deregMr handle kr ∈ calls → kr = .success) :
    deregistered calls = asked calls := by
  unfold deregistered asked
  congr 1
  refine List.map_congr_left fun c hc => ?_
  cases c with
  | regMr _ _ _ => rfl
  | regMrIndirect _ _ _ _ => rfl
  | deregMr handle kr => simp [UcCall.deregistered, UcCall.asked, h handle kr hc]

lemma regMrOutcome_ibvRegMr (w : RegWorld) (errno : RegErrno) (addr length : ℕ) :
    RegMrOutcome addr length ((RegProcess.enter errno).ibvRegMr w addr length) := by
  have hquiet : ∀ r : RegProcess × Option MrInfo, r.1.calls = [] → r.1.children = [] →
      RegMrOutcome addr length r := by
    intro r hcalls hchildren
    refine ⟨?_, ?_, ?_, ?_, fun _ hsome => absurd hchildren hsome, fun _ => ?_⟩
    · simp [hchildren, Consecutive]
    · simp [hchildren]
    · rw [hchildren]
      exact Multiset.zero_le _
    · simp [hcalls, indirects]
    · simp [hcalls, made, asked]
  unfold RegProcess.ibvRegMr
  split_ifs
  · exact hquiet _ rfl rfl
  split
  · rename_i info _
    obtain ⟨hchildren, hcalls⟩ := returnCached_frame (w := w) info (RegProcess.enter errno).tick
    exact hquiet _ hcalls hchildren
  · have hreg : Registered addr length ((RegProcess.enter errno).tick.registerBuffer w addr length) :=
      registered_registerBuffer rfl rfl
    generalize (RegProcess.enter errno).tick.registerBuffer w addr length = r at hreg ⊢
    obtain ⟨p, res⟩ := r
    cases res with
    | some native => exact regMrOutcome_adopt hreg
    | none =>
        exact ⟨hreg.consecutive, hreg.few, hreg.exist, hreg.indirect, fun hsome => absurd rfl hsome, fun _ =>
          hreg.balanced.trans (by simp [handles])⟩

/-- **Registering a buffer.** Whatever the driver, the allocator and the cache answer, and for every address,
length and page size: both loops end; the children registered are consecutive, not empty and at most 240;
an indirect region is registered over exactly these, and they cut up the buffer; and when nothing is
returned, every region that was made has been handed to a deregistration, once. -/
theorem ibvRegMr_outcome (w : RegWorld) (errno : RegErrno) (addr length : ℕ) :
    (∀ start t, ∃ visited, Rounds (tryRound w start) t visited (tryChild w start t)) ∧
      (∀ p, ∃ visited, Rounds (chunkRound w addr length)
        ⟨p, 0, pageMask w.pageSize ((rdmaMaxDirectMrBytes + 2 ^ 64 - w.pageSize) % 2 ^ 64)⟩ visited
        (registerChildren w p addr length)) ∧
      RegMrOutcome addr length ((RegProcess.enter errno).ibvRegMr w addr length) ∧
      (((RegProcess.enter errno).ibvRegMr w addr length).2 = none →
        (∀ handle kr, .deregMr handle kr ∈ ((RegProcess.enter errno).ibvRegMr w addr length).1.calls →
          kr = .success) →
        deregistered ((RegProcess.enter errno).ibvRegMr w addr length).1.calls =
          made ((RegProcess.enter errno).ibvRegMr w addr length).1.calls) := by
  have houtcome : RegMrOutcome addr length ((RegProcess.enter errno).ibvRegMr w addr length) :=
    regMrOutcome_ibvRegMr w errno addr length
  exact ⟨rounds_tryChild w, fun p => rounds_registerChildren w p addr length, houtcome,
    fun hnone hall => (deregistered_eq_asked hall).trans (houtcome.undone hnone).symm⟩

/-- The driver runs out of room for the buffer, makes one child of half its length, then stops answering and
refuses the deregistration. -/
def failingWorld : RegWorld where
  pageSize := 4096
  regMr n := if n < 4 then ⟨.noSpace, true, 0, 0, 0, 0⟩
    else if n = 4 then ⟨.success, true, 1, 1, 1, 4096⟩ else ⟨.timeout, true, 0, 0, 0, 0⟩
  regMrIndirect _ := ⟨.timeout, true, 0, 0, 0, 0⟩
  deregMr _ := .notReady
  calloc _ := true
  cached _ := none

/-- The answer to a deregistration is ignored: nothing is returned, and the child stays registered. -/
theorem refused_deregistration_keeps_child : ¬∀ (w : RegWorld) (errno : RegErrno) (addr length : ℕ),
    ((RegProcess.enter errno).ibvRegMr w addr length).2 = none →
      handles ((RegProcess.enter errno).ibvRegMr w addr length).1.children ≤
        deregistered ((RegProcess.enter errno).ibvRegMr w addr length).1.calls := by
  intro h
  have hle := h failingWorld .einval 4096 8192 (by decide +kernel)
  have hchildren : ((RegProcess.enter .einval).ibvRegMr failingWorld 4096 8192).1.children =
      [⟨1, 1, 1, 4096, 4096⟩] := by decide +kernel
  have hkept : deregistered ((RegProcess.enter .einval).ibvRegMr failingWorld 4096 8192).1.calls = 0 := by
    decide +kernel
  rw [hchildren, hkept] at hle
  exact absurd hle (by decide)

end MelonDMA.Verbs
