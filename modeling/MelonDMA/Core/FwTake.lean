import MelonDMA.Core.FwAccounting
import MelonDMA.Lib.Rounds

/-!
# What a `TAKE` moves

`TakePages` asks the firmware for pages in batches of at most 512. The answer to a batch is a list of
addresses, checked as a whole before any page changes state. This module says what an answer may name
(`ValidAnswer`), what each batch does with a valid answer and with any other (`BatchKept`), and follows
the pages that come back through the loop of batches (`Returned`).

The loop is read twice: `takeLoop` with its bound, and `takeRound` round by round with none. The two
agree (`rounds_takeLoop`), so the bound is never what ends the loop.
-/

namespace MelonDMA.Core

open MelonDMA.Lib

namespace FwPages

variable {s s' : FwPages} {env : Env} {functionId batch : ℕ}

/-! ## Answers -/

/-- An address names a page of a function: it is page aligned, not null, and a page given to the function
lies there. -/
def Names (s : FwPages) (functionId pas : ℕ) : Prop :=
  (pas ≠ 0 ∧ pas % fwPageSize = 0) ∧ ∃ i p, entry s.pages i = some p ∧ p.state = .given ∧
    p.functionId = functionId ∧ p.iova = pas

/-- The outbox is a valid answer to a batch and lists these addresses: it claims no more pages than were
asked for, names no page twice, and every address names a page of the function. -/
structure ValidAnswer (s : FwPages) (functionId batch : ℕ) (out : List Byte) (pas : List ℕ) : Prop where
  decoded : decodeManagePagesTake out (16 + batch * 8) batch batch = some pas
  nodup : pas.Nodup
  named : ∀ a ∈ pas, s.Names functionId a

/-- The outbox of a batch that the firmware accepted. -/
def reply (env : Env) (s : FwPages) : Option (List Byte) :=
  if env.malloc s.clock = true ∧ execReturn (env.exec (s.clock + 1)) = .success then
    some (outboxOf (env.exec (s.clock + 1)))
  else none

/-- The driver has the memory to read the answer into: `pas` and `slots` of the source. -/
def readable (env : Env) (s : FwPages) : Bool := env.malloc (s.clock + 2) && env.malloc (s.clock + 3)

/-- A page that lies at a named address is found by the search. -/
lemma findGiven_of_names {pas : ℕ} (h : s.Names functionId pas) :
    ∃ slot, s.findGiven functionId pas = some slot := by
  obtain ⟨_, i, p, hp, hst, hfun, hiova⟩ := h
  have hmem : some p ∈ s.pages := mem_of_entry hp
  cases hfind : s.findGiven functionId pas with
  | some slot => exact ⟨slot, rfl⟩
  | none =>
      rw [findGiven, List.findIdx?_eq_none_iff] at hfind
      have hfalse := hfind _ hmem
      simp [hst, hfun, hiova] at hfalse

/-- Two addresses with the same slot are the same. -/
lemma findGiven_inj {pas pas' slot : ℕ} (h : s.findGiven functionId pas = some slot)
    (h' : s.findGiven functionId pas' = some slot) : pas = pas' := by
  obtain ⟨p, hp, _, _, hiova⟩ := findGiven_eq_some h
  obtain ⟨p', hp', _, _, hiova'⟩ := findGiven_eq_some h'
  obtain rfl := Option.some.inj (hp.symm.trans hp')
  exact hiova.symm.trans hiova'

/-- The validation accepts exactly the lists without repetition that name pages of the function, none of
them in a slot found before. -/
lemma validatePas_iff (s : FwPages) (functionId : ℕ) (pas slots : List ℕ) :
    (∃ slots', s.validatePas functionId pas slots = some slots') ↔
      pas.Nodup ∧ (∀ a ∈ pas, s.Names functionId a) ∧
        ∀ a ∈ pas, ∀ i, s.findGiven functionId a = some i → i ∉ slots := by
  induction pas generalizing slots with
  | nil => simp [validatePas]
  | cons a pas ih =>
      simp only [validatePas, List.nodup_cons, List.forall_mem_cons]
      by_cases hbad : a = 0 ∨ a % fwPageSize ≠ 0
      · rw [if_pos hbad]
        constructor
        · rintro ⟨_, h⟩
          cases h
        · rintro ⟨_, ⟨⟨hnames, _⟩, _⟩, _⟩
          rcases hbad with hnull | halign
          · exact absurd hnull hnames.1
          · exact absurd hnames.2 halign
      rw [if_neg hbad]
      cases hfind : s.findGiven functionId a with
      | none =>
          constructor
          · rintro ⟨_, h⟩
            cases h
          · rintro ⟨_, ⟨hnames, _⟩, _⟩
            obtain ⟨slot, hslot⟩ := findGiven_of_names hnames
            rw [hfind] at hslot
            cases hslot
      | some slot =>
          have hnames : s.Names functionId a := by
            obtain ⟨p, hp⟩ := findGiven_eq_some hfind
            exact ⟨by simpa [not_or] using hbad, slot, p, hp⟩
          dsimp only
          by_cases hmem : slot ∈ slots
          · rw [if_pos hmem]
            constructor
            · rintro ⟨_, h⟩
              cases h
            · rintro ⟨_, _, hfree, _⟩
              exact absurd hmem (hfree slot rfl)
          rw [if_neg hmem, ih]
          constructor
          · rintro ⟨hnodup, hall, hfree⟩
            refine ⟨⟨fun ha => ?_, hnodup⟩, ⟨hnames, hall⟩, ?_, ?_⟩
            · exact hfree a ha slot hfind (by simp)
            · rintro i hi
              obtain rfl := Option.some.inj hi
              exact hmem
            · intro b hb i hi hold
              exact hfree b hb i hi (by simp [hold])
          · rintro ⟨⟨hna, hnodup⟩, ⟨_, hall⟩, _, hfree⟩
            refine ⟨hnodup, hall, fun b hb i hi hnew => ?_⟩
            rcases List.mem_append.mp hnew with hold | hsame
            · exact hfree b hb i hi hold
            · obtain rfl := List.mem_singleton.mp hsame
              exact hna (findGiven_inj hi hfind ▸ hb)

/-! ## Pages that come back -/

/-- A page the firmware has returned. -/
def comeBack (p : Page) : Page := { p with state := .returned }

/-- The slots whose page went from given to returned. -/
def movedSlots (s s' : FwPages) : List ℕ :=
  (List.range s.pages.length).filter fun i =>
    (entry s.pages i).any (fun p => p.state = .given) &&
      (entry s'.pages i).any (fun p => p.state = .returned)

/-- Exactly the pages in these slots, all of them given, have come back; no other page has changed. -/
structure Returned (s : FwPages) (slots : List ℕ) (s' : FwPages) : Prop where
  nodup : slots.Nodup
  given : ∀ i ∈ slots, ∃ p, entry s.pages i = some p ∧ p.state = .given
  pages : ∀ i, entry s'.pages i =
    if i ∈ slots then (entry s.pages i).map comeBack else entry s.pages i

/-- A valid answer moves exactly the pages it names: for each address one page, which lies there and was
given to the function. -/
def MovedExactly (s : FwPages) (functionId : ℕ) (pas : List ℕ) (s' : FwPages) : Prop :=
  ∃ slots, ValidReturn s functionId slots pas ∧ Returned s slots s'

/-- The function is quarantined: no page of it is left as given or pending, and no other page has
changed. -/
structure FunctionQuarantined (s : FwPages) (functionId : ℕ) (s' : FwPages) : Prop where
  quarantined : s'.quarantined = true
  pages : ∀ i, entry s'.pages i = (entry s.pages i).map fun p =>
    if p.functionId = functionId then p.toQuarantine else p

/-- What a batch that brings nothing back does: no page moves, and the function is quarantined. -/
structure Refused (s : FwPages) (functionId : ℕ) (s' : FwPages) : Prop where
  moved : movedSlots s s' = []
  quarantined : FunctionQuarantined s functionId s'

lemma mem_movedSlots {i : ℕ} : i ∈ movedSlots s s' ↔
    ∃ p p', entry s.pages i = some p ∧ p.state = .given ∧ entry s'.pages i = some p' ∧
      p'.state = .returned := by
  simp only [movedSlots, List.mem_filter, List.mem_range, Bool.and_eq_true, Option.any_eq_true,
    decide_eq_true_eq]
  constructor
  · rintro ⟨_, ⟨p, hp, hst⟩, p', hp', hst'⟩
    exact ⟨p, p', hp, hst, hp', hst'⟩
  · rintro ⟨p, p', hp, hst, hp', hst'⟩
    exact ⟨entry_lt_length hp, ⟨p, hp, hst⟩, p', hp', hst'⟩

lemma nodup_movedSlots (s s' : FwPages) : (movedSlots s s').Nodup := List.nodup_range.filter _

lemma returned_refl (s : FwPages) : Returned s [] s := ⟨List.nodup_nil, by simp, by simp⟩

/-- Only the table matters. -/
lemma Returned.congr {slots : List ℕ} {t : FwPages} (h : Returned s slots s')
    (hpages : t.pages = s'.pages) : Returned s slots t :=
  ⟨h.nodup, h.given, fun i => by rw [hpages]; exact h.pages i⟩

lemma Returned.entry_of_mem {slots : List ℕ} (h : Returned s slots s') {i : ℕ} (hi : i ∈ slots) :
    ∃ p, entry s'.pages i = some p ∧ p.state = .returned := by
  obtain ⟨p, hp, _⟩ := h.given i hi
  refine ⟨comeBack p, ?_, rfl⟩
  rw [h.pages, if_pos hi, hp]
  rfl

/-- Two batches in a row. -/
lemma Returned.trans {slots new : List ℕ} {t : FwPages} (h : Returned s slots s')
    (h' : Returned s' new t) : Returned s (slots ++ new) t := by
  have hfresh : ∀ i ∈ new, i ∉ slots := by
    intro i hi hold
    obtain ⟨p, hp, hst⟩ := h'.given i hi
    obtain ⟨q, hq, hst'⟩ := h.entry_of_mem hold
    obtain rfl := Option.some.inj (hp.symm.trans hq)
    rw [hst] at hst'
    cases hst'
  refine ⟨List.nodup_append.mpr ⟨h.nodup, h'.nodup, fun i hi j hj => ?_⟩, fun i hi => ?_, fun i => ?_⟩
  · rintro rfl
    exact hfresh i hj hi
  · rcases List.mem_append.mp hi with hold | hnew
    · exact h.given i hold
    · obtain ⟨p, hp, hst⟩ := h'.given i hnew
      rw [h.pages, if_neg (hfresh i hnew)] at hp
      exact ⟨p, hp, hst⟩
  · rw [h'.pages, h.pages]
    by_cases hnew : i ∈ new
    · rw [if_pos hnew, if_neg (hfresh i hnew), if_pos (List.mem_append_right _ hnew)]
    · by_cases hold : i ∈ slots <;> simp [hnew, hold]

/-- The slots of the pages that came back are the ones that moved, whatever the function's other pages
become. -/
lemma Returned.movedSlots_length {slots : List ℕ} {t : FwPages} (h : Returned s slots s')
    (hkept : ∀ i p, entry s'.pages i = some p →
      ∃ p', entry t.pages i = some p' ∧ (p'.state = .returned ↔ p.state = .returned)) :
    (movedSlots s t).length = slots.length := by
  refine ((List.perm_ext_iff_of_nodup (nodup_movedSlots s t) h.nodup).mpr fun i => ?_).length_eq
  rw [mem_movedSlots]
  constructor
  · rintro ⟨p, p', hp, hst, hp', hst'⟩
    by_contra hi
    have hsame : entry s'.pages i = some p := by rw [h.pages, if_neg hi, hp]
    obtain ⟨q, hq, hiff⟩ := hkept i p hsame
    obtain rfl := Option.some.inj (hp'.symm.trans hq)
    rw [hiff.mp hst'] at hst
    cases hst
  · intro hi
    obtain ⟨p, hp, hst⟩ := h.given i hi
    obtain ⟨q, hq, hst'⟩ := h.entry_of_mem hi
    obtain ⟨q', hq', hiff⟩ := hkept i q hq
    exact ⟨p, q', hp, hst, hq', hiff.mpr hst'⟩

/-- Going into quarantine is not coming back. -/
lemma returned_toQuarantine (p : Page) : p.toQuarantine.state = .returned ↔ p.state = .returned := by
  unfold Page.toQuarantine
  cases hst : p.state <;> simp [hst, PageState.fwHeld]

lemma functionQuarantined (s : FwPages) (n functionId : ℕ) :
    FunctionQuarantined s functionId ((s.atClock n).quarantineFunction functionId) :=
  ⟨rfl, fun i => entry_map _ _ i⟩

lemma FunctionQuarantined.kept (h : FunctionQuarantined s functionId s') (i : ℕ) (p : Page)
    (hp : entry s.pages i = some p) :
    ∃ p', entry s'.pages i = some p' ∧ (p'.state = .returned ↔ p.state = .returned) := by
  refine ⟨_, by rw [h.pages, hp]; rfl, ?_⟩
  dsimp only
  split_ifs
  · exact returned_toQuarantine p
  · exact Iff.rfl

lemma refused_of_quarantined (h : FunctionQuarantined s functionId s') : Refused s functionId s' :=
  ⟨List.eq_nil_of_length_eq_zero ((returned_refl s).movedSlots_length h.kept), h⟩

/-! ## One batch -/

/-- What one batch does, by the firmware's answer. -/
structure BatchKept (env : Env) (s : FwPages) (functionId batch : ℕ) : Prop where
  /-- A valid answer that the driver can read moves exactly the pages it names. -/
  moved : ∀ out pas, reply env s = some out → s.ValidAnswer functionId batch out pas →
    readable env s = true → MovedExactly s functionId pas (s.takeBatch env functionId batch).1
  /-- Any other answer, and one that the driver has no memory to read, moves no page and quarantines the
  function. -/
  refused : ∀ out, reply env s = some out →
    (¬∃ pas, s.ValidAnswer functionId batch out pas) ∨ readable env s = false →
      Refused s functionId (s.takeBatch env functionId batch).1
  /-- Without an answer no page moves. -/
  silent : reply env s = none → movedSlots s (s.takeBatch env functionId batch).1 = []

lemma reply_eq_some {out : List Byte} (h : reply env s = some out) :
    env.malloc s.clock = true ∧ execReturn (env.exec (s.clock + 1)) = .success ∧
      outboxOf (env.exec (s.clock + 1)) = out := by
  unfold reply at h
  split_ifs at h with hcond
  exact ⟨hcond.1, hcond.2, Option.some.inj h⟩

/-- An accepted batch goes through the validation of its answer. -/
lemma takeBatch_of_reply {out : List Byte} (h : reply env s = some out) :
    s.takeBatch env functionId batch =
      (s.atClock (s.clock + 2)).acceptTake env functionId batch out := by
  obtain ⟨hmalloc, hkr, rfl⟩ := reply_eq_some h
  simp [takeBatch, hmalloc, hkr]

/-- The slots of a valid answer are found, and only of a valid one. -/
lemma validatePas_of_validAnswer {out : List Byte} {pas : List ℕ}
    (h : s.ValidAnswer functionId batch out pas) :
    ∃ slots, s.validatePas functionId pas [] = some slots :=
  (validatePas_iff s functionId pas []).mpr ⟨h.nodup, h.named, by simp⟩

lemma validAnswer_of_validatePas {out : List Byte} {pas slots : List ℕ}
    (hdec : decodeManagePagesTake out (16 + batch * 8) batch batch = some pas)
    (h : s.validatePas functionId pas [] = some slots) : s.ValidAnswer functionId batch out pas := by
  obtain ⟨hnodup, hnamed, _⟩ := (validatePas_iff s functionId pas []).mp ⟨slots, h⟩
  exact ⟨hdec, hnodup, hnamed⟩

/-- Returning pages one after the other. -/
lemma entry_returnAll (returned : List (ℕ × ℕ)) (s : FwPages) (i : ℕ)
    (htaken : ∀ sp ∈ returned, ∃ p, entry s.pages sp.1 = some p) :
    entry (s.returnAll returned).pages i =
      if i ∈ returned.map Prod.fst then (entry s.pages i).map comeBack else entry s.pages i := by
  induction returned generalizing s with
  | nil => simp [returnAll]
  | cons sp returned ih =>
      obtain ⟨p, hp⟩ := htaken sp List.mem_cons_self
      have hmark : ∀ j, entry (s.markReturned sp.1 sp.2).pages j =
          if sp.1 = j then some (comeBack p) else entry s.pages j := by
        intro j
        unfold markReturned
        rw [hp]
        exact entry_set (entry_lt_length hp) _ j
      have htaken' : ∀ sp' ∈ returned, ∃ q, entry (s.markReturned sp.1 sp.2).pages sp'.1 = some q := by
        intro sp' hsp'
        rw [hmark]
        split_ifs
        · exact ⟨_, rfl⟩
        · exact htaken sp' (List.mem_cons_of_mem _ hsp')
      have hrest := ih (s.markReturned sp.1 sp.2) htaken'
      unfold returnAll at hrest ⊢
      rw [List.foldl_cons, hrest, hmark, List.map_cons]
      by_cases hi : sp.1 = i
      · subst hi
        simp [hp, comeBack]
      · rw [if_neg hi]
        by_cases hin : i ∈ returned.map Prod.fst <;> simp [hin, Ne.symm hi]

/-- The pages a valid response names come back, and they alone. -/
lemma ValidReturn.returned {slots pas : List ℕ} (h : ValidReturn s functionId slots pas) (n : ℕ) :
    Returned s slots ((s.atClock n).returnAll (slots.zip pas)) := by
  have hfst : (slots.zip pas).map Prod.fst = slots := List.map_fst_zip (le_of_eq h.length)
  refine ⟨h.nodup, fun i hi => ?_, fun i => ?_⟩
  · rw [← hfst] at hi
    obtain ⟨sp, hsp, rfl⟩ := List.mem_map.mp hi
    obtain ⟨p, hp, hst, _⟩ := h.given sp hsp
    exact ⟨p, hp, hst⟩
  · have hall := entry_returnAll (slots.zip pas) (s.atClock n) i fun sp hsp => by
      obtain ⟨p, hp, _⟩ := h.given sp hsp
      exact ⟨p, hp⟩
    rw [hfst] at hall
    exact hall

/-- What becomes of an answer: the function is quarantined because it is not valid or cannot be read, or
exactly the pages it names come back. -/
lemma takeBatch_answer {out : List Byte} (hreply : reply env s = some out) :
    (FunctionQuarantined s functionId (s.takeBatch env functionId batch).1 ∧
        ((¬∃ pas, s.ValidAnswer functionId batch out pas) ∨ readable env s = false)) ∨
      ∃ pas, s.ValidAnswer functionId batch out pas ∧ readable env s = true ∧
        MovedExactly s functionId pas (s.takeBatch env functionId batch).1 := by
  have hread : (env.malloc (s.clock + 2) = false ∨ env.malloc (s.clock + 2 + 1) = false) ↔
      readable env s = false := by
    rw [readable, Bool.and_eq_false_iff]
  rw [takeBatch_of_reply hreply]
  unfold acceptTake
  simp only [atClock_clock, atClock_atClock, validatePas_atClock, hread]
  by_cases hmem : readable env s = false
  · rw [if_pos hmem]
    exact .inl ⟨functionQuarantined s _ functionId, .inr hmem⟩
  rw [if_neg hmem]
  cases hdec : decodeManagePagesTake out (16 + batch * 8) batch batch with
  | none =>
      refine .inl ⟨functionQuarantined s _ functionId, .inl ?_⟩
      rintro ⟨pas, hvalid⟩
      cases hdec.symm.trans hvalid.decoded
  | some pas =>
      cases hval : s.validatePas functionId pas [] with
      | none =>
          refine .inl ⟨by simpa [hval] using functionQuarantined s _ functionId, .inl ?_⟩
          rintro ⟨pas', hvalid⟩
          obtain rfl := Option.some.inj (hdec.symm.trans hvalid.decoded)
          obtain ⟨slots, hslots⟩ := validatePas_of_validAnswer hvalid
          rw [hval] at hslots
          cases hslots
      | some slots =>
          have hret := validReturn_of_validatePas hval
          refine .inr ⟨pas, validAnswer_of_validatePas hdec hval, by simpa using hmem, slots, hret, ?_⟩
          simpa [hval, returnAll] using hret.returned (s.clock + 2 + 2)

lemma movedSlots_of_pages (h : s'.pages = s.pages) : movedSlots s s' = [] :=
  List.eq_nil_of_length_eq_zero ((returned_refl s).movedSlots_length fun _ p hp =>
    ⟨p, by rw [h]; exact hp, Iff.rfl⟩)

/-- **One batch.** In every state and for every answer. -/
theorem batchKept (env : Env) (s : FwPages) (functionId batch : ℕ) :
    BatchKept env s functionId batch := by
  refine ⟨fun out pas hreply hvalid hread => ?_, fun out hreply hbad => ?_, fun hreply => ?_⟩
  · rcases takeBatch_answer hreply with ⟨_, hinvalid | hunread⟩ | ⟨pas', hvalid', _, hmoved⟩
    · exact absurd ⟨pas, hvalid⟩ hinvalid
    · rw [hread] at hunread
      cases hunread
    · obtain rfl := Option.some.inj (hvalid.decoded.symm.trans hvalid'.decoded)
      exact hmoved
  · rcases takeBatch_answer hreply with ⟨hquarantined, _⟩ | ⟨pas, hvalid, hread, _⟩
    · exact refused_of_quarantined hquarantined
    · rcases hbad with hinvalid | hunread
      · exact absurd ⟨pas, hvalid⟩ hinvalid
      · rw [hread] at hunread
        cases hunread
  · unfold takeBatch
    dsimp only
    by_cases hmalloc : env.malloc s.clock = false
    · rw [if_pos hmalloc]
      exact movedSlots_of_pages rfl
    rw [if_neg hmalloc]
    by_cases hkr : execReturn (env.exec (s.clock + 1)) = .success
    · simp [reply, hkr, hmalloc] at hreply
    rw [if_neg hkr]
    split_ifs
    · exact (refused_of_quarantined (functionQuarantined s _ functionId)).moved
    · exact movedSlots_of_pages rfl

/-- Only a batch without a buffer for its answer ends unreported. -/
lemma takeBatch_reported (hmalloc : env.malloc s.clock = true) (kr : KernReturn) :
    (s.takeBatch env functionId batch).2 ≠ .unreported kr := by
  unfold takeBatch
  simp only [hmalloc, Bool.true_eq_false, if_false]
  split_ifs
  · rcases acceptTake_cases env (s.atClock (s.clock + 2)) functionId batch
      (outboxOf (env.exec (s.clock + 1))) with ⟨_, hacc, _⟩ | ⟨_, _, hacc, _⟩
    · simp [hacc]
    · simp [hacc]
  · simp
  · simp

/-! ## The loop of batches -/

/-- The variables of the loop of `TakePages`. -/
structure TakeLoop where
  /-- The bookkeeping. -/
  pages : FwPages
  /-- Pages still to ask for. -/
  remaining : ℕ
  /-- Pages that came back so far. -/
  total : ℕ

/-- One round of the loop. Source: `MlxFwPages::TakePages`, the body of `while (remaining)`. -/
def takeRound (env : Env) (functionId : ℕ) (t : TakeLoop) : TakeLoop ⊕ (FwPages × KernReturn × ℕ) :=
  if t.remaining = 0 then .inr (t.pages, .success, t.total)
  else
    match t.pages.takeBatch env functionId (min t.remaining p1MaxManagePages) with
    | (s, .failed kr) => .inr (s, kr, t.total)
    | (s, .unreported kr) => .inr (s, kr, 0)
    | (s, .claimed count) =>
        if count = 0 then .inr (s, .success, t.total)
        else .inl ⟨s, t.remaining - count, t.total + count⟩

/-- The bound of `takeLoop` is never what ends it. -/
lemma rounds_takeLoop (env : Env) (functionId fuel : ℕ) (t : TakeLoop) (hfuel : t.remaining ≤ fuel) :
    ∃ visited, Rounds (takeRound env functionId) t visited
      (takeLoop env functionId fuel t.pages t.remaining t.total) := by
  induction fuel generalizing t with
  | zero =>
      have hzero : t.remaining = 0 := by omega
      exact ⟨[t], .leave (by simp [takeRound, takeLoop, hzero])⟩
  | succ fuel ih =>
      by_cases hzero : t.remaining = 0
      · exact ⟨[t], .leave (by simp [takeRound, takeLoop, hzero])⟩
      cases htake : t.pages.takeBatch env functionId (min t.remaining p1MaxManagePages) with
      | mk s r =>
          cases r with
          | failed kr => exact ⟨[t], .leave (by simp [takeRound, takeLoop, hzero, htake])⟩
          | unreported kr => exact ⟨[t], .leave (by simp [takeRound, takeLoop, hzero, htake])⟩
          | claimed count =>
              by_cases hcount : count = 0
              · exact ⟨[t], .leave (by simp [takeRound, takeLoop, hzero, htake, hcount])⟩
              · obtain ⟨visited, hrest⟩ := ih ⟨s, t.remaining - count, t.total + count⟩
                  (by dsimp only; omega)
                have hloop : takeLoop env functionId (fuel + 1) t.pages t.remaining t.total =
                    takeLoop env functionId fuel s (t.remaining - count) (t.total + count) := by
                  simp [takeLoop, hzero, htake, hcount]
                rw [hloop]
                exact ⟨t :: visited, .go (by simp [takeRound, hzero, htake, hcount]) hrest⟩

/-- How far a call for `n` pages has come: as many distinct pages as `total` says have come back since
it began, and nothing else has changed. -/
def TakeProgress (s : FwPages) (n : ℕ) (t : TakeLoop) : Prop :=
  t.total + t.remaining = n ∧ ∃ slots, slots.length = t.total ∧ Returned s slots t.pages

/-- A round that goes on has claimed the pages of one valid answer. -/
lemma TakeProgress.round {n : ℕ} {t t' : TakeLoop} (h : TakeProgress s n t)
    (hround : takeRound env functionId t = .inl t') : TakeProgress s n t' := by
  obtain ⟨htotal, slots, hlen, hret⟩ := h
  unfold takeRound at hround
  split_ifs at hround with hzero
  rcases takeBatch_cases env t.pages functionId (min t.remaining p1MaxManagePages) with
    ⟨k, r, htake, hnot⟩ | ⟨k, kr, htake, _⟩ | ⟨k, new, pas, htake, hle, hvalid⟩
  · rw [htake] at hround
    cases r with
    | claimed count => exact absurd rfl (hnot count)
    | failed kr => cases hround
    | unreported kr => cases hround
  · rw [htake] at hround
    cases hround
  · rw [htake] at hround
    dsimp only at hround
    split_ifs at hround with hcount
    obtain rfl := Sum.inl.inj hround
    have hle' : pas.length ≤ t.remaining := Nat.le_trans hle (Nat.min_le_left _ _)
    refine ⟨by dsimp only; omega, slots ++ new, ?_, hret.trans (hvalid.returned k)⟩
    rw [List.length_append, hlen, hvalid.length]

/-- What the call reports when it leaves the loop. -/
lemma TakeProgress.leave {n : ℕ} {t : TakeLoop} {r : FwPages × KernReturn × ℕ}
    (h : TakeProgress s n t) (hround : takeRound env functionId t = .inr r) :
    r.2.2 ≤ n ∧ ((t.remaining ≠ 0 → env.malloc t.pages.clock = true) →
      r.2.2 = (movedSlots s r.1).length) := by
  obtain ⟨htotal, slots, hlen, hret⟩ := h
  have hsame : ∀ s' : FwPages, s'.pages = t.pages.pages → t.total = (movedSlots s s').length := by
    intro s' hpages
    rw [← hlen]
    exact ((hret.congr hpages).movedSlots_length fun i p hp => ⟨p, hp, Iff.rfl⟩).symm
  have hle : t.total ≤ n := by omega
  unfold takeRound at hround
  split_ifs at hround with hzero
  · obtain rfl := Sum.inr.inj hround
    exact ⟨hle, fun _ => hsame _ rfl⟩
  rcases takeBatch_cases env t.pages functionId (min t.remaining p1MaxManagePages) with
    ⟨k, res, htake, hnot⟩ | ⟨k, kr, htake, _⟩ | ⟨k, new, pas, htake, _, hvalid⟩
  · rw [htake] at hround
    cases res with
    | claimed count => exact absurd rfl (hnot count)
    | failed kr =>
        obtain rfl := Sum.inr.inj hround
        exact ⟨hle, fun _ => hsame _ rfl⟩
    | unreported kr =>
        obtain rfl := Sum.inr.inj hround
        refine ⟨Nat.zero_le _, fun hmalloc => ?_⟩
        exact absurd (congrArg Prod.snd htake) (takeBatch_reported (hmalloc hzero) kr)
  · rw [htake] at hround
    obtain rfl := Sum.inr.inj hround
    refine ⟨hle, fun _ => ?_⟩
    rw [← hlen]
    exact (hret.movedSlots_length (functionQuarantined t.pages k functionId).kept).symm
  · rw [htake] at hround
    dsimp only at hround
    split_ifs at hround with hcount
    obtain rfl := Sum.inr.inj hround
    refine ⟨hle, fun _ => ?_⟩
    have hnil : new = [] := List.eq_nil_of_length_eq_zero (hvalid.length.trans hcount)
    subst hnil
    exact hsame _ rfl

/-- The course of a call: it is refused at once, or makes the rounds of the loop. Source:
`MlxFwPages::TakePages`. -/
inductive TakeRun (env : Env) (functionId : ℕ) (s : FwPages) (n : ℕ) :
    List TakeLoop → FwPages × KernReturn × ℕ → Prop
  /-- No page is asked for. -/
  | nothing : n = 0 → TakeRun env functionId s n [] (s, .success, 0)
  /-- Ownership is ambiguous somewhere. -/
  | notReady : n ≠ 0 → s.quarantined = true ∨ s.getAmbiguousOwned ≠ 0 →
      TakeRun env functionId s n [] (s, .notReady, 0)
  /-- Batch after batch. -/
  | batches {visited : List TakeLoop} {r : FwPages × KernReturn × ℕ} : n ≠ 0 →
      ¬(s.quarantined = true ∨ s.getAmbiguousOwned ≠ 0) →
      Rounds (takeRound env functionId) ⟨s, n, 0⟩ visited r → TakeRun env functionId s n visited r

lemma takeRun_takePages (env : Env) (functionId : ℕ) (s : FwPages) (n : ℕ) :
    ∃ visited, TakeRun env functionId s n visited (s.takePages env functionId n) := by
  unfold takePages
  by_cases hzero : n = 0
  · rw [if_pos hzero]
    exact ⟨[], .nothing hzero⟩
  rw [if_neg hzero]
  by_cases hblocked : s.quarantined = true ∨ s.getAmbiguousOwned ≠ 0
  · rw [if_pos hblocked]
    exact ⟨[], .notReady hzero hblocked⟩
  rw [if_neg hblocked]
  obtain ⟨visited, hrounds⟩ := rounds_takeLoop env functionId n ⟨s, n, 0⟩ (Nat.le_refl n)
  exact ⟨visited, .batches hzero hblocked hrounds⟩

/-- **What a call of `TakePages` moves and reports.** Every call, in every state and whatever the
firmware answers, comes to its end. Each batch on the way moves exactly the pages that its answer names
when the answer is valid and can be read, and otherwise moves none and quarantines the function. The
number reported is at most the number asked for, and, when every batch had a buffer for its answer, it
is the number of pages that came back during the call. -/
theorem takePages_exact (env : Env) (s : FwPages) (functionId n : ℕ) :
    ∃ visited, TakeRun env functionId s n visited (s.takePages env functionId n) ∧
      (∀ t ∈ visited, t.remaining ≠ 0 →
        BatchKept env t.pages functionId (min t.remaining p1MaxManagePages)) ∧
      (s.takePages env functionId n).2.2 ≤ n ∧
      ((∀ t ∈ visited, t.remaining ≠ 0 → env.malloc t.pages.clock = true) →
        (s.takePages env functionId n).2.2 =
          (movedSlots s (s.takePages env functionId n).1).length) := by
  obtain ⟨visited, hrun⟩ := takeRun_takePages env functionId s n
  refine ⟨visited, hrun, fun t _ _ => batchKept _ _ _ _, ?_⟩
  generalize s.takePages env functionId n = r at hrun ⊢
  cases hrun with
  | nothing _ => exact ⟨Nat.zero_le n, fun _ => by rw [movedSlots_of_pages rfl]; rfl⟩
  | notReady _ _ => exact ⟨Nat.zero_le n, fun _ => by rw [movedSlots_of_pages rfl]; rfl⟩
  | batches _ _ hrounds =>
      obtain ⟨t, ht, hleave⟩ := hrounds.left_from
      have hprogress : TakeProgress s n t :=
        hrounds.invariant (TakeProgress s n) ⟨Nat.zero_add n, [], rfl, returned_refl s⟩
          (fun _ _ h hround => h.round hround) t ht
      obtain ⟨hle, hmoved⟩ := hprogress.leave hleave
      exact ⟨hle, fun hmalloc => hmoved fun hmore => hmalloc t ht hmore⟩

/-- An outbox that reports success and lists the one address 4096. -/
def onePageReply : List Byte :=
  List.replicate 11 0#8 ++ [1#8] ++ List.replicate 10 0#8 ++ [0x10#8, 0#8]

/-- A world whose firmware gives this outbox to every command, and where one allocation fails. -/
def worldShortAt (call : ℕ) : Env :=
  { worldWith (.delivered onePageReply) with malloc := fun n => n ≠ call }

/-- A page is given, the firmware returns it, and the driver has no memory for the list of slots: the
answer is valid, and its page is quarantined instead of coming back. -/
theorem unread_answer_moves_nothing : ¬∀ (env : Env) (s : FwPages) (functionId : ℕ),
    Reach (step env) Unguarded init s → s.quarantined = false → s.getAmbiguousOwned = 0 →
      ∀ out pas, reply env s = some out → s.ValidAnswer functionId 1 out pas →
        MovedExactly s functionId pas (s.takePages env functionId 1).1 := by
  intro h
  have hrun : runOps (step (worldShortAt 8)) init [.providePages 1 1 0] =
      some (init.providePages (worldShortAt 8) 1 1 0).1 := rfl
  have hpage : entry (init.providePages (worldShortAt 8) 1 1 0).1.pages 0 =
      some { functionId := 0, ownership := 1, state := .given, buffer := some ⟨0, 4096, 4096⟩,
             iova := 4096, backing := 0 } := by decide +kernel
  have hvalid : (init.providePages (worldShortAt 8) 1 1 0).1.ValidAnswer 0 1 onePageReply [4096] := by
    refine ⟨by decide +kernel, by decide, fun a ha => ?_⟩
    obtain rfl := List.mem_singleton.mp ha
    exact ⟨by decide, 0, _, hpage, rfl, rfl, rfl⟩
  obtain ⟨slots, hret, hmoved⟩ := h (worldShortAt 8) _ 0 (reach_of_runOps hrun) (by decide +kernel)
    (by decide +kernel) onePageReply [4096] (by decide +kernel) hvalid
  have hafter : movedSlots (init.providePages (worldShortAt 8) 1 1 0).1
      ((init.providePages (worldShortAt 8) 1 1 0).1.takePages (worldShortAt 8) 0 1).1 = [] := by
    decide +kernel
  have hlen := hmoved.movedSlots_length fun i p hp => ⟨p, hp, Iff.rfl⟩
  rw [hafter, hret.length] at hlen
  cases hlen

end FwPages

end MelonDMA.Core
