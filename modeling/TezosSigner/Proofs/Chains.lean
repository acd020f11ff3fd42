import TezosSigner.Proofs.Verdict

/-!
# The two chains

Main and test chain share one record, which is loaded and replaced as a whole whenever a
consensus message passes the guard. What is said of a message depends on the baking key, on
the main chain and on the mark of the message's own chain, and a message that passes changes
that mark alone. So a sequence of messages is two sequences, one for each chain, and how they
are interleaved plays no part.
-/

namespace TezosSigner

open Command

/-- A key is to sign a consensus message. -/
structure ConsensusRequest where
  key : KeyId
  data : ConsensusData
deriving DecidableEq

/-- A request and what the guard has said of it. -/
structure Ruling where
  request : ConsensusRequest
  result : Except Status Unit
deriving DecidableEq

namespace BakingState

variable {state first second : BakingState} {chain : Chain} {request : ConsensusRequest}
  {requests : List ConsensusRequest}

/-! ## The guard as a function of the record -/

/-- What the guard says of a request. -/
def rule (state : BakingState) (request : ConsensusRequest) : Except Status Unit :=
  let data := request.data
  if state.authorizes request.key then
    if state.allows (state.chainFor data.chainId) data.level data.isEndorsement then .ok ()
    else .error .wrongValues
  else .error .security

/-- The record behind a request, whether or not that has passed. -/
def after (state : BakingState) (request : ConsensusRequest) : BakingState :=
  match state.rule request with
  | .ok () => state.raised request.data
  | .error _ => state

/-- What is said of one request after the other. -/
def rulings : BakingState → List ConsensusRequest → List Ruling
  | _, [] => []
  | state, request :: requests =>
      ⟨request, state.rule request⟩ :: rulings (state.after request) requests

/-- Whether the record counts the level of a request on a chain. -/
def counts (state : BakingState) (chain : Chain) (request : ConsensusRequest) : Bool :=
  state.chainFor request.data.chainId == chain

theorem authorizes_of_rule (hrule : state.rule request = .ok ()) :
    state.authorizes request.key = true := by
  unfold rule at hrule
  dsimp only at hrule
  split at hrule
  next hauthorizes => exact hauthorizes
  next => cases hrule

/-- A request either leaves the record alone or raises the mark of its chain. -/
theorem after_cases (state : BakingState) (request : ConsensusRequest) :
    state.after request = state ∨ state.after request = state.raised request.data := by
  unfold after
  cases state.rule request with
  | ok => exact .inr rfl
  | error status => exact .inl rfl

@[simp] theorem isCurrent_after : (state.after request).isCurrent = state.isCurrent := by
  rcases state.after_cases request with hsame | hraised
  · rw [hsame]
  · rw [hraised, isCurrent_raised]

theorem isCurrent_foldl_after (hcurrent : state.isCurrent = true) :
    (requests.foldl after state).isCurrent = true := by
  induction requests generalizing state with
  | nil => exact hcurrent
  | cons request requests ih => exact ih (isCurrent_after.trans hcurrent)

@[simp] theorem counts_after : (state.after request).counts = state.counts := by
  funext chain other
  rcases state.after_cases request with hsame | hraised
  · rw [hsame]
  · rw [hraised, counts, chainFor_raised, counts]

/-! ## One chain at a time -/

/-- Two records have in common all that is looked at for the messages of a chain. -/
structure AgreesOn (chain : Chain) (first second : BakingState) : Prop where
  mainChainId : second.mainChainId = first.mainChainId
  key : second.key = first.key
  mark : second.mark chain = first.mark chain

namespace AgreesOn

theorem refl (chain : Chain) (state : BakingState) : AgreesOn chain state state :=
  ⟨rfl, rfl, rfl⟩

theorem trans {third : BakingState} (hfirst : AgreesOn chain first second)
    (hsecond : AgreesOn chain second third) : AgreesOn chain first third :=
  ⟨hsecond.mainChainId.trans hfirst.mainChainId, hsecond.key.trans hfirst.key,
    hsecond.mark.trans hfirst.mark⟩

theorem symm (hagrees : AgreesOn chain first second) : AgreesOn chain second first :=
  ⟨hagrees.mainChainId.symm, hagrees.key.symm, hagrees.mark.symm⟩

theorem counts_eq (hagrees : AgreesOn chain first second) : second.counts = first.counts := by
  funext other request
  rw [counts, counts, chainFor, chainFor, hagrees.mainChainId]

/-- Both records count a message on the same chain. -/
theorem chainFor_eq (hagrees : AgreesOn chain first second)
    (hcounts : first.counts chain request = true) :
    first.chainFor request.data.chainId = chain ∧
      second.chainFor request.data.chainId = chain := by
  refine ⟨eq_of_beq hcounts, ?_⟩
  rw [← hagrees.counts_eq] at hcounts
  exact eq_of_beq hcounts

/-- What is said of a message is told by what is looked at for its chain. -/
theorem rule_eq (hagrees : AgreesOn chain first second)
    (hcounts : first.counts chain request = true) : second.rule request = first.rule request := by
  obtain ⟨hfirst, hsecond⟩ := hagrees.chainFor_eq hcounts
  unfold rule
  dsimp only
  rw [hfirst, hsecond, authorizes, authorizes, allows, allows, hagrees.key, hagrees.mark]

theorem raised (hagrees : AgreesOn chain first second)
    (hcounts : first.counts chain request = true) :
    AgreesOn chain (first.raised request.data) (second.raised request.data) := by
  obtain ⟨hfirst, hsecond⟩ := hagrees.chainFor_eq hcounts
  obtain ⟨hmain, hkey, -⟩ := hagrees
  rw [BakingState.raised, BakingState.raised, hfirst, hsecond]
  cases chain <;> exact ⟨hmain, hkey, rfl⟩

/-- A message of the chain does the same to both records. -/
theorem after (hagrees : AgreesOn chain first second)
    (hcounts : first.counts chain request = true) :
    AgreesOn chain (first.after request) (second.after request) := by
  unfold BakingState.after
  rw [hagrees.rule_eq hcounts]
  cases first.rule request with
  | ok => exact hagrees.raised hcounts
  | error status => exact hagrees

/-- A message of the other chain does nothing that this one looks at. -/
theorem after_other (hagrees : AgreesOn chain first second)
    (hother : first.counts chain request = false) :
    AgreesOn chain (first.after request) second := by
  rcases first.after_cases request with hsame | hraised
  · rwa [hsame]
  · refine .trans ?_ hagrees
    have hne : chain ≠ first.chainFor request.data.chainId := (ne_of_beq_false hother).symm
    rw [hraised, BakingState.raised]
    refine ⟨?_, ?_, (first.mark_setMark_of_ne hne _).symm⟩
    · cases first.chainFor request.data.chainId <;> rfl
    · cases first.chainFor request.data.chainId <;> rfl

/-- Without the messages of the other chain, the same is said of those of this one. -/
theorem rulings (hagrees : AgreesOn chain first second) (requests : List ConsensusRequest) :
    (first.rulings requests).filter (fun ruling => first.counts chain ruling.request) =
        second.rulings (requests.filter (first.counts chain)) ∧
      AgreesOn chain (requests.foldl BakingState.after first)
        ((requests.filter (first.counts chain)).foldl BakingState.after second) := by
  induction requests generalizing first second with
  | nil => exact ⟨rfl, hagrees⟩
  | cons request requests ih =>
      rw [BakingState.rulings, List.foldl_cons]
      cases hcounts : first.counts chain request with
      | true =>
          obtain ⟨hrulings, hlast⟩ := ih (hagrees.after hcounts)
          rw [counts_after] at hrulings hlast
          simp only [List.filter_cons, hcounts, if_true]
          rw [hrulings, BakingState.rulings, hagrees.rule_eq hcounts, List.foldl_cons]
          exact ⟨rfl, hlast⟩
      | false =>
          obtain ⟨hrulings, hlast⟩ := ih (hagrees.after_other hcounts)
          rw [counts_after] at hrulings hlast
          simp only [List.filter_cons, hcounts, if_false, Bool.false_eq_true]
          exact ⟨hrulings, hlast⟩

end AgreesOn

/-- Records of the current layout in which both chains find the same are equal. -/
theorem eq_of_agreesOn (hagrees : ∀ chain, AgreesOn chain first second)
    (hfirst : first.isCurrent = true) (hsecond : second.isCurrent = true) : second = first := by
  have hversion : second.version = first.version :=
    (eq_of_beq hsecond).trans (eq_of_beq hfirst).symm
  obtain ⟨hmain, hkey, hmark⟩ := hagrees .main
  have htest := (hagrees .test).mark
  obtain ⟨version, mainChainId, main, test, key⟩ := first
  cases hversion
  cases hmain
  cases hkey
  cases hmark
  cases htest
  rfl

end BakingState

/-! ## The guard on a store -/

/-- A store that takes any record unless it is broken, and is not broken by that. -/
class SoundStore (σ : Type) [BreakableStore σ] : Prop where
  save_mended {store : σ} (state : BakingState) : BreakableStore.setBroken false store = store →
    ∃ after, Store.save state store = .ok after ∧ BreakableStore.setBroken false after = after

instance : SoundStore MemoryStore where
  save_mended {store} state hmended := by
    rw [← hmended]
    exact ⟨_, rfl, rfl⟩

instance : SoundStore FlashStore where
  save_mended {store} state hmended := by
    rw [← hmended]
    exact ⟨_, rfl, rfl⟩

namespace Command

variable {σ : Type}

/-- Has the guard decide one request after the other, whatever it says of each. -/
def authorizeAll [Store σ] : List ConsensusRequest → Workspace σ → List Ruling × Workspace σ
  | [], before => ([], before)
  | request :: requests, before =>
      let (result, middle) := (authorizeAndCommit request.key request.data).outcome before
      let (rulings, after) := authorizeAll requests middle
      (⟨request, result⟩ :: rulings, after)

theorem commitVerdict_eq_bind [Store σ] {store : σ} {state : BakingState}
    (hstate : (Store.load store).checked = state) (request : ConsensusRequest) :
    commitVerdict request.key request.data store =
      (state.rule request).bind fun _ => Store.save (state.raised request.data) store := by
  rw [commitVerdict, hstate]
  unfold BakingState.rule
  dsimp only
  split_ifs <;> rfl

variable [BreakableStore σ] [FaithfulStore σ] [SoundStore σ] {before : Workspace σ}

/-- A store that works does to its record what the guard does to a record. -/
theorem authorizeAndCommit_rules (request : ConsensusRequest)
    (hmended : BreakableStore.setBroken false before.store = before.store)
    (hcurrent : (Store.load before.store).isCurrent = true) :
    Ends (authorizeAndCommit request.key request.data) before fun result after =>
      result = (Store.load before.store).rule request ∧
      Store.load after.store = (Store.load before.store).after request ∧
      BreakableStore.setBroken false after.store = after.store := by
  have hstate := (Store.load before.store).checked_of_isCurrent hcurrent
  generalize hload : Store.load before.store = state at hstate hcurrent ⊢
  rw [← hload] at hstate
  refine authorizeAndCommit_settles.imp fun result after hsettles => ?_
  rw [commitVerdict_eq_bind hstate, hload] at hsettles
  unfold BakingState.after
  cases hrule : state.rule request with
  | error status =>
      rw [hrule] at hsettles
      obtain ⟨rfl, hkept⟩ := hsettles
      rw [hkept]
      exact ⟨rfl, hload, hmended⟩
  | ok =>
      obtain ⟨store, hsave, hmended⟩ := SoundStore.save_mended (state.raised request.data) hmended
      rw [hrule, Except.bind, hsave] at hsettles
      obtain ⟨rfl, rfl⟩ := hsettles
      refine ⟨rfl, FaithfulStore.load_save ?_ hsave, hmended⟩
      exact BakingState.storable_raised hcurrent (BakingState.authorizes_of_rule hrule)

/-- As long as the store works, what is said of a sequence of requests is told by the record. -/
theorem authorizeAll_rules (requests : List ConsensusRequest)
    (hmended : BreakableStore.setBroken false before.store = before.store)
    (hcurrent : (Store.load before.store).isCurrent = true) :
    (authorizeAll requests before).1 = (Store.load before.store).rulings requests ∧
      Store.load (authorizeAll requests before).2.store =
        requests.foldl BakingState.after (Store.load before.store) := by
  induction requests generalizing before with
  | nil => exact ⟨rfl, rfl⟩
  | cons request requests ih =>
      obtain ⟨hresult, hload, hmended⟩ :=
        (authorizeAndCommit_rules request hmended hcurrent).outcome
      rw [← BakingState.isCurrent_after, ← hload] at hcurrent
      obtain ⟨hrulings, hlast⟩ := ih hmended hcurrent
      rw [BakingState.rulings, List.foldl_cons, ← hload, ← hresult, ← hrulings]
      exact ⟨rfl, hlast⟩

end Command

/-- Main and test chain do not interfere. In a store that works, and with a record of the current
layout, what the guard says of the messages of a chain and the mark that they leave are the same
as without the messages of the other chain. So the messages of both chains may be interleaved in
any way that keeps the order on each chain: the same is said of each, and the record ends the
same. A record without a main chain counts all messages on one chain. -/
theorem chains_independent {σ : Type} [BreakableStore σ] [FaithfulStore σ] [SoundStore σ]
    (before : Workspace σ) (hmended : BreakableStore.setBroken false before.store = before.store)
    (hcurrent : (Store.load before.store).isCurrent = true) (requests : List ConsensusRequest) :
    let state := Store.load before.store
    let on (chain : Chain) (requests : List ConsensusRequest) : List ConsensusRequest :=
      requests.filter (state.counts chain)
    let said (chain : Chain) (requests : List ConsensusRequest) : List Ruling :=
      (authorizeAll requests before).1.filter fun ruling => state.counts chain ruling.request
    let record (requests : List ConsensusRequest) : BakingState :=
      Store.load (authorizeAll requests before).2.store
    (∀ chain, said chain requests = (authorizeAll (on chain requests) before).1 ∧
      (record requests).mark chain = (record (on chain requests)).mark chain) ∧
    ∀ others, (∀ chain, on chain others = on chain requests) →
      (∀ chain, said chain others = said chain requests) ∧ record others = record requests := by
  intro state on said record
  have hrun (requests : List ConsensusRequest) :
      (authorizeAll requests before).1 = state.rulings requests ∧
        record requests = requests.foldl BakingState.after state :=
    authorizeAll_rules requests hmended hcurrent
  have halone (requests : List ConsensusRequest) (chain : Chain) :
      said chain requests = (authorizeAll (on chain requests) before).1 ∧
        BakingState.AgreesOn chain (record requests) (record (on chain requests)) := by
    obtain ⟨hrulings, hagrees⟩ := (BakingState.AgreesOn.refl chain state).rulings requests
    rw [(hrun requests).2, (hrun (on chain requests)).1, (hrun (on chain requests)).2]
    refine ⟨?_, hagrees⟩
    rw [← hrulings, ← (hrun requests).1]
  refine ⟨fun chain => ⟨(halone requests chain).1, (halone requests chain).2.mark.symm⟩,
    fun others hothers => ⟨fun chain => ?_, ?_⟩⟩
  · rw [(halone others chain).1, hothers, (halone requests chain).1]
  · have hcurrentLast (requests : List ConsensusRequest) : (record requests).isCurrent = true := by
      rw [(hrun requests).2]
      exact BakingState.isCurrent_foldl_after hcurrent
    refine BakingState.eq_of_agreesOn (fun chain => ?_) (hcurrentLast _) (hcurrentLast _)
    have hagrees := (halone others chain).2
    rw [hothers] at hagrees
    exact (halone requests chain).2.trans hagrees.symm

/-- A block and its endorsement on the main chain, and on the test chain a block that is asked for
twice, in two orders. The second request for the test block is refused in both. -/
theorem chains_independent_interleaved :
    let key : KeyId := ⟨.ed25519, .standard⟩
    let state : BakingState := { BakingState.fresh with key := some key, mainChainId := 7 }
    let before : Workspace MemoryStore := .ofStore (.ofState state)
    let request (chainId level : UInt32) (isEndorsement : Bool) : ConsensusRequest :=
      ⟨key, ⟨chainId, level, isEndorsement⟩⟩
    let requests := [request 7 5 false, request 9 3 false, request 7 5 true, request 9 3 false]
    let others := [request 9 3 false, request 9 3 false, request 7 5 false, request 7 5 true]
    BreakableStore.setBroken false before.store = before.store ∧
    (Store.load before.store).isCurrent = true ∧
    (authorizeAll requests before).1.map (·.result) =
      [.ok (), .ok (), .ok (), .error .wrongValues] ∧
    ((authorizeAll others before).1.filter fun ruling => state.counts .test ruling.request) =
      [⟨request 9 3 false, .ok ()⟩, ⟨request 9 3 false, .error .wrongValues⟩] ∧
    Store.load (authorizeAll others before).2.store =
      { state with main := ⟨5, true⟩, test := ⟨3, false⟩ } := by
  intro key state before request requests others
  obtain ⟨_, hinterleaved⟩ := chains_independent before rfl rfl requests
  obtain ⟨hsaid, hrecord⟩ := hinterleaved others fun chain => by cases chain <;> rfl
  -- In the first order the record tells what is said.
  have hrun : (authorizeAll requests before).1 = _ ∧ _ := authorizeAll_rules requests rfl rfl
  simp only [hrun.1, hrun.2] at hsaid hrecord
  refine ⟨rfl, rfl, ?_, ?_, ?_⟩
  · rw [hrun.1]
    decide +kernel
  · have hload : Store.load before.store = state := rfl
    rw [← hload, hsaid]
    decide +kernel
  · rw [hrecord]
    decide +kernel

end TezosSigner
