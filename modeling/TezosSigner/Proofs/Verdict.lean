import TezosSigner.Proofs.Delegation
import TezosSigner.Proofs.Report

/-!
# The verdict on a consensus message

Whether a message passes the guard is told by the record alone: first the key has to be
the baking key, then the level has to come behind the mark. The mark of a message that
passes is stored in one write, or the guard fails as the store does, and otherwise nothing
is written. From then on the record refuses the message, whether or not it was signed.
-/

namespace TezosSigner

open Command

theorem Watermark.not_precedes_self (mark : Watermark) : ¬ mark.Precedes mark := by
  rintro (hlower | ⟨_, hclear, hset⟩)
  · exact UInt32.lt_irrefl _ hlower
  · cases hclear.symm.trans hset

namespace BakingState

variable {state : BakingState} {key : KeyId} {data : ConsensusData}

@[simp] theorem authorizes_raised : (state.raised data).authorizes key = state.authorizes key := by
  unfold raised
  cases state.chainFor data.chainId <;> rfl

@[simp] theorem chainFor_raised (chainId : UInt32) :
    (state.raised data).chainFor chainId = state.chainFor chainId := by
  unfold raised
  cases state.chainFor data.chainId <;> rfl

/-- A record whose mark was raised to a message does not let the message pass again. -/
theorem raised_refuses :
    (state.raised data).allows ((state.raised data).chainFor data.chainId) data.level
      data.isEndorsement = false := by
  rw [chainFor_raised, Bool.eq_false_iff, ne_eq, allows_iff, raised, mark_setMark]
  exact fun hallowed => data.mark.not_precedes_self hallowed.2

/-- A record that names a key with a path is one that flash gives back, whatever its marks. -/
theorem storable_raised (hcurrent : state.isCurrent = true)
    (hauthorized : state.authorizes key = true) : (state.raised data).Storable := by
  obtain ⟨hpath, hkey⟩ := (state.authorizes_iff key).mp hauthorized
  refine Storable.setMark ⟨hcurrent, fun installed hinstalled => ?_⟩ _ _
  cases hkey.symm.trans hinstalled
  exact hpath

end BakingState

/-! ## The guard as it acts -/

section Store

variable {σ : Type} [Store σ] {key : KeyId} {data : ConsensusData} {before : Workspace σ}

/-- What the guard makes of a store: one with the new record, or the reason why there is none. -/
def commitVerdict (key : KeyId) (data : ConsensusData) (store : σ) : Except Status σ :=
  let state := (Store.load store).checked
  if state.authorizes key then
    if state.allows (state.chainFor data.chainId) data.level data.isEndorsement then
      Store.save (state.raised data) store
    else .error .wrongValues
  else .error .security

theorem commitVerdict_eq_ok_iff {state : BakingState} {store after : σ}
    (hstate : (Store.load store).checked = state) :
    commitVerdict key data store = .ok after ↔
      (state.authorizes key = true ∧
        state.allows (state.chainFor data.chainId) data.level data.isEndorsement = true) ∧
      Store.save (state.raised data) store = .ok after := by
  rw [commitVerdict, hstate]
  split
  next hauthorized =>
    split
    next hallowed => exact (and_iff_right ⟨hauthorized, hallowed⟩).symm
    next hrefused => exact iff_of_false nofun fun hall => hrefused hall.1.2
  next hforeign => exact iff_of_false nofun fun hall => hforeign hall.1.1

/-- The key is looked at before the level, and the level before the store. -/
theorem commitVerdict_error {state : BakingState} {store : σ} {status : Status}
    (hstate : (Store.load store).checked = state)
    (hrefused : commitVerdict key data store = .error status) :
    let allowed := state.allows (state.chainFor data.chainId) data.level data.isEndorsement = true
    (¬ state.authorizes key = true → status = .security) ∧
      (state.authorizes key = true → ¬ allowed → status = .wrongValues) ∧
      (state.authorizes key = true → allowed →
        Store.save (state.raised data) store = .error status) := by
  rw [commitVerdict, hstate] at hrefused
  split at hrefused
  next hauthorized =>
    split at hrefused
    next hallowed =>
      exact ⟨absurd hauthorized, fun _ => absurd hallowed, fun _ _ => hrefused⟩
    next hlevel =>
      cases hrefused
      exact ⟨absurd hauthorized, fun _ _ => rfl, fun _ hallowed => absurd hallowed hlevel⟩
  next hforeign =>
    cases hrefused
    exact ⟨fun _ => rfl, fun hauthorized => absurd hauthorized hforeign,
      fun hauthorized => absurd hauthorized hforeign⟩

/-- Once a mark is on record its message is refused. -/
theorem commitVerdict_repeated {state : BakingState} {store : σ}
    (hauthorized : state.authorizes key = true)
    (hstored : (Store.load store).checked = state.raised data) :
    commitVerdict key data store = .error .wrongValues := by
  rw [commitVerdict, hstored]
  rw [BakingState.authorizes_raised, if_pos hauthorized, BakingState.raised_refuses]
  exact if_neg Bool.false_ne_true

omit [Store σ] in
/-- A command has put a store in the place of the old one, or it has failed and left it alone. -/
def Command.Settles (verdict : Except Status σ) (before : Workspace σ) (result : Except Status Unit)
    (after : Workspace σ) : Prop :=
  match verdict with
  | .ok store => result = .ok () ∧ after.store = store
  | .error status => result = .error status ∧ after.store = before.store

namespace Command

theorem authorizeAndCommit_settles :
    Ends (authorizeAndCommit key data) before
      (Settles (commitVerdict key data before.store) before) := by
  generalize hstate : (Store.load before.store).checked = state
  unfold authorizeAndCommit commitVerdict
  simp only [ends_bind, ends_loadState, hstate, ends_ite, ends_log, ends_throw, ends_ofExcept]
  refine ⟨fun hauthorized => ⟨fun hallowed => ?_, fun hrefused => ?_⟩, fun hforeign => ?_⟩
  · rw [if_pos hauthorized, if_pos hallowed, state.recordSigned_of_allows hallowed]
    simp only [ends_saveState]
    cases Store.save (state.raised data) before.store <;> exact ⟨rfl, rfl⟩
  · rw [if_pos hauthorized, if_neg hrefused]
    exact ⟨rfl, rfl⟩
  · rw [if_neg hforeign]
    exact ⟨rfl, rfl⟩

/-- A baker's consensus message is signed behind the guard. -/
theorem completeBaking_of_consensus {keys : KeyProvider} {kind : SigningKind} {session : Session}
    {message : Bytes} (hmessage : session.buffer.message? = some message)
    (hdata : (MessageClass.ofBytes message).consensus? = some data) :
    completeBaking keys key kind session = (do
      authorizeAndCommit key data
      return .reply (← execute keys
        ⟨key, .digest session.buffer.digest, session.replyForm kind⟩) : Command σ Reaction) := by
  rw [completeBaking, hmessage]
  dsimp only
  rw [hdata]

/-- A consensus message that passes is committed, whatever the keys make of it. -/
theorem completeBaking_committed {keys : KeyProvider} {kind : SigningKind} {session : Session}
    {message : Bytes} {store : σ} (hmessage : session.buffer.message? = some message)
    (hdata : (MessageClass.ofBytes message).consensus? = some data)
    (hcommits : commitVerdict key data before.store = .ok store) :
    Ends (completeBaking keys key kind session) before fun result after =>
      after.store = store ∧ ∀ status, keys.sign key session.buffer.digest.val = .error status →
        session.hashOnly = false → result = .error status := by
  rw [completeBaking_of_consensus hmessage hdata, ends_bind]
  refine authorizeAndCommit_settles.imp fun result middle hsettles => ?_
  rw [hcommits] at hsettles
  obtain ⟨rfl, hmiddle⟩ := hsettles
  simp only [ends_bind, execute_ends, SigningPayload.bytes]
  refine ⟨fun hsilent => ⟨hmiddle, fun _ _ hform => ?_⟩, fun _ => ?_⟩
  · cases hsilent.symm.trans (SigningPlan.asks_replyForm hform key _ kind)
  · cases hsign : keys.sign key session.buffer.digest.val with
    | ok signature =>
        refine ⟨hmiddle, fun _ hfails => ?_⟩
        cases hfails
    | error status =>
        refine ⟨hmiddle, fun _ hfails _ => ?_⟩
        cases hfails
        rfl

/-- A consensus message that does not pass is not signed. -/
theorem completeBaking_refused {keys : KeyProvider} {kind : SigningKind} {session : Session}
    {message : Bytes} {status : Status} (hmessage : session.buffer.message? = some message)
    (hdata : (MessageClass.ofBytes message).consensus? = some data)
    (hrefused : commitVerdict key data before.store = .error status) :
    Ends (completeBaking keys key kind session) before fun result after =>
      result = .error status ∧ after.store = before.store := by
  rw [completeBaking_of_consensus hmessage hdata, ends_bind]
  refine authorizeAndCommit_settles.imp fun result after hsettles => ?_
  rw [hrefused] at hsettles
  obtain ⟨rfl, hkept⟩ := hsettles
  exact ⟨rfl, hkept⟩

end Command

end Store

/-- The guard on consensus messages decides exactly the rule against signing twice, and it acts at
once or not at all. With the stored record, or a fresh one in place of a record of another layout,
it lets a message through just if the record names the key, which has a path, the level is valid
and above the mark of the message's chain, or equal to it for an endorsement of a level without
one, and the store takes the record. Then the record differs in that mark alone, which is the
level and the kind of the message, and it was written once. Otherwise the store is left alone,
and the status is about the key before the level, and about the level before the store. A message
that was let through is refused from then on, also if the keys have failed to sign it. -/
theorem authorizeAndCommit_decides {σ : Type} [CountedStore σ] [LawfulCount σ] [FaithfulStore σ]
    (key : KeyId) (data : ConsensusData) (before : Workspace σ) :
    let state := (Store.load before.store).checked
    let chain := state.chainFor data.chainId
    let mark := state.mark chain
    let record := state.setMark chain ⟨data.level, data.isEndorsement⟩
    let named := key.path.isEmpty = false ∧ state.key = some key
    let safe := isValidLevel data.level = true ∧ (mark.level < data.level ∨
      mark.level = data.level ∧ mark.hadEndorsement = false ∧ data.isEndorsement = true)
    Ends (authorizeAndCommit key data) before (fun result after =>
      (result = .ok () ↔ named ∧ safe ∧ ∃ store, Store.save record before.store = .ok store) ∧
      (result = .ok () →
        Store.load after.store = record ∧
        CountedStore.writes after.store = CountedStore.writes before.store + 1 ∧
        ∀ retry : Workspace σ, retry.store = after.store →
          Ends (authorizeAndCommit key data) retry fun again last =>
            again = .error .wrongValues ∧ last.store = retry.store) ∧
      ∀ status, result = .error status →
        after.store = before.store ∧
        (¬ named → status = .security) ∧
        (named → ¬ safe → status = .wrongValues) ∧
        (named → safe → Store.save record before.store = .error status)) ∧
    ∀ keys kind session message store, session.buffer.message? = some message →
      (MessageClass.ofBytes message).consensus? = some data → named → safe →
      Store.save record before.store = .ok store →
      Ends (completeBaking keys key kind session) before fun result after =>
        after.store = store ∧
        (∀ status, keys.sign key session.buffer.digest.val = .error status →
          session.hashOnly = false → result = .error status) ∧
        ∀ (others : KeyProvider) (retry : Workspace σ), retry.store = after.store →
          Ends (completeBaking others key kind session) retry fun again last =>
            again = .error .wrongValues ∧ last.store = retry.store := by
  intro state chain mark record named safe
  have hcurrent : state.isCurrent = true := BakingState.isCurrent_checked _
  have hnames : state.authorizes key = true ↔ named := state.authorizes_iff key
  have hallows : state.allows chain data.level data.isEndorsement = true ↔ safe :=
    state.allows_iff chain data
  have hcommits {store : σ} : commitVerdict key data before.store = .ok store ↔
      (named ∧ safe) ∧ Store.save record before.store = .ok store := by
    rw [← hnames, ← hallows]
    exact commitVerdict_eq_ok_iff rfl
  have hload {store : σ} (hcommit : commitVerdict key data before.store = .ok store) :
      Store.load store = record := by
    obtain ⟨⟨hnamed, _⟩, hsave⟩ := hcommits.mp hcommit
    exact FaithfulStore.load_save (BakingState.storable_raised hcurrent (hnames.mpr hnamed)) hsave
  have hrepeated {store : σ} (hcommit : commitVerdict key data before.store = .ok store) :
      commitVerdict key data store = .error .wrongValues := by
    apply commitVerdict_repeated (hnames.mpr (hcommits.mp hcommit).1.1)
    rw [hload hcommit]
    exact record.checked_of_isCurrent ((state.isCurrent_raised data).trans hcurrent)
  refine ⟨authorizeAndCommit_settles.imp fun result after hsettles => ?_, ?_⟩
  · cases hverdict : commitVerdict key data before.store with
    | ok store =>
        obtain ⟨⟨hnamed, hsafe⟩, hsave⟩ := hcommits.mp hverdict
        rw [hverdict] at hsettles
        obtain ⟨rfl, rfl⟩ := hsettles
        refine ⟨iff_of_true rfl ⟨hnamed, hsafe, _, hsave⟩, fun _ => ?_, nofun⟩
        refine ⟨hload hverdict, LawfulCount.writes_save hsave, fun retry hretry => ?_⟩
        have hends : Ends (authorizeAndCommit key data) retry _ := authorizeAndCommit_settles
        rwa [hretry, hrepeated hverdict] at hends
    | error status =>
        rw [hverdict] at hsettles
        obtain ⟨rfl, hkept⟩ := hsettles
        refine ⟨iff_of_false nofun fun ⟨hnamed, hsafe, store, hsave⟩ => ?_, nofun, ?_⟩
        · cases hverdict.symm.trans (hcommits.mpr ⟨⟨hnamed, hsafe⟩, hsave⟩)
        · intro status' hfails
          cases hfails
          rw [← hnames, ← hallows]
          exact ⟨hkept, commitVerdict_error rfl hverdict⟩
  · intro keys kind session message store hmessage hdata hnamed hsafe hsave
    have hcommit := hcommits.mpr ⟨⟨hnamed, hsafe⟩, hsave⟩
    refine (completeBaking_committed hmessage hdata hcommit).imp fun result after hends => ?_
    obtain ⟨rfl, hfails⟩ := hends
    refine ⟨rfl, hfails, fun others retry hretry => ?_⟩
    apply completeBaking_refused hmessage hdata
    rw [hretry]
    exact hrepeated hcommit

/-- An endorsement of the level that a block was signed for. It passes once, and is stored in flash
even though the keys then fail to sign it; a broken flash refuses it, and another key finds the
mark as it was. -/
theorem authorizeAndCommit_decides_endorsement :
    let key : KeyId := ⟨.ed25519, .standard⟩
    let state : BakingState := { BakingState.fresh with key := some key, main := ⟨7, false⟩ }
    let before (broken : Bool) : Workspace FlashStore := ⟨.blank, ⟨.ofState state, 0, broken⟩, []⟩
    let endorsement : ConsensusData := ⟨0, 7, true⟩
    let session : Session := ⟨some key, .whole (endorsementBytes 0 7), false⟩
    let keys : KeyProvider := ⟨fun _ => .error .security, fun _ _ => .error .security⟩
    Ends (authorizeAndCommit key endorsement) (before false) (fun result after =>
      result = .ok () ∧ Store.load after.store = { state with main := ⟨7, true⟩ } ∧
        after.store.writes = 1) ∧
    Ends (authorizeAndCommit key endorsement) (before true) (fun result after =>
      result = .error .memoryError ∧ after.store = (before true).store) ∧
    Ends (authorizeAndCommit ⟨.secp256k1, .standard⟩ endorsement) (before false)
      (fun result after => result = .error .security ∧ after.store = (before false).store) ∧
    Ends (completeBaking keys key .standard session) (before false) fun result after =>
      result = .error .security ∧ ∀ retry : Workspace FlashStore, retry.store = after.store →
        Ends (completeBaking keys key .standard session) retry fun again last =>
          again = .error .wrongValues ∧ last.store = retry.store := by
  intro key state before endorsement session keys
  have hstate (broken : Bool) : (Store.load (before broken).store).checked = state := by
    cases broken <;> decide +kernel
  have hworks (record : BakingState) :
      Store.save record (before false).store = .ok ⟨.ofState record, 1, false⟩ := rfl
  have hbroken (record : BakingState) :
      Store.save record (before true).store = .error .memoryError := rfl
  have hwrites : CountedStore.writes (before false).store = 0 := rfl
  have hmessage : session.buffer.message? = some (endorsementBytes 0 7) :=
    (MessageBuffer.collects_whole (by decide)).message?_eq
  -- What is known of the two stores is all that is needed of them.
  clear_value before
  obtain ⟨hfirst, hsigning⟩ := authorizeAndCommit_decides key endorsement (before false)
  obtain ⟨hsecond, _⟩ := authorizeAndCommit_decides key endorsement (before true)
  obtain ⟨hforeign, _⟩ :=
    authorizeAndCommit_decides ⟨.secp256k1, .standard⟩ endorsement (before false)
  simp only [hstate] at hfirst hsecond hforeign hsigning
  have hnamed : key.path.isEmpty = false ∧ state.key = some key := ⟨rfl, rfl⟩
  refine ⟨hfirst.imp fun result after hends => ?_, hsecond.imp fun result after hends => ?_,
    hforeign.imp fun result after hends => ?_, ?_⟩
  · have hpasses := hends.1.mpr ⟨hnamed, by decide, _, hworks _⟩
    obtain ⟨hload, hcounted, _⟩ := hends.2.1 hpasses
    rw [hwrites] at hcounted
    exact ⟨hpasses, hload, hcounted⟩
  · cases result with
    | ok =>
        obtain ⟨_, hsaved⟩ := (hends.1.mp rfl).2.2
        cases (hbroken _).symm.trans hsaved
    | error status =>
        obtain ⟨hkept, _, _, hstore⟩ := hends.2.2 status rfl
        cases (hbroken _).symm.trans (hstore hnamed (by decide))
        exact ⟨rfl, hkept⟩
  · cases result with
    | ok => exact absurd (hends.1.mp rfl).1.2 (by decide)
    | error status =>
        obtain ⟨hkept, hkey, _⟩ := hends.2.2 status rfl
        cases hkey (by decide)
        exact ⟨rfl, hkept⟩
  · refine (hsigning keys .standard session _ _ hmessage (by decide) hnamed (by decide)
      (hworks _)).imp fun result after hends => ?_
    obtain ⟨_, hfails, hrefused⟩ := hends
    exact ⟨hfails _ rfl rfl, hrefused keys⟩

end TezosSigner
