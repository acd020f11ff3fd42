import TezosSigner.Proofs.Amendment
import TezosSigner.Proofs.Epoch

/-!
# Where invalid marks come from

The level of a consensus message is checked before its mark is stored, and that of a
reset before it is proposed; a setup installs its levels as they are. So a mark of the
stored record is invalid just as long as the latest renewal of the marks is a setup that
brought an invalid level, and until then nothing is signed on its chain.
-/

namespace TezosSigner

/-- The level that a setup starts a chain from. -/
def Setup.level (setup : Setup) : Chain → UInt32
  | .main => setup.mainLevel
  | .test => setup.testLevel

/-- The setup or the reset that a step has stored. -/
def Transition.renewal? {σ : Type} (step : Transition σ) : Option Amendment :=
  if step.renews then step.amendment? else none

/-- The setups and resets that a run has stored, oldest first. -/
def renewals {σ : Type} (run : List (Transition σ)) : List Amendment :=
  run.filterMap Transition.renewal?

theorem renewals_concat {σ : Type} (run : List (Transition σ)) (step : Transition σ) :
    renewals (run ++ [step]) = renewals run ++ step.renewal?.toList := by
  rw [renewals, List.filterMap_append]
  apply congrArg
  rw [List.filterMap_cons]
  cases step.renewal? <;> rfl

/-- The valid levels are those below two to the thirtieth. -/
theorem isValidLevel_iff (level : UInt32) : isValidLevel level = true ↔ level.toNat < 2 ^ 30 := by
  have hword := level.toNat_lt
  have hdiv : (level.toNat &&& 0xC0000000) / 2 ^ 30 = level.toNat / 2 ^ 30 := by
    rw [Nat.and_div_two_pow, show 0xC0000000 / 2 ^ 30 = 2 ^ 2 - 1 from rfl,
      Nat.and_two_pow_sub_one_eq_mod]
    omega
  have hmod : (level.toNat &&& 0xC0000000) % 2 ^ 30 = 0 := by
    rw [Nat.and_mod_two_pow, show 0xC0000000 % 2 ^ 30 = 0 from rfl, Nat.and_zero]
  rw [isValidLevel, beq_iff_eq, ← UInt32.toNat_inj, UInt32.toNat_and]
  change level.toNat &&& 0xC0000000 = 0 ↔ _
  omega

theorem isValidLevel_of_le {lower level : UInt32} (hle : lower ≤ level)
    (hvalid : isValidLevel level = true) : isValidLevel lower = true := by
  rw [isValidLevel_iff] at hvalid ⊢
  exact Nat.lt_of_le_of_lt hle hvalid

namespace BakingState

variable {state : BakingState} {chain : Chain}

/-- Every level that is valid lies below an invalid mark, so the guard allows none of them. -/
theorem allows_eq_false (hmark : isValidLevel (state.mark chain).level = false) (level : UInt32)
    (isEndorsement : Bool) : state.allows chain level isEndorsement = false := by
  rw [Bool.eq_false_iff]
  intro hallows
  obtain ⟨hvalid, hprecedes⟩ := (state.allows_iff chain ⟨0, level, isEndorsement⟩).mp hallows
  rw [isValidLevel_of_le hprecedes.level_le hvalid] at hmark
  cases hmark

end BakingState

namespace Amendment

/-- Whether an amendment sets both marks anew. -/
def renews : Amendment → Bool
  | .reset _ | .setup _ => true
  | .consensus _ | .authorization _ | .removal => false

end Amendment

namespace Transition

variable {σ : Type} {step : Transition σ}

theorem stores_eq (step : Transition σ) : step.stores = !(saved step.journal).isEmpty := by
  unfold stores
  induction step.journal with
  | nil => rfl
  | cons event journal ih =>
      cases event with
      | log event => exact ih
      | signing key message => exact ih
      | stored state => rfl

theorem renewal?_of_untouched [Store σ] (huntouched : step.Untouched) : step.renewal? = none := by
  have hstores : step.stores = false := by
    rw [stores_eq, huntouched.2]
    rfl
  apply if_neg
  rw [Bool.not_eq_true, renews]
  split
  next => exact hstores
  next => exact hstores
  next => rfl

theorem renewal?_of_stored [Store σ] {amendment : Amendment} {state : BakingState}
    (hstored : step.Stored amendment state) :
    step.renewal? = if amendment.renews then some amendment else none := by
  have hstores : step.stores = true := by
    rw [stores_eq, hstored.saved]
    rfl
  rw [renewal?, hstored.asked, renews, hstores]
  rcases source_of_amendment? hstored.asked with ⟨raw, hframe, hmade⟩ |
    ⟨hanswer, action, hpending, hmade⟩
  · rw [hframe]
    rcases Frame.amendment?_eq_some hmade with rfl | ⟨data, rfl⟩ <;> rfl
  · rw [hanswer, hpending]
    cases action <;> cases hmade <;> rfl

end Transition

/-- The latest renewal is a setup that brought an invalid level to a chain. -/
def Spoils (chain : Chain) (renewed : List Amendment) : Prop :=
  ∃ install, renewed.getLast? = some (.setup install) ∧ isValidLevel (install.level chain) = false

/-- The marks of a record are as valid as the renewals so far have made them. -/
structure Explains (renewed : List Amendment) (state : BakingState) : Prop where
  invalid : ∀ chain, isValidLevel (state.mark chain).level = false ↔ Spoils chain renewed
  current : renewed ≠ [] → state.isCurrent = true

namespace Explains

variable {state : BakingState} {renewed : List Amendment}

theorem of_valid (hvalid : ∀ chain, isValidLevel (state.mark chain).level = true) :
    Explains [] state := by
  refine ⟨fun chain => ⟨fun hmark => ?_, fun ⟨_, hlast, _⟩ => ?_⟩, fun hsome => absurd rfl hsome⟩
  · cases (hvalid chain).symm.trans hmark
  · cases hlast

/-- A record of another layout was never renewed, and a fresh one has valid marks. -/
theorem checked (hexplains : Explains renewed state) : Explains renewed state.checked := by
  unfold BakingState.checked
  split
  next => exact hexplains
  next hother =>
    have hnone : renewed = [] := by
      by_contra hsome
      exact hother (hexplains.current hsome)
    rw [hnone]
    apply of_valid
    intro chain
    cases chain <;> rfl

/-- What keeps the marks keeps them explained. -/
theorem of_mark_eq (hexplains : Explains renewed state) {after : BakingState}
    (hmark : ∀ chain, after.mark chain = state.mark chain) (hcurrent : after.isCurrent = true) :
    Explains renewed after :=
  ⟨fun chain => by rw [hmark, hexplains.invalid], fun _ => hcurrent⟩

/-- A mark that the guard lets through was valid before and is valid behind it. -/
theorem raised (hexplains : Explains renewed state) {data : ConsensusData}
    (hallowed : (Amendment.consensus data).Allowed state)
    (hcurrent : (state.raised data).isCurrent = true) : Explains renewed (state.raised data) := by
  obtain ⟨hvalid, hprecedes⟩ := (state.allows_iff _ data).mp hallowed
  refine ⟨fun chain => ?_, fun _ => hcurrent⟩
  rw [← hexplains.invalid, BakingState.raised]
  by_cases hchain : chain = state.chainFor data.chainId
  · rw [hchain, BakingState.mark_setMark, isValidLevel_of_le hprecedes.level_le hvalid,
      show isValidLevel data.mark.level = true from hvalid]
  · rw [BakingState.mark_setMark_of_ne state hchain]

theorem reset {level : UInt32} (hvalid : isValidLevel level = true)
    (hcurrent : (state.resetLevels level).isCurrent = true) :
    Explains (renewed ++ [.reset level]) (state.resetLevels level) := by
  refine ⟨fun chain => iff_of_false ?_ ?_, fun _ => hcurrent⟩
  · have hmark : (state.resetLevels level).mark chain = .atLevel level := by cases chain <;> rfl
    rw [hmark, Watermark.atLevel, hvalid]
    nofun
  · rintro ⟨install, hlast, _⟩
    rw [List.getLast?_concat] at hlast
    cases hlast

theorem setup {install : Setup} (hcurrent : (state.install install).isCurrent = true) :
    Explains (renewed ++ [.setup install]) (state.install install) := by
  refine ⟨fun chain => ?_, fun _ => hcurrent⟩
  have hmark : (state.install install).mark chain = .atLevel (install.level chain) := by
    cases chain <;> rfl
  rw [hmark, Spoils, List.getLast?_concat]
  constructor
  · intro hinvalid
    exact ⟨install, rfl, hinvalid⟩
  · rintro ⟨_, hlast, hinvalid⟩
    cases hlast
    exact hinvalid

end Explains

namespace Scene

variable {σ : Type} [BreakableStore σ] {config : Config} {store : σ}

/-- The level of a reset was checked before it was proposed. -/
theorem isValidLevel_of_reset {earlier : List Turn} {turn : Turn} {level : UInt32}
    (hasked : (((start config store).follow earlier).play turn).amendment? = some (.reset level)) :
    isValidLevel level = true := by
  obtain hremoval | ⟨_, hconsensus⟩ | ⟨_, _, _, action, _, hasks, hmade⟩ :=
    asked_of_amendment hasked
  · cases hremoval
  · cases hconsensus
  · cases action <;> cases hmade
    cases hasks.proposal with
    | reset _ hvalid => exact hvalid

variable [LawfulStore σ]

/-- A step explains the marks that it leaves. -/
theorem explains_play {earlier : List Turn} {renewed : List Amendment}
    (hexplains : Explains renewed (Store.load ((start config store).follow earlier).signer.store))
    (turn : Turn) :
    let step := ((start config store).follow earlier).play turn
    Explains (renewed ++ step.renewal?.toList) (Store.load step.after.store) := by
  intro step
  have hrecord : Explains renewed step.record := by
    rw [show step.record = _ from record_play _ turn]
    exact hexplains.checked
  have haccounts : step.Accounts := ((sound_start config store).follow earlier).accounts turn
  rcases haccounts.untouched_or_stored with ⟨huntouched, _⟩ | ⟨amendment, state, hstored⟩
  · rw [Transition.renewal?_of_untouched huntouched, load_of_untouched huntouched,
      Option.toList_none, List.append_nil]
    exact hexplains
  · obtain ⟨hallowed, hsaved, _⟩ := haccounts.of_stored hstored
    have hcurrent : (amendment.apply step.record).isCurrent = true :=
      amendment.isCurrent_apply (BakingState.isCurrent_checked _)
    have hload : Store.load step.after.store = state :=
      (remembers_play config store earlier turn).load_eq hstored.saved
    rw [Transition.renewal?_of_stored hstored, hload, ← hstored.applied]
    cases amendment with
    | consensus data =>
        change Explains (renewed ++ []) _
        rw [List.append_nil]
        exact hrecord.raised hallowed hcurrent
    | reset level => exact .reset (isValidLevel_of_reset hstored.asked) hcurrent
    | setup install => exact .setup hcurrent
    | authorization key =>
        change Explains (renewed ++ []) _
        rw [List.append_nil]
        exact hrecord.of_mark_eq (step.record.mark_authorize key) hcurrent
    | removal =>
        change Explains (renewed ++ []) _
        rw [List.append_nil]
        exact hrecord.of_mark_eq step.record.mark_deauthorize hcurrent

/-- All along a run the renewals so far explain the marks. -/
theorem explains_follow
    (hvalid : ∀ chain, isValidLevel ((Store.load store).mark chain).level = true)
    (turns : List Turn) :
    Explains (renewals ((start config store).trace turns))
      (Store.load ((start config store).follow turns).signer.store) := by
  induction turns using List.reverseRecOn with
  | nil => exact .of_valid hvalid
  | append_singleton turns turn ih =>
      have hplayed := explains_play ih turn
      rw [trace_append, follow_append, trace, trace, renewals_concat]
      exact hplayed

end Scene

/-- Along every run from a record with valid marks, the mark of a chain is invalid just as long as
the latest setup or reset that was stored is a setup with an invalid level for that chain. No
message, reset, authorization or removal brings an invalid mark, and above one nothing is allowed
to be signed. -/
theorem mark_invalid_iff {σ : Type} [BreakableStore σ] [LawfulStore σ] (config : Config)
    {store : σ} (hvalid : ∀ chain, isValidLevel ((Store.load store).mark chain).level = true)
    (turns : List Turn) (chain : Chain) :
    let run := (Scene.start config store).trace turns
    let state := Store.load ((Scene.start config store).follow turns).signer.store
    (isValidLevel (state.mark chain).level = false ↔
      ∃ install, (renewals run).getLast? = some (.setup install) ∧
        isValidLevel (install.level chain) = false) ∧
    (isValidLevel (state.mark chain).level = false → ∀ level isEndorsement,
      state.allows chain level isEndorsement = false) := by
  intro run state
  exact ⟨(Scene.explains_follow hvalid turns).invalid chain, BakingState.allows_eq_false⟩

/-- A setup starts the main chain from the level two to the thirty-first, which no check refuses.
Once it is approved the mark is invalid and the guard allows nothing on that chain, until a
reset. -/
theorem mark_invalid_iff_setup :
    let turn (stimulus : Stimulus) : Turn := ⟨Simulated.provider, false, stimulus⟩
    let setup : Bytes := [0x80, 0x0A, 0x00, 0x00, 17, 0, 0, 0, 0, 0x80, 0, 0, 0, 0, 0, 0, 0,
      1, 0x80, 0, 0, 0]
    let store : MemoryStore := .ofState .fresh
    let spoilt : List Turn := [turn (.frame setup), turn (.answer true)]
    let mended : List Turn := spoilt ++
      [turn (.frame [0x80, 0x06, 0x00, 0x00, 4, 0, 0, 0, 9]), turn (.answer true)]
    let state (turns : List Turn) :=
      Store.load ((Scene.start .standard store).follow turns).signer.store
    (∀ chain, isValidLevel ((Store.load store).mark chain).level = true) ∧
      isValidLevel ((state spoilt).mark .main).level = false ∧
      (∀ level isEndorsement, (state spoilt).allows .main level isEndorsement = false) ∧
      isValidLevel ((state mended).mark .main).level = true := by
  intro turn setup store spoilt mended state
  have hvalid : ∀ chain, isValidLevel ((Store.load store).mark chain).level = true := by
    intro chain
    cases chain <;> decide
  obtain ⟨_, hnothing⟩ := mark_invalid_iff .standard hvalid spoilt .main
  have hmark : isValidLevel ((state spoilt).mark .main).level = false := by decide
  refine ⟨hvalid, hmark, hnothing hmark, by decide⟩

/-- A baker's marks do not stay valid whatever is approved: a reset to the level two to the
thirty-first is refused as it arrives, a setup with that level is not. -/
theorem setup_spoils_mark :
    let turn (stimulus : Stimulus) : Turn := ⟨Simulated.provider, false, stimulus⟩
    let start : Scene MemoryStore := .start .standard (.ofState .fresh)
    (start.play (turn (.frame [0x80, 0x06, 0x00, 0x00, 4, 0x80, 0, 0, 0]))).outcome =
        some (.reply (.failure .parseError)) ∧
      ¬ ∀ (turns : List Turn) (chain : Chain),
        isValidLevel ((Store.load (start.follow turns).signer.store).mark chain).level = true := by
  intro turn start
  refine ⟨by decide, fun hvalid => ?_⟩
  have hmark := hvalid [turn (.frame [0x80, 0x0A, 0x00, 0x00, 17, 0, 0, 0, 0, 0x80, 0, 0, 0,
    0, 0, 0, 0, 1, 0x80, 0, 0, 0]), turn (.answer true)] .main
  revert hmark
  decide

end TezosSigner
