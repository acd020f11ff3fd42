import TezosSigner.Key.Simulated
import TezosSigner.Proofs.Succession

/-!
# No message is signed twice

A run is cut into epochs wherever a setup or a reset has been stored. Within an
epoch the mark of a chain never falls, and every consensus message that is signed
comes behind it. What is signed on one chain is therefore in strict order: by
level, and at one level the block before the endorsement.
-/

namespace TezosSigner

open Hash Command

namespace Transition

variable {σ : Type}

/-- The message that a signature is about: what the host has transmitted, or for a keyed hash
the fixed value. -/
def subject? (step : Transition σ) : Option Bytes :=
  step.signings.head?.map fun (_, message) =>
    match step.turn.stimulus, step.request? with
    | .frame _, none => message
    | _, _ => step.heard

/-- The block or endorsement that was signed. -/
def signedConsensus? (step : Transition σ) : Option ConsensusData :=
  step.subject?.bind fun message => (MessageClass.ofBytes message).consensus?

/-- Whether a record was stored. -/
def stores (step : Transition σ) : Bool :=
  step.journal.any fun
    | .stored _ => true
    | _ => false

/-- An approved setup or reset was stored. -/
def renews (step : Transition σ) : Bool :=
  match step.turn.stimulus, step.before.pending with
  | .answer true, some (.setup _ _) | .answer true, some (.reset _) => step.stores
  | _, _ => false

end Transition

/-- A run without the steps that renew the marks. -/
def epochs {σ : Type} (run : List (Transition σ)) : List (List (Transition σ)) :=
  run.splitOnP (·.renews)

/-- What was signed on a chain, each message on the chain that the record selected then. -/
def signedOn {σ : Type} [Store σ] (chain : Chain) (epoch : List (Transition σ)) :
    List ConsensusData :=
  epoch.filterMap fun step =>
    step.signedConsensus?.filter fun data => step.record.chainFor data.chainId == chain

section SignedOn

variable {σ : Type} [Store σ] {chain : Chain} {step : Transition σ} {rest : List (Transition σ)}

theorem signedOn_cons_of_signed {data : ConsensusData} (hsigned : step.signedConsensus? = some data)
    (hchain : step.record.chainFor data.chainId = chain) :
    signedOn chain (step :: rest) = data :: signedOn chain rest := by
  apply List.filterMap_cons_some
  rw [hsigned]
  exact if_pos (beq_iff_eq.mpr hchain)

/-- What signs nothing on a chain is skipped there. -/
theorem signedOn_cons_of_skipped (hskipped : ∀ data, step.signedConsensus? = some data →
    step.record.chainFor data.chainId ≠ chain) :
    signedOn chain (step :: rest) = signedOn chain rest := by
  apply List.filterMap_cons_none
  cases hsigned : step.signedConsensus? with
  | none => rfl
  | some data => exact if_neg fun hsame => hskipped data hsigned (beq_iff_eq.mp hsame)

end SignedOn

/-- Messages signed one after the other on one chain, from a mark on. -/
structure Guards (mark : Watermark) (signed : List ConsensusData) : Prop where
  valid : ∀ data ∈ signed, isValidLevel data.level = true
  ascending : signed.Pairwise fun earlier later => earlier.level ≤ later.level
  once : signed.Pairwise fun earlier later => earlier.level = later.level →
    earlier.isEndorsement = false ∧ later.isEndorsement = true
  above : ∀ data ∈ signed, mark.level < data.level ∨
    data.level = mark.level ∧ data.isEndorsement = true ∧ mark.hadEndorsement = false

theorem guards_of_pairwise {mark : Watermark} {signed : List ConsensusData}
    (hvalid : ∀ data ∈ signed, isValidLevel data.level = true)
    (hordered : (mark :: signed.map ConsensusData.mark).Pairwise Watermark.Precedes) :
    Guards mark signed := by
  obtain ⟨habove, hpairs⟩ := List.pairwise_cons.mp hordered
  rw [List.pairwise_map] at hpairs
  refine ⟨hvalid, ?_, ?_, ?_⟩
  · apply hpairs.imp
    intro earlier later hprecedes
    rcases hprecedes with hlower | ⟨hlevel, _⟩
    · exact UInt32.le_of_lt hlower
    · exact UInt32.le_of_eq hlevel
  · apply hpairs.imp
    intro earlier later hprecedes hsame
    rcases hprecedes with hlower | ⟨_, hblock, hendorsement⟩
    · change _ < _ at hlower
      rw [ConsensusData.mark, ConsensusData.mark, hsame] at hlower
      exact absurd hlower (UInt32.lt_irrefl _)
    · exact ⟨hblock, hendorsement⟩
  · intro data hdata
    rcases habove _ (List.mem_map_of_mem hdata) with hlower | ⟨hlevel, hclear, hendorsement⟩
    · exact Or.inl hlower
    · exact Or.inr ⟨hlevel.symm, hendorsement, hclear⟩

/-- The pieces of a list between its cuts are stretches of it without a cut. -/
theorem stretch_of_mem_splitOnP {α : Type} {cut : α → Bool} {whole piece : List α}
    (hpiece : piece ∈ whole.splitOnP cut) :
    piece <:+: whole ∧ ∀ entry ∈ piece, cut entry = false := by
  suffices hsplit : ∃ first rest, whole.splitOnP cut = first :: rest ∧ first <+: whole ∧
      ∀ piece ∈ first :: rest, piece <:+: whole ∧ ∀ entry ∈ piece, cut entry = false by
    obtain ⟨first, rest, heq, _, hpieces⟩ := hsplit
    exact hpieces piece (heq ▸ hpiece)
  clear hpiece
  -- Only a piece that starts the list can grow at its front, so the first one is kept apart.
  induction whole with
  | nil => exact ⟨[], [], rfl, List.nil_prefix, by simp⟩
  | cons entry whole ih =>
      obtain ⟨first, rest, heq, hfront, hpieces⟩ := ih
      rw [List.splitOnP_cons_eq_if_modifyHead, heq]
      split
      next =>
        refine ⟨[], first :: rest, rfl, List.nil_prefix, fun piece hpiece => ?_⟩
        rcases List.mem_cons.mp hpiece with rfl | hpiece
        · refine And.intro List.nil_infix fun other hother => ?_
          cases hother
        · obtain ⟨hstretch, hcuts⟩ := hpieces piece hpiece
          exact ⟨List.infix_cons hstretch, hcuts⟩
      next hcut =>
        have hfirst : entry :: first <+: entry :: whole := List.prefix_cons_inj entry |>.mpr hfront
        refine ⟨entry :: first, rest, rfl, hfirst, fun piece hpiece => ?_⟩
        rcases List.mem_cons.mp hpiece with rfl | hpiece
        · refine ⟨hfirst.isInfix, fun other hother => ?_⟩
          rcases List.mem_cons.mp hother with rfl | hother
          · exact Bool.eq_false_iff.mpr hcut
          · exact (hpieces first List.mem_cons_self).2 other hother
        · obtain ⟨hstretch, hcuts⟩ := hpieces piece (List.mem_cons_of_mem first hpiece)
          exact ⟨List.infix_cons hstretch, hcuts⟩

section Marks

variable {σ : Type}

/-- A step either signs no consensus message and keeps the marks, or it signs one behind the
mark of its chain, which then becomes the mark. -/
def Transition.Advances [Store σ] (step : Transition σ) : Prop :=
  (step.signedConsensus? = none ∧
    ∀ chain, (Store.load step.after.store).checked.mark chain = step.record.mark chain) ∨
  ∃ data, step.signedConsensus? = some data ∧ isValidLevel data.level = true ∧
    (step.record.mark (step.record.chainFor data.chainId)).Precedes data.mark ∧
    (Store.load step.after.store).checked = step.record.raised data

theorem Transition.signedConsensus?_of_nil {step : Transition σ} (hnone : step.signings = []) :
    step.signedConsensus? = none := by
  rw [signedConsensus?, subject?, hnone]
  rfl

/-- An operation is no consensus message. -/
theorem consensus?_of_mark {message : Bytes} (hmark : message.head? = some OperationGroup.mark) :
    (MessageClass.ofBytes message).consensus? = none := by
  simp [MessageClass.ofBytes, hmark, OperationGroup.mark, MessageClass.consensus?]

variable [BreakableStore σ]

/-- A record of the current layout that has been stored is the one in force afterwards. -/
theorem Transition.Remembers.checked_eq {step : Transition σ} (hremembers : step.Remembers)
    (state : BakingState) (hstored : .stored state ∈ deeds step.journal)
    (hcurrent : state.isCurrent = true) : (Store.load step.after.store).checked = state := by
  rw [hremembers state (List.mem_of_mem_filter hstored)]
  exact state.checked_of_isCurrent hcurrent

theorem advances_of_frame {step : Transition σ} {raw : Bytes}
    (hstimulus : step.turn.stimulus = .frame raw)
    (hdeed : FrameDeed step.before.config step.before.session raw step.heard step.before.store
      step.after.store (deeds step.journal)) (hremembers : step.Remembers) : step.Advances := by
  have hsignings := step.signings_eq
  have hchecked := hremembers.checked_eq
  generalize hafter : step.after.store = after at hdeed hchecked
  generalize deeds step.journal = done at hdeed hsignings hchecked
  unfold Transition.Advances
  rw [hafter]
  cases hdeed with
  | none => exact Or.inl ⟨Transition.signedConsensus?_of_nil hsignings, fun _ => rfl⟩
  | keyRemoved =>
      refine Or.inl ⟨Transition.signedConsensus?_of_nil hsignings, fun chain => ?_⟩
      rw [hchecked _ List.mem_cons_self (BakingState.isCurrent_checked _)]
      exact BakingState.mark_deauthorize _ chain
  | keyedHash hcommand _ _ =>
      refine Or.inl ⟨?_, fun _ => rfl⟩
      rw [Transition.signedConsensus?, Transition.subject?, hsignings, hstimulus,
        Transition.request?_eq hstimulus, SigningRequest.ofBytes?_eq_none hcommand rfl]
      change (MessageClass.ofBytes hmacSeed).consensus? = none
      decide
  | @consensus request key data state after _ hchunk _ _ _ hconsensus hloaded _ hallowed _ =>
      subst hloaded
      obtain ⟨hvalid, hprecedes⟩ := (BakingState.allows_iff _ _ data).mp hallowed
      refine Or.inr ⟨data, ?_, hvalid, hprecedes, ?_⟩
      · rw [Transition.signedConsensus?, Transition.subject?, hsignings, hstimulus,
          Transition.request?_eq hstimulus, hchunk]
        exact hconsensus
      · apply hchecked _ List.mem_cons_self
        rw [BakingState.isCurrent_raised, BakingState.isCurrent_checked]

theorem advances_of_approval {step : Transition σ} {action : PendingAction}
    (hstimulus : step.turn.stimulus = .answer true) (hpending : step.before.pending = some action)
    (hdeed : ApprovalDeed action step.before.store step.after.store (deeds step.journal))
    (hcovers : ∀ plan, action = .sign plan → plan.Covers .baking step.heard)
    (hremembers : step.Remembers) (hrenews : step.renews = false) : step.Advances := by
  have hsignings := step.signings_eq
  have hchecked := hremembers.checked_eq
  have hstores {state : BakingState} (hjournal : deeds step.journal = [.stored state]) :
      step.stores = true := by
    have hmem : .stored state ∈ step.journal := by
      apply List.mem_of_mem_filter
      change _ ∈ deeds step.journal
      rw [hjournal]
      exact List.mem_singleton_self _
    exact List.any_eq_true.mpr ⟨_, hmem, rfl⟩
  generalize hafter : step.after.store = after at hdeed hchecked
  generalize hjournal : deeds step.journal = done at hdeed hsignings hchecked
  unfold Transition.Advances
  rw [hafter]
  cases hdeed with
  | none => exact Or.inl ⟨Transition.signedConsensus?_of_nil hsignings, fun _ => rfl⟩
  | @signature plan hplanned _ =>
      refine Or.inl ⟨?_, fun _ => rfl⟩
      rw [Transition.signedConsensus?, Transition.subject?, hsignings, hstimulus]
      rcases hcovers plan hplanned with ⟨_, hmark⟩ | ⟨hwallet, _⟩
      · exact consensus?_of_mark hmark
      · cases hwallet
  | committed hchange =>
      refine Or.inl ⟨Transition.signedConsensus?_of_nil hsignings, fun chain => ?_⟩
      cases action with
      | sign plan => cases hchange
      | providePublicKey publicKey => cases hchange
      | authorizeBaking key publicKey =>
          cases hchange
          rw [hchecked _ List.mem_cons_self (BakingState.isCurrent_checked _)]
          exact BakingState.mark_authorize _ key chain
      | setup setup publicKey =>
          rw [Transition.renews, hstimulus, hpending] at hrenews
          exact absurd (hstores hjournal) (Bool.eq_false_iff.mp hrenews)
      | reset level =>
          rw [Transition.renews, hstimulus, hpending] at hrenews
          exact absurd (hstores hjournal) (Bool.eq_false_iff.mp hrenews)

namespace Scene

/-- The record that the next step finds. -/
def record (scene : Scene σ) : BakingState :=
  (Store.load scene.signer.store).checked

theorem record_play [SteadyStore σ] (scene : Scene σ) (turn : Turn) :
    (scene.play turn).record = scene.record := by
  unfold Transition.record record
  rw [play_before]
  exact congrArg _ (SteadyStore.load_setBroken _ _)

/-- What an answer finds waiting signs what was transmitted. -/
theorem Sound.covers {scene : Scene σ} (hsound : scene.Sound) {turn : Turn} {approved : Bool}
    (hstimulus : (scene.play turn).turn.stimulus = .answer approved) {plan : SigningPlan}
    (hpending : (scene.play turn).before.pending = some (.sign plan)) :
    plan.Covers scene.signer.config.mode (scene.play turn).heard := by
  rw [play_turn] at hstimulus
  rw [play_before] at hpending
  have hcovers := hsound.plan plan hpending
  unfold Scene.play
  rw [hstimulus]
  exact hcovers

theorem Sound.advances {scene : Scene σ} (hsound : scene.Sound)
    (hbaking : scene.signer.config.mode = .baking) {turn : Turn}
    (hremembers : (scene.play turn).Remembers) (hrenews : (scene.play turn).renews = false) :
    (scene.play turn).Advances := by
  cases (hsound.play turn).2.2 with
  | none hstore hjournal =>
      refine Or.inl ⟨Transition.signedConsensus?_of_nil ?_, fun _ => ?_⟩
      · rw [Transition.signings_eq, hjournal]
        rfl
      · rw [hstore]
        rfl
  | frame hstimulus hdeed => exact advances_of_frame hstimulus hdeed hremembers
  | @approval action hstimulus hpending hdeed =>
      refine advances_of_approval hstimulus hpending hdeed (fun plan hplan => ?_) hremembers hrenews
      rw [hplan] at hpending
      rw [← hbaking]
      exact hsound.covers hstimulus hpending

/-- Along a stretch that never renews the marks, the messages signed on a chain are in strict
order behind the mark that it begins with. -/
theorem Sound.stretch [SteadyStore σ] {scene : Scene σ} (hsound : scene.Sound)
    (hbaking : scene.signer.config.mode = .baking) (chain : Chain) {turns : List Turn}
    (hremembers : ∀ step ∈ scene.trace turns, step.Remembers)
    (hrenews : ∀ step ∈ scene.trace turns, step.renews = false) :
    (∀ data ∈ signedOn chain (scene.trace turns), isValidLevel data.level = true) ∧
      (scene.record.mark chain :: (signedOn chain (scene.trace turns)).map
        ConsensusData.mark).Pairwise Watermark.Precedes := by
  induction turns generalizing scene with
  | nil =>
      refine ⟨fun data hdata => ?_, List.pairwise_singleton _ _⟩
      cases hdata
  | cons turn turns ih =>
      obtain ⟨hconfig, hafter, _⟩ := hsound.play turn
      have hbaking' : (scene.play turn).scene.signer.config.mode = .baking := by
        rw [← hbaking]
        exact congrArg Config.mode hconfig
      obtain ⟨hremembered, hlater⟩ := List.forall_mem_cons.mp hremembers
      obtain ⟨hkept, hbehind⟩ := List.forall_mem_cons.mp hrenews
      obtain ⟨hvalid, hordered⟩ := ih hafter hbaking' hlater hbehind
      have hadvances := hsound.advances hbaking hremembered hkept
      unfold Transition.Advances at hadvances
      rw [record_play] at hadvances
      change (_ ∧ ∀ chain, (scene.play turn).scene.record.mark chain = _) ∨
        ∃ data, _ ∧ _ ∧ _ ∧ (scene.play turn).scene.record = _ at hadvances
      by_cases hsome : ∃ data, (scene.play turn).signedConsensus? = some data ∧
          scene.record.chainFor data.chainId = chain
      · -- The message becomes the mark of this chain, and all later ones come behind it.
        obtain ⟨data, hsigned, rfl⟩ := hsome
        rcases hadvances with ⟨hnone, _⟩ | ⟨other, hother, hlevel, hprecedes, hraised⟩
        · rw [hnone] at hsigned
          cases hsigned
        · cases hsigned.symm.trans hother
          have hmark : (scene.play turn).scene.record.mark _ = data.mark :=
            (congrArg (BakingState.mark · _) hraised).trans (BakingState.mark_setMark _ _ _)
          rw [hmark] at hordered
          rw [trace, signedOn_cons_of_signed hsigned (by rw [record_play])]
          refine ⟨fun other hother => ?_, List.pairwise_cons.mpr ⟨fun later hlater => ?_, hordered⟩⟩
          · rcases List.mem_cons.mp hother with rfl | hother
            · exact hlevel
            · exact hvalid other hother
          · rcases List.mem_cons.mp hlater with rfl | hlater
            · exact hprecedes
            · exact hprecedes.trans ((List.pairwise_cons.mp hordered).1 later hlater)
      · -- Nothing was signed on this chain, so its mark is as it was.
        have hmark : (scene.play turn).scene.record.mark chain = scene.record.mark chain := by
          rcases hadvances with ⟨_, hmarks⟩ | ⟨data, hsigned, _, _, hraised⟩
          · exact hmarks chain
          · rw [hraised]
            apply BakingState.mark_setMark_of_ne
            exact fun hsame => hsome ⟨data, hsigned, hsame.symm⟩
        rw [trace, signedOn_cons_of_skipped fun data hsigned hsame =>
          hsome ⟨data, hsigned, by rw [← hsame, record_play]⟩, ← hmark]
        exact ⟨hvalid, hordered⟩

/-- What the keys are asked to sign is the subject itself or its digest. -/
theorem Sound.subject {scene : Scene σ} (hsound : scene.Sound) {turn : Turn} {key : KeyId}
    {message : Bytes} (hasked : (key, message) ∈ (scene.play turn).signings) :
    ∃ subject, (scene.play turn).subject? = some subject ∧
      (message = (blake2b256 subject).val ∨ message = subject) := by
  have hsignings := (scene.play turn).signings_eq
  rw [hsignings] at hasked
  unfold Transition.subject?
  rw [hsignings]
  cases (hsound.play turn).2.2 with
  | none _ hjournal =>
      rw [hjournal] at hasked
      cases hasked
  | frame hstimulus hdeed =>
      generalize deeds (scene.play turn).journal = done at hdeed hasked
      generalize (scene.play turn).after.store = after at hdeed
      rw [hstimulus]
      cases hdeed with
      | none => cases hasked
      | keyRemoved => cases hasked
      | keyedHash hcommand =>
          cases List.mem_singleton.mp hasked
          rw [Transition.request?_eq hstimulus, SigningRequest.ofBytes?_eq_none hcommand rfl]
          exact ⟨_, rfl, Or.inr rfl⟩
      | @consensus request _ _ _ _ _ hchunk =>
          cases List.mem_singleton.mp hasked
          rw [Transition.request?_eq hstimulus, hchunk]
          exact ⟨_, rfl, Or.inl rfl⟩
  | approval hstimulus hpending hdeed =>
      generalize deeds (scene.play turn).journal = done at hdeed hasked
      generalize (scene.play turn).after.store = after at hdeed
      rw [hstimulus]
      cases hdeed with
      | none => cases hasked
      | committed => cases hasked
      | signature hplanned =>
          cases List.mem_singleton.mp hasked
          rw [hplanned] at hpending
          refine ⟨_, rfl, ?_⟩
          rcases hsound.covers hstimulus hpending with ⟨hpayload, _⟩ | ⟨_, hpayload⟩
          · exact Or.inl (congrArg SigningPayload.bytes hpayload)
          · exact Or.inr (congrArg SigningPayload.bytes hpayload)

/-- What renews the marks signs nothing. -/
theorem Sound.signings_of_renews {scene : Scene σ} (hsound : scene.Sound) {turn : Turn}
    (hrenews : (scene.play turn).renews = true) : (scene.play turn).signings = [] := by
  rw [Transition.signings_eq]
  cases (hsound.play turn).2.2 with
  | none _ hjournal =>
      rw [hjournal]
      rfl
  | frame hstimulus =>
      rw [Transition.renews, hstimulus] at hrenews
      cases hrenews
  | @approval action hstimulus hpending hdeed =>
      rw [Transition.renews, hstimulus, hpending] at hrenews
      generalize deeds (scene.play turn).journal = done at hdeed
      generalize (scene.play turn).after.store = after at hdeed
      cases hdeed with
      | none => rfl
      | committed => rfl
      | signature hplanned =>
          rw [hplanned] at hrenews
          cases hrenews

/-- A stretch of a run is a run of its own. -/
theorem trace_of_stretch {scene : Scene σ} {turns : List Turn} {stretch : List (Transition σ)}
    (hstretch : stretch <:+: scene.trace turns) :
    ∃ first middle, (scene.follow first).trace middle = stretch := by
  obtain ⟨front, back, htrace⟩ := hstretch
  rw [List.append_assoc] at htrace
  obtain ⟨first, rest, _, _, hrest⟩ := trace_eq_append htrace.symm
  obtain ⟨middle, _, _, hmiddle, _⟩ := trace_eq_append hrest
  exact ⟨first, middle, hmiddle⟩

end Scene

/-- A baking signer never signs two blocks or two endorsements of one level on one chain, nor
a block after an endorsement of that level, unless a setup or a reset comes between.
Whatever key is authorized or removed and whatever fails, the levels signed on a chain within
an epoch are valid, never decrease and lie above the mark that the epoch begins with. -/
theorem epochs_guarded [LawfulStore σ] (config : Config) (store : σ) (turns : List Turn)
    (hbaking : config.mode = .baking) :
    let run := (Scene.start config store).trace turns
    (∀ step ∈ run, (step.renews = true → step.signings = []) ∧
      ∀ key message, (key, message) ∈ step.signings → ∃ subject, step.subject? = some subject ∧
        (message = (blake2b256 subject).val ∨ message = subject)) ∧
    ∀ epoch ∈ epochs run, ∀ first, epoch.head? = some first → ∀ chain,
      Guards (first.record.mark chain) (signedOn chain epoch) := by
  intro run
  refine ⟨fun step hstep => ?_, fun epoch hepoch first hfirst chain => ?_⟩
  · obtain ⟨front, back, htrace⟩ := List.append_of_mem hstep
    obtain ⟨earlier, later, _, _, hlater⟩ := Scene.trace_eq_append htrace
    have hsound := (Scene.sound_start config store).follow earlier
    cases later with
    | nil => cases hlater
    | cons turn later =>
        cases hlater
        exact ⟨hsound.signings_of_renews, fun key message hasked => hsound.subject hasked⟩
  · obtain ⟨hstretch, huncut⟩ := stretch_of_mem_splitOnP hepoch
    have hremembers : ∀ step ∈ epoch, step.Remembers := fun step hstep =>
      Scene.remembers_of_mem_trace (hstretch.subset hstep)
    obtain ⟨earlier, middle, rfl⟩ := Scene.trace_of_stretch hstretch
    have hsound := (Scene.sound_start config store).follow earlier
    have hmode : ((Scene.start config store).follow earlier).signer.config.mode = .baking := by
      rw [Scene.follow_config, hbaking]
    obtain ⟨hvalid, hordered⟩ := hsound.stretch hmode chain hremembers huncut
    cases middle with
    | nil => cases hfirst
    | cons turn middle =>
        cases hfirst
        rw [Scene.record_play]
        exact guards_of_pairwise hvalid hordered

end Marks

/-- A block and the endorsement of its level, signed one after the other in the epoch after a
reset. -/
theorem epochs_guarded_block_endorsement :
    let turn (stimulus : Stimulus) : Turn := ⟨Simulated.provider, false, stimulus⟩
    let key : KeyId := ⟨.ed25519, ⟨[0x80000000], by decide⟩⟩
    let store : MemoryStore := .ofState { BakingState.fresh with key := some key }
    let opening : Turn := turn (.frame [0x80, 0x04, 0x00, 0x00, 5, 1, 0x80, 0, 0, 0])
    let turns : List Turn := [turn (.frame [0x80, 0x06, 0x00, 0x00, 4, 0, 0, 0, 9]),
      turn (.answer true), opening, turn (.frame ([0x80, 0x04, 0x81, 0x00, 50] ++ blockBytes 7 10)),
      opening, turn (.frame ([0x80, 0x04, 0x81, 0x00, 42] ++ endorsementBytes 7 10))]
    let run := (Scene.start .standard store).trace turns
    Config.standard.mode = .baking ∧ ∃ epoch ∈ epochs run, ∃ first, epoch.head? = some first ∧
      first.record.mark .main = ⟨9, false⟩ ∧
      signedOn .main epoch = [⟨7, 10, false⟩, ⟨7, 10, true⟩] ∧
      Guards (first.record.mark .main) (signedOn .main epoch) := by
  intro turn key store opening turns run
  have hepoch : run.drop 2 ∈ epochs run := by
    have hepochs : epochs run = [run.take 1, run.drop 2] := rfl
    rw [hepochs]
    exact List.mem_cons_of_mem _ List.mem_cons_self
  refine ⟨rfl, run.drop 2, hepoch, _, rfl, by decide, by decide, ?_⟩
  exact (epochs_guarded .standard store turns rfl).2 _ hepoch _ rfl .main

end TezosSigner
