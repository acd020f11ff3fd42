import TezosSigner.Key.Simulated
import TezosSigner.Proofs.Flash
import TezosSigner.Proofs.Lockstep

/-!
# Flash as good as memory

Every record that a signer stores is one that flash gives back: a setup and an
authorization name a key with a path, and whatever else is stored keeps to what was
found. So a signer on flash runs in lockstep with one that keeps the record itself, and
its marks are never lost to an image that cannot be read.
-/

namespace TezosSigner

open Command

/-! ## What waits keeps to the records that flash gives back -/

/-- What waits at some time of a run keeps records storable. -/
theorem Scene.keeps_storable_of_pending {σ : Type} [BreakableStore σ] {config : Config} {store : σ}
    {earlier : List Turn} {action : PendingAction}
    (hpending : ((start config store).follow earlier).signer.pending = some action) :
    action.Keeps BakingState.Storable := by
  intro change hchange state hstate
  exact (succeeds_of_pending hpending hchange (hstate.succeeds state)).storable hstate

/-! ## The two stores -/

/-- A working flash store that has not been written yet. -/
def FlashStore.ofState (state : BakingState) : FlashStore :=
  ⟨.ofState state, 0, false⟩

/-- A flash store holds the image of what a memory store holds, which it gives back. -/
structure Mirrors (memory : MemoryStore) (flash : FlashStore) : Prop where
  storable : memory.state.Storable
  image : flash.image = .ofState memory.state
  writes : flash.writes = memory.writes
  broken : flash.broken = memory.broken

namespace Mirrors

variable {memory : MemoryStore} {flash : FlashStore}

theorem state_image (hmirrors : Mirrors memory flash) :
    flash.image.state = .ok memory.state := by
  rw [hmirrors.image, FlashImage.state_ofState hmirrors.storable]

theorem load_eq (hmirrors : Mirrors memory flash) : Store.load flash = Store.load memory := by
  change flash.image.state.toOption.getD .fresh = memory.state
  rw [hmirrors.state_image]
  rfl

theorem setBroken (hmirrors : Mirrors memory flash) (broken : Bool) :
    Mirrors (BreakableStore.setBroken broken memory) (BreakableStore.setBroken broken flash) :=
  ⟨hmirrors.storable, hmirrors.image, hmirrors.writes, rfl⟩

/-- On records that flash gives back the two stores concur. -/
theorem concur : Store.Concur Mirrors BakingState.Storable where
  load {memory flash} hmirrors := by
    refine ⟨hmirrors.load_eq, ?_⟩
    change memory.state.checked.Storable
    rw [hmirrors.storable.checked_eq]
    exact hmirrors.storable
  save {memory flash state} hmirrors hstate := by
    obtain ⟨_, _, broken⟩ := memory
    obtain ⟨_, _, _⟩ := flash
    obtain ⟨_, himage, hwrites, hbroken⟩ := hmirrors
    cases hwrites
    cases hbroken
    cases broken with
    | true => rfl
    | false => exact ⟨_, rfl, hstate, rfl, rfl, rfl⟩
  signed hstate hsigned := hstate.recordSigned hsigned
  removed hstate := hstate.deauthorize

theorem lockstep {state : BakingState} (hstate : state.Storable) (config : Config) :
    Scene.Lockstep Mirrors config (.ofState state) (.ofState state) where
  start := ⟨hstate, rfl, rfl, rfl⟩
  broken broken hmirrors := hmirrors.setBroken broken
  dispatch keys raw := matches_dispatch concur keys config raw
  perform _ _ hpending keys :=
    matches_perform_of_keeps concur keys (Scene.keeps_storable_of_pending hpending)

end Mirrors

/-! ## Runs -/

/-- What is seen of a step without looking at how its store keeps a record. -/
structure Observation where
  outcome : Option Outcome
  journal : List Event
  session : Session
  pending : Option PendingAction
  /-- The record that is loaded before the step. -/
  found : BakingState
  /-- The record that is loaded after it. -/
  left : BakingState

namespace Transition

variable {σ : Type}

def observation [Store σ] (step : Transition σ) : Observation where
  outcome := step.outcome
  journal := step.journal
  session := step.after.session
  pending := step.after.pending
  found := Store.load step.before.store
  left := Store.load step.after.store

end Transition

namespace Mirrors

variable {state : BakingState}

/-- At any time of a run a turn is seen the same on flash and in memory. -/
theorem observation_play (hstate : state.Storable) (config : Config) (earlier : List Turn)
    (turn : Turn) :
    let memory := ((Scene.start config (MemoryStore.ofState state)).follow earlier).play turn
    let flash := ((Scene.start config (FlashStore.ofState state)).follow earlier).play turn
    flash.observation = memory.observation ∧ flash.journal = memory.journal ∧
      Mirrors memory.after.store flash.after.store := by
  intro memory flash
  have hrun := lockstep hstate config
  have hbefore := hrun.meet (hrun.follow earlier) turn
  obtain ⟨houtcome, hjournal, hafter⟩ := hrun.play earlier (hrun.follow earlier) turn
  refine ⟨?_, hjournal, hafter.store⟩
  have hfound : Store.load flash.before.store = Store.load memory.before.store := by
    unfold flash memory
    rw [Scene.play_before, Scene.play_before]
    exact hbefore.store.load_eq
  rw [Transition.observation, Transition.observation, houtcome, hjournal, hfound, hafter.session,
    hafter.pending, hafter.store.load_eq]

theorem observation_trace (hstate : state.Storable) (config : Config) (turns : List Turn) :
    ((Scene.start config (FlashStore.ofState state)).trace turns).map Transition.observation =
      ((Scene.start config (MemoryStore.ofState state)).trace turns).map
        Transition.observation := by
  induction turns using List.reverseRecOn with
  | nil => rfl
  | append_singleton turns turn ih =>
      rw [Scene.trace_append, Scene.trace_append, List.map_append, List.map_append, ih]
      exact congrArg (_ ++ [·]) (observation_play hstate config turns turn).1

end Mirrors

/-- A record of the current layout, with no key or with one that has a path, may be kept in flash
as well as in memory. In every run from it each step is seen the same on both: the answer or the
prompt, what is logged, signed and stored, and the records that are loaded. Every record stored
on the way is read from its image as it was written, and no step leaves an image behind that
cannot be read or is of another layout. -/
theorem flash_mirrors_memory (config : Config) {state : BakingState}
    (hcurrent : state.isCurrent = true)
    (hpath : ∀ key, state.key = some key → key.path.isEmpty = false) (turns : List Turn) :
    let memory := (Scene.start config (MemoryStore.ofState state)).trace turns
    let flash := (Scene.start config (FlashStore.ofState state)).trace turns
    flash.map Transition.observation = memory.map Transition.observation ∧
    ∀ step ∈ flash,
      (∀ record, .stored record ∈ step.journal →
        (FlashImage.ofState record).state = .ok record ∧ record.checked = record) ∧
      ∃ record, step.after.store.image.state = .ok record ∧ record.checked = record := by
  intro memory flash
  have hstate : state.Storable := ⟨hcurrent, hpath⟩
  refine ⟨Mirrors.observation_trace hstate config turns, fun step hstep => ?_⟩
  obtain ⟨earlier, turn, rfl⟩ := Scene.exists_of_mem_trace hstep
  obtain ⟨_, hjournal, hmirrors⟩ := Mirrors.observation_play hstate config earlier turn
  refine ⟨fun record hstored => ?_, _, hmirrors.state_image, hmirrors.storable.checked_eq⟩
  -- What was stored is what the memory store holds now, and that has just been mirrored.
  rw [hjournal] at hstored
  obtain rfl := Scene.remembers_play config (MemoryStore.ofState state) earlier turn record hstored
  exact ⟨FlashImage.state_ofState hmirrors.storable, hmirrors.storable.checked_eq⟩

/-- The marks of a baker are reset on flash: the new record is stored once the user approves, and it
is read from its image as it was written. -/
theorem flash_mirrors_memory_reset :
    let turn (stimulus : Stimulus) : Turn := ⟨Simulated.provider, false, stimulus⟩
    let state : BakingState := { BakingState.fresh with key := some ⟨.ed25519, .standard⟩ }
    let reset : BakingState := state.resetLevels 9
    let turns : List Turn :=
      [turn (.frame [0x80, 0x06, 0x00, 0x00, 4, 0, 0, 0, 9]), turn (.answer true)]
    let memory := (Scene.start .standard (MemoryStore.ofState state)).trace turns
    let flash := (Scene.start .standard (FlashStore.ofState state)).trace turns
    state.isCurrent = true ∧ (∀ key, state.key = some key → key.path.isEmpty = false) ∧
      flash.map Transition.observation = memory.map Transition.observation ∧
      ∃ step ∈ flash, .stored reset ∈ step.journal ∧
        (FlashImage.ofState reset).state = .ok reset ∧ reset.checked = reset := by
  intro turn state reset turns memory flash
  have hpath : ∀ key, state.key = some key → key.path.isEmpty = false := by
    intro key hkey
    cases hkey
    rfl
  obtain ⟨hseen, hstored⟩ := flash_mirrors_memory .standard rfl hpath turns
  have hreset : .stored reset ∈ (flash.get ⟨1, Nat.one_lt_two⟩).journal := by decide
  exact ⟨rfl, hpath, hseen, _, List.get_mem _ _, hreset, (hstored _ (List.get_mem _ _)).1 _ hreset⟩

end TezosSigner
