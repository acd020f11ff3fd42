import Mathlib
import TezosSigner.Signer

/-!
# Runs of a signer

A run is any order of frames and answers. The keys may be others at every turn,
and the store may break down or be mended between two turns. What the host has
transmitted is followed beside the signer, from the frames alone: the payloads
of the further chunks since the latest first chunk.
-/

namespace TezosSigner

/-- A store that the environment can break and mend. -/
class BreakableStore (σ : Type) extends Store σ where
  setBroken : Bool → σ → σ

/-- A record that a run can store over another one: it is of the current layout, and its key
has a path unless the other record holds the same key. -/
structure BakingState.Succeeds (state previous : BakingState) : Prop where
  current : state.isCurrent = true
  path : ∀ key, state.key = some key → key.path.isEmpty = false ∨ previous.key = some key

/-- A store that keeps what a run gives it: a state that is saved over the loaded one, and that
a run can store over that, is the one loaded afterwards, and only saving changes it. -/
class LawfulStore (σ : Type) [BreakableStore σ] : Prop where
  load_save {state : BakingState} {store after : σ} : state.Succeeds (Store.load store) →
    Store.save state store = .ok after → Store.load after = state
  load_setBroken (broken : Bool) (store : σ) :
    Store.load (BreakableStore.setBroken broken store) = Store.load store

/-- A store whose content is not touched by breaking and mending it. -/
class SteadyStore (σ : Type) [BreakableStore σ] : Prop where
  load_setBroken (broken : Bool) (store : σ) :
    Store.load (BreakableStore.setBroken broken store) = Store.load store

instance {σ : Type} [BreakableStore σ] [LawfulStore σ] : SteadyStore σ :=
  ⟨LawfulStore.load_setBroken⟩

instance : BreakableStore MemoryStore where
  setBroken broken store := { store with broken }

instance : BreakableStore FlashStore where
  setBroken broken store := { store with broken }

instance : LawfulStore MemoryStore where
  load_save {state store after} _ hsave := by
    obtain ⟨_, _, broken⟩ := store
    cases broken with
    | true => cases hsave
    | false => cases hsave; rfl
  load_setBroken _ _ := rfl

instance : SteadyStore FlashStore := ⟨fun _ _ => rfl⟩

/-- What reaches a signer: a frame from the host, or its user's answer. -/
inductive Stimulus where
  | frame (raw : Bytes)
  | answer (approved : Bool)
deriving DecidableEq

/-- One turn of a run: what reaches the signer, and the keys and the store at that time. -/
structure Turn where
  keys : KeyProvider
  /-- Whether the store refuses to be written. -/
  broken : Bool
  stimulus : Stimulus

/-- The frame that is carried out, if the bytes are one and its instruction is known. -/
def Frame.understood? (mode : Mode) (raw : Bytes) : Option (Instruction × Frame) :=
  match Frame.ofBytes raw with
  | .ok frame =>
      match Instruction.ofCode mode frame.instruction with
      | .ok instruction => some (instruction, frame)
      | .error _ => none
  | .error _ => none

/-- The chunk of a message that a frame carries. -/
def SigningRequest.ofBytes? (mode : Mode) (raw : Bytes) : Option SigningRequest :=
  match Frame.understood? mode raw with
  | some (.sign kind, frame) => some ⟨kind, frame.p1, frame.p2, frame.data⟩
  | _ => none

theorem SigningRequest.ofBytes?_eq_none {mode : Mode} {raw : Bytes} {frame : Frame}
    {instruction : Instruction} (hcommand : Frame.understood? mode raw = some (instruction, frame))
    (hsigning : instruction.isSigning = false) : SigningRequest.ofBytes? mode raw = none := by
  rw [ofBytes?, hcommand]
  cases instruction <;> first | rfl | cases hsigning

/-- What a host has transmitted with one more chunk: a first chunk begins anew, and any
other adds its payload. -/
def SigningRequest.continuing (request : SigningRequest) (heard : Bytes) : Bytes :=
  if request.position = 0x00 then [] else heard ++ request.data

/-- What a host has transmitted with one more frame. -/
def Frame.transmitted (mode : Mode) (raw heard : Bytes) : Bytes :=
  match SigningRequest.ofBytes? mode raw with
  | some request => request.continuing heard
  | none => heard

/-- A signer at some time of a run, beside what its host has transmitted. -/
structure Scene (σ : Type) where
  signer : Signer σ
  heard : Bytes

/-- One step of a run. -/
structure Transition (σ : Type) where
  /-- The signer as the turn finds it. -/
  before : Signer σ
  turn : Turn
  after : Signer σ
  /-- What is answered or shown, unless there was nothing to be done. -/
  outcome : Option Outcome
  journal : List Event
  /-- What the host has transmitted, a chunk of this turn included. -/
  heard : Bytes

namespace Transition

variable {σ : Type}

/-- The command that the host gives in this turn. -/
def command? (step : Transition σ) : Option (Instruction × Frame) :=
  match step.turn.stimulus with
  | .frame raw => Frame.understood? step.before.config.mode raw
  | .answer _ => none

/-- The chunk that the host transmits in this turn. -/
def request? (step : Transition σ) : Option SigningRequest :=
  match step.turn.stimulus with
  | .frame raw => SigningRequest.ofBytes? step.before.config.mode raw
  | .answer _ => none

theorem command?_eq {step : Transition σ} {raw : Bytes}
    (hstimulus : step.turn.stimulus = .frame raw) :
    step.command? = Frame.understood? step.before.config.mode raw := by
  rw [command?, hstimulus]

theorem request?_eq {step : Transition σ} {raw : Bytes}
    (hstimulus : step.turn.stimulus = .frame raw) :
    step.request? = SigningRequest.ofBytes? step.before.config.mode raw := by
  rw [request?, hstimulus]

theorem frame_of_request? {step : Transition σ} {request : SigningRequest}
    (hrequest : step.request? = some request) : ∃ raw, step.turn.stimulus = .frame raw := by
  unfold request? at hrequest
  split at hrequest
  next raw hstimulus => exact ⟨raw, hstimulus⟩
  next => cases hrequest

theorem frame_of_command? {step : Transition σ} {command : Instruction × Frame}
    (hcommand : step.command? = some command) : ∃ raw, step.turn.stimulus = .frame raw := by
  unfold command? at hcommand
  split at hcommand
  next raw hstimulus => exact ⟨raw, hstimulus⟩
  next => cases hcommand

/-- The stored record as the turn finds it, a fresh one in place of another layout. -/
def record [Store σ] (step : Transition σ) : BakingState :=
  (Store.load step.before.store).checked

/-- What the signer asked its keys to sign. Public keys that were derived are not among it. -/
def signings (step : Transition σ) : List (KeyId × Bytes) :=
  step.journal.filterMap fun
    | .signing key message => some (key, message)
    | _ => none

/-- The signer and the transmission that the next turn starts from. -/
def scene (step : Transition σ) : Scene σ := ⟨step.after, step.heard⟩

end Transition

namespace Scene

variable {σ : Type}

/-- A run starts with nothing under way. -/
def start (config : Config) (store : σ) : Scene σ := ⟨.start config store, []⟩

variable [BreakableStore σ]

/-- The signer as a turn finds it. -/
def meet (scene : Scene σ) (turn : Turn) : Signer σ :=
  { scene.signer with store := BreakableStore.setBroken turn.broken scene.signer.store }

/-- What happens in one turn. -/
def play (scene : Scene σ) (turn : Turn) : Transition σ :=
  let before := scene.meet turn
  match turn.stimulus with
  | .frame raw =>
      let (after, outcome, journal) := before.receive turn.keys raw
      { before, turn, after, journal
        outcome := some outcome
        heard := Frame.transmitted before.config.mode raw scene.heard }
  | .answer approved =>
      let (after, response, journal) := before.answer turn.keys approved
      { before, turn, after, journal
        outcome := response.map .reply
        heard := scene.heard }

/-- What is reached after some turns. -/
def follow (scene : Scene σ) (turns : List Turn) : Scene σ :=
  turns.foldl (fun scene turn => (scene.play turn).scene) scene

/-- The steps of a run. -/
def trace : Scene σ → List Turn → List (Transition σ)
  | _, [] => []
  | scene, turn :: turns => scene.play turn :: (scene.play turn).scene.trace turns

@[simp] theorem follow_cons (scene : Scene σ) (turn : Turn) (turns : List Turn) :
    scene.follow (turn :: turns) = (scene.play turn).scene.follow turns := rfl

theorem follow_append (scene : Scene σ) (first second : List Turn) :
    scene.follow (first ++ second) = (scene.follow first).follow second :=
  List.foldl_append

theorem trace_append (scene : Scene σ) (first second : List Turn) :
    scene.trace (first ++ second) = scene.trace first ++ (scene.follow first).trace second := by
  induction first generalizing scene with
  | nil => rfl
  | cons turn first ih => simp only [List.cons_append, trace, follow_cons, ih]

theorem getLast?_trace_concat (scene : Scene σ) (turns : List Turn) (turn : Turn) :
    (scene.trace (turns ++ [turn])).getLast? = some ((scene.follow turns).play turn) := by
  rw [trace_append, trace, trace, List.getLast?_concat]

@[simp] theorem play_turn (scene : Scene σ) (turn : Turn) : (scene.play turn).turn = turn := by
  unfold play
  split <;> rfl

@[simp] theorem play_before (scene : Scene σ) (turn : Turn) :
    (scene.play turn).before = scene.meet turn := by
  unfold play
  split <;> rfl

theorem play_frame (scene : Scene σ) {turn : Turn} {raw : Bytes}
    (hstimulus : turn.stimulus = .frame raw) :
    (scene.play turn).after = ((scene.meet turn).receive turn.keys raw).1 ∧
      (scene.play turn).outcome = some ((scene.meet turn).receive turn.keys raw).2.1 := by
  unfold play
  rw [hstimulus]
  exact ⟨rfl, rfl⟩

theorem journal_play_frame (scene : Scene σ) {turn : Turn} {raw : Bytes}
    (hstimulus : turn.stimulus = .frame raw) :
    (scene.play turn).journal = ((scene.meet turn).receive turn.keys raw).2.2 := by
  unfold play
  rw [hstimulus]

theorem heard_play_frame (scene : Scene σ) {turn : Turn} {raw : Bytes}
    (hstimulus : turn.stimulus = .frame raw) :
    (scene.play turn).heard =
      Frame.transmitted scene.signer.config.mode raw scene.heard := by
  unfold play
  rw [hstimulus]
  rfl

/-- What holds at the start and is preserved by every step holds all along a run. -/
theorem follow_invariant {invariant : Scene σ → Prop}
    (hplay : ∀ scene turn, invariant scene → invariant (scene.play turn).scene)
    (scene : Scene σ) (turns : List Turn) (hscene : invariant scene) :
    invariant (scene.follow turns) := by
  induction turns generalizing scene with
  | nil => exact hscene
  | cons turn turns ih => exact ih _ (hplay scene turn hscene)

/-- A stretch of a run is a run from the scene that it begins at. -/
theorem trace_eq_append {scene : Scene σ} {turns : List Turn} {front back : List (Transition σ)}
    (htrace : scene.trace turns = front ++ back) :
    ∃ first second, turns = first ++ second ∧ scene.trace first = front ∧
      (scene.follow first).trace second = back := by
  -- Turns and steps are taken off together, so the scene moves along.
  induction front generalizing scene turns with
  | nil => exact ⟨[], turns, rfl, rfl, htrace⟩
  | cons step front ih =>
      cases turns with
      | nil => cases htrace
      | cons turn turns =>
          simp only [trace, List.cons_append, List.cons.injEq] at htrace
          obtain ⟨rfl, htail⟩ := htrace
          obtain ⟨first, second, rfl, hfirst, hsecond⟩ := ih htail
          exact ⟨turn :: first, second, rfl, by rw [trace, hfirst], hsecond⟩

/-- A step of a run is played after some turns. -/
theorem exists_of_mem_trace {scene : Scene σ} {turns : List Turn} {step : Transition σ}
    (hstep : step ∈ scene.trace turns) :
    ∃ earlier turn, step = (scene.follow earlier).play turn := by
  obtain ⟨front, back, htrace⟩ := List.mem_iff_append.mp hstep
  obtain ⟨earlier, later, _, _, hback⟩ := trace_eq_append htrace
  cases later with
  | nil => cases hback
  | cons turn later => exact ⟨earlier, turn, (List.cons.inj hback).1.symm⟩

end Scene

end TezosSigner
