import TezosSigner.Proofs.Amendment
import TezosSigner.Proofs.Announcement
import TezosSigner.Proofs.Epoch
import TezosSigner.Proofs.Image

/-!
# What the queries report

The four queries report the stored record together: the levels, the main chain, and the key
by its curve and path. Nothing is missing from the reports but whether endorsements have been
signed, so they tell records apart; and behind a setup they give its data back.
-/

namespace TezosSigner

open Command

/-- The payloads with which the queries are answered. -/
@[ext]
structure Report where
  mainMark : Bytes
  allMarks : Bytes
  key : Bytes
  keyWithCurve : Bytes

namespace Report

/-- The payload that answers a query. -/
def payload? (report : Report) : Instruction → Option Bytes
  | .queryMainMark => some report.mainMark
  | .queryAllMarks => some report.allMarks
  | .queryKey => some report.key
  | .queryKeyWithCurve => some report.keyWithCurve
  | _ => none

/-- The report of a record. -/
def ofState (state : BakingState) : Report where
  mainMark := Bytes.ofUInt32 state.main.level
  allMarks := Bytes.ofUInt32 state.main.level ++ Bytes.ofUInt32 state.test.level
    ++ Bytes.ofUInt32 state.mainChainId
  key := pathReply state.key
  keyWithCurve := curveReply state.key :: pathReply state.key

end Report

/-- At some time of a run every query would be answered with a report, whatever parameters and
data come with it, and whether or not the store is broken. -/
def Scene.Reports {σ : Type} [BreakableStore σ] (scene : Scene σ) (report : Report) : Prop :=
  ∀ turn instruction frame payload, (scene.play turn).command? = some (instruction, frame) →
    report.payload? instruction = some payload →
    (scene.play turn).outcome = some (.reply (.success payload))

namespace Command

variable {σ : Type} [Store σ] {before : Workspace σ}

/-- A frame that is understood is run on the store that it finds. -/
theorem ends_dispatch_of_understood {config : Config} {keys : KeyProvider} {raw : Bytes}
    {instruction : Instruction} {frame : Frame} {post : Except Status Reaction → Workspace σ → Prop}
    (hcommand : Frame.understood? config.mode raw = some (instruction, frame))
    (hrun : ∀ middle, middle.store = before.store →
      Ends (run config keys frame instruction) middle post) :
    Ends (dispatch config keys raw) before post := by
  rw [dispatch_understood_ends hcommand]
  simp only [abandonSession, ends_bind, ends_getSession, ends_ite, ends_log]
  exact ⟨fun _ => ends_resetSession.mpr (hrun _ rfl), fun _ => hrun _ rfl⟩

/-- A query is answered out of the record of the store. -/
theorem run_reports {config : Config} {keys : KeyProvider} {frame : Frame}
    {instruction : Instruction} {payload : Bytes}
    (hquery : (Report.ofState (Store.load before.store).checked).payload? instruction =
      some payload) :
    Ends (run config keys frame instruction) before fun result _ =>
      result = .ok (.reply payload) := by
  cases instruction <;> cases hquery <;>
    simp [run, queryMainMark, queryAllMarks, queryKey, queryKeyWithCurve, Except.map,
      Report.ofState]

end Command

/-- A signer answers a query out of its record, whatever it was at. -/
theorem Signer.receive_query {σ : Type} [Store σ] {signer : Signer σ} (keys : KeyProvider)
    {raw : Bytes} {instruction : Instruction} {frame : Frame} {payload : Bytes}
    (hcommand : Frame.understood? signer.config.mode raw = some (instruction, frame))
    (hquery : (Report.ofState (Store.load signer.store).checked).payload? instruction =
      some payload) : (signer.receive keys raw).2.1 = .reply (.success payload) := by
  have hends : Ends (dispatch signer.config keys raw) signer.cancelPending fun result _ =>
      result = .ok (.reply payload) := by
    refine ends_dispatch_of_understood hcommand fun middle hmiddle => run_reports ?_
    rw [hmiddle, cancelPending_store]
    exact hquery
  rcases receive_ends hends with ⟨_, after, hreply, hreceive⟩ | ⟨_, _, after, hreply, _, _⟩ |
    ⟨_, after, hreply, _⟩
  · cases hreply
    rw [hreceive]
  · cases hreply
  · cases hreply

namespace Scene

variable {σ : Type} [BreakableStore σ] [SteadyStore σ] {scene : Scene σ} {report : Report}

theorem reports (scene : Scene σ) :
    scene.Reports (.ofState scene.record) := by
  intro turn instruction frame payload hcommand hquery
  obtain ⟨raw, hframe⟩ := Transition.frame_of_command? hcommand
  rw [Transition.command?_eq hframe, play_before] at hcommand
  rw [play_turn] at hframe
  have hload : Store.load (scene.meet turn).store = Store.load scene.signer.store :=
    SteadyStore.load_setBroken _ _
  rw [record, ← hload] at hquery
  rw [(scene.play_frame hframe).2, Signer.receive_query turn.keys hcommand hquery]

/-- A baker can be queried, so it has no other report than that of its record. -/
theorem Reports.eq (hreports : scene.Reports report)
    (hbaking : scene.signer.config.mode = .baking) :
    report = .ofState scene.record := by
  have hsame {instruction : Instruction} {frame : Frame} {payload known : Bytes} (raw : Bytes)
      (hcommand : Frame.understood? .baking raw = some (instruction, frame))
      (hpayload : report.payload? instruction = some payload)
      (hknown : (Report.ofState scene.record).payload? instruction = some known) :
      payload = known := by
    let turn : Turn := ⟨Simulated.provider, false, .frame raw⟩
    have hasked : (scene.play turn).command? = some (instruction, frame) := by
      rw [Transition.command?, play_turn, play_before, ← hcommand, ← hbaking]
      rfl
    have hreply := hreports turn _ _ _ hasked hpayload
    cases hreply.symm.trans (scene.reports turn _ _ _ hasked hknown)
    rfl
  ext1
  · exact hsame [0x80, 0x08, 0, 0, 0] rfl rfl rfl
  · exact hsame [0x80, 0x0B, 0, 0, 0] rfl rfl rfl
  · exact hsame [0x80, 0x07, 0, 0, 0] rfl rfl rfl
  · exact hsame [0x80, 0x0D, 0, 0, 0] rfl rfl rfl

end Scene

/-! ## What a report tells -/

/-- A record without what it says about endorsements. -/
def BakingState.unflagged (state : BakingState) : BakingState :=
  { state with main := .atLevel state.main.level, test := .atLevel state.test.level }

theorem Curve.code_injective : Function.Injective code := by
  intro first second heq
  have hread := congrArg ofCode? heq
  rw [ofCode?_code, ofCode?_code] at hread
  exact Option.some.inj hread

namespace Report

/-- A report tells a record: its parts agree with each other, and the record is read from them. -/
structure Tells (report : Report) (state : BakingState) : Prop where
  allMarks : report.allMarks = Bytes.ofUInt32 state.main.level ++ Bytes.ofUInt32 state.test.level
    ++ Bytes.ofUInt32 state.mainChainId
  mainMark : report.mainMark = report.allMarks.take 4
  keyWithCurve : report.keyWithCurve =
    (state.key.elim 0 fun key => key.curve.code) :: report.key
  path : ∀ key, state.key = some key → Path.ofBytes report.key = .ok key.path
  noPath : state.key = none → report.key = [0] ∧ ∀ path, Path.ofBytes report.key ≠ .ok path

theorem tells_ofState {state : BakingState}
    (hpath : ∀ key, state.key = some key → key.path.isEmpty = false) :
    (ofState state).Tells state := by
  refine ⟨rfl, ?_, ?_, fun key hkey => ?_, fun hnone => ?_⟩
  · simp [ofState]
  · cases hkey : state.key <;> simp [ofState, hkey, curveReply, Curve.code]
  · rw [Path.ofBytes_eq_ok_iff]
    exact ⟨hpath key hkey, by simp [ofState, hkey, pathReply]⟩
  · have hzero : (ofState state).key = [0] := by simp [ofState, hnone, pathReply]
    rw [hzero]
    exact ⟨rfl, nofun⟩

namespace Tells

variable {report other : Report} {state otherState : BakingState}

/-- A key is told by its curve and path, and its absence is told from every key. -/
theorem key_eq (htells : report.Tells state) (hother : other.Tells otherState)
    (hkey : report.keyWithCurve = other.keyWithCurve) : state.key = otherState.key := by
  rw [htells.keyWithCurve, hother.keyWithCurve, List.cons.injEq] at hkey
  obtain ⟨hcurve, hpath⟩ := hkey
  cases hfirst : state.key with
  | none =>
      cases hsecond : otherState.key with
      | none => rfl
      | some key =>
          exact absurd (hother.path key hsecond) (hpath ▸ (htells.noPath hfirst).2 key.path)
  | some key =>
      have hread := htells.path key hfirst
      rw [hpath] at hread
      cases hsecond : otherState.key with
      | none => exact absurd hread ((hother.noPath hsecond).2 key.path)
      | some key' =>
          obtain ⟨curve, path⟩ := key
          obtain ⟨curve', path'⟩ := key'
          cases hread.symm.trans (hother.path _ hsecond)
          rw [hfirst, hsecond] at hcurve
          rw [show curve = curve' from Curve.code_injective hcurve]

theorem unflagged_eq (htells : report.Tells state) (hother : other.Tells otherState)
    (hcurrent : state.isCurrent = true) (hotherCurrent : otherState.isCurrent = true)
    (hmarks : report.allMarks = other.allMarks) (hkey : report.keyWithCurve = other.keyWithCurve) :
    state.unflagged = otherState.unflagged := by
  have hversion : state.version = otherState.version :=
    (beq_iff_eq.mp hcurrent).trans (beq_iff_eq.mp hotherCurrent).symm
  have hkeys := htells.key_eq hother hkey
  rw [htells.allMarks, hother.allMarks] at hmarks
  obtain ⟨hlevels, hchain⟩ := List.append_inj hmarks (by simp)
  obtain ⟨hmain, htest⟩ := List.append_inj hlevels (by simp)
  simp [BakingState.unflagged, hversion, hkeys, Bytes.ofUInt32_injective hchain,
    Bytes.ofUInt32_injective hmain, Bytes.ofUInt32_injective htest]

/-- The report of what a setup installs gives the data of its frame back. -/
theorem data_of_install {install : Setup} {frame : Frame}
    (htells : report.Tells (state.install install))
    (hnamed : frame.Names install.key install.words []) :
    report.allMarks.drop 8 ++ report.allMarks.take 8 ++ report.key = frame.data ∧
      report.keyWithCurve.head? = some frame.p2 := by
  obtain ⟨_, hpath⟩ := Path.ofBytes_eq_ok_iff.mp (htells.path install.key rfl)
  constructor
  · rw [htells.allMarks, List.drop_left' (by simp), List.take_left' (by simp), hpath, hnamed.data]
    simp [BakingState.install, Watermark.atLevel, Setup.words]
  · simp [htells.keyWithCurve, BakingState.install, hnamed.curve]

end Tells

end Report

/-! ## From a setup to the next write -/

/-- A store that gives back every record that flash gives back. -/
class FaithfulStore (σ : Type) [BreakableStore σ] : Prop extends SteadyStore σ where
  load_save {state : BakingState} {store after : σ} : state.Storable →
    Store.save state store = .ok after → Store.load after = state

instance {σ : Type} [BreakableStore σ] [LawfulStore σ] : FaithfulStore σ where
  load_save hstate hsave := LawfulStore.load_save (hstate.succeeds _) hsave

namespace Scene

variable {σ : Type} [BreakableStore σ] {scene : Scene σ}

/-- Until something is saved the record stays what it was. -/
theorem Sound.load_follow [SteadyStore σ] (hsound : scene.Sound) {turns : List Turn}
    (hunsaved : ∀ step ∈ scene.trace turns, saved step.journal = []) :
    Store.load (scene.follow turns).signer.store = Store.load scene.signer.store := by
  induction turns generalizing scene with
  | nil => rfl
  | cons turn turns ih =>
      obtain ⟨hnothing, hlater⟩ := List.forall_mem_cons.mp hunsaved
      rw [follow_cons, ih (hsound.play turn).2.1 hlater]
      rcases (hsound.accounts turn).untouched_or_stored with
        ⟨huntouched, _⟩ | ⟨amendment, state, hstored⟩
      · exact load_of_untouched huntouched
      · cases hnothing.symm.trans hstored.saved

section Setup

variable {config : Config} {store : σ} {earlier later : List Turn} {turn : Turn} {install : Setup}
  {state : BakingState}

/-- A setup that is approved was read from the frame just before. -/
theorem asked_of_setup
    (hasked : (((start config store).follow earlier).play turn).amendment? =
      some (.setup install)) :
    ∃ asked frame, ((start config store).trace earlier).getLast? = some asked ∧
      asked.command? = some (.setup, frame) ∧ frame.Names install.key install.words [] := by
  obtain hremoval | ⟨_, hconsensus⟩ | ⟨asked, raw, prompt, action, hlast, hasks, hmade⟩ :=
    asked_of_amendment hasked
  · cases hremoval
  · cases hconsensus
  · rcases hasks.offered with ⟨_, plan, rfl⟩ | ⟨payload, hannounces⟩
    · cases hmade
    · cases hannounces with
      | publicKey => cases hmade
      | authorization => cases hmade
      | reset => cases hmade
      | @setup frame _ _ hcommand hnamed _ =>
          cases hmade
          exact ⟨asked, frame, hlast, (Transition.command?_eq hasks.framed).trans hcommand, hnamed⟩

/-- From the step that stores a setup until the next write the setup is in force. -/
theorem setup_in_force [FaithfulStore σ]
    (hstored : (((start config store).follow earlier).play turn).Stored (.setup install) state)
    (hunsaved : ∀ behind ∈ (((start config store).follow earlier).play turn).scene.trace later,
      saved behind.journal = []) :
    ((start config store).follow (earlier ++ turn :: later)).record =
      (((start config store).follow earlier).play turn).record.install install := by
  have hsound := (sound_start config store).follow earlier
  obtain ⟨_, hsaved, _⟩ := (hsound.accounts turn).of_stored hstored
  obtain ⟨_, _, _, _, hnamed⟩ := asked_of_setup hstored.asked
  have hstorable : state.Storable := by
    rw [← hstored.applied]
    refine ⟨BakingState.isCurrent_checked _, fun key hkey => ?_⟩
    cases hkey
    exact hnamed.path
  have hload : Store.load (((start config store).follow earlier).play turn).scene.signer.store =
      state := FaithfulStore.load_save hstorable hsaved
  rw [record, follow_append, follow_cons, (hsound.play turn).2.1.load_follow hunsaved, hload,
    hstorable.checked_eq, ← hstored.applied]
  rfl

end Setup

end Scene

/-- At any time of a baker's run there is just one report with which the queries are answered. If
a stored key has a path the report tells the checked record: the levels and the main chain, the
main level by itself, and the path of the key without and with its curve. Wherever else a report
has the same marks and the same key with its curve, the record is the same but for the
endorsements. From the approval of a setup that is stored until the next write, the report gives
back the data of the frame that asked for it, and its second parameter. -/
theorem queries_tell_record {σ : Type} [BreakableStore σ] [SteadyStore σ] {config : Config}
    (hbaking : config.mode = .baking) (store : σ) (turns : List Turn) :
    let scene := (Scene.start config store).follow turns
    (∃! report, scene.Reports report) ∧ ∀ report, scene.Reports report →
      ((∀ key, scene.record.key = some key → key.path.isEmpty = false) →
        report.Tells scene.record ∧
        ∀ {τ : Type} [BreakableStore τ] [SteadyStore τ] (other : Scene τ) (found : Report),
          other.signer.config.mode = .baking → other.Reports found →
          (∀ key, other.record.key = some key → key.path.isEmpty = false) →
          report.allMarks = found.allMarks → report.keyWithCurve = found.keyWithCurve →
          scene.record.unflagged = other.record.unflagged) ∧
      (FaithfulStore σ → ∀ earlier approval later install state,
        let step := ((Scene.start config store).follow earlier).play approval
        turns = earlier ++ approval :: later → step.Stored (.setup install) state →
        (∀ behind ∈ step.scene.trace later, saved behind.journal = []) →
        ∃ asked frame, ((Scene.start config store).trace earlier).getLast? = some asked ∧
          asked.command? = some (.setup, frame) ∧
          report.allMarks.drop 8 ++ report.allMarks.take 8 ++ report.key = frame.data ∧
          report.keyWithCurve.head? = some frame.p2) := by
  intro scene
  have hmode : scene.signer.config.mode = .baking := by
    unfold scene
    rw [Scene.follow_config, hbaking]
  refine ⟨⟨_, scene.reports, fun _ hreports => hreports.eq hmode⟩, fun report hreports => ?_⟩
  obtain rfl : report = .ofState scene.record := hreports.eq hmode
  refine ⟨fun hpath => ⟨Report.tells_ofState hpath, ?_⟩, fun hfaithful => ?_⟩
  · intro τ _ _ other found hmode' hfound hpath' hmarks hkey
    obtain rfl : found = .ofState other.record := hfound.eq hmode'
    exact (Report.tells_ofState hpath).unflagged_eq (Report.tells_ofState hpath')
      (BakingState.isCurrent_checked _) (BakingState.isCurrent_checked _) hmarks hkey
  · intro earlier approval later install state step hturns hstored hunsaved
    obtain ⟨asked, frame, hlast, hcommand, hnamed⟩ := Scene.asked_of_setup hstored.asked
    refine ⟨asked, frame, hlast, hcommand, ?_⟩
    have hrecord : scene.record = step.record.install install := by
      unfold scene
      rw [hturns]
      exact Scene.setup_in_force hstored hunsaved
    have hpath : ∀ key, scene.record.key = some key → key.path.isEmpty = false := by
      intro key hkey
      rw [hrecord] at hkey
      cases hkey
      exact hnamed.path
    have htells := Report.tells_ofState hpath
    rw [hrecord] at htells ⊢
    exact htells.data_of_install hnamed

/-- A setup is approved on flash and the store breaks. The queries give the data of the setup back,
and a record in memory that differs by an endorsement is reported alike. -/
theorem queries_tell_record_setup :
    let turn (broken : Bool) (stimulus : Stimulus) : Turn := ⟨Simulated.provider, broken, stimulus⟩
    let data : Bytes := [0x7A, 0x06, 0xA7, 0x70, 0, 0, 0, 10, 0, 0, 0, 20, 1, 0x80, 0, 0, 0x2C]
    let ask : Turn := turn false (.frame ([0x80, 0x0A, 0x00, 0x01, 17] ++ data))
    let approve : Turn := turn false (.answer true)
    let query : Turn := turn true (.frame [0x80, 0x0B, 0x00, 0x00, 0])
    let installed (endorsed : Bool) : BakingState := ⟨1, mainnetChainId, ⟨10, endorsed⟩,
      ⟨20, false⟩, some ⟨.secp256k1, ⟨[0x8000002C], by decide⟩⟩⟩
    let flash : Scene FlashStore := .start .standard ⟨.blank, 0, false⟩
    let memory : Scene MemoryStore := .start .standard (.ofState (installed true))
    ∃ report, (flash.follow [ask, approve, query]).Reports report ∧
      report.Tells (installed false) ∧ memory.Reports report ∧
      (installed false).unflagged = (installed true).unflagged ∧
      report.allMarks.drop 8 ++ report.allMarks.take 8 ++ report.key = data ∧
      report.keyWithCurve.head? = some 1 := by
  intro turn data ask approve query installed flash memory
  have hrecord : (flash.follow [ask, approve, query]).record = installed false := by decide
  have hpath : ∀ key, (installed false).key = some key → key.path.isEmpty = false :=
    fun key hkey => Option.some.inj hkey ▸ rfl
  have hstored : ((flash.follow [ask]).play approve).Stored
      (.setup ⟨⟨.secp256k1, ⟨[0x8000002C], by decide⟩⟩, mainnetChainId, 10, 20⟩)
      (installed false) := ⟨by decide, by decide, by decide⟩
  have hunsaved : ∀ behind ∈ ((flash.follow [ask]).play approve).scene.trace [query],
      saved behind.journal = [] := List.forall_mem_singleton.mpr (by decide)
  have hcommand : (flash.play ask).command? = some (.setup, ⟨0x0A, 0x00, 0x01, data⟩) := by decide
  obtain ⟨⟨report, hreports, _⟩, htold⟩ := queries_tell_record (show Config.standard.mode = .baking
    from rfl) (FlashStore.mk .blank 0 false) [ask, approve, query]
  obtain ⟨htells, hback⟩ := htold report hreports
  rw [hrecord] at htells
  obtain ⟨htells, hsame⟩ := htells hpath
  have hreport : report = .ofState (installed false) := by
    have heq := hreports.eq (congrArg Config.mode (Scene.follow_config .standard _ _))
    rwa [hrecord] at heq
  have hmemory : memory.Reports report := by
    rw [hreport]
    exact memory.reports
  obtain ⟨_, frame, hasked, hframe, hdata, hcurve⟩ :=
    hback inferInstance [ask] approve [query] _ _ rfl hstored hunsaved
  cases hasked
  cases hcommand.symm.trans hframe
  have hunflagged : (installed false).unflagged = (installed true).unflagged :=
    hsame memory report rfl hmemory (fun key hkey => Option.some.inj hkey ▸ rfl) rfl rfl
  exact ⟨report, hreports, htells, hmemory, hunflagged, hdata, hcurve⟩

end TezosSigner
