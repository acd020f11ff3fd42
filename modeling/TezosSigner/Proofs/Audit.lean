import TezosSigner.Proofs.Amendment
import TezosSigner.Proofs.Image
import TezosSigner.Proofs.Numeral
import TezosSigner.Proofs.Path

/-!
# The log as an audit trail

The informative records of a log are about changes, rejections apart, and each names its
change by its text. As what is stored is logged and nothing else is, such records and the
changes of the store go together, one for one and with the same levels and chains.
-/

namespace TezosSigner

open Hash

/-- What is collected of a log: how much each record matters, and its text. -/
def records (journal : List Event) : List (LogLevel × String) :=
  journal.filterMap fun
    | .log event => some (event.level, event.text)
    | _ => none

/-- Whether a record is informative, and no rejection. -/
def audited (record : LogLevel × String) : Bool :=
  record.1 == .info && record.2 != "rejected by user"

def Transition.audit {σ : Type} (step : Transition σ) : List (LogLevel × String) :=
  (records step.journal).filter audited

namespace LogEvent

section Texts

variable (chain : Chain) (level mainChainId : UInt32)

theorem text_markRaised : (markRaised chain level).text =
    "high-water mark on " ++ (chain.name ++ (" chain now " ++ Text.decimal level.toNat)) := by
  rw [← String.append_assoc, ← String.append_assoc]
  rfl

theorem text_marksReset : (marksReset level).text =
    "high-water marks reset to " ++ Text.decimal level.toNat := rfl

theorem text_installed : (installed mainChainId).text =
    "baking set up with chain " ++ Text.hex (Bytes.ofUInt32 mainChainId) := rfl

end Texts

/-- The sixteenth character of a notice's text, which tells what kind of change it is about. -/
def token : LogEvent → Char
  | .markRaised .. => ' '
  | .marksReset _ => 's'
  | .installed _ => 'i'
  | .keyAuthorized => 'o'
  | _ => 'v'

variable {event first second : LogEvent}

theorem getElem?_text (hnotice : event.isNotice = true) :
    event.text.toList[15]? = some event.token := by
  cases event <;> cases hnotice
  case markRaised chain level =>
    rw [text_markRaised, String.toList_append]
    rfl
  case marksReset level =>
    rw [text_marksReset, String.toList_append]
    rfl
  case installed mainChainId =>
    rw [text_installed, String.toList_append]
    rfl
  case keyAuthorized => rfl
  case keyRemoved => rfl

theorem name_append_inj {chain other : Chain} {text otherText : String}
    (heq : chain.name ++ text = other.name ++ otherText) : chain = other ∧ text = otherText := by
  cases chain <;> cases other
  case main.test => simpa [Chain.name] using congrArg String.toList heq
  case test.main => simpa [Chain.name] using congrArg String.toList heq
  all_goals exact ⟨rfl, (String.append_right_inj _).mp heq⟩

/-- A notice is known by its text. -/
theorem text_inj (hfirst : first.isNotice = true) (hsecond : second.isNotice = true)
    (heq : first.text = second.text) : first = second := by
  have htoken : first.token = second.token := by
    apply Option.some.inj
    rw [← getElem?_text hfirst, ← getElem?_text hsecond, heq]
  cases first <;> cases hfirst <;> cases second <;> cases hsecond
  case markRaised.refl.markRaised.refl chain level other otherLevel =>
    rw [text_markRaised, text_markRaised, String.append_right_inj] at heq
    obtain ⟨rfl, htail⟩ := name_append_inj heq
    rw [UInt32.toNat_inj.mp (Text.decimal_injective ((String.append_right_inj _).mp htail))]
  case marksReset.refl.marksReset.refl level other =>
    rw [text_marksReset, text_marksReset, String.append_right_inj] at heq
    rw [UInt32.toNat_inj.mp (Text.decimal_injective heq)]
  case installed.refl.installed.refl mainChainId other =>
    rw [text_installed, text_installed, String.append_right_inj] at heq
    rw [Bytes.ofUInt32_injective (Text.hex_injective heq)]
  all_goals first | rfl | cases htoken

/-- The notices are the informative records that are no rejections. -/
theorem isNotice_iff : event.isNotice = true ↔
    event.level = .info ∧ event.text ≠ "rejected by user" := by
  constructor
  · intro hnotice
    refine ⟨?_, fun hrejected => ?_⟩
    · cases event <;> cases hnotice <;> rfl
    · have htoken := getElem?_text hnotice
      rw [hrejected] at htoken
      cases event <;> cases hnotice <;> cases htoken
  · rintro ⟨hlevel, htext⟩
    cases event <;> cases hlevel
    case rejected.refl => exact absurd rfl htext
    all_goals rfl

theorem audited_eq (event : LogEvent) : audited (event.level, event.text) = event.isNotice := by
  rw [Bool.eq_iff_iff, isNotice_iff, audited, Bool.and_eq_true, beq_iff_eq, bne_iff_ne]

end LogEvent

section Audit

variable {σ : Type} {step : Transition σ}

/-- The audit shows what the entries of the journal say. -/
theorem audit_eq (step : Transition σ) : step.audit = records (entries step.journal) := by
  unfold Transition.audit
  induction step.journal with
  | nil => rfl
  | cons event journal ih =>
      cases event with
      | signing key message => exact ih
      | stored state => exact ih
      | log event =>
          have haudited := event.audited_eq
          cases hnotice : event.isNotice with
          | true =>
              rw [hnotice] at haudited
              rw [entries_notice hnotice]
              exact (List.filter_cons_of_pos haudited).trans (congrArg _ ih)
          | false =>
              rw [hnotice] at haudited
              have hskipped : entries (.log event :: journal) = entries journal :=
                List.filter_cons_of_neg (Bool.eq_false_iff.mp hnotice)
              rw [hskipped]
              exact (List.filter_cons_of_neg (Bool.eq_false_iff.mp haudited)).trans ih

variable [Store σ] {amendment : Amendment} {state : BakingState}

theorem audit_of_stored (haccounts : step.Accounts) (hstored : step.Stored amendment state) :
    step.audit = [(.info, (amendment.notice step.record).text)] := by
  have hlevel := (LogEvent.isNotice_iff.mp (amendment.isNotice_notice step.record)).1
  rw [audit_eq, (haccounts.of_stored hstored).2.2, ← hlevel]
  rfl

/-- A notice is collected just behind the change that it is about. -/
theorem mem_audit_iff (haccounts : step.Accounts) {event : LogEvent}
    (hnotice : event.isNotice = true) : (.info, event.text) ∈ step.audit ↔
      ∃ amendment state, step.Stored amendment state ∧ amendment.notice step.record = event := by
  constructor
  · intro hmem
    rcases haccounts.untouched_or_stored with ⟨_, hentries⟩ | ⟨amendment, state, hstored⟩
    · rw [audit_eq, hentries] at hmem
      cases hmem
    · rw [audit_of_stored haccounts hstored, List.mem_singleton, Prod.mk.injEq] at hmem
      refine ⟨amendment, state, hstored, ?_⟩
      exact (LogEvent.text_inj hnotice (amendment.isNotice_notice _) hmem.2).symm
  · rintro ⟨amendment, state, hstored, rfl⟩
    rw [audit_of_stored haccounts hstored]
    exact List.mem_singleton_self _

/-- What is said about a mark is what the stored record holds. -/
theorem mem_audit_markRaised_iff (haccounts : step.Accounts) {chain : Chain} {level : UInt32} :
    (.info, (LogEvent.markRaised chain level).text) ∈ step.audit ↔
      ∃ data state, step.Stored (.consensus data) state ∧
        step.record.chainFor data.chainId = chain ∧ (state.mark chain).level = level := by
  rw [mem_audit_iff haccounts rfl]
  constructor
  · rintro ⟨amendment, state, hstored, hnotice⟩
    cases amendment <;> cases hnotice
    refine ⟨_, state, hstored, rfl, ?_⟩
    rw [← hstored.applied]
    exact congrArg Watermark.level (BakingState.mark_setMark _ _ _)
  · rintro ⟨data, state, hstored, rfl, rfl⟩
    refine ⟨_, state, hstored, ?_⟩
    rw [← hstored.applied]
    exact congrArg (LogEvent.markRaised _ ·.level) (BakingState.mark_setMark _ _ data.mark).symm

theorem mem_audit_marksReset_iff (haccounts : step.Accounts) {level : UInt32} :
    (.info, (LogEvent.marksReset level).text) ∈ step.audit ↔
      ∃ asked state, step.Stored (.reset asked) state ∧
        state.main.level = level ∧ state.test.level = level := by
  rw [mem_audit_iff haccounts rfl]
  constructor
  · rintro ⟨amendment, state, hstored, hnotice⟩
    cases amendment <;> cases hnotice
    refine ⟨_, state, hstored, ?_⟩
    rw [← hstored.applied]
    exact ⟨rfl, rfl⟩
  · rintro ⟨asked, state, hstored, rfl, _⟩
    refine ⟨_, state, hstored, ?_⟩
    rw [← hstored.applied]
    rfl

theorem mem_audit_installed_iff (haccounts : step.Accounts) {mainChainId : UInt32} :
    (.info, (LogEvent.installed mainChainId).text) ∈ step.audit ↔
      ∃ install state, step.Stored (.setup install) state ∧ state.mainChainId = mainChainId := by
  rw [mem_audit_iff haccounts rfl]
  constructor
  · rintro ⟨amendment, state, hstored, hnotice⟩
    cases amendment <;> cases hnotice
    refine ⟨_, state, hstored, ?_⟩
    rw [← hstored.applied]
    rfl
  · rintro ⟨install, state, hstored, rfl⟩
    refine ⟨_, state, hstored, ?_⟩
    rw [← hstored.applied]
    rfl

theorem mem_audit_keyAuthorized_iff (haccounts : step.Accounts) :
    (.info, LogEvent.keyAuthorized.text) ∈ step.audit ↔
      ∃ key state, step.Stored (.authorization key) state := by
  rw [mem_audit_iff haccounts rfl]
  constructor
  · rintro ⟨amendment, state, hstored, hnotice⟩
    cases amendment <;> cases hnotice
    exact ⟨_, state, hstored⟩
  · rintro ⟨key, state, hstored⟩
    exact ⟨_, state, hstored, rfl⟩

theorem mem_audit_keyRemoved_iff (haccounts : step.Accounts) :
    (.info, LogEvent.keyRemoved.text) ∈ step.audit ↔ ∃ state, step.Stored .removal state := by
  rw [mem_audit_iff haccounts rfl]
  constructor
  · rintro ⟨amendment, state, hstored, hnotice⟩
    cases amendment <;> cases hnotice
    exact ⟨state, hstored⟩
  · rintro ⟨state, hstored⟩
    exact ⟨_, state, hstored, rfl⟩

theorem audit_of_failed (haccounts : step.Accounts) {response : Response}
    (houtcome : step.outcome = some (.reply response)) (hstatus : response.status ≠ .ok) :
    step.audit = [] ∨ ∃ key message, (key, message) ∈ step.signings ∧
      step.turn.keys.sign key message = .error response.status := by
  cases haccounts with
  | kept _ hentries =>
      rw [audit_eq, hentries]
      exact Or.inl rfl
  | made _ _ _ _ _ hfailed => exact Or.inr (hfailed response houtcome hstatus)

end Audit

/-- In every step of a run the store is replaced as often as there are informative records other
than a rejection, which is once at most, and such a record names what was stored: a raised mark
its chain and level, a reset its level, a setup its main chain, and an authorization and a removal
themselves. What was stored is what is loaded afterwards. There is no such record where the store
refuses what the step would have stored or the step would store nothing, nor where a request has
failed, unless its mark had been stored by the time that the keys failed to sign. -/
theorem changes_logged {σ : Type} [CountedStore σ] [LawfulCount σ] (config : Config) (store : σ)
    (earlier : List Turn) (turn : Turn) :
    let run := (Scene.start config store).trace earlier
    let step := ((Scene.start config store).follow earlier).play turn
    CountedStore.writes step.after.store =
      CountedStore.writes step.before.store + step.audit.length ∧
    (saved step.journal).length = step.audit.length ∧
    (∀ chain level, (.info, (LogEvent.markRaised chain level).text) ∈ step.audit ↔
      ∃ data state, step.Stored (.consensus data) state ∧
        step.record.chainFor data.chainId = chain ∧ (state.mark chain).level = level) ∧
    (∀ level, (.info, (LogEvent.marksReset level).text) ∈ step.audit ↔
      ∃ asked state, step.Stored (.reset asked) state ∧
        state.main.level = level ∧ state.test.level = level) ∧
    (∀ mainChainId, (.info, (LogEvent.installed mainChainId).text) ∈ step.audit ↔
      ∃ install state, step.Stored (.setup install) state ∧ state.mainChainId = mainChainId) ∧
    ((.info, LogEvent.keyAuthorized.text) ∈ step.audit ↔
      ∃ key state, step.Stored (.authorization key) state) ∧
    ((.info, LogEvent.keyRemoved.text) ∈ step.audit ↔ ∃ state, step.Stored .removal state) ∧
    (∀ amendment state, step.Stored amendment state →
      Store.save state step.before.store = .ok step.after.store ∧
      (LawfulStore σ → Store.load step.after.store = state)) ∧
    ((∀ state, step.Amends run state → ∀ after, Store.save state step.before.store ≠ .ok after) →
      step.audit = []) ∧
    ∀ response, step.outcome = some (.reply response) → response.status ≠ .ok →
      step.audit = [] ∨ ∃ key message, (key, message) ∈ step.signings ∧
        step.turn.keys.sign key message = .error response.status := by
  intro run step
  have haccounts : step.Accounts :=
    ((Scene.sound_start config store).follow earlier).accounts turn
  have hcount : CountedStore.writes step.after.store =
      CountedStore.writes step.before.store + step.audit.length ∧
      (saved step.journal).length = step.audit.length := by
    rcases haccounts.untouched_or_stored with ⟨huntouched, hentries⟩ | ⟨amendment, state, hstored⟩
    · rw [huntouched.1, huntouched.2, audit_eq, hentries]
      exact ⟨rfl, rfl⟩
    · rw [audit_of_stored haccounts hstored, hstored.saved]
      exact ⟨LawfulCount.writes_save (haccounts.of_stored hstored).2.1, rfl⟩
  refine ⟨hcount.1, hcount.2, fun _ _ => mem_audit_markRaised_iff haccounts,
    fun _ => mem_audit_marksReset_iff haccounts, fun _ => mem_audit_installed_iff haccounts,
    mem_audit_keyAuthorized_iff haccounts, mem_audit_keyRemoved_iff haccounts,
    fun amendment state hstored => ?_, fun hrefused => ?_,
    fun response houtcome hstatus => audit_of_failed haccounts houtcome hstatus⟩
  · have hsaved := (haccounts.of_stored hstored).2.1
    exact ⟨hsaved, fun _ =>
      (Scene.remembers_play config store earlier turn).load_eq hstored.saved⟩
  · rcases haccounts.untouched_or_stored with ⟨_, hentries⟩ | ⟨amendment, state, hstored⟩
    · rw [audit_eq, hentries]
      rfl
    · -- What has been stored was about to be, so the store has not refused it.
      have hsaved := hstored.saved
      rcases Scene.untouched_or_amends config store earlier turn with
        ⟨_, hnothing⟩ | ⟨made, hamends⟩
      · cases hnothing.symm.trans hsaved
      · cases hsave : Store.save made step.before.store with
        | ok after => exact absurd hsave (hrefused made hamends after)
        | error status =>
            obtain ⟨_, _, hnothing⟩ := (Scene.replaces_of_amends hamends).refused status hsave
            cases hnothing.symm.trans hsaved

/-- A reset that is approved is the one change of its step, and the log names its level, in memory
and on flash; while the store is broken nothing is said. -/
theorem changes_logged_reset :
    let turn (broken : Bool) (stimulus : Stimulus) : Turn := ⟨Simulated.provider, broken, stimulus⟩
    let ask : Turn := turn false (.frame [0x80, 0x06, 0x00, 0x00, 4, 0, 0, 0, 9])
    let memory := (Scene.start .standard (MemoryStore.ofState .fresh)).follow [ask]
    let flash := (Scene.start .standard (FlashStore.mk .blank 0 false)).follow [ask]
    let step (broken : Bool) := memory.play (turn broken (.answer true))
    let flashed := flash.play (turn false (.answer true))
    (step false).audit = [(.info, "high-water marks reset to 9")] ∧
      (step false).after.store.writes = 1 ∧
      (∃ asked state, (step false).Stored (.reset asked) state ∧
        state.main.level = 9 ∧ state.test.level = 9 ∧
        Store.load (step false).after.store = state) ∧
      (step true).audit = [] ∧
      flashed.audit = [(.info, "high-water marks reset to 9")] ∧
      ∃ asked state, flashed.Stored (.reset asked) state ∧
        state.main.level = 9 ∧ state.test.level = 9 ∧ Store.load flashed.after.store = state := by
  intro turn ask memory flash step flashed
  have hreset {σ : Type} [CountedStore σ] [LawfulCount σ] [LawfulStore σ] (store : σ) :
      let step := ((Scene.start .standard store).follow [ask]).play (turn false (.answer true))
      step.audit = [(.info, (LogEvent.marksReset 9).text)] →
        ∃ asked state, step.Stored (.reset asked) state ∧ state.main.level = 9 ∧
          state.test.level = 9 ∧ Store.load step.after.store = state := by
    intro step haudit
    obtain ⟨_, _, _, hreset, _, _, _, hload, _, _⟩ :=
      changes_logged .standard store [ask] (turn false (.answer true))
    have hnamed : (.info, (LogEvent.marksReset 9).text) ∈ step.audit := by
      rw [haudit]
      exact List.mem_singleton_self _
    obtain ⟨asked, state, hstored, hmain, htest⟩ := (hreset 9).mp hnamed
    exact ⟨asked, state, hstored, hmain, htest, (hload _ _ hstored).2 inferInstance⟩
  have hwrites := (changes_logged .standard (MemoryStore.ofState .fresh) [ask]
    (turn false (.answer true))).1
  have hbroken := changes_logged .standard (MemoryStore.ofState .fresh) [ask]
    (turn true (.answer true))
  have haudit : (step false).audit = [(.info, "high-water marks reset to 9")] := by decide
  have haudit' : flashed.audit = [(.info, "high-water marks reset to 9")] := by decide
  refine ⟨haudit, ?_, hreset _ haudit, ?_, haudit', hreset _ haudit'⟩
  · exact hwrites.trans (by rw [haudit]; rfl)
  · exact hbroken.2.2.2.2.2.2.2.2.1 fun _ _ _ => nofun

end TezosSigner
