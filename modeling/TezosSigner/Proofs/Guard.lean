import TezosSigner.Proofs.Quiet

/-!
# The guard on consensus messages

Marks are ordered by level, and at one level the endorsement comes behind the
block. The guard allows exactly what comes behind the mark of its chain, and
what it allows becomes the new mark; it is stored before anything is signed.
-/

namespace TezosSigner

namespace Watermark

/-- One mark comes before another: it is lower, or the other one adds the endorsement
of the same level. -/
def Precedes (earlier later : Watermark) : Prop :=
  earlier.level < later.level ∨
    earlier.level = later.level ∧ earlier.hadEndorsement = false ∧ later.hadEndorsement = true

theorem Precedes.trans {first second third : Watermark} (hfirst : first.Precedes second)
    (hsecond : second.Precedes third) : first.Precedes third := by
  rcases hfirst with hlower | ⟨hlevel, hclear, hset⟩
  · rcases hsecond with hlower' | ⟨hlevel', _, _⟩
    · exact Or.inl (UInt32.lt_trans hlower hlower')
    · exact Or.inl (hlevel' ▸ hlower)
  · rcases hsecond with hlower' | ⟨_, hclear', _⟩
    · exact Or.inl (hlevel ▸ hlower')
    · rw [hset] at hclear'
      cases hclear'

theorem Precedes.level_le {earlier later : Watermark} (hprecedes : earlier.Precedes later) :
    earlier.level ≤ later.level := by
  rcases hprecedes with hlower | ⟨hsame, _⟩
  · exact UInt32.le_of_lt hlower
  · exact UInt32.le_of_eq hsame

end Watermark

/-- The mark that a signed message leaves behind. -/
def ConsensusData.mark (data : ConsensusData) : Watermark := ⟨data.level, data.isEndorsement⟩

namespace BakingState

variable (state : BakingState)

/-- The state once a message has been signed that the guard allows. -/
def raised (data : ConsensusData) : BakingState :=
  state.setMark (state.chainFor data.chainId) data.mark

@[simp] theorem mark_setMark (chain : Chain) (mark : Watermark) :
    (state.setMark chain mark).mark chain = mark := by
  cases chain <;> rfl

theorem mark_setMark_of_ne {chain other : Chain} (hne : other ≠ chain) (mark : Watermark) :
    (state.setMark chain mark).mark other = state.mark other := by
  cases chain <;> cases other <;> first | rfl | exact absurd rfl hne

@[simp] theorem isCurrent_setMark (chain : Chain) (mark : Watermark) :
    (state.setMark chain mark).isCurrent = state.isCurrent := by
  cases chain <;> rfl

@[simp] theorem isCurrent_raised (data : ConsensusData) :
    (state.raised data).isCurrent = state.isCurrent :=
  state.isCurrent_setMark _ _

@[simp] theorem mark_authorize (key : KeyId) (chain : Chain) :
    (state.authorize key).mark chain = state.mark chain := by
  cases chain <;> rfl

@[simp] theorem mark_deauthorize (chain : Chain) :
    state.deauthorize.mark chain = state.mark chain := by
  cases chain <;> rfl

/-- A record that has been checked is of the current layout. -/
@[simp] theorem isCurrent_checked : state.checked.isCurrent = true := by
  unfold checked
  split
  next hcurrent => exact hcurrent
  next => rfl

theorem checked_of_isCurrent (hcurrent : state.isCurrent = true) : state.checked = state :=
  if_pos hcurrent

/-- The guard allows valid levels behind the mark, and nothing else. -/
theorem allows_iff (chain : Chain) (data : ConsensusData) :
    state.allows chain data.level data.isEndorsement = true ↔
      isValidLevel data.level = true ∧ (state.mark chain).Precedes data.mark := by
  simp only [allows, Watermark.Precedes, ConsensusData.mark, Bool.and_eq_true, Bool.or_eq_true,
    decide_eq_true_eq, beq_iff_eq, Bool.not_eq_true', gt_iff_lt, and_assoc]
  rw [eq_comm (a := data.level), and_comm (a := data.isEndorsement = true)]

/-- Recording what the guard allows makes it the mark of its chain, whatever the mark was. -/
theorem recordSigned_of_allows {data : ConsensusData}
    (hallows : state.allows (state.chainFor data.chainId) data.level data.isEndorsement = true) :
    state.recordSigned data = .ok (state.raised data) := by
  obtain ⟨hvalid, hprecedes⟩ := (state.allows_iff _ data).mp hallows
  -- The guard allows no level below the mark, so the larger level is the new one.
  have hmax : max (state.mark (state.chainFor data.chainId)).level data.level = data.level :=
    if_pos hprecedes.level_le
  rw [recordSigned, if_pos hvalid]
  dsimp only
  rw [hmax]
  rfl

end BakingState

namespace Command

variable {σ : Type} [Store σ]

/-- The guard either refuses and only logs, or it has stored the raised mark. -/
theorem authorizeAndCommit_ends {key : KeyId} {data : ConsensusData} {before : Workspace σ}
    {post : Except Status Unit → Workspace σ → Prop} {state : BakingState}
    (hstate : (Store.load before.store).checked = state)
    (hrefused : ∀ status after, before.Logged after → post (.error status) after)
    (hstored : ∀ store middle, before.Logged middle → state.authorizes key = true →
      state.allows (state.chainFor data.chainId) data.level data.isEndorsement = true →
      Store.save (state.raised data) before.store = .ok store →
      post (.ok ()) ⟨before.session, store, middle.journal ++ [.stored (state.raised data),
        .log (.markRaised (state.chainFor data.chainId) data.level)]⟩) :
    Ends (authorizeAndCommit key data) before post := by
  have hloaded := Workspace.Logged.log before
    (isNotice_of_mem_loadingLogs (Store.load before.store))
  have hwarned {event : LogEvent} (hevent : event.isNotice = false) :=
    hloaded.trans (Workspace.Logged.log _ (List.forall_mem_singleton.mpr hevent))
  unfold authorizeAndCommit
  simp only [ends_bind, ends_loadState, hstate, ends_ite, ends_log, ends_throw, ends_ofExcept]
  refine ⟨fun hauthorizes => ⟨fun hallows => ?_, fun _ => hrefused _ _ (hwarned rfl)⟩,
    fun _ => hrefused _ _ (hwarned rfl)⟩
  rw [state.recordSigned_of_allows hallows]
  simp only [ends_saveState]
  split
  next store hsave => exact hstored store _ hloaded hauthorizes hallows hsave
  next status _ => exact hrefused _ _ hloaded

end Command

end TezosSigner
