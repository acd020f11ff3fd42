import TezosSigner.Proofs.Approval
import TezosSigner.Proofs.Offer
import TezosSigner.Proofs.Path

/-!
# Prompts about keys and settings

A frame that names a key or asks for new marks is announced to the user by the values of
its action. Each of these values can be read back from its text, so such prompts are equal
only if they are about the same matter, and what has been approved is answered with the key
whose account was shown.
-/

namespace TezosSigner

open Command

/-! ## What the shown values tell -/

/-- The text of a chain identifier that has no name is too long for a word. -/
theorem chainCheck_ne {bytes : Bytes} (hshort : bytes.length < 7) (chainId : UInt32) :
    Text.base58Check [0x57, 0x52, 0x00] (Bytes.ofUInt32 chainId) ≠ Text.base58 bytes := by
  intro heq
  have hlength := congrArg List.length (Text.base58_injective heq)
  simp only [List.length_append, List.length_cons, List.length_nil, Bytes.length_ofUInt32]
    at hlength
  omega

/-- The words for any chain and for the main network are the texts of three and of six bytes. -/
theorem chainText_injective : Function.Injective chainText := by
  have hany : Text.base58 [0x01, 0xBC, 0x0E] = "any" := by decide
  have hmainnet : Text.base58 [0x01, 0x8B, 0x26, 0x54, 0x85, 0x21] = "mainnet" := by decide
  have hne_any := chainCheck_ne (show [0x01, 0xBC, 0x0E].length < 7 by decide)
  have hne_mainnet :=
    chainCheck_ne (show [0x01, 0x8B, 0x26, 0x54, 0x85, 0x21].length < 7 by decide)
  rw [hany] at hne_any
  rw [hmainnet] at hne_mainnet
  intro first second heq
  unfold chainText at heq
  -- Each word is told from the other at sight and from an identifier by its length.
  split_ifs at heq with hfirst hsecond hsecond' hfirst' hsecond hsecond' hsecond hsecond'
  · rw [hfirst, hsecond]
  · simp at heq
  · exact absurd heq.symm (hne_any second)
  · simp at heq
  · rw [hfirst', hsecond']
  · exact absurd heq.symm (hne_mainnet second)
  · exact absurd heq (hne_any first)
  · exact absurd heq (hne_mainnet first)
  · have hbytes := Text.base58Check_inj (by simp) heq
    exact Bytes.ofUInt32_injective (List.append_cancel_left hbytes)

theorem levelText_inj {first second : UInt32}
    (heq : Text.decimal first.toNat = Text.decimal second.toNat) : first = second :=
  UInt32.toNat_inj.mp (Text.decimal_injective heq)

/-- What a prompt about keys and settings is about. -/
inductive Matter where
  /-- A key is handed to the host. -/
  | publicKey (account : Contract)
  /-- A key becomes the baking key. -/
  | authorization (account : Contract)
  | setup (account : Contract) (mainChainId mainLevel testLevel : UInt32)
  | reset (level : UInt32)
deriving DecidableEq

namespace Matter

/-- The prompt that shows a matter. -/
def prompt : Matter → Prompt
  | .publicKey account => .providePublicKey account.text
  | .authorization account => .authorizeBaking account.text
  | .setup account mainChainId mainLevel testLevel =>
      .setup account.text mainChainId mainLevel testLevel
  | .reset level => .reset level

/-- Each sort of matter has its own title. -/
theorem prompt_title (matter : Matter) :
    matter.prompt.title =
      match matter with
      | .publicKey _ => "Provide Public Key"
      | .authorization _ => "Authorize Baking With Public Key?"
      | .setup .. => "Setup Baking?"
      | .reset _ => "Reset HWM" := by
  cases matter <;> rfl

theorem prompt_injective : Function.Injective prompt := by
  intro first second heq
  -- Matters of different sorts differ in title; within a sort the values are read back.
  have htitle := first.prompt_title
  rw [heq, second.prompt_title] at htitle
  have hfields := congrArg Prompt.fields heq
  cases first with
  | publicKey account =>
      cases second with
      | publicKey account' =>
          simp only [prompt, Prompt.providePublicKey, List.cons.injEq, Field.mk.injEq, true_and,
            and_true] at hfields
          rw [Contract.text_injective hfields]
      | _ => simp at htitle
  | authorization account =>
      cases second with
      | authorization account' =>
          simp only [prompt, Prompt.authorizeBaking, List.cons.injEq, Field.mk.injEq, true_and,
            and_true] at hfields
          rw [Contract.text_injective hfields]
      | _ => simp at htitle
  | setup account mainChainId mainLevel testLevel =>
      cases second with
      | setup account' mainChainId' mainLevel' testLevel' =>
          simp only [prompt, Prompt.setup, List.cons.injEq, Field.mk.injEq, true_and, and_true]
            at hfields
          obtain ⟨haccount, hchain, hmain, htest⟩ := hfields
          rw [Contract.text_injective haccount, chainText_injective hchain, levelText_inj hmain,
            levelText_inj htest]
      | _ => simp at htitle
  | reset level =>
      cases second with
      | reset level' =>
          simp only [prompt, Prompt.reset, List.cons.injEq, Field.mk.injEq, true_and, and_true]
            at hfields
          rw [levelText_inj hfields]
      | _ => simp at htitle

end Matter

/-- What an action is about, as far as its prompt tells. A signature is about an operation. -/
def PendingAction.matter? : PendingAction → Option Matter
  | .providePublicKey publicKey => some (.publicKey (.ofKey publicKey))
  | .authorizeBaking _ publicKey => some (.authorization (.ofKey publicKey))
  | .setup install publicKey =>
      some (.setup (.ofKey publicKey) install.mainChainId install.mainLevel install.testLevel)
  | .reset level => some (.reset level)
  | .sign _ => none

/-- The public key that an action hands to the host. -/
def PendingAction.publicKey? : PendingAction → Option PublicKey
  | .providePublicKey publicKey => some publicKey
  | .authorizeBaking _ publicKey => some publicKey
  | .setup _ publicKey => some publicKey
  | .reset _ | .sign _ => none

/-- A public key is short enough for its length to be told by one byte. -/
theorem PublicKey.length_toBytes_le (key : PublicKey) : key.toBytes.length ≤ 65 := by
  cases key with
  | ed25519 compressed => simp [toBytes, compressed.property]
  | secp256k1 point => simp [toBytes, point.property]
  | secp256r1 point => simp [toBytes, point.property]

theorem PublicKey.reply_eq (key : PublicKey) :
    ∃ count : UInt8, key.reply = count :: key.toBytes ∧ count.toNat = key.toBytes.length :=
  ⟨_, rfl, UInt8.toNat_ofNat_of_lt' (Nat.lt_of_le_of_lt key.length_toBytes_le (by decide))⟩

/-! ## What a frame has announced -/

/-- A frame names a key: the curve by its second parameter, and the path somewhere in its data. -/
structure Frame.Names (frame : Frame) (key : KeyId) (front rest : Bytes) : Prop where
  parameter : frame.p1 = 0
  curve : frame.p2 = key.curve.code
  path : key.path.isEmpty = false
  data : frame.data = front ++ key.path.toBytes ++ rest

/-- The words of a setup that stand in front of its path. -/
def Setup.words (setup : Setup) : Bytes :=
  Bytes.ofUInt32 setup.mainChainId ++ Bytes.ofUInt32 setup.mainLevel
    ++ Bytes.ofUInt32 setup.testLevel

/-- What a frame has announced: a prompt, the action behind it, and the payload that answers its
approval. -/
inductive Announces (keys : KeyProvider) (mode : Mode) (raw : Bytes) :
    Prompt → PendingAction → Bytes → Prop where
  | publicKey {frame : Frame} {key : KeyId} {publicKey : PublicKey} {rest : Bytes}
      (command : Frame.understood? mode raw = some (.publicKey true, frame))
      (named : frame.Names key [] rest) (derived : keys.publicKey key = .ok publicKey) :
      Announces keys mode raw (.providePublicKey publicKey.address) (.providePublicKey publicKey)
        publicKey.reply
  | authorization {frame : Frame} {key : KeyId} {publicKey : PublicKey} {rest : Bytes}
      (command : Frame.understood? mode raw = some (.authorizeBaking, frame))
      (named : frame.Names key [] rest) (derived : keys.publicKey key = .ok publicKey) :
      Announces keys mode raw (.authorizeBaking publicKey.address)
        (.authorizeBaking key publicKey) publicKey.reply
  | setup {frame : Frame} {install : Setup} {publicKey : PublicKey}
      (command : Frame.understood? mode raw = some (.setup, frame))
      (named : frame.Names install.key install.words [])
      (derived : keys.publicKey install.key = .ok publicKey) :
      Announces keys mode raw
        (.setup publicKey.address install.mainChainId install.mainLevel install.testLevel)
        (.setup install publicKey) publicKey.reply
  | reset {frame : Frame} {level : UInt32}
      (command : Frame.understood? mode raw = some (.reset, frame))
      (data : frame.data = Bytes.ofUInt32 level) (valid : isValidLevel level = true) :
      Announces keys mode raw (.reset level) (.reset level) []

/-- A store that takes any record. -/
def Store.Works {σ : Type} [Store σ] (store : σ) : Prop :=
  ∀ state, ∃ after, Store.save state store = .ok after

/-- What is announced is shown as what the action is about. -/
theorem Announces.matter {keys : KeyProvider} {mode : Mode} {raw : Bytes} {prompt : Prompt}
    {action : PendingAction} {payload : Bytes}
    (hannounces : Announces keys mode raw prompt action payload) :
    ∃ matter, action.matter? = some matter ∧ prompt = matter.prompt := by
  cases hannounces with
  | publicKey => exact ⟨_, rfl, rfl⟩
  | authorization => exact ⟨_, rfl, rfl⟩
  | setup => exact ⟨_, rfl, rfl⟩
  | reset => exact ⟨_, rfl, rfl⟩

/-- Data that begin with three words are read as the words of a setup. -/
theorem Setup.words_append_drop {setup : Setup} {data : Bytes} (hlength : 12 ≤ data.length)
    (hchain : setup.mainChainId = Bytes.toUInt32 ((data.drop 0).take 4))
    (hmain : setup.mainLevel = Bytes.toUInt32 ((data.drop 4).take 4))
    (htest : setup.testLevel = Bytes.toUInt32 ((data.drop 8).take 4)) :
    setup.words ++ data.drop 12 = data := by
  have hfirst := Bytes.drop_eq_word_append (show 0 + 4 ≤ data.length by omega)
  have hsecond := Bytes.drop_eq_word_append (show 4 + 4 ≤ data.length by omega)
  have hthird := Bytes.drop_eq_word_append (show 8 + 4 ≤ data.length by omega)
  rw [words, hchain, hmain, htest, List.append_assoc, List.append_assoc, ← hthird, ← hsecond,
    ← hfirst, List.drop_zero]

namespace Command

variable {σ : Type} {mode : Mode} {raw : Bytes} {frame : Frame}

/-- What is offered for approval is a signature of an operation, or it has been announced. -/
def Offered (keys : KeyProvider) (mode : Mode) (raw : Bytes) (prompt : Prompt)
    (action : PendingAction) : Prop :=
  (prompt.kind = .operation ∧ ∃ plan, action = .sign plan) ∨
    ∃ payload, Announces keys mode raw prompt action payload

theorem offered_providePublicKey (keys : KeyProvider) (display : Bool)
    (hcommand : Frame.understood? mode raw = some (.publicKey display, frame)) :
    Offers (Offered keys mode raw)
      (providePublicKey keys display frame.p1 frame.p2 frame.data : Command σ Reaction) := by
  refine offers_derive_bind fun key publicKey rest hparameter hread hderived => ?_
  obtain ⟨hcurve, hpath, hdata⟩ := KeyId.read_eq_ok_iff.mp hread
  cases display with
  | true =>
      exact offers_confirm
        (.inr ⟨_, .publicKey hcommand ⟨hparameter, hcurve, hpath, hdata⟩ hderived⟩)
  | false => exact offers_reply _

theorem offered_authorizeBaking (keys : KeyProvider)
    (hcommand : Frame.understood? mode raw = some (.authorizeBaking, frame)) :
    Offers (Offered keys mode raw)
      (authorizeBaking keys frame.p1 frame.p2 frame.data : Command σ Reaction) := by
  refine offers_derive_bind fun key publicKey rest hparameter hread hderived => ?_
  obtain ⟨hcurve, hpath, hdata⟩ := KeyId.read_eq_ok_iff.mp hread
  exact offers_confirm
    (.inr ⟨_, .authorization hcommand ⟨hparameter, hcurve, hpath, hdata⟩ hderived⟩)

theorem offered_reset (keys : KeyProvider)
    (hcommand : Frame.understood? mode raw = some (.reset, frame)) :
    Offers (Offered keys mode raw) (reset frame.data : Command σ Reaction) := by
  refine offers_require_bind fun hlength => offers_require_bind fun hvalid =>
    offers_confirm (.inr ⟨_, .reset hcommand ?_ hvalid⟩)
  exact (Bytes.ofUInt32_toUInt32 (beq_iff_eq.mp hlength)).symm

/-- The words of a setup and its path take up the whole data. -/
theorem offered_setup (keys : KeyProvider)
    (hcommand : Frame.understood? mode raw = some (.setup, frame)) :
    Offers (Offered keys mode raw)
      (setup keys frame.p1 frame.p2 frame.data : Command σ Reaction) := by
  refine offers_require_bind fun hparameter => offers_require_bind fun hlength =>
    offers_ofExcept_bind fun curve hcurve => offers_ofExcept_bind fun path hpath =>
    offers_ofExcept_bind fun publicKey hderived =>
    offers_confirm (.inr ⟨_, .setup hcommand ⟨beq_iff_eq.mp hparameter, ?_, ?_, ?_⟩ hderived⟩)
  · exact Curve.ofParameter_eq_ok_iff.mp hcurve
  · exact (Path.ofBytes_eq_ok_iff.mp hpath).1
  · have hlong : 13 ≤ frame.data.length := of_decide_eq_true hlength
    rw [List.append_nil, ← (Path.ofBytes_eq_ok_iff.mp hpath).2]
    exact (Setup.words_append_drop (by omega) rfl rfl rfl).symm

/-- Whatever bytes arrive, they offer a signature of an operation or what they announce. -/
theorem offered_dispatch [Store σ] (config : Config) (keys : KeyProvider) (raw : Bytes) :
    Offers (Offered keys config.mode raw) (dispatch config keys raw : Command σ Reaction) := by
  refine offers_ofExcept_bind fun frame hframe => offers_ofExcept_bind fun instruction hcode =>
    .bind fun _ => .bind fun _ => ?_
  have hcommand : Frame.understood? config.mode raw = some (instruction, frame) := by
    simp only [Frame.understood?, hframe, hcode]
  cases instruction with
  | version => exact offers_reply _
  | commit => exact offers_reply _
  | publicKey display => exact offered_providePublicKey keys display hcommand
  | authorizeBaking => exact offered_authorizeBaking keys hcommand
  | sign kind => exact offers_takeChunk (fun _ plan hkind => .inl ⟨hkind, plan, rfl⟩) keys _ _
  | reset => exact offered_reset keys hcommand
  | setup => exact offered_setup keys hcommand
  | deauthorize => exact .bind fun _ => .bind fun _ => .bind fun _ => .bind fun _ => offers_reply _
  | queryKey => exact .bind fun _ => offers_reply _
  | queryKeyWithCurve => exact .bind fun _ => offers_reply _
  | queryMainMark => exact .bind fun _ => offers_reply _
  | queryAllMarks => exact .bind fun _ => offers_reply _
  | hmac => exact .bind fun _ => .bind fun _ => .bind fun _ => .bind fun _ => offers_reply _

/-- A change is stored if the store works, and then it is answered. -/
theorem ends_commit_of_works [Store σ] {before : Workspace σ} (hworks : Store.Works before.store)
    (change : BakingState → BakingState) (event : LogEvent) (payload : Bytes) :
    Ends (do
      (do saveState (change (← loadState)) event : Command σ Unit)
      return payload) before fun result _ => result = .ok payload := by
  obtain ⟨after, hsave⟩ := hworks (change (Store.load before.store).checked)
  simp [hsave, Except.map]

/-- In a store that works, what was announced is performed and answered as announced. -/
theorem perform_announced [Store σ] {keys : KeyProvider} {prompt : Prompt} {action : PendingAction}
    {payload : Bytes} {before : Workspace σ}
    (hannounces : Announces keys mode raw prompt action payload) (later : KeyProvider)
    (hworks : Store.Works before.store) :
    Ends (perform later action) before fun result _ => result = .ok payload := by
  cases hannounces with
  | publicKey => rfl
  | @authorization _ key => exact ends_commit_of_works hworks (·.authorize key) _ _
  | @setup _ install => exact ends_commit_of_works hworks (·.install install) _ _
  | @reset _ level => exact ends_commit_of_works hworks (·.resetLevels level) _ _

end Command

namespace Signer

variable {σ : Type} [Store σ] {signer : Signer σ} {keys : KeyProvider} {raw : Bytes}
  {prompt : Prompt}

/-- A prompt about keys and settings was announced together with the action that waits. -/
theorem announced_of_prompt (hshown : (signer.receive keys raw).2.1 = .prompt prompt)
    (hkind : prompt.kind ≠ .operation) :
    ∃ action payload, (signer.receive keys raw).1.pending = some action ∧
      Announces keys signer.config.mode raw prompt action payload := by
  rcases receive_ends (offered_dispatch signer.config keys raw signer.cancelPending) with
    ⟨payload, after, _, hreceive⟩ | ⟨shown, action, after, hoffered, _, hreceive⟩ |
    ⟨status, after, _, hreceive⟩
  · simp [hreceive] at hshown
  · simp only [hreceive, Outcome.prompt.injEq] at hshown
    subst hshown
    rcases hoffered with ⟨hoperation, _⟩ | ⟨payload, hannounces⟩
    · exact absurd hoperation hkind
    · exact ⟨action, payload, by rw [hreceive], hannounces⟩
  · simp [hreceive] at hshown

end Signer

/-- What a step has asked to be approved is what its frame offers. -/
theorem Transition.Asks.offered {σ : Type} [Store σ] {asked : Transition σ} {raw : Bytes}
    {prompt : Prompt} {action : PendingAction} (hasks : asked.Asks raw prompt action) :
    Offered asked.turn.keys asked.before.config.mode raw prompt action := by
  obtain ⟨made, hdispatch⟩ := hasks.dispatched
  exact (offered_dispatch asked.before.config asked.turn.keys raw asked.before.cancelPending).ok
    hdispatch

/-- A prompt about keys and settings, whatever the signer was at, describes the action that
waits behind it. It shows the account of the public key that was derived for the curve and the
path of the frame, and a baking key that is to be stored has that curve and path. Approval is
answered with that same public key and its length, or with nothing for a reset, as long as the
store works. Wherever an equal prompt is shown, the action is of the same sort, with the same
account, main chain and levels. -/
theorem prompt_describes_action {σ : Type} [Store σ] (keys : KeyProvider) (raw : Bytes)
    (signer : Signer σ) {prompt : Prompt}
    (hshown : (signer.receive keys raw).2.1 = .prompt prompt) (hkind : prompt.kind ≠ .operation) :
    let after := (signer.receive keys raw).1
    ∃ action payload, after.pending = some action ∧
      Announces keys signer.config.mode raw prompt action payload ∧
      (∀ publicKey, action.publicKey? = some publicKey → ∃ count : UInt8,
        payload = count :: publicKey.toBytes ∧ count.toNat = publicKey.toBytes.length) ∧
      (∀ (later : KeyProvider) (other : σ), Store.Works other →
        ({ after with store := other }.answer later true).2.1 = some (.success payload)) ∧
      ∀ {τ : Type} [Store τ] (keys' : KeyProvider) (raw' : Bytes) (signer' : Signer τ),
        (signer'.receive keys' raw').2.1 = .prompt prompt → ∃ action' matter,
          (signer'.receive keys' raw').1.pending = some action' ∧
          action.matter? = some matter ∧ action'.matter? = some matter := by
  intro after
  obtain ⟨action, payload, hpending, hannounces⟩ := Signer.announced_of_prompt hshown hkind
  refine ⟨action, payload, hpending, hannounces, fun publicKey hkey => ?_,
    fun later other hworks => ?_, fun {τ} _ keys' raw' signer' hshown' => ?_⟩
  · cases hannounces <;> cases hkey <;> exact publicKey.reply_eq
  · have hwaits : { after with store := other }.pending = some action := hpending
    have hperform : Ends (perform later action) { after with store := other }.workspace
        fun result _ => result = .ok payload := perform_announced hannounces later hworks
    obtain ⟨result, ended, hanswer, rfl⟩ :=
      ((Signer.answer_approved later hwaits).and hperform).exists
    rw [hanswer]
    rfl
  · obtain ⟨action', payload', hpending', hannounces'⟩ :=
      Signer.announced_of_prompt hshown' hkind
    obtain ⟨matter, hmatter, hprompt⟩ := hannounces.matter
    obtain ⟨matter', hmatter', hprompt'⟩ := hannounces'.matter
    rw [Matter.prompt_injective (hprompt'.symm.trans hprompt)] at hmatter'
    exact ⟨action', matter, hpending', hmatter, hmatter'⟩

/-- A setup is shown with the account of its key, and its approval in a mended store is answered
with that key; the same prompt on flash is about the same account, chain and levels. -/
theorem prompt_describes_action_setup :
    let raw : Bytes := [0x80, 0x0A, 0x00, 0x01, 17, 0x7A, 0x06, 0xA7, 0x70, 0, 0, 0, 5, 0, 0, 0, 6,
      1, 0x80, 0, 0, 0x2C]
    let key : KeyId := ⟨.secp256k1, ⟨[0x8000002C], by decide⟩⟩
    let publicKey := Simulated.publicKey key
    let broken : Signer MemoryStore := .start .standard ⟨.fresh, 0, true⟩
    let flash : Signer FlashStore := .start .standard ⟨.blank, 0, false⟩
    let after := (broken.receive Simulated.provider raw).1
    (broken.receive Simulated.provider raw).2.1 =
        .prompt (.setup publicKey.address mainnetChainId 5 6) ∧
      after.pending = some (.setup ⟨key, mainnetChainId, 5, 6⟩ publicKey) ∧
      (∃ count : UInt8, count.toNat = publicKey.toBytes.length ∧
        ({ after with store := MemoryStore.ofState .fresh }.answer Simulated.provider true).2.1 =
          some (.success (count :: publicKey.toBytes))) ∧
      ∃ action, (flash.receive Simulated.provider raw).1.pending = some action ∧
        action.matter? = some (.setup (.ofKey publicKey) mainnetChainId 5 6) := by
  intro raw key publicKey broken flash after
  have hshown : (broken.receive Simulated.provider raw).2.1 =
      .prompt (.setup publicKey.address mainnetChainId 5 6) := rfl
  have hwaits : after.pending = some (.setup ⟨key, mainnetChainId, 5, 6⟩ publicKey) := rfl
  obtain ⟨action, payload, hpending, _, hreply, hanswer, hsame⟩ :=
    prompt_describes_action Simulated.provider raw broken hshown nofun
  cases hwaits.symm.trans hpending
  refine ⟨hshown, hwaits, ?_, ?_⟩
  · obtain ⟨count, rfl, hcount⟩ := hreply publicKey rfl
    exact ⟨count, hcount, hanswer Simulated.provider (.ofState .fresh) fun _ => ⟨_, rfl⟩⟩
  · obtain ⟨action, matter, hflash, hmatter, hmatter'⟩ :=
      hsame Simulated.provider raw flash rfl
    cases hmatter
    exact ⟨action, hflash, hmatter'⟩

end TezosSigner
