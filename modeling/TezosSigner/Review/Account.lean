import TezosSigner.Account
import TezosSigner.Baking.State
import TezosSigner.Review.Prompt

/-!
# Prompts for keys and settings

A key is shown by the address of its account, and a change of the baking state by
the values that it installs.
-/

namespace TezosSigner.Prompt

/-- Shows an address before its key is handed to the host. -/
def providePublicKey (address : String) : Prompt where
  kind := .address
  title := "Provide Public Key"
  fields := [⟨"Public Key Hash", address⟩]
  confirm := "Approve"

/-- Shows the address whose key is to become the baking key. -/
def authorizeBaking (address : String) : Prompt where
  kind := .address
  title := "Authorize Baking With Public Key?"
  fields := [⟨"Public Key Hash", address⟩]
  confirm := "Authorize"

def setup (address : String) (mainChainId mainLevel testLevel : UInt32) : Prompt where
  kind := .settings
  title := "Setup Baking?"
  fields :=
    [⟨"Address", address⟩,
      ⟨"Chain", chainText mainChainId⟩,
      ⟨"Main Chain HWM", Text.decimal mainLevel.toNat⟩,
      ⟨"Test Chain HWM", Text.decimal testLevel.toNat⟩]
  confirm := "Accept"

/-- Shows the level that both marks are to be set to. -/
def reset (level : UInt32) : Prompt where
  kind := .settings
  title := "Reset HWM"
  fields := [⟨"Level", Text.decimal level.toNat⟩]
  confirm := "Reset"

end TezosSigner.Prompt
