import TezosSigner.Bytes

/-!
# Configuration

The signer is built in one of two modes and tells the host which, together with its
version and the commit that it was built from.
-/

namespace TezosSigner

/-- What a signer is for. -/
inductive Mode where
  /-- Signs blocks and endorsements without asking, guarded by the marks. -/
  | baking
  /-- Signs what its user has approved. -/
  | wallet
deriving DecidableEq, Repr

/-- The byte by which a mode is told to the host. -/
def Mode.code : Mode → UInt8
  | .baking => 1
  | .wallet => 0

structure Version where
  major : UInt8
  minor : UInt8
  patch : UInt8
deriving DecidableEq, Repr

structure Config where
  mode : Mode
  version : Version
  commit : String
deriving DecidableEq, Repr

namespace Config

def ofMode (mode : Mode) : Config where
  mode := mode
  version := ⟨2, 2, 1⟩
  commit := "unknown"

/-- This release as it is built. -/
def standard : Config := ofMode .baking

def versionReply (config : Config) : Bytes :=
  [config.mode.code, config.version.major, config.version.minor, config.version.patch]

/-- The reply about the commit: its text in UTF-8, closed by a zero. -/
def commitReply (config : Config) : Bytes :=
  config.commit.toUTF8.data.toList ++ [0]

end Config

end TezosSigner
