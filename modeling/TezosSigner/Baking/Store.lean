import TezosSigner.Baking.Flash

/-!
# Stores

A store holds the baking state between commands. Loading always gives a state;
saving may fail, and then nothing has changed. The memory store keeps the state
itself, the flash store keeps its image.
-/

namespace TezosSigner

/-- A place that keeps the baking state. -/
class Store (σ : Type) where
  load : σ → BakingState
  /-- Replaces the state as a whole, or fails. -/
  save : BakingState → σ → Except Status σ

/-- A store that keeps the state as it is and counts how often it was replaced. -/
structure MemoryStore where
  state : BakingState
  writes : Nat
  /-- A broken store refuses every write. -/
  broken : Bool
deriving DecidableEq

/-- A working store that has not been written yet. -/
def MemoryStore.ofState (state : BakingState) : MemoryStore :=
  ⟨state, 0, false⟩

instance : Store MemoryStore where
  load store := store.state
  save state store :=
    if store.broken then .error .memoryError
    else .ok { store with state, writes := store.writes + 1 }

/-- A store that keeps the flash image of the state. -/
structure FlashStore where
  image : FlashImage
  writes : Nat
  /-- A broken store refuses every write. -/
  broken : Bool
deriving DecidableEq

/-- An image that cannot be read counts as a fresh state. -/
instance : Store FlashStore where
  load store := store.image.state.toOption.getD .fresh
  save state store :=
    if store.broken then .error .memoryError
    else .ok { store with image := .ofState state, writes := store.writes + 1 }

end TezosSigner
