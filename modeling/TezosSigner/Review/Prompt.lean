/-!
# Prompts

Before anything is signed, handed out or changed, the user is shown a prompt: a
title, named values in order, and the label of the button that approves it.
-/

namespace TezosSigner

/-- What approving a prompt leads to. -/
inductive PromptKind where
  /-- Something is signed. -/
  | operation
  /-- A key is handed to the host. -/
  | address
  /-- The stored baking state changes. -/
  | settings
deriving DecidableEq, Repr

structure Field where
  name : String
  value : String
deriving DecidableEq, Repr

structure Prompt where
  kind : PromptKind
  title : String
  fields : List Field
  /-- The label of the approving button. -/
  confirm : String
deriving DecidableEq, Repr

/-- The value of the first field with a name. -/
def Prompt.value? (prompt : Prompt) (name : String) : Option String :=
  (prompt.fields.find? fun field => field.name == name).map (·.value)

end TezosSigner
