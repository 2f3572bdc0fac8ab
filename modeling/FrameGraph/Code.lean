/-!
# Numbered vocabularies

`Code κ` is a value of one of the graphics interface's open enumerations, kept as its number:
drivers and extensions may define numbers that no table here names.
-/

set_option autoImplicit false

namespace FrameGraph

/-- What a code numbers. -/
inductive Enumeration
  | layout | format | loadOp | storeOp | bindPoint | imageType | viewType | descriptorType
  | topology | polygonMode | frontFace | compareOp | blendFactor | blendOp | dynamicState
  | inputRate
  deriving DecidableEq

/-- A value of the enumeration `κ`, as its number. -/
structure Code (κ : Enumeration) where
  number : Int
  deriving DecidableEq

namespace Code

variable {κ : Enumeration}

instance : Inhabited (Code κ) := ⟨⟨0⟩⟩

/-- The name that the table gives to `c`, else its number. -/
def text (names : List (Code κ × String)) (c : Code κ) : String :=
  match names.lookup c with
  | some name => name
  | none => toString c.number

end Code

end FrameGraph
