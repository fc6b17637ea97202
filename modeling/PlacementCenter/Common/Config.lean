import PlacementCenter.Rust.Collections
import PlacementCenter.Rust.Text

/-!
# The configuration

The part of the configuration of the placement center that the modelled code reads. The nodes are a
TOML table; what the code does with the values of it is given by a class.

## Main definitions

* `TomlValue V`: the operations of `toml::Value`
* `PlacementCenterConfig V`: the configuration
-/

namespace PlacementCenter

open Rust

/-- A character that the text of a TOML string shows as it is. -/
def Plain (c : Char) : Prop := c ≠ '"' ∧ c ≠ '\\' ∧ 32 ≤ c.toNat ∧ c.toNat ≠ 127

instance : DecidablePred Plain := fun _ => inferInstanceAs (Decidable (_ ∧ _))

/-- The values of a TOML table. `Display` shows a string between quotes, and as it is when it has
nothing to escape. -/
class TomlValue (V : Type) where
  asStr : V → Option String
  display : V → String
  display_of_asStr : ∀ v s, asStr v = some s → (∀ c ∈ s.toList, Plain c) →
    display v = "\"" ++ s ++ "\""

/-- The strings without anything to escape. -/
instance : TomlValue String where
  asStr s := some s
  display s := "\"" ++ s ++ "\""
  display_of_asStr v s h _ := by
    cases h
    rfl

/-- The configuration of the placement center. -/
structure PlacementCenterConfig (V : Type) where
  clusterName : String
  nodeId : UInt64
  nodes : BTreeMap String V

end PlacementCenter
