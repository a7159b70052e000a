/-
# Settings as documents

Settings as structured data, and their reader. A missing field has its value from the
default settings.
-/

import Dataflow.Deployment.Document
import Dataflow.Settings

namespace Dataflow.Settings

open Document

/-- The longest suffix that a document may ask for. -/
def suffixLimit : Nat := UInt64.size - 1

def toData (settings : Settings) : Data :=
  .ofMembers
    [("default_base_image", .string settings.defaultImage),
      ("accelerator_base_image", .string settings.acceleratorImage),
      ("operator_hardware", settings.operatorHardware.toData),
      ("name_suffix_length", .integer settings.suffixLength)]

/-- The settings that a part of a document describes. -/
def read (given : Part) : Reading Settings :=
  given.withFields
    ["default_base_image", "accelerator_base_image", "operator_hardware", "name_suffix_length"]
    fun fields => do
      let image ← fields.field (some default.defaultImage) Part.asText 0
      let acceleratorImage ← fields.field (some default.acceleratorImage) Part.asText 1
      let hardware ← fields.field (some default.operatorHardware) Hardware.read 2
      let suffixLength ← fields.field (some default.suffixLength) (Part.asNatural suffixLimit) 3
      return ⟨image, acceleratorImage, hardware, suffixLength⟩

end Dataflow.Settings
