/-
# Deployments as documents

Hardware and deployments as structured data, and their readers. What is not said is
not written, and a missing field reads as not said.
-/

import Dataflow.Data
import Dataflow.Deployment
import Dataflow.Document.Fields

namespace Dataflow

open Document

/-- The largest number of accelerators that a document may ask for. -/
def acceleratorLimit : Nat := UInt32.size - 1

def AcceleratorModel.toData (model : AcceleratorModel) : Data := .string model.name

/-- The accelerator model that a part of a document names. -/
def AcceleratorModel.read (given : Part) : Reading AcceleratorModel := do
  let name ← given.asAlternative (all.map AcceleratorModel.name)
  all.find? fun model => model.name = name

namespace Accelerator

def toData (accelerator : Accelerator) : Data :=
  .ofMembers
    (Data.optional "count" (fun count => .integer count) accelerator.count ++
      Data.optional "type" AcceleratorModel.toData accelerator.model)

/-- The accelerators that a part of a document asks for. -/
def read (given : Part) : Reading Accelerator :=
  given.withFields ["count", "type"] fun fields => do
    let count ← fields.optional (Part.asNatural acceleratorLimit) 0
    let model ← fields.optional AcceleratorModel.read 1
    return ⟨count, model⟩

end Accelerator

namespace Hardware

def toData (hardware : Hardware) : Data :=
  .ofMembers
    (Data.optional "cpus" .string hardware.cpus ++
      Data.optional "memory" .string hardware.memory ++
      Data.optional "accelerator" Accelerator.toData hardware.accelerator)

/-- Hardware as a member that is left out when nothing is requested. -/
def toMember (name : String) (hardware : Hardware) : List (String × Data) :=
  if hardware.isEmpty then [] else [(name, hardware.toData)]

/-- The hardware that a part of a document asks for. -/
def read (given : Part) : Reading Hardware :=
  given.withFields ["cpus", "memory", "accelerator"] fun fields => do
    let cpus ← fields.optional Part.asText 0
    let memory ← fields.optional Part.asText 1
    let accelerator ← fields.optional Accelerator.read 2
    return ⟨cpus, memory, accelerator⟩

end Hardware

namespace Deployment

def toData (deployment : Deployment) : Data :=
  .ofMembers
    (Data.optional "base_image" .string deployment.image ++
      Data.texts "packages" deployment.packages ++
      deployment.hardware.toMember "hardware" ++
      Data.texts "command" deployment.command)

/-- The deployment that a part of a document describes. -/
def read (given : Part) : Reading Deployment :=
  given.withFields ["base_image", "packages", "hardware", "command"] fun fields => do
    let image ← fields.optional Part.asText 0
    let packages ← fields.field (some []) (Part.asList Part.asText) 1
    let hardware ← fields.field (some .none) Hardware.read 2
    let command ← fields.field (some []) (Part.asList Part.asText) 3
    return ⟨image, packages, hardware, command⟩

end Deployment

end Dataflow
