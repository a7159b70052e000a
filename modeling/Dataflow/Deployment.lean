/-
# Deployment of components

Hints for backends that package or schedule components: image, packages,
hardware and command. Tracing and running never interpret them.
-/

namespace Dataflow

/-- Models of accelerators that can be requested. -/
inductive AcceleratorModel where
  | t4
  | v100
  | p4
  | p100
  | k80
deriving DecidableEq, Repr, Inhabited

def AcceleratorModel.all : List AcceleratorModel := [.t4, .v100, .p4, .p100, .k80]

def AcceleratorModel.name : AcceleratorModel → String
  | .t4 => "nvidia-tesla-t4"
  | .v100 => "nvidia-tesla-v100"
  | .p4 => "nvidia-tesla-p4"
  | .p100 => "nvidia-tesla-p100"
  | .k80 => "nvidia-tesla-k80"

structure Accelerator where
  count : Option Nat
  model : Option AcceleratorModel
deriving DecidableEq, Repr, Inhabited

structure Hardware where
  /-- Processor cores; a trailing `m` means thousandths. -/
  cpus : Option String
  memory : Option String
  accelerator : Option Accelerator
deriving DecidableEq, Repr, Inhabited

namespace Hardware

def none : Hardware := ⟨.none, .none, .none⟩

def withCpus (hardware : Hardware) (cpus : String) : Hardware :=
  { hardware with cpus := some cpus }

def withMemory (hardware : Hardware) (memory : String) : Hardware :=
  { hardware with memory := some memory }

def withAccelerator (hardware : Hardware) (count : Nat) (model : AcceleratorModel) : Hardware :=
  { hardware with accelerator := some ⟨some count, some model⟩ }

/-- Whether an accelerator is requested, by a positive count or by a model. -/
def wantsAccelerator (hardware : Hardware) : Bool :=
  match hardware.accelerator with
  | some ⟨count, model⟩ => decide (0 < count.getD 0) || model.isSome
  | .none => false

/-- Whether nothing is requested. -/
def isEmpty (hardware : Hardware) : Bool :=
  hardware.cpus.isNone && hardware.memory.isNone && hardware.accelerator.isNone

end Hardware

/-- How a component is packaged and scheduled. -/
structure Deployment where
  image : Option String
  /-- Further packages in the image. -/
  packages : List String
  hardware : Hardware
  /-- The program and its leading arguments. -/
  command : List String
deriving DecidableEq, Repr, Inhabited

/-- The deployment that says nothing. -/
def Deployment.none : Deployment := ⟨.none, [], .none, []⟩

end Dataflow
