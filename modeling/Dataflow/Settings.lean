/-
# Settings

Settings that shape how pipelines are traced: the images that components get when
they name none, the hardware of operator components, and the length of the
suffixes of generated names.
-/

import Dataflow.Deployment

namespace Dataflow

/-- Settings that shape how pipelines are traced. -/
structure Settings where
  /-- The image of components that name none. -/
  defaultImage : String
  /-- The image of components that name none and want an accelerator. -/
  acceleratorImage : String
  /-- The hardware of components made from operators. -/
  operatorHardware : Hardware
  /-- The number of hexadecimal digits in generated names. -/
  suffixLength : Nat
deriving DecidableEq, Repr

namespace Settings

/-- The settings where no file says otherwise. -/
def default : Settings where
  defaultImage := "tracegraph/runtime:latest"
  acceleratorImage := "tracegraph/runtime:latest-cuda"
  operatorHardware := (Hardware.none.withCpus "1").withMemory "1G"
  suffixLength := 8

instance : Inhabited Settings := ⟨default⟩

/-- A deployment with its image filled in. -/
def resolveDeployment (settings : Settings) (declared : Deployment) : Deployment :=
  match declared.image with
  | some _ => declared
  | none =>
    if declared.hardware.wantsAccelerator then
      { declared with image := some settings.acceleratorImage }
    else { declared with image := some settings.defaultImage }

/-- The deployment of components made from operators. -/
def operatorDeployment (settings : Settings) : Deployment :=
  ⟨some settings.defaultImage, [], settings.operatorHardware, []⟩

end Settings

end Dataflow
