import Mathlib

/-!
Commands, responses and what the controller makes of the responses to one command,
controller.cpp 957 to 1700. The checks of debug builds are left out, and a chip
description is its bytes.
-/

namespace TtMlir.Distributed

inductive CommandType where
  | configureRuntimeContext
  | setMemoryLogLevel
  | getWorkerDebugStats
  | getSystemDesc
  | setFabricConfig
  | getNumAvailableDevices
  | openMeshDevice
  | closeMeshDevice
  | createSubMeshDevice
  | releaseSubMeshDevice
  | getMeshShape
  | createHostTensor
  | createMultiDeviceHostTensorFromShards
  | isTensorAllocated
  | getTensorVolume
  | getTensorRetain
  | setTensorRetain
  | getLayout
  | toLayout
  | submit
  | getNumShards
  | toHost
  | memcpy
  | deallocateTensor
  | shutdown
  | getTensorDesc
  | hasLayout
  | isProgramCacheEnabled
  | clearProgramCache
  | createUnsafeBorrowedHostTensor
  deriving DecidableEq

structure Command (Payload : Type) where
  commandId : UInt64
  type : CommandType
  payload : Option Payload
  deriving DecidableEq

structure SystemDesc where
  chipDescs : List (List UInt8)
  chipCapabilities : List UInt32
  chipDescIndices : List UInt32
  others : List UInt8
  deriving DecidableEq

structure TensorDesc where
  shape : List UInt32
  dataType : Nat
  stride : List Int
  physicalVolume : UInt64
  deriving DecidableEq

/-- The tables of the responses; `done` is any table that nothing is read from. -/
inductive Body where
  | done
  | workerDebugStats (hostname : String) (stats : List (String × Int))
  | systemDesc (systemDesc : SystemDesc)
  | numAvailableDevices (numDevices : UInt32)
  | meshShape (shape : List UInt32)
  | tensorAllocated (allocated : Bool)
  | tensorVolume (volume : UInt32)
  | tensorRetain (retain : Bool)
  | numShards (numShards : UInt32)
  | memcpy (data : Option (List UInt8))
  | tensorDesc (tensorDesc : TensorDesc)
  | hasLayout (hasLayout : Bool)
  | programCacheEnabled (enabled : Bool)
  deriving DecidableEq

inductive Response where
  | error (message : String)
  | answer (commandId : UInt64) (body : Body)
  deriving DecidableEq

def Response.isError : Response → Bool
  | .error _ => true
  | .answer _ _ => false

def Response.body : Response → Body
  | .error _ => .done
  | .answer _ body => body

/-- What the handles of a call hold after its responses. -/
inductive Reading where
  | unset
  | workerDebugStats (entries : List (String × List (String × Int)))
  | systemDesc (systemDesc : SystemDesc)
  | number (value : Nat)
  | flag (value : Bool)
  | shape (dims : List UInt32)
  | bytes (data : List UInt8)
  | tensorDesc (tensorDesc : TensorDesc)
  deriving DecidableEq

section Merge

def hostMMIO : UInt32 := 1

/-- The chips that come first have the host capability. -/
def mergeSystemDescs : List SystemDesc → Option SystemDesc
  | [] => none
  | [single] => some single
  | first :: rest =>
      let chips := (first :: rest).flatMap fun desc =>
        (desc.chipDescs.zip desc.chipCapabilities).take desc.chipDescIndices.length
      let mmioChips := chips.filter fun chip => decide (chip.2 &&& hostMMIO ≠ 0)
      let nonMmioChips := chips.filter fun chip => decide (chip.2 &&& hostMMIO = 0)
      some { chipDescs := mmioChips.map (·.1) ++ nonMmioChips.map (·.1)
             chipCapabilities := mmioChips.map (fun _ => hostMMIO) ++ nonMmioChips.map fun _ => 0
             chipDescIndices := (List.range (mmioChips.length + nonMmioChips.length)).map fun index => .ofNat index
             others := first.others }

end Merge

section Handlers

def readFirst (read : Body → Option Reading) (responses : List Body) : Option Reading := responses.head?.bind read

def handleGetWorkerDebugStatsResponse (responses : List Body) : Option Reading :=
  (responses.mapM fun (body : Body) => match body with
    | .workerDebugStats hostname stats => some (hostname, stats)
    | _ => none).map .workerDebugStats

def handleGetSystemDescResponse (responses : List Body) : Option Reading :=
  ((responses.mapM fun (body : Body) => match body with
    | .systemDesc desc => some desc
    | _ => none).bind mergeSystemDescs).map .systemDesc

/-- Each worker counts the devices of its own host. -/
def handleGetNumAvailableDevicesResponse (responses : List Body) : Option Reading :=
  (responses.mapM fun (body : Body) => match body with
    | .numAvailableDevices numDevices => some numDevices
    | _ => none).map fun (counts : List UInt32) => .number counts.sum.toNat

def handleGetMeshShapeResponse : List Body → Option Reading := readFirst fun
  | .meshShape dims => some (.shape dims)
  | _ => none

def handleGetNumShardsResponse : List Body → Option Reading := readFirst fun
  | .numShards numShards => some (.number numShards.toNat)
  | _ => none

def handleIsTensorAllocatedResponse : List Body → Option Reading := readFirst fun
  | .tensorAllocated allocated => some (.flag allocated)
  | _ => none

def handleGetTensorVolumeResponse : List Body → Option Reading := readFirst fun
  | .tensorVolume volume => some (.number volume.toNat)
  | _ => none

def handleGetTensorRetainResponse : List Body → Option Reading := readFirst fun
  | .tensorRetain retain => some (.flag retain)
  | _ => none

/-- A copy between tensors of the workers is not awaited and gives nothing to read. -/
def handleMemcpyResponse (awaited : Bool) : List Body → Option Reading := readFirst fun
  | .memcpy data => if awaited then data.map .bytes else some .unset
  | _ => none

def handleGetTensorDescResponse : List Body → Option Reading := readFirst fun
  | .tensorDesc desc => some (.tensorDesc desc)
  | _ => none

def handleHasLayoutResponse : List Body → Option Reading := readFirst fun
  | .hasLayout hasLayout => some (.flag hasLayout)
  | _ => none

def handleIsProgramCacheEnabledResponse : List Body → Option Reading := readFirst fun
  | .programCacheEnabled enabled => some (.flag enabled)
  | _ => none

/-- `none` when a table is read as another one. -/
def handleResponse (commandType : CommandType) (awaited : Bool) (responses : List Body) : Option Reading :=
  match commandType with
  | .getWorkerDebugStats => handleGetWorkerDebugStatsResponse responses
  | .getSystemDesc => handleGetSystemDescResponse responses
  | .getNumAvailableDevices => handleGetNumAvailableDevicesResponse responses
  | .getMeshShape => handleGetMeshShapeResponse responses
  | .isTensorAllocated => handleIsTensorAllocatedResponse responses
  | .getTensorVolume => handleGetTensorVolumeResponse responses
  | .getTensorRetain => handleGetTensorRetainResponse responses
  | .getNumShards => handleGetNumShardsResponse responses
  | .memcpy => handleMemcpyResponse awaited responses
  | .getTensorDesc => handleGetTensorDescResponse responses
  | .hasLayout => handleHasLayoutResponse responses
  | .isProgramCacheEnabled => handleIsProgramCacheEnabledResponse responses
  | _ => some .unset

/-- Whether the call waits for its responses; a copy to the host does, a copy between tensors does
not. -/
def waits : CommandType → List Bool
  | .getWorkerDebugStats | .getSystemDesc | .getNumAvailableDevices | .getMeshShape | .isTensorAllocated
  | .getTensorVolume | .getTensorRetain | .getNumShards | .getTensorDesc | .hasLayout
  | .isProgramCacheEnabled => [true]
  | .memcpy => [true, false]
  | .configureRuntimeContext | .shutdown => []
  | _ => [false]

end Handlers

end TtMlir.Distributed
