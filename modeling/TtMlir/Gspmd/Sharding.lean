import Mathlib

/-!
GSPMD sharding strings, GSPMDUtils.cpp. A string such as
"devices=[4,2]<=[2,4]T(1,0)" gives the tile dims and an order of the devices; the
mesh shape and the tensor dim of each mesh dim are reconstructed from them.
-/

namespace TtMlir.Gspmd

/-- How the reading of a string fails: with an error, or by an access outside of
one of its lists. -/
inductive Failure where
  | error (message : String)
  | outOfRange
  deriving DecidableEq, Repr

inductive MeshShardType where
  | replicate
  | devices
  deriving DecidableEq, Repr

structure GSPMDMeshSharding where
  shardType : MeshShardType
  shardShape : List Int
  shardDims : List Int
  meshShape : List Int
  deviceIds : List Int
  lastTileDimReplicate : Bool
  deriving DecidableEq, Repr

section Strings

def consumeFront (first text : List Char) : Option (List Char) :=
  if first <+: text then some (text.drop first.length) else none

def consumeBack (last text : List Char) : Option (List Char) :=
  if last <:+ text then some (text.take (text.length - last.length)) else none

def getAsUnsigned (text : List Char) : Option Nat :=
  if text ≠ [] ∧ text.all Char.isDigit then some (Nat.ofDigitChars 10 text 0) else none

def getAsInteger (text : List Char) : Option Int :=
  match text with
  | '-' :: digits => (getAsUnsigned digits).bind fun value =>
      if value ≤ 2 ^ 63 then some (-(value : Int)) else none
  | digits => (getAsUnsigned digits).bind fun value => if value < 2 ^ 63 then some (value : Int) else none

def parseDimsFromDimensionStr (targetDimsStr : List Char) (checkSquareBracket : Bool) : Option (List Int) := do
  let inner ←
    if checkSquareBracket then (consumeFront ['['] targetDimsStr).bind (consumeBack [']']) else some targetDimsStr
  (inner.splitOn ',').mapM getAsInteger

/-- The tile dims, the mesh shape as far as the string gives it, and the listed devices. -/
def parseGSPMDDevicesStr (devicesStr : List Char) : Except Failure (List Int × List Int × List Int) :=
  let axesInner := devicesStr.takeWhile (· ≠ ']')
  if axesInner.length ≤ 1 ∨ axesInner.length = devicesStr.length then
    .error (.error ("Fail to parse GSPMD devices string [x,y,..]: " ++ String.ofList devicesStr))
  else
    let axesStr := devicesStr.take (axesInner.length + 1)
    let restStr := devicesStr.drop (axesInner.length + 1)
    match parseDimsFromDimensionStr axesStr true with
    | none => .error (.error ("Fail to parse GSPMD devices axes string: " ++ String.ofList axesStr))
    | some shardShape =>
        if ['<', '='] <:+: devicesStr then
          -- what follows the "T" is not read
          let reshapeStr := (restStr.drop 2).takeWhile (· ≠ 'T')
          match parseDimsFromDimensionStr reshapeStr true with
          | none => .error (.error ("Fail to parse GSPMD devices reshape string: " ++ String.ofList reshapeStr))
          | some meshShape => .ok (shardShape, meshShape, [])
        else
          match parseDimsFromDimensionStr restStr false with
          | none => .error (.error ("Fail to parse GSPMD device id string: " ++ String.ofList restStr))
          | some deviceIds => .ok (shardShape, [(deviceIds.length : Int)], deviceIds)

end Strings

section Dims

def isLineDeviceConfig (orgShardShape meshShape : List Int) : Bool :=
  orgShardShape.any fun size => decide (size = meshShape.prod)

/-- The hardware mesh, and whether its dims are matched from the last one on. -/
def hardwareMesh (orgShardShape meshShape deviceIds : List Int) : Except Failure (List Int × Bool) :=
  if meshShape.length ≠ 1 then .ok (meshShape, true)
  else if isLineDeviceConfig orgShardShape meshShape then .ok ([1, meshShape.headD 0], false)
  else
    let sizes := orgShardShape.filter (· ≠ 1)
    match deviceIds with
    | [] => .ok (sizes, false)
    | [_] => .error .outOfRange
    | first :: second :: _ => if first + 1 ≠ second then .ok (sizes.reverse, true) else .ok (sizes, false)

def assignShardDims (reverseOrder : Bool) (meshShape : List Int) :
    List Int → Nat → Nat → List Int → Except Failure (List Int)
  | [], _, _, shardDims => .ok shardDims
  | size :: rest, dim, shardingCnt, shardDims =>
      if size = 1 then assignShardDims reverseOrder meshShape rest (dim + 1) shardingCnt shardDims
      else
        let shardDimIdx : Int := if reverseOrder then meshShape.length - 1 - shardingCnt else shardingCnt
        if shardDimIdx < 0 ∨ meshShape.length ≤ shardDimIdx then .error .outOfRange
        else
          let meshSize := meshShape.getD shardDimIdx.toNat 0
          if 0 < size ∧ size ≠ meshSize then
            .error (.error s!"Fail to determine shardDims. shardShape[{dim}] ({size}) != meshShape[{shardDimIdx}] ({meshSize})")
          else
            assignShardDims reverseOrder meshShape rest (dim + 1) (shardingCnt + 1)
              (shardDims.set shardDimIdx.toNat dim)

def tensorDims {α : Type} (shardShape : List α) (lastTileDimReplicate : Bool) : List α :=
  if lastTileDimReplicate then shardShape.dropLast else shardShape

def determineGSPMDShardingDims (shardShape meshShape deviceIds : List Int) (lastTileDimReplicate : Bool) :
    Except Failure (List Int × List Int × List Int) := do
  let (hardware, reverseOrder) ← hardwareMesh shardShape meshShape deviceIds
  if hardware.length ≠ 2 then
    let count := hardware.length
    .error (.error s!"Only support 2d hardware mesh config. mesh.size()={count}")
  else
    let tiles := tensorDims shardShape lastTileDimReplicate
    let first := if isLineDeviceConfig shardShape meshShape then 1 else 0
    let shardDims ← assignShardDims reverseOrder hardware tiles 0 first (List.replicate hardware.length (-1))
    .ok (tiles, shardDims, hardware)

end Dims

section Generate

def containsKeyword (tokens : List (List Char)) (keyword : String) : Bool :=
  tokens.any fun token => decide (keyword.toList <:+: token)

def tokens (sharding : List Char) : Option (List (List Char)) := do
  let inner ← consumeFront ['{'] sharding
  let inner ← consumeBack ['}'] inner
  some (inner.splitOn ' ')

structure Reading where
  shardType : Option MeshShardType
  shardShape : List Int
  meshShape : List Int
  deviceIds : List Int
  lastTileDimReplicate : Bool
  deriving DecidableEq, Repr

/-- Every token that starts with the keyword is read; the last one counts. -/
def readDevices : List (List Char) → List Int × List Int × List Int →
    Except Failure (List Int × List Int × List Int)
  | [], lists => .ok lists
  | token :: rest, lists =>
      match consumeFront "devices=".toList token with
      | none => readDevices rest lists
      | some devicesStr => do
          let lists ← parseGSPMDDevicesStr devicesStr
          readDevices rest lists

def readSharding (opShardingStr operandShardingStr : List Char) : Except Failure Reading :=
  match tokens opShardingStr with
  | none => .error (.error "Fail to parse opShardingStr GSPMD sharding.")
  | some opTokens =>
      match tokens operandShardingStr with
      | none => .error (.error "Fail to parse operandShardingStr GSPMD sharding.")
      | some operandTokens =>
          if containsKeyword opTokens "maximal" || containsKeyword operandTokens "maximal" then
            .error (.error "Fail to parse GSPMD sharding with maximal.")
          else
            let replicated := containsKeyword opTokens "replicated" || containsKeyword operandTokens "replicated"
            let lastTileDimReplicate := containsKeyword opTokens "last_tile_dim_replicate" ||
              containsKeyword operandTokens "last_tile_dim_replicate"
            let shardShape := if replicated then [1] else [-1]
            if containsKeyword opTokens "devices=" || containsKeyword operandTokens "devices=" then do
              let shardingTokens := if containsKeyword opTokens "devices=" then opTokens else operandTokens
              let (shardShape, meshShape, deviceIds) ← readDevices shardingTokens (shardShape, [-1], [-1])
              .ok ⟨some .devices, shardShape, meshShape, deviceIds, lastTileDimReplicate⟩
            else .ok ⟨if replicated then some .replicate else none, shardShape, [-1], [-1], lastTileDimReplicate⟩

def generate (opShardingStr operandShardingStr : List Char) : Except Failure GSPMDMeshSharding := do
  let reading ← readSharding opShardingStr operandShardingStr
  match reading.shardType with
  | none => .error (.error "Could not determine shard type from GSPMD sharding strings.")
  | some .replicate =>
      .ok ⟨.replicate, reading.shardShape, [-1], reading.meshShape, reading.deviceIds, reading.lastTileDimReplicate⟩
  | some .devices => do
      let (shardShape, shardDims, meshShape) ← determineGSPMDShardingDims reading.shardShape reading.meshShape
        reading.deviceIds reading.lastTileDimReplicate
      .ok ⟨.devices, shardShape, shardDims, meshShape, reading.deviceIds, reading.lastTileDimReplicate⟩

end Generate

end TtMlir.Gspmd
