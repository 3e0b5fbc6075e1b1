import Mathlib.Data.List.DropRight

/-!
# Annex B parsing in the browser

`flux-web/ui/lib/h264.ts`: splitting an Annex B byte stream into NAL units, recognising a
keyframe by its IDR slice, and reading the codec string off the sequence parameter set.
-/

namespace Rustcast.Browser

structure H264NalUnit where
  type : UInt8
  data : List UInt8
  deriving DecidableEq

/-- Where a start code begins and how many bytes it takes. -/
structure StartCode where
  index : Nat
  length : Nat
  deriving DecidableEq

/-- The length of the start code the bytes begin with: `00 00 01` or `00 00 00 01`. -/
def startCodeLength : List UInt8 → Option Nat
  | a :: b :: c :: rest =>
    if a ≠ 0 ∨ b ≠ 0 then none
    else if c = 1 then some 3
    else if c = 0 ∧ rest.head? = some 1 then some 4
    else none
  | _ => none

def scanStartCode (index : Nat) : List UInt8 → Option StartCode
  | [] => none
  | byte :: rest =>
    match startCodeLength (byte :: rest) with
    | some length => some ⟨index, length⟩
    | none => scanStartCode (index + 1) rest

def findStartCode (data : List UInt8) (start : Nat) : Option StartCode :=
  scanStartCode start (data.drop start)

/-- The `while (start)` loop of `annexBNalUnits`. Each round begins behind the start code
of the last one, so the length of the data is enough fuel. -/
def nalUnitsFrom (data : List UInt8) : Nat → StartCode → List H264NalUnit
  | 0, _ => []
  | fuel + 1, start =>
    let payloadStart := start.index + start.length
    let next := findStartCode data payloadStart
    let payloadEnd := (next.map StartCode.index).getD data.length
    -- trailing zeros belong to the next start code
    let nal := ((data.take payloadEnd).drop payloadStart).rdropWhile (· == 0)
    let units := match nal with
      | [] => []
      | header :: _ => [{ type := header &&& 0x1f, data := nal }]
    match next with
    | none => units
    | some next => units ++ nalUnitsFrom data fuel next

variable (data : List UInt8)

def annexBNalUnits : List H264NalUnit :=
  match findStartCode data 0 with
  | none =>
    match data with
    | [] => []
    | header :: _ => [{ type := header &&& 0x1f, data }]
  | some start => nalUnitsFrom data data.length start

def isH264Keyframe : Bool :=
  (annexBNalUnits data).any fun nal => nal.type == 5

/-- The byte loop of `removeEmulationPrevention`: drops a `03` after two zeros. -/
def removeEmulationPreventionFrom (zeros : Nat) : List UInt8 → List UInt8
  | [] => []
  | byte :: rest =>
    if 2 ≤ zeros ∧ byte = 3 then removeEmulationPreventionFrom 0 rest
    else byte :: removeEmulationPreventionFrom (if byte = 0 then zeros + 1 else 0) rest

def removeEmulationPrevention : List UInt8 :=
  removeEmulationPreventionFrom 0 data

def hexDigit (n : Nat) : Char :=
  ['0', '1', '2', '3', '4', '5', '6', '7', '8', '9', 'A', 'B', 'C', 'D', 'E', 'F'].getD n '0'

/-- Two upper-case hexadecimal digits. -/
def hexByte (byte : UInt8) : String :=
  String.ofList [hexDigit (byte.toNat / 16), hexDigit (byte.toNat % 16)]

def h264CodecFromSps : Option String :=
  match (annexBNalUnits data).find? fun nal => nal.type == 7 with
  | none => none
  | some sps =>
    if sps.data.length < 4 then none
    else
      match removeEmulationPrevention (sps.data.drop 1) with
      | profile :: constraints :: level :: _ =>
        some ("avc1." ++ hexByte profile ++ hexByte constraints ++ hexByte level)
      | _ => none

end Rustcast.Browser
