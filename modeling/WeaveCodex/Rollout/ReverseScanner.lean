/-
Purpose: Reading the records of a JSONL file from its end, a chunk of the file at a time.
Trusted boundary: translation of `rollout/src/reverse_jsonl_scanner.rs`; reading does not fail,
  and the JSON parser is a parameter
-/
import Mathlib.Data.List.DropRight

namespace WeaveCodex.Rollout

open List

inductive ScanOutcome (Value Error : Type*) where
  | parsed (value : Value)
  | rejected (error : Error)

/-- What a scan does not change. -/
structure ScanSetting (Value Error : Type*) where
  file : List UInt8
  readChunkSize : Nat
  positive : 0 < readChunkSize
  maxRecordBytes : Option Nat
  fromSlice : List UInt8 → Except Error Value

structure ReverseJsonlScanner where
  nextChunkEnd : Nat
  /-- The chunk up to the chunk position. -/
  chunk : List UInt8
  recordReversed : List UInt8
  discardingOversizedRecord : Bool
deriving DecidableEq, Repr

def newline : UInt8 := 10

def isAsciiWhitespace (byte : UInt8) : Bool :=
  byte ∈ [9, 10, 12, 13, 32]

namespace ScanSetting

variable {Value Error : Type*} (scan : ScanSetting Value Error)

def newAt (endByteOffset : Nat) : Except String ReverseJsonlScanner :=
  if scan.file.length < endByteOffset then .error "reverse JSONL scan end is past the file"
  else .ok ⟨endByteOffset, [], [], false⟩

def finishRecord (record : List UInt8) : Option (ScanOutcome Value Error) :=
  if record.all isAsciiWhitespace then none
  else
    match scan.fromSlice record with
    | .ok value => some (.parsed value)
    | .error error => some (.rejected error)

def tooLong (length : Nat) : Bool :=
  scan.maxRecordBytes.any (· < length)

/-- The chunk before, if all of a chunk was read. -/
def readChunk (scanner : ReverseJsonlScanner) : ReverseJsonlScanner :=
  if scanner.chunk = [] then
    let start := scanner.nextChunkEnd - min scanner.nextChunkEnd scan.readChunkSize
    { scanner with
      nextChunkEnd := start
      chunk := (scan.file.take scanner.nextChunkEnd).drop start }
  else scanner

/-- The record grows at its front, unless it gets too long. -/
def extend (scanner : ReverseJsonlScanner) (fragment : List UInt8) : ReverseJsonlScanner :=
  if scanner.discardingOversizedRecord then scanner
  else if scan.tooLong (scanner.recordReversed.length + fragment.length) then
    { scanner with recordReversed := [], discardingOversizedRecord := true }
  else { scanner with recordReversed := scanner.recordReversed ++ fragment.reverse }

/-- What a round of the loop of `scan_next` returns, if it does, and the scanner after it. -/
abbrev Round (Outcome : Type*) := Option (Option Outcome) × ReverseJsonlScanner

/-- A newline was found: all of the record is read. -/
def completeRecord (scanner : ReverseJsonlScanner) : Round (ScanOutcome Value Error) :=
  if scanner.discardingOversizedRecord then
    (none, { scanner with discardingOversizedRecord := false })
  else
    ((scan.finishRecord scanner.recordReversed.reverse).map some, { scanner with recordReversed := [] })

def round (scanner : ReverseJsonlScanner) : Round (ScanOutcome Value Error) :=
  if scanner.chunk = [] ∧ scanner.nextChunkEnd = 0 then
    if scanner.discardingOversizedRecord then
      (some none, { scanner with discardingOversizedRecord := false })
    else
      (some (scan.finishRecord scanner.recordReversed.reverse), { scanner with recordReversed := [] })
  else
    let scanner := scan.readChunk scanner
    let upToNewline := scanner.chunk.rdropWhile (· ≠ newline)
    let extended := scan.extend scanner (scanner.chunk.rtakeWhile (· ≠ newline))
    if upToNewline = [] then (none, { extended with chunk := [] })
    else scan.completeRecord { extended with chunk := upToNewline.dropLast }

/-- The loop of `scan_next`, for at most this many rounds. -/
def scanRounds : Nat → ReverseJsonlScanner →
    Option (Option (ScanOutcome Value Error) × ReverseJsonlScanner)
  | 0, _ => none
  | rounds + 1, scanner =>
    match scan.round scanner with
    | (none, next) => scanRounds rounds next
    | (some outcome, next) => some (outcome, next)

/-- Every round reads a byte or returns. -/
def scanNext (scanner : ReverseJsonlScanner) :
    Option (Option (ScanOutcome Value Error) × ReverseJsonlScanner) :=
  scan.scanRounds (scanner.nextChunkEnd + scanner.chunk.length + 1) scanner

/-- What the call after `count` calls returns. -/
def nthCall : Nat → ReverseJsonlScanner → Option (Option (ScanOutcome Value Error))
  | 0, scanner => (scan.scanNext scanner).map Prod.fst
  | count + 1, scanner => (scan.scanNext scanner).bind fun called => nthCall count called.2

end ScanSetting

end WeaveCodex.Rollout
