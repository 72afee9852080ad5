import TeenyC.CUnit.Basic
import TeenyC.Text.Utf8

/-!
# Sinks

A sink takes the bytes of a finished text.  It may take them in small pieces, have
room for only some of them, or fail when they are to be made permanent.
-/

namespace TeenyC

/-- A receiver of bytes. -/
structure Sink where
  /-- The number of bytes that still fit, if there is a limit. -/
  room : Option Nat := none
  /-- The most bytes taken at once, if there is a limit. -/
  chunk : Option Nat := none
  /-- Whether a full sink takes nothing, instead of failing. -/
  silentWhenFull : Bool := false
  /-- Whether flushing fails. -/
  flushFails : Bool := false
  /-- The bytes taken so far. -/
  written : Array UInt8 := #[]
  /-- The number of times the sink was flushed. -/
  flushes : Nat := 0
  deriving DecidableEq

/-- Why a sink did not take everything. -/
inductive SinkFault where
  /-- The sink is full. -/
  | full
  /-- The sink took nothing of a piece. -/
  | nothingTaken
  /-- The sink could not be flushed. -/
  | flush
  deriving DecidableEq

/-- What a fault of a sink is called. -/
def SinkFault.message : SinkFault → String
  | full => "sink full"
  | nothingTaken => "failed to write whole buffer"
  | flush => "flush failed"

namespace Sink

/-- The most bytes that the sink takes next, if there is a limit. -/
def limit? (sink : Sink) : Option Nat :=
  match sink.chunk, sink.room with
  | some chunk, some room => some (min chunk room)
  | some chunk, none => some chunk
  | none, room => room

/-- The first bytes, as many as the sink takes at once. -/
def piece (sink : Sink) (bytes : List UInt8) : List UInt8 :=
  match sink.limit? with
  | some limit => bytes.take limit
  | none => bytes

/-- Offer bytes to a sink that takes as many as it can, and tell their number. -/
def offer (bytes : List UInt8) : EStateM SinkFault Sink Nat := fun sink =>
  if sink.room = some 0 ∧ sink.silentWhenFull = false then
    .error .full sink
  else
    let piece := sink.piece bytes
    .ok piece.length
      { sink with
        written := sink.written ++ piece
        room := sink.room.map (· - piece.length) }

/-- Write all bytes, piece by piece. -/
def writeAll (bytes : List UInt8) : EStateM SinkFault Sink Unit := fun sink =>
  if nonempty : bytes ≠ [] then
    match offer bytes sink with
    | .error fault after => .error fault after
    | .ok 0 after => .error .nothingTaken after
    | .ok (taken + 1) after =>
      have : (bytes.drop (taken + 1)).length < bytes.length := by
        have := List.length_pos_iff.mpr nonempty
        rw [List.length_drop]
        omega
      writeAll (bytes.drop (taken + 1)) after
  else
    .ok () sink
termination_by bytes.length

/-- Make the bytes permanent. -/
def flush : EStateM SinkFault Sink Unit := fun sink =>
  let after := { sink with flushes := sink.flushes + 1 }
  if sink.flushFails then .error .flush after else .ok () after

end Sink

/-- Write the sections of a unit to a sink, in their order, and flush it. -/
def CUnit.writeTo (unit : CUnit) : EStateM SinkFault Sink Unit := do
  Sink.writeAll (utf8 unit.header)
  Sink.writeAll (utf8 unit.functions)
  Sink.writeAll (utf8 unit.main)
  Sink.flush

end TeenyC
