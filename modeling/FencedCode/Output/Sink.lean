import FencedCode.Text.Basic

/-!
# Sinks

Where bytes go. A sink takes bytes and is flushed, and may refuse either. Two kinds are given: one
with room for a number of bytes and strength for a number of flushes, which without such limits
never refuses; and a line buffer in front of a device that refuses every byte that reaches it.
-/
namespace FencedCode

/-- Why a sink refuses. -/
inductive SinkFault where
  /-- it has no more room -/
  | full
  /-- it cannot be flushed again -/
  | flushFailed
  /-- the device behind it has no space -/
  | noSpace
  deriving DecidableEq, Repr

/-- The wording of a refusal. -/
def SinkFault.message : SinkFault → Text
  | full => "sink full".toList
  | flushFailed => "flush failed".toList
  | noSpace => "No space left on device (os error 28)".toList

/-- Something that takes bytes: each operation gives the state after it and, if the sink refused,
the reason. -/
class Sink (σ : Type) where
  write : σ → Bytes → σ × Option SinkFault
  flush : σ → σ × Option SinkFault

/-! ## Limited sinks -/

/-- A sink with limits, and what it has taken so far. -/
structure LimitedSink where
  /-- how many bytes it takes in all -/
  capacity : Option Nat
  /-- how many flushes work -/
  flushLimit : Option Nat
  /-- the bytes taken -/
  out : Array UInt8
  /-- the lengths of `out` at the flushes that worked, latest first -/
  flushesRev : List Nat

namespace LimitedSink

/-- A sink that has taken nothing yet. -/
def empty (capacity flushLimit : Option Nat) : LimitedSink where
  capacity := capacity
  flushLimit := flushLimit
  out := #[]
  flushesRev := []

/-- A sink that never refuses. -/
def unlimited : LimitedSink :=
  empty none none

/-- The lengths of the output at the flushes that worked, in order. -/
def flushes (sink : LimitedSink) : List Nat :=
  sink.flushesRev.reverse

/-- Takes what there is room for, and refuses if that is not all. -/
def write (sink : LimitedSink) (bytes : Bytes) : LimitedSink × Option SinkFault :=
  match sink.capacity with
  | none => ({ sink with out := sink.out ++ bytes }, none)
  | some capacity =>
    let room := capacity - sink.out.size
    ({ sink with out := sink.out ++ bytes.take room },
      if bytes.length ≤ room then none else some .full)

/-- Notes the length of the output, unless the sink cannot be flushed again. -/
def flush (sink : LimitedSink) : LimitedSink × Option SinkFault :=
  let works := match sink.flushLimit with
    | none => true
    | some limit => sink.flushesRev.length < limit
  if works then ({ sink with flushesRev := sink.out.size :: sink.flushesRev }, none)
  else (sink, some .flushFailed)

instance : Sink LimitedSink where
  write := write
  flush := flush

end LimitedSink

/-! ## A full device -/

/-- A line buffer in front of a device without space. -/
structure FullDevice where
  /-- the size of the buffer -/
  capacity : Nat
  /-- how many bytes wait in it -/
  waiting : Nat

namespace FullDevice

/-- The buffer of the given size, empty. -/
def empty (capacity : Nat) : FullDevice where
  capacity := capacity
  waiting := 0

/-- Bytes wait in the buffer unless they complete a line or do not fit, and are then refused. -/
def write (device : FullDevice) (bytes : Bytes) : FullDevice × Option SinkFault :=
  if bytes.contains 10 || device.capacity < device.waiting + bytes.length then
    (device, some .noSpace)
  else
    ({ device with waiting := device.waiting + bytes.length }, none)

/-- Waiting bytes are refused. -/
def flush (device : FullDevice) : FullDevice × Option SinkFault :=
  if device.waiting = 0 then (device, none) else (device, some .noSpace)

instance : Sink FullDevice where
  write := write
  flush := flush

end FullDevice

end FencedCode
