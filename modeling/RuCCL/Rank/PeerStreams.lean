import RuCCL.Library.Transition
import RuCCL.Rank.Protocol
import Mathlib.Data.List.Sublists
import Mathlib.Logic.Function.Basic

/-!
# Byte streams of the direct peer mesh

Each connection of the mesh is a pair of bounded byte streams.  A send holds
the write lock of its side for the whole frame; the reader of a side queues a
data frame and must then take the same lock to write the acknowledgement before
it reads on.  Nothing here fails, times out or leaves, so connections do not
influence each other.

A byte carries the frame it belongs to; the reader looks at it when the frame is
complete.  Data frames have an element type, so a reader tells them from
acknowledgements.
-/

namespace RuCCL.Rank

open RuCCL.Library

/-- The two ends of a connection. -/
inductive Side where
  | low
  | high
  deriving DecidableEq, Repr

def Side.other : Side → Side
  | low => high
  | high => low

@[simp]
theorem Side.other_other (side : Side) : side.other.other = side := by
  cases side <;> rfl

/-- The data frame of a call, or the acknowledgement of that frame. -/
inductive WireFrame where
  | data (id : Nat)
  | acknowledgement (id : Nat)
  deriving DecidableEq, Repr

structure WireByte where
  frame : WireFrame
  index : Nat
  last : Bool
  deriving DecidableEq, Repr

/-- The bytes of a frame of the given size. -/
def frameBytes (frame : WireFrame) (size : Nat) : List WireByte :=
  (List.range size).map fun index =>
    { frame := frame, index := index, last := decide (index + 1 = size) }

inductive WirePhase where
  /-- The call waits for the lock of its side. -/
  | waiting
  | writing
  /-- The frame is written and its acknowledgement has not been read. -/
  | awaiting
  | finished
  deriving DecidableEq, Repr

/-- A call of `send_on_rail`. -/
structure WireSend where
  side : Side
  payload : Nat
  phase : WirePhase
  deriving DecidableEq, Repr

def WireSend.size (send : WireSend) : Nat := frameHeaderBytes + send.payload

inductive WireReader where
  | reading
  /-- A data frame is queued and the lock for its acknowledgement is wanted. -/
  | acknowledging (id : Nat)
  | writing (id : Nat)
  deriving DecidableEq, Repr

/-- The holder of a write lock and the bytes it has not written. -/
structure WireWriter where
  frame : WireFrame
  rest : List WireByte
  deriving DecidableEq, Repr

structure Link where
  sends : List WireSend
  submission : Side → Option WireWriter
  streams : Side → List WireByte
  readers : Side → WireReader

namespace Link

def setPhase (link : Link) (id : Nat) (phase : WirePhase) : Link :=
  { link with
    sends := link.sends.modify id fun send => { send with phase := phase } }

def setReader (link : Link) (side : Side) (reader : WireReader) : Link :=
  { link with readers := Function.update link.readers side reader }

/-- Take the free lock of a side for a frame. -/
def lock (link : Link) (side : Side) (frame : WireFrame) (size : Nat) :
    Link :=
  { link with
    submission := Function.update link.submission side
      (some { frame := frame, rest := frameBytes frame size }) }

/-- What follows the last byte of a frame: the lock is free again, a send waits
for its acknowledgement and a reader reads on. -/
def release (link : Link) (side : Side) (frame : WireFrame) : Link :=
  let link := { link with submission := Function.update link.submission side none }
  match frame with
  | .data id => link.setPhase id .awaiting
  | .acknowledgement _ => link.setReader side .reading

/-- The holder of the lock writes the next `count` bytes. -/
def wrote (link : Link) (side : Side) (writer : WireWriter) (count : Nat) :
    Link :=
  let link :=
    { link with
      streams := Function.update link.streams side (link.streams side ++ writer.rest.take count) }
  match writer.rest.drop count with
  | [] => link.release side writer.frame
  | rest =>
      { link with
        submission := Function.update link.submission side (some { writer with rest := rest }) }

/-- What the reader of a side does with the byte it took last. -/
def took (link : Link) (side : Side) (byte : WireByte) : Link :=
  if byte.last then
    match byte.frame with
    | .data id => link.setReader side (.acknowledging id)
    | .acknowledgement id => link.setPhase id .finished
  else link

/-- The calls of a side that have not returned. -/
def unfinished (link : Link) (side : Side) : List Nat :=
  (List.range link.sends.length).filter fun id =>
    match link.sends[id]? with
    | some send => decide (send.side = side ∧ send.phase ≠ .finished)
    | none => false

/-- The size of the frame of a call. -/
def sizeOf (link : Link) (id : Nat) : Nat :=
  match link.sends[id]? with
  | some send => send.size
  | none => 0

end Link

/-- What a caller, a lock holder or a reader does next. -/
inductive LinkAction where
  | start (side : Side) (payload : Nat)
  | lock (id : Nat)
  | write (side : Side) (count : Nat)
  /-- The reader of a side takes `skip` bytes and one more, all of one frame. -/
  | read (side : Side) (skip : Nat)
  | lockReader (side : Side)
  deriving DecidableEq, Repr

/-- A new call of `send_on_rail`. -/
def Link.start (link : Link) (side : Side) (payload : Nat) : Link :=
  { link with
    sends := link.sends ++ [{ side := side, payload := payload, phase := .waiting }] }

def linkStep (capacity : Side → Nat) (link : Link) :
    LinkAction → Option Link
  | .start side payload => some (link.start side payload)
  | .lock id =>
      match link.sends[id]? with
      | some send =>
          if send.phase = .waiting ∧ link.submission send.side = none then
            some ((link.setPhase id .writing).lock send.side (.data id) send.size)
          else none
      | none => none
  | .write side count =>
      match link.submission side with
      | some writer =>
          if 1 ≤ count ∧ count ≤ writer.rest.length ∧
              (link.streams side).length + count ≤ capacity side then
            some (link.wrote side writer count)
          else none
      | none => none
  | .read side skip =>
      match link.readers side, (link.streams side.other).drop skip with
      | .reading, byte :: rest =>
          if ((link.streams side.other).take skip).any WireByte.last then
            none
          else
            some (Link.took
              { link with
                streams := Function.update link.streams side.other rest }
              side byte)
      | _, _ => none
  | .lockReader side =>
      match link.readers side with
      | .acknowledging id =>
          if link.submission side = none then
            some ((link.setReader side (.writing id)).lock side
              (.acknowledgement id) frameHeaderBytes)
          else none
      | _ => none

def Link.idle : Link where
  sends := []
  submission := fun _ => none
  streams := fun _ => []
  readers := fun _ => .reading

/-- The connection of two ranks on a rail. -/
structure Connection where
  low : UInt32
  high : UInt32
  rail : Nat
  deriving DecidableEq

/-- One step on one of the connections. -/
def wireStep (capacity : Connection → Side → Nat) (mesh : Connection → Link)
    (action : Connection × LinkAction) : Option (Connection → Link) :=
  (linkStep (capacity action.1) (mesh action.1) action.2).map (Function.update mesh action.1)

def wireStart : Connection → Link := fun _ => Link.idle

/-- A step of a writer or a reader, in contrast to a new call. -/
def LinkAction.continues : LinkAction → Bool
  | .start _ _ => false
  | _ => true

/-- Some send of the connection has not returned. -/
def Link.Unfinished (link : Link) : Prop := ∃ side, link.unfinished side ≠ []

/-- A send is unfinished and neither a writer nor a reader can go on. -/
def Deadlocked (capacity : Connection → Side → Nat) (mesh : Connection → Link) :
    Prop :=
  (∃ connection, (mesh connection).Unfinished) ∧ ∀ connection action, action.continues = true →
      wireStep capacity mesh (connection, action) = none

/-- The most bytes a side may have to write while the reader of the other side
holds the frame of `held` and the sends in `acked` have been read: the other
data frames, and the acknowledgements of what this side has read. -/
def Link.load (link : Link) (side : Side) (held : Nat) (acked : List Nat) :
    Nat :=
  (((link.unfinished side).filter fun id =>
      decide (id ≠ held ∧ id ∉ acked)).map link.sizeOf).sum +
    frameHeaderBytes *
      ((link.unfinished side.other).filter fun id =>
        decide (id ∈ acked)).length

/-- Whatever send each reader holds and whatever acknowledgements are under way,
one of the streams takes all that its side has to write; in particular when one
of the sides has no unfinished send. -/
def Link.Fits (capacity : Side → Nat) (link : Link) : Prop :=
  ∀ low ∈ link.unfinished .low, ∀ high ∈ link.unfinished .high,
    ∀ acked ∈ (List.range link.sends.length).sublists, link.load .low low acked ≤ capacity .low ∨
        link.load .high high acked ≤ capacity .high

instance (capacity : Side → Nat) (link : Link) : Decidable (link.Fits capacity) :=
  inferInstanceAs (Decidable (∀ low ∈ link.unfinished .low, ∀ high ∈ link.unfinished .high,
      ∀ acked ∈ (List.range link.sends.length).sublists,
        link.load .low low acked ≤ capacity .low ∨ link.load .high high acked ≤ capacity .high))

/-- A new send keeps the connection within its streams. -/
def FittingSend (capacity : Side → Nat) (link : Link) : LinkAction → Prop
  | .start side payload => (link.start side payload).Fits capacity
  | _ => True

instance (capacity : Side → Nat) (link : Link) :
    (action : LinkAction) → Decidable (FittingSend capacity link action)
  | .start side payload => inferInstanceAs (Decidable ((link.start side payload).Fits capacity))
  | .lock _ => .isTrue trivial
  | .write _ _ => .isTrue trivial
  | .read _ _ => .isTrue trivial
  | .lockReader _ => .isTrue trivial

/-- A step of the mesh that meets a condition on its connection. -/
def OnConnection (guard : (Side → Nat) → Link → LinkAction → Prop)
    (capacity : Connection → Side → Nat) (mesh : Connection → Link)
    (action : Connection × LinkAction) : Prop :=
  guard (capacity action.1) (mesh action.1) action.2

/-- New sends keep their connections within their streams. -/
def FittingSends :
    (Connection → Side → Nat) → (Connection → Link) → Connection × LinkAction → Prop :=
  OnConnection FittingSend

end RuCCL.Rank
