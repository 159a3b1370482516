/-
  Mpsx/Event.lean
  ===============
  **Events.**  What the library reports while it works: what it reads and writes,
  which weights it moves or casts, and what it leaves alone.
-/

import Mpsx.Files.Path
import Mpsx.Model.Describe

namespace Mpsx

inductive Level where
  | debug
  | info
  | warn
deriving DecidableEq, Repr

def Level.name : Level → String
  | debug => "DEBUG"
  | info => "INFO"
  | warn => "WARN"

inductive Event where
  | loading (path : Path)
  | droppedValues (count : Nat) (graph : String)
  | readingExternal (tensor : String) (path : Path)
  | groupedUse (node weight : String) (group : Int64)
  | sharedWeight (weight : String) (earlier later : Int64)
  | keptLayout (tensor : String) (shape : List UInt64) (group : Int64)
  | swappedAxes (tensor : String) (shape : List UInt64)
  | cast (tensor : String) (source target : Precision)
  | swappedInput (name : String)
  | convertedGraph (graph : String) (initializers swapped : Nat) (target : Precision)
  | alreadyConverted (graph : String)
  | writing (size : Nat) (path : Path)
deriving DecidableEq, Repr

namespace Event

def level : Event → Level
  | loading .. | convertedGraph .. | alreadyConverted .. | writing .. => .info
  | sharedWeight .. => .warn
  | droppedValues .. | readingExternal .. | groupedUse .. | keptLayout .. | swappedAxes ..
  | cast .. | swappedInput .. => .debug

def message : Event → String
  | loading path => "Loading ONNX model: " ++ path.text
  | droppedValues count graph =>
    "Dropping " ++ toString count ++ " value_info entries of graph " ++ graph
  | readingExternal tensor path => "Reading external data of " ++ tensor ++ " from " ++ path.text
  | groupedUse node weight group =>
    "Conv " ++ node ++ " uses " ++ weight ++ " with group " ++ toString group.toInt
  | sharedWeight weight earlier later =>
    "Weight " ++ weight ++ " is shared by grouped convolutions with groups " ++
      toString earlier.toInt ++ " and " ++ toString later.toInt ++ "; keeping " ++
      toString later.toInt
  | keptLayout tensor shape group =>
    "Leaving " ++ tensor ++ " unswizzled: shape " ++ Describe.dimensions shape ++
      " does not match group " ++ Describe.optional (toString group.toInt)
  | swappedAxes tensor shape => "Swizzling " ++ tensor ++ " " ++ Describe.dimensions shape
  | cast tensor source target =>
    "Casting " ++ tensor ++ " from " ++ source.text ++ " to " ++ target.text
  | swappedInput name => "Swizzling input descriptor " ++ name
  | convertedGraph graph initializers swapped target =>
    "Rewrote graph " ++ graph ++ ": " ++ toString initializers ++ " initializers, " ++
      toString swapped ++ " swizzled, target " ++ target.text
  | alreadyConverted graph => "Graph " ++ graph ++ " is already converted, skipping"
  | writing size path => "Writing " ++ toString size ++ " bytes to " ++ path.text

/-- The event as one line of a log. -/
def line (e : Event) : String := e.level.name ++ " " ++ e.message

end Event

end Mpsx
