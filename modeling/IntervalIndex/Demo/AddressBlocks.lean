import IntervalIndex.Index
import IntervalIndex.Text.Quoted

/-!
# Address blocks

An example of the index at work: four IPv4 address blocks, each owned by a network, are stored
as spans of 32-bit addresses. The report lists the blocks that hold one address, outermost
first; the blocks that lie inside the lab's block; and how many blocks a range across two of
them touches.
-/

namespace IntervalIndex

namespace Demo

/-- An IPv4 address, by its four octets. -/
structure Ipv4 where
  a : UInt8
  b : UInt8
  c : UInt8
  d : UInt8

namespace Ipv4

/-- The address as a 32-bit number, first octet highest. -/
def toUInt32 (x : Ipv4) : UInt32 :=
  (x.a.toUInt32 <<< 24) ||| (x.b.toUInt32 <<< 16) ||| (x.c.toUInt32 <<< 8) ||| x.d.toUInt32

/-- The dotted form of the address. -/
def render (x : Ipv4) : String :=
  ".".intercalate [toString x.a, toString x.b, toString x.c, toString x.d]

end Ipv4

/-- An address block owned by a network. -/
structure Block where
  owner : String
  first : Ipv4
  last : Ipv4

namespace Block

/-- The addresses of the block. -/
def span (blk : Block) : Span := ⟨blk.first.toUInt32, blk.last.toUInt32⟩

end Block

namespace AddressBlocks

/-- The campus network and the blocks inside it, then a block for a demilitarised zone. -/
def blocks : List Block :=
  [⟨"campus", ⟨10, 0, 0, 0⟩, ⟨10, 255, 255, 255⟩⟩,
   ⟨"lab", ⟨10, 1, 0, 0⟩, ⟨10, 1, 255, 255⟩⟩,
   ⟨"printers", ⟨10, 1, 7, 0⟩, ⟨10, 1, 7, 255⟩⟩,
   ⟨"dmz", ⟨192, 0, 2, 0⟩, ⟨192, 0, 2, 255⟩⟩]

/-- The lab's block. -/
def lab : Block := ⟨"lab", ⟨10, 1, 0, 0⟩, ⟨10, 1, 255, 255⟩⟩

/-- The address whose blocks are listed. -/
def address : Ipv4 := ⟨10, 1, 7, 42⟩

/-- A range from the end of the campus block into the demilitarised zone. -/
def probe : Span := ⟨(⟨10, 255, 255, 0⟩ : Ipv4).toUInt32, (⟨192, 0, 2, 10⟩ : Ipv4).toUInt32⟩

/-- A list of owners, quoted, between brackets. -/
def ownerList (owners : List String) : String :=
  "[" ++ ", ".intercalate (owners.map Text.quote) ++ "]"

/-- The index of all the blocks, each with itself as payload. -/
def index : Except Fault (Index Block) :=
  blocks.foldlM (fun ix blk =>
      let (ix, r) := ix.insert (Interval.ofSpan blk.span blk)
      r.map fun _ => ix)
    (Index.ofWidth 32)

/-- The owners of the blocks related to `q` by `rel`, in order. -/
def owners (ix : Index Block) (rel : Relation) (q : Span) : Except Fault (List String) :=
  (ix.query rel q).2.map fun found => found.toList.map (·.payload.owner)

/-- The lines of the report. -/
def report : Except Fault (List String) := do
  let ix ← index
  let holders ← owners ix .containing (Span.point address.toUInt32)
  let nested ← owners ix .containedIn lab.span
  let touched ← owners ix .overlapping probe
  pure
    [address.render ++ " is in " ++ ownerList holders,
     "inside " ++ lab.first.render ++ ".." ++ lab.last.render ++ ": " ++ ownerList nested,
     toString touched.length ++ " blocks touch the probe range"]

end AddressBlocks

end Demo

end IntervalIndex
