import IntervalIndex.Fault

/-!
# The result buffer

Queries write their matches into one buffer that is reused from query to query. Its capacity
only grows, by `growthStep` slots whenever a match arrives at a full buffer, and a growth that
would leave less than `growthStep` slots of room below the limit is refused as `outOfMemory`.
Emptying the buffer keeps its capacity.
-/

namespace IntervalIndex

/-- The number of slots the buffer gains each time it grows. -/
def growthStep : Nat := 10

/-- The largest limit: the greatest machine size, `2 ^ 64 - 1`, which is also the default. -/
def sizeLimit : Nat := Nat.pow 2 64 - 1

/-- A buffer of matches that keeps its capacity when emptied. -/
structure ResultBuffer (β : Type) where
  items : Array β := #[]
  capacity : Nat := 0
  limit : Nat := sizeLimit

namespace ResultBuffer

variable {β : Type}

/-- The buffer with its matches forgotten and its capacity kept. -/
def reset (b : ResultBuffer β) : ResultBuffer β := { b with items := #[] }

/-- The buffer with a new limit; capacity already reached is kept. -/
def setLimit (b : ResultBuffer β) (limit : Nat) : ResultBuffer β := { b with limit }

/-- Whether one more match fits: the buffer has a free slot, or the limit leaves room for
`growthStep` more. -/
def hasRoom (b : ResultBuffer β) : Bool :=
  b.items.size != b.capacity || decide (growthStep ≤ b.limit - b.capacity)

/-- Appends one match, first growing a full buffer by `growthStep` slots. -/
def append (b : ResultBuffer β) (x : β) : ResultBuffer β :=
  if b.items.size = b.capacity then
    { b with items := b.items.push x, capacity := b.capacity + growthStep }
  else { b with items := b.items.push x }

/-- Appends one match, or refuses as `outOfMemory` when the buffer is full and the limit leaves
less room than `growthStep`. -/
def push (b : ResultBuffer β) (x : β) : Except Fault (ResultBuffer β) :=
  if b.hasRoom then .ok (b.append x) else .error .outOfMemory

/-- Appends the matches in order. On a refusal it reports the fault together with the buffer as
it was just before the refused match. -/
def pushAll (b : ResultBuffer β) : List β → Except (Fault × ResultBuffer β) (ResultBuffer β)
  | [] => .ok b
  | x :: xs => if b.hasRoom then (b.append x).pushAll xs else .error (.outOfMemory, b)

@[simp] theorem capacity_reset (b : ResultBuffer β) : b.reset.capacity = b.capacity := rfl

@[simp] theorem limit_reset (b : ResultBuffer β) : b.reset.limit = b.limit := rfl

end ResultBuffer

end IntervalIndex
