import IntervalIndex.Index
import IntervalIndex.Journal

/-!
# Commands on an index and their journal

Each operation on an index is a command; running it gives the index after it, the reply, and
the journal entries written meanwhile. `Command.addAll` is not an operation of the index itself
but the loop a caller writes around `add`: it stops at the first refusal and reports how many
intervals were added before it.
-/

namespace IntervalIndex

/-- An operation on an index. -/
inductive Command (α : Type) where
  | add (iv : Interval α)
  | addAll (ivs : List (Interval α))
  | query (rel : Relation) (q : Span)
  | overlapsAny (q : Span)
  | items
  | isEmpty
  | setResultLimit (limit : Nat)
  | clear
  | draw

/-- What a command answers. -/
inductive Reply (α : Type) where
  | done
  | refused (f : Fault)
  | added (count : Nat) (fault : Option Fault)
  | found (ivs : Array (Interval α))
  | answer (b : Bool)
  | listing (ivs : List (Interval α))
  | drawing (text : String)

namespace Index

variable {α : Type}

/-- Adds an interval and writes the journal entry that says how it went. -/
def addLogged (ix : Index α) (iv : Interval α) : Index α × Option Fault × Entry :=
  match ix.insert iv with
  | (ix, .ok z) => (ix, none, Entry.inserted iv.lo iv.hi z)
  | (ix, .error f) => (ix, some f, Entry.insertFailed iv.lo iv.hi f)

/-- Adds the intervals in order up to the first refusal, counting the added ones in `count` and
appending journal entries to `log`. -/
def addAllLogged (ix : Index α) (ivs : List (Interval α)) (count : Nat) (log : Array Entry) :
    Index α × Nat × Option Fault × Array Entry :=
  match ivs with
  | [] => (ix, count, none, log)
  | iv :: rest =>
    match ix.addLogged iv with
    | (ix', none, e) => addAllLogged ix' rest (count + 1) (log.push e)
    | (ix', some f, e) => (ix', count, some f, log.push e)

/-- Runs a query and writes its journal: one entry per growth of the buffer, then the outcome. -/
def queryLogged (ix : Index α) (rel : Relation) (q : Span) :
    Index α × Except Fault (Array (Interval α)) × List Entry :=
  let (ix', res) := ix.query rel q
  let grown := Entry.growth ix.resultCapacity ix'.resultCapacity
  match res with
  | .ok ivs => (ix', res, grown ++ [Entry.matched rel q.lo q.hi ivs.size])
  | .error f => (ix', res, grown ++ [Entry.queryFailed rel q.lo q.hi f])

/-- Runs a command: the index after it, the reply, and the journal entries it wrote. -/
def exec (ix : Index α) : Command α → Index α × Reply α × List Entry
  | .add iv =>
    match ix.addLogged iv with
    | (ix', none, e) => (ix', .done, [e])
    | (ix', some f, e) => (ix', .refused f, [e])
  | .addAll ivs =>
    let (ix', count, fault, log) := ix.addAllLogged ivs 0 #[]
    (ix', .added count fault, log.toList)
  | .query rel q =>
    match ix.queryLogged rel q with
    | (ix', .ok ivs, log) => (ix', .found ivs, log)
    | (ix', .error f, log) => (ix', .refused f, log)
  | .overlapsAny q => (ix, .answer (ix.overlapsAny q), [])
  | .items => (ix, .listing ix.items, [])
  | .isEmpty => (ix, .answer ix.isEmpty, [])
  | .setResultLimit limit => (ix.setResultLimit limit, .done, [])
  | .clear => (ix.clear, .done, [])
  | .draw => (ix, .drawing ix.draw, [])

end Index

end IntervalIndex
