import IntervalIndex.Fault
import IntervalIndex.Span
import IntervalIndex.Relation
import IntervalIndex.Interval
import IntervalIndex.Tree.Basic
import IntervalIndex.Tree.Rotate
import IntervalIndex.Tree.Insert
import IntervalIndex.Tree.Cursor
import IntervalIndex.Tree.Search
import IntervalIndex.Arena.Basic
import IntervalIndex.Arena.Insert
import IntervalIndex.ResultBuffer
import IntervalIndex.Dot
import IntervalIndex.Journal
import IntervalIndex.Index
import IntervalIndex.Index.Command
import IntervalIndex.Text.Printable
import IntervalIndex.Text.GraphemeExtend
import IntervalIndex.Text.Quoted
import IntervalIndex.Describe
import IntervalIndex.Serial
import IntervalIndex.Demo.AddressBlocks
import IntervalIndex.Main
import IntervalIndex.Proofs.Tree.Balance
import IntervalIndex.Proofs.Tree.Bound
import IntervalIndex.Proofs.Tree.Order
import IntervalIndex.Proofs.Tree.Search
import IntervalIndex.Proofs.Tree.Walk
import IntervalIndex.Proofs.Tree.Zipper
import IntervalIndex.Proofs.Arena.Linked
import IntervalIndex.Proofs.Arena.Rotate
import IntervalIndex.Proofs.Arena.Insert
import IntervalIndex.Proofs.Index.Invariant
import IntervalIndex.Proofs.Index.Query
import IntervalIndex.Proofs.Index.Shape
import IntervalIndex.Proofs.Index.History
import IntervalIndex.Proofs.Index.Width
import IntervalIndex.Proofs.Index.Capacity
import IntervalIndex.Proofs.Tree.Repair
import IntervalIndex.Proofs.Index.Drawing
