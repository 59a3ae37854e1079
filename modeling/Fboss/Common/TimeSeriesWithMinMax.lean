import Fboss.Lib.CircularBuffer
import Mathlib.Order.Lattice
import Mathlib.Tactic.Ring

/-!
# Time series with minimum and maximum

A `TimeSeriesWithMinMax` keeps, for each bucket of `bucketInterval` seconds,
the largest and the smallest value added in it, over the last `interval`
seconds. Its buckets are held in a circular buffer of
`interval / bucketInterval` buckets, and the class relies on their being
sorted by start time.

Times are ticks of `system_clock` since its epoch, `period` ticks to the
second, and durations are whole seconds. A bucket made for the time `t`
(`Bucket(now, width)`) starts at `t` less the whole seconds of `t` past a
multiple of the width: with a width of one second it starts at `t` itself,
ticks below the second included. It holds the times from its start to its
start plus its width, both ends included (`isTimeInBucket`).

`addValue(value, t)` places a value by its time stamp. A time older than the
interval is dropped. A new bucket is made for a time before the first bucket
or after the end of the last. Any other time is looked for in the buckets in
order: the value goes into the first bucket that holds it, and a new bucket
is inserted where the time falls strictly between the start times of a bucket
and the next. That bucket is inserted at the place of the earlier one, ahead
of it, so the buffer is then no longer sorted
(`addValue_in_gap_breaks_order`).

`getMax(start, end)` and `getMin(start, end)` first drop the buckets that
have left the interval (`maintainBuffer`), then fold over the buckets whose
start time lies in `[start, end)`.
-/

namespace Fboss

/-- `std::numeric_limits<ValueType>`: its `lowest()` and `max()`. -/
class NumericLimits (α : Type*) where
  lowest : α
  max : α

namespace TimeSeriesWithMinMax

/-- `Bucket`: the largest and the smallest value added, the start time and
the width. -/
structure Bucket (α : Type*) where
  max : α
  min : α
  startTime : Int
  width : Int
  deriving DecidableEq, Repr

end TimeSeriesWithMinMax

open TimeSeriesWithMinMax in
/-- `TimeSeriesWithMinMax<ValueType>`: the two durations of its constructor
and the buffer of buckets. -/
structure TimeSeriesWithMinMax (α : Type*) where
  interval : Int
  bucketInterval : Int
  buf : CircularBuffer (Bucket α)

namespace TimeSeriesWithMinMax

section

variable {α : Type*} [LinearOrder α] [NumericLimits α] (period : Int)

namespace Bucket

/-- `Bucket(now, width)`. The seconds since the epoch are truncated as
`duration_cast` truncates, and their remainder modulo the width is taken as
C++'s `%` takes it, with the sign of the seconds. -/
def new (now : Int) (width : Int) : Bucket α :=
  ⟨NumericLimits.lowest, NumericLimits.max, now - (now.tdiv period).tmod width * period, width⟩

/-- `Bucket::addValue(value)`. -/
def addValue (b : Bucket α) (value : α) : Bucket α :=
  { b with max := Max.max value b.max, min := Min.min value b.min }

/-- `isTimeInBucket(time)`. -/
def isTimeInBucket (b : Bucket α) (time : Int) : Bool :=
  decide (time ≥ b.startTime) && decide (time ≤ b.startTime + b.width * period)

/-- `getInstantiatedTime()`. -/
def getInstantiatedTime (b : Bucket α) : Int :=
  b.startTime

omit [LinearOrder α] in
@[simp] theorem startTime_new (now : Int) (width : Int) :
    (new period now width : Bucket α).startTime = now - (now.tdiv period).tmod width * period := rfl

omit [NumericLimits α] in
@[simp] theorem startTime_addValue (b : Bucket α) (value : α) : (b.addValue value).startTime = b.startTime :=
  rfl

end Bucket

/-- `TimeSeriesWithMinMax(interval, bucketInterval)`: an empty buffer of
`interval / bucketInterval` buckets. -/
def init (interval bucketInterval : Int) : TimeSeriesWithMinMax α :=
  ⟨interval, bucketInterval, CircularBuffer.empty (interval.tdiv bucketInterval).toNat⟩

/-- `Bucket b(t, bucketInterval_); b.addValue(value);`: the bucket that
`addValue` makes for a value. -/
def newBucket (ts : TimeSeriesWithMinMax α) (value : α) (t : Int) : Bucket α :=
  (Bucket.new period t ts.bucketInterval).addValue value

/-- `i + 1 < size() && t < at(i + 1).getInstantiatedTime() && t >
b->getInstantiatedTime()`, where `rest` are the buckets after `b`. -/
def inGap (t : Int) (b : Bucket α) : List (Bucket α) → Bool
  | [] => false
  | next :: _ => decide (t < next.getInstantiatedTime) && decide (t > b.getInstantiatedTime)

/-- The loop of `addValue(value, t)` over the buffer `buf`, at the bucket `b`
of index `i`, with `rest` the buckets after it. -/
def placeValue (buf : CircularBuffer (Bucket α)) (value : α) (t : Int) (nb : Bucket α) :
    Nat → List (Bucket α) → CircularBuffer (Bucket α)
  | _, [] => buf
  | i, b :: rest =>
    if b.isTimeInBucket period t then buf.set i (b.addValue value)
    else if inGap t b rest then buf.insert i nb
    else placeValue buf value t nb (i + 1) rest

/-- `addValue(value, t)`, at the time `now` of the clock. -/
def addValueAt (ts : TimeSeriesWithMinMax α) (value : α) (t now : Int) : TimeSeriesWithMinMax α :=
  if t < now - ts.interval * period then ts
  else match ts.buf.items with
    | [] => { ts with buf := ts.buf.pushBack (ts.newBucket period value t) }
    | first :: rest =>
      if t < first.getInstantiatedTime then
        { ts with buf := ts.buf.insert 0 (ts.newBucket period value t) }
      else if t > ((first :: rest).getLast (List.cons_ne_nil _ _)).getInstantiatedTime +
          ts.bucketInterval * period then
        { ts with buf := ts.buf.pushBack (ts.newBucket period value t) }
      else { ts with buf := placeValue period ts.buf value t (ts.newBucket period value t) 0 ts.buf.items }

/-- `addValue(value)`: at the time `now`, into the last bucket when it holds
`now`, and into a new bucket at the end otherwise. -/
def addValue (ts : TimeSeriesWithMinMax α) (value : α) (now : Int) : TimeSeriesWithMinMax α :=
  match ts.buf.items.getLast? with
  | some last =>
    if last.isTimeInBucket period now then
      { ts with buf := ts.buf.set (ts.buf.items.length - 1) (last.addValue value) }
    else { ts with buf := ts.buf.pushBack (ts.newBucket period value now) }
  | none => { ts with buf := ts.buf.pushBack (ts.newBucket period value now) }

/-- `maintainBuffer(now)`: the buckets that start at or before `now - interval`
are dropped. -/
def maintainBuffer (ts : TimeSeriesWithMinMax α) (now : Int) : TimeSeriesWithMinMax α :=
  { ts with buf := ts.buf.eraseIf fun b => decide (now - ts.interval * period ≥ b.getInstantiatedTime) }

end

section Queries

variable {α : Type*} [LinearOrder α] [NumericLimits α]

/-- The loop of `getMax()` and `getMin()`: the better of `pick b` over all
buckets, from `init`. -/
def allFold (pick : Bucket α → α) (better : α → α → α) (init : α) (buckets : List (Bucket α)) :
    Except String α :=
  if buckets = [] then .error "Empty Buffer!"
  else .ok (buckets.foldl (fun acc b => better acc (pick b)) init)

/-- The loop of `getMax(start, end)` and `getMin(start, end)`: the better of
`pick b` over the buckets that start in `[start, end)`, from `init`, and
whether there was one. -/
def rangeFold (pick : Bucket α → α) (better : α → α → α) (init : α) (start endTime : Int)
    (buckets : List (Bucket α)) : Except String α :=
  if buckets = [] then .error "Empty Buffer!"
  else
    match buckets.foldl (fun (acc : α × Bool) b =>
        if b.getInstantiatedTime ≥ start ∧ b.getInstantiatedTime < endTime then (better (pick b) acc.1, true)
        else acc) (init, false) with
    | (best, true) => .ok best
    | (_, false) => .error "Bad range specified"

variable (period : Int)

/-- `getMax()`, with the buffer it leaves. -/
def getMax (ts : TimeSeriesWithMinMax α) (now : Int) : Except String α × TimeSeriesWithMinMax α :=
  (allFold Bucket.max max NumericLimits.lowest (ts.maintainBuffer period now).buf.items,
    ts.maintainBuffer period now)

/-- `getMin()`, with the buffer it leaves. -/
def getMin (ts : TimeSeriesWithMinMax α) (now : Int) : Except String α × TimeSeriesWithMinMax α :=
  (allFold Bucket.min min NumericLimits.max (ts.maintainBuffer period now).buf.items,
    ts.maintainBuffer period now)

/-- `getMax(start, end)`, with the buffer it leaves. -/
def getMaxIn (ts : TimeSeriesWithMinMax α) (start endTime now : Int) :
    Except String α × TimeSeriesWithMinMax α :=
  (rangeFold Bucket.max max NumericLimits.lowest start endTime (ts.maintainBuffer period now).buf.items,
    ts.maintainBuffer period now)

/-- `getMin(start, end)`, with the buffer it leaves. -/
def getMinIn (ts : TimeSeriesWithMinMax α) (start endTime now : Int) :
    Except String α × TimeSeriesWithMinMax α :=
  (rangeFold Bucket.min min NumericLimits.max start endTime (ts.maintainBuffer period now).buf.items,
    ts.maintainBuffer period now)

end Queries

/-! ### Placing a value by its time stamp -/

section

variable {α : Type*} [LinearOrder α] [NumericLimits α] (period : Int)

omit [LinearOrder α] in
@[simp] theorem Bucket.width_new (now : Int) (width : Int) :
    (Bucket.new period now width : Bucket α).width = width := rfl

omit [NumericLimits α] in
@[simp] theorem Bucket.width_addValue (b : Bucket α) (value : α) : (b.addValue value).width = b.width := rfl

omit [LinearOrder α] in
/-- The start time of a bucket made for a whole number of seconds. -/
theorem startTime_new_mul (hp : period ≠ 0) (n : Int) (width : Int) :
    (Bucket.new period (n * period) width : Bucket α).startTime = (n - n.tmod width) * period := by
  rw [Bucket.startTime_new, Int.mul_tdiv_cancel n hp, Int.sub_mul]

omit [NumericLimits α] in
theorem capacity_placeValue (buf : CircularBuffer (Bucket α)) (value : α) (t : Int) (nb : Bucket α) :
    ∀ (i : Nat) (bs : List (Bucket α)), (placeValue period buf value t nb i bs).capacity = buf.capacity
  | _, [] => rfl
  | i, b :: rest => by
    rw [placeValue]
    split_ifs
    · rfl
    · rw [CircularBuffer.insert]
      split_ifs <;> rfl
    · exact capacity_placeValue buf value t nb (i + 1) rest

/-- `addValue(value, t)` changes only the buffer's buckets. -/
theorem addValueAt_eq_buf (ts : TimeSeriesWithMinMax α) (value : α) (t now : Int) :
    ∃ buf : CircularBuffer (Bucket α), buf.capacity = ts.buf.capacity ∧
      ts.addValueAt period value t now = { ts with buf := buf } := by
  unfold addValueAt
  split
  · exact ⟨ts.buf, rfl, rfl⟩
  · split
    · exact ⟨_, by rw [CircularBuffer.pushBack]; split_ifs <;> rfl, rfl⟩
    · split_ifs
      · exact ⟨_, by rw [CircularBuffer.insert]; split_ifs <;> rfl, rfl⟩
      · exact ⟨_, by rw [CircularBuffer.pushBack]; split_ifs <;> rfl, rfl⟩
      · exact ⟨_, capacity_placeValue period _ _ _ _ _ _, rfl⟩

@[simp] theorem interval_addValueAt (ts : TimeSeriesWithMinMax α) (value : α) (t now : Int) :
    (ts.addValueAt period value t now).interval = ts.interval := by
  obtain ⟨buf, -, h⟩ := addValueAt_eq_buf period ts value t now
  rw [h]

@[simp] theorem bucketInterval_addValueAt (ts : TimeSeriesWithMinMax α) (value : α) (t now : Int) :
    (ts.addValueAt period value t now).bucketInterval = ts.bucketInterval := by
  obtain ⟨buf, -, h⟩ := addValueAt_eq_buf period ts value t now
  rw [h]

@[simp] theorem capacity_addValueAt (ts : TimeSeriesWithMinMax α) (value : α) (t now : Int) :
    (ts.addValueAt period value t now).buf.capacity = ts.buf.capacity := by
  obtain ⟨buf, hcap, h⟩ := addValueAt_eq_buf period ts value t now
  rw [h]
  exact hcap

@[simp] theorem newBucket_addValueAt (ts : TimeSeriesWithMinMax α) (value v : α) (t now t' : Int) :
    (ts.addValueAt period value t now).newBucket period v t' = ts.newBucket period v t' := by
  rw [newBucket, newBucket, bucketInterval_addValueAt]

omit [LinearOrder α] [NumericLimits α] in
@[simp] theorem interval_init (interval bucketInterval : Int) :
    (init interval bucketInterval : TimeSeriesWithMinMax α).interval = interval := rfl

omit [LinearOrder α] [NumericLimits α] in
@[simp] theorem bucketInterval_init (interval bucketInterval : Int) :
    (init interval bucketInterval : TimeSeriesWithMinMax α).bucketInterval = bucketInterval := rfl

omit [LinearOrder α] [NumericLimits α] in
@[simp] theorem capacity_init (interval bucketInterval : Int) :
    (init interval bucketInterval : TimeSeriesWithMinMax α).buf.capacity = (interval.tdiv bucketInterval).toNat :=
  rfl

/-- A time after the end of the last bucket makes a new bucket at the end. -/
theorem addValueAt_after_last {ts : TimeSeriesWithMinMax α} {first : Bucket α} {rest : List (Bucket α)}
    (hbuf : ts.buf.items = first :: rest) {value : α} {t now : Int}
    (hnew : ¬t < now - ts.interval * period) (hfirst : ¬t < first.startTime)
    (hlast : t > ((first :: rest).getLast (List.cons_ne_nil _ _)).startTime + ts.bucketInterval * period) :
    ts.addValueAt period value t now = { ts with buf := ts.buf.pushBack (ts.newBucket period value t) } := by
  unfold addValueAt
  rw [if_neg hnew]
  split
  · simp_all
  · rename_i first' rest' hbuf'
    rw [hbuf] at hbuf'
    obtain ⟨rfl, rfl⟩ := List.cons.inj hbuf'
    rw [if_neg (show ¬t < first.getInstantiatedTime from hfirst),
      if_pos (show t > ((first :: rest).getLast _).getInstantiatedTime + ts.bucketInterval * period from hlast)]

/-- A time inside the span of the buffer is placed by the loop. -/
theorem addValueAt_inside {ts : TimeSeriesWithMinMax α} {first : Bucket α} {rest : List (Bucket α)}
    (hbuf : ts.buf.items = first :: rest) {value : α} {t now : Int}
    (hnew : ¬t < now - ts.interval * period) (hfirst : ¬t < first.startTime)
    (hlast : ¬t > ((first :: rest).getLast (List.cons_ne_nil _ _)).startTime + ts.bucketInterval * period) :
    ts.addValueAt period value t now =
      { ts with buf := placeValue period ts.buf value t (ts.newBucket period value t) 0 ts.buf.items } := by
  unfold addValueAt
  rw [if_neg hnew]
  split
  · simp_all
  · rename_i first' rest' hbuf'
    rw [hbuf] at hbuf'
    obtain ⟨rfl, rfl⟩ := List.cons.inj hbuf'
    rw [if_neg (show ¬t < first.getInstantiatedTime from hfirst),
      if_neg (show ¬t > ((first :: rest).getLast _).getInstantiatedTime + ts.bucketInterval * period from hlast)]

omit [NumericLimits α] in
/-- In a buffer that is not full, a time in the gap after the first bucket
makes a new bucket, inserted ahead of the first. -/
theorem placeValue_gap_first (buf : CircularBuffer (Bucket α)) (value : α) (t : Int) (nb b next : Bucket α)
    (rest : List (Bucket α)) (hin : b.isTimeInBucket period t = false)
    (hgap : t < next.startTime ∧ t > b.startTime) (hroom : buf.items.length < buf.capacity) :
    (placeValue period buf value t nb 0 (b :: next :: rest)).items = nb :: buf.items := by
  have hg : inGap t b (next :: rest) = true := by
    simp [inGap, Bucket.getInstantiatedTime, hgap.1, hgap.2]
  rw [placeValue, if_neg (by rw [hin]; decide), if_pos hg, CircularBuffer.items_insert_of_lt _ _ _ hroom,
    List.insertIdx_zero]

end

/-- From an empty series of 60 seconds in buckets of 10, the values at 50 s,
80 s and 65 s, added at 100 s, leave the buckets of 60 s, 50 s and 80 s in
that order: the bucket of the gap between 50 s and 80 s is inserted ahead of
the bucket of 50 s. This holds for every clock period and every three
values. -/
theorem addValue_in_gap_breaks_order {α : Type*} [LinearOrder α] [NumericLimits α] (period : Int)
    (hp : 0 < period) (v₁ v₂ v₃ : α) :
    ((((init 60 10 : TimeSeriesWithMinMax α).addValueAt period v₁ (50 * period) (100 * period)).addValueAt
        period v₂ (80 * period) (100 * period)).addValueAt period v₃ (65 * period) (100 * period)).buf.items.map
      Bucket.getInstantiatedTime = [60 * period, 50 * period, 80 * period] := by
  have hp0 : period ≠ 0 := hp.ne'
  -- the buckets made for 50 s, 80 s and 65 s start at 50 s, 80 s and 60 s
  have h50 : ((init 60 10 : TimeSeriesWithMinMax α).newBucket period v₁ (50 * period)).startTime = 50 * period := by
    rw [newBucket, Bucket.startTime_addValue, startTime_new_mul period hp0]
    rfl
  have h80 : ((init 60 10 : TimeSeriesWithMinMax α).newBucket period v₂ (80 * period)).startTime = 80 * period := by
    rw [newBucket, Bucket.startTime_addValue, startTime_new_mul period hp0]
    rfl
  have h65 : ((init 60 10 : TimeSeriesWithMinMax α).newBucket period v₃ (65 * period)).startTime = 60 * period := by
    rw [newBucket, Bucket.startTime_addValue, startTime_new_mul period hp0]
    rfl
  -- the first value makes the first bucket
  have hs1 : ((init 60 10 : TimeSeriesWithMinMax α).addValueAt period v₁ (50 * period) (100 * period)).buf.items =
      [(init 60 10 : TimeSeriesWithMinMax α).newBucket period v₁ (50 * period)] := by
    rw [addValueAt, if_neg (by rw [interval_init]; omega)]
    rfl
  -- the second lies after its end, and makes a bucket at the end
  have hs2 : (((init 60 10 : TimeSeriesWithMinMax α).addValueAt period v₁ (50 * period) (100 * period)).addValueAt
      period v₂ (80 * period) (100 * period)).buf.items =
      [(init 60 10 : TimeSeriesWithMinMax α).newBucket period v₁ (50 * period),
        (init 60 10 : TimeSeriesWithMinMax α).newBucket period v₂ (80 * period)] := by
    rw [addValueAt_after_last period hs1 (by rw [interval_addValueAt, interval_init]; omega)
      (by rw [h50]; omega)
      (by rw [List.getLast_singleton, h50, bucketInterval_addValueAt, bucketInterval_init]; omega)]
    have hroom : (((init 60 10 : TimeSeriesWithMinMax α).addValueAt period v₁ (50 * period) (100 * period))).buf.items.length <
        (((init 60 10 : TimeSeriesWithMinMax α).addValueAt period v₁ (50 * period) (100 * period))).buf.capacity := by
      rw [hs1, capacity_addValueAt, capacity_init, List.length_singleton]
      decide
    rw [CircularBuffer.items_pushBack_of_lt _ _ hroom, hs1, newBucket_addValueAt]
    rfl
  -- the third lies in the gap between them, and its bucket goes in ahead of the first
  have hin : ((init 60 10 : TimeSeriesWithMinMax α).newBucket period v₁ (50 * period)).isTimeInBucket period
      (65 * period) = false := by
    have hout : ¬65 * period ≤ 50 * period + 10 * period := by omega
    have hwidth : ((init 60 10 : TimeSeriesWithMinMax α).newBucket period v₁ (50 * period)).width = 10 := rfl
    rw [Bucket.isTimeInBucket, h50, hwidth]
    simp only [hout, decide_false, Bool.and_false]
  have hroom : ((((init 60 10 : TimeSeriesWithMinMax α).addValueAt period v₁ (50 * period) (100 * period)).addValueAt
      period v₂ (80 * period) (100 * period))).buf.items.length <
      ((((init 60 10 : TimeSeriesWithMinMax α).addValueAt period v₁ (50 * period) (100 * period)).addValueAt
      period v₂ (80 * period) (100 * period))).buf.capacity := by
    rw [hs2, capacity_addValueAt, capacity_addValueAt, capacity_init]
    show 2 < (Int.tdiv 60 10).toNat
    decide
  rw [addValueAt_inside period hs2 (by rw [interval_addValueAt, interval_addValueAt, interval_init]; omega)
    (by rw [h50]; omega)
    (by rw [List.getLast_cons (List.cons_ne_nil _ _), List.getLast_singleton, h80, bucketInterval_addValueAt,
      bucketInterval_addValueAt, bucketInterval_init]; omega)]
  show List.map Bucket.getInstantiatedTime (placeValue period _ v₃ (65 * period) _ 0 _).items = _
  rw [hs2, placeValue_gap_first period _ v₃ (65 * period) _ _ _ [] hin ⟨by rw [h80]; omega, by rw [h50]; omega⟩ hroom,
    hs2, newBucket_addValueAt, newBucket_addValueAt]
  simp only [List.map_cons, List.map_nil, Bucket.getInstantiatedTime, h65, h50, h80]

/-- `std::numeric_limits<int>`, for the `int` values of the tests, modelled as
`Int`. -/
instance : NumericLimits Int :=
  ⟨-2 ^ 31, 2 ^ 31 - 1⟩

/-- The same run on a clock of nanoseconds, with the values 1, 2 and 3. -/
theorem addValue_in_gap_breaks_order_nanoseconds :
    (0 : Int) < 1000000000 ∧
      ((((init 60 10 : TimeSeriesWithMinMax Int).addValueAt 1000000000 1 (50 * 1000000000)
          (100 * 1000000000)).addValueAt 1000000000 2 (80 * 1000000000) (100 * 1000000000)).addValueAt
          1000000000 3 (65 * 1000000000) (100 * 1000000000)).buf.items.map Bucket.getInstantiatedTime =
        [60 * 1000000000, 50 * 1000000000, 80 * 1000000000] :=
  ⟨by decide, addValue_in_gap_breaks_order 1000000000 (by decide) 1 2 3⟩

/-! ### Runs on a clock that goes forward -/

/-- The calls on a series, each at the time `now` of the clock. -/
inductive Call (α : Type*) where
  | addValue (value : α) (now : Int)
  | getMax (now : Int)
  | getMin (now : Int)
  | getMaxIn (start endTime now : Int)
  | getMinIn (start endTime now : Int)

namespace Call

variable {α : Type*}

/-- The time of the clock at a call. -/
def now : Call α → Int
  | addValue _ now | getMax now | getMin now | getMaxIn _ _ now | getMinIn _ _ now => now

end Call

section Ordered

variable {α : Type*} [LinearOrder α] [NumericLimits α] (period : Int)

/-- The series a call leaves. -/
def step (ts : TimeSeriesWithMinMax α) : Call α → TimeSeriesWithMinMax α
  | .addValue value now => ts.addValue period value now
  | .getMax now => (getMax period ts now).2
  | .getMin now => (getMin period ts now).2
  | .getMaxIn start endTime now => (getMaxIn period ts start endTime now).2
  | .getMinIn start endTime now => (getMinIn period ts start endTime now).2

/-- The order the class relies on, at the time `now`: the buckets start one
after another, none after `now`, and all have the series' width. -/
structure Ordered (ts : TimeSeriesWithMinMax α) (now : Int) : Prop where
  sorted : (ts.buf.items.map Bucket.startTime).Pairwise (· < ·)
  started : ∀ b ∈ ts.buf.items, b.startTime ≤ now
  width : ∀ b ∈ ts.buf.items, b.width = ts.bucketInterval

omit [LinearOrder α] [NumericLimits α] in
theorem Ordered.mono {ts : TimeSeriesWithMinMax α} {now now' : Int} (h : Ordered ts now) (hle : now ≤ now') :
    Ordered ts now' :=
  ⟨h.sorted, fun b hb => (h.started b hb).trans hle, h.width⟩

omit [LinearOrder α] [NumericLimits α] in
theorem ordered_init (interval bucketInterval now : Int) : Ordered (init interval bucketInterval : TimeSeriesWithMinMax α) now :=
  ⟨by simp [init], by simp [init], by simp [init]⟩

omit [LinearOrder α] [NumericLimits α] in
/-- No bucket of a sorted buffer starts after its last one. -/
theorem startTime_le_of_getLast? {l : List (Bucket α)} (hs : (l.map Bucket.startTime).Pairwise (· < ·))
    {last : Bucket α} (hlast : l.getLast? = some last) : ∀ b ∈ l, b.startTime ≤ last.startTime := by
  obtain ⟨init, rfl⟩ := List.getLast?_eq_some_iff.mp hlast
  rw [List.map_append, List.pairwise_append] at hs
  intro b hb
  rcases List.mem_append.mp hb with hb | hb
  · exact le_of_lt (hs.2.2 _ (List.mem_map_of_mem hb) _ (by simp))
  · rw [List.mem_singleton.mp hb]

/-- The bucket made for a time of the clock starts at it or before, and less
than a width before. -/
theorem startTime_newBucket (ts : TimeSeriesWithMinMax α) (value : α) {now : Int} (hp : 0 < period)
    (hw : 0 < ts.bucketInterval) (hnow : 0 ≤ now) :
    (ts.newBucket period value now).startTime ≤ now ∧
      now - (ts.bucketInterval - 1) * period ≤ (ts.newBucket period value now).startTime := by
  have hr0 : 0 ≤ (now.tdiv period).tmod ts.bucketInterval :=
    Int.tmod_nonneg _ (Int.tdiv_nonneg hnow (le_of_lt hp))
  have hr1 : (now.tdiv period).tmod ts.bucketInterval < ts.bucketInterval := Int.tmod_lt_of_pos _ hw
  have hmul : (now.tdiv period).tmod ts.bucketInterval * period ≤ (ts.bucketInterval - 1) * period :=
    Int.mul_le_mul_of_nonneg_right (by omega) (le_of_lt hp)
  have hmul0 : 0 ≤ (now.tdiv period).tmod ts.bucketInterval * period := Int.mul_nonneg hr0 (le_of_lt hp)
  simp only [newBucket, Bucket.startTime_addValue, Bucket.startTime_new]
  constructor <;> omega

/-- `addValue(value)` at a time of the clock keeps the order. -/
theorem Ordered.addValue {ts : TimeSeriesWithMinMax α} {now : Int} (h : Ordered ts now) (value : α)
    (hp : 0 < period) (hw : 0 < ts.bucketInterval) (hnow : 0 ≤ now) :
    Ordered (ts.addValue period value now) now := by
  obtain ⟨hstart, hafter⟩ := startTime_newBucket period ts value hp hw hnow
  -- a new bucket at the end starts after every bucket, when the last one does not hold `now`
  have hpush : (∀ b ∈ ts.buf.items, b.startTime < (ts.newBucket period value now).startTime) →
      Ordered { ts with buf := ts.buf.pushBack (ts.newBucket period value now) } now := by
    intro hlt
    have hsub := ts.buf.items_pushBack_sublist (ts.newBucket period value now)
    refine ⟨(List.Pairwise.sublist (hsub.map _) ?_), fun b hb => ?_, fun b hb => ?_⟩
    · rw [List.map_append, List.pairwise_append]
      refine ⟨h.sorted, List.pairwise_singleton _ _, fun a ha c hc => ?_⟩
      obtain ⟨b, hb, rfl⟩ := List.mem_map.mp ha
      rw [List.map_singleton, List.mem_singleton] at hc
      exact hc ▸ hlt b hb
    · rcases List.mem_append.mp (hsub.subset hb) with hb | hb
      · exact h.started b hb
      · rw [List.mem_singleton.mp hb]
        exact hstart
    · rcases List.mem_append.mp (hsub.subset hb) with hb | hb
      · exact h.width b hb
      · rw [List.mem_singleton.mp hb]
        rfl
  unfold TimeSeriesWithMinMax.addValue
  cases hlast : ts.buf.items.getLast? with
  | none =>
    rw [List.getLast?_eq_none_iff] at hlast
    exact hpush fun b hb => absurd hb (hlast ▸ List.not_mem_nil)
  | some last =>
    have hmem : last ∈ ts.buf.items := List.mem_of_getLast? hlast
    have hle := startTime_le_of_getLast? h.sorted hlast
    by_cases hin : last.isTimeInBucket period now
    · -- the last bucket holds `now`: only its values change
      dsimp only
      rw [if_pos hin]
      have hidx : ts.buf.items[ts.buf.items.length - 1]? = some last := by
        rwa [← List.getLast?_eq_getElem?]
      have hmap : (ts.buf.items.set (ts.buf.items.length - 1) (last.addValue value)).map Bucket.startTime =
          ts.buf.items.map Bucket.startTime := by
        obtain ⟨hlt, hget⟩ := List.getElem?_eq_some_iff.mp hidx
        have hself := List.set_getElem_self
          (show ts.buf.items.length - 1 < (ts.buf.items.map Bucket.startTime).length by simpa using hlt)
        rw [List.getElem_map, hget] at hself
        rw [List.map_set, Bucket.startTime_addValue, hself]
      refine ⟨?_, fun b hb => ?_, fun b hb => ?_⟩
      · show ((ts.buf.set _ _).items.map Bucket.startTime).Pairwise (· < ·)
        rw [CircularBuffer.items_set, hmap]
        exact h.sorted
      · rcases List.mem_or_eq_of_mem_set hb with hb | rfl
        · exact h.started b hb
        · exact h.started last hmem
      · rcases List.mem_or_eq_of_mem_set hb with hb | rfl
        · exact h.width b hb
        · exact h.width last hmem
    · -- it does not: `now` is past its end, and the new bucket starts after it
      dsimp only
      rw [if_neg hin]
      have hlast_lt : last.startTime + ts.bucketInterval * period < now := by
        simp only [Bucket.isTimeInBucket, h.width last hmem, Bool.and_eq_true, decide_eq_true_eq,
          not_and_or, not_le] at hin
        have := h.started last hmem
        omega
      have hper : last.startTime < (ts.newBucket period value now).startTime := by
        have : (ts.bucketInterval - 1) * period = ts.bucketInterval * period - period := by ring
        omega
      exact hpush fun b hb => lt_of_le_of_lt (hle b hb) hper

omit [LinearOrder α] [NumericLimits α] in
/-- `maintainBuffer(now)` keeps the order. -/
theorem Ordered.maintainBuffer {ts : TimeSeriesWithMinMax α} {now : Int} (h : Ordered ts now) (now' : Int) :
    Ordered (ts.maintainBuffer period now') now := by
  refine ⟨?_, fun b hb => h.started b (List.mem_of_mem_filter hb), fun b hb => h.width b (List.mem_of_mem_filter hb)⟩
  show ((ts.buf.eraseIf _).items.map Bucket.startTime).Pairwise (· < ·)
  rw [CircularBuffer.items_eraseIf, List.pairwise_map]
  exact (List.pairwise_map.mp h.sorted).filter _

/-- Every call at a time of the clock keeps the order. -/
theorem Ordered.step {ts : TimeSeriesWithMinMax α} {now : Int} (h : Ordered ts now) (c : Call α)
    (hp : 0 < period) (hw : 0 < ts.bucketInterval) (hle : now ≤ c.now) (hnow : 0 ≤ c.now) :
    Ordered (step period ts c) c.now := by
  cases c with
  | addValue value now' => exact (h.mono hle).addValue period value hp hw hnow
  | getMax now' | getMin now' | getMaxIn _ _ now' | getMinIn _ _ now' =>
    exact (h.mono hle).maintainBuffer period now'

@[simp] theorem bucketInterval_addValue (ts : TimeSeriesWithMinMax α) (value : α) (now : Int) :
    (ts.addValue period value now).bucketInterval = ts.bucketInterval := by
  unfold TimeSeriesWithMinMax.addValue
  split
  · split <;> rfl
  · rfl

theorem bucketInterval_step (ts : TimeSeriesWithMinMax α) (c : Call α) :
    (step period ts c).bucketInterval = ts.bucketInterval := by
  cases c with
  | addValue value now => exact bucketInterval_addValue period ts value now
  | getMax _ | getMin _ | getMaxIn _ _ _ | getMinIn _ _ _ => rfl

/-- A run of calls at times of the clock that never go back keeps the order;
the induction is on the calls, with the series and the clock generalised. -/
theorem Ordered.foldl {ts : TimeSeriesWithMinMax α} {now : Int} (h : Ordered ts now) (hp : 0 < period)
    (hw : 0 < ts.bucketInterval) (calls : List (Call α)) (hcalls : ∀ c ∈ calls, now ≤ c.now ∧ 0 ≤ c.now)
    (hmono : (calls.map Call.now).Pairwise (· ≤ ·)) :
    ∃ now', Ordered (calls.foldl (TimeSeriesWithMinMax.step period) ts) now' := by
  induction calls generalizing ts now with
  | nil => exact ⟨now, h⟩
  | cons c calls ih =>
    rw [List.map_cons, List.pairwise_cons] at hmono
    have hc := hcalls c List.mem_cons_self
    refine ih (h.step period c hp hw hc.1 hc.2) (by rwa [bucketInterval_step]) (fun c' hc' => ?_) hmono.2
    exact ⟨hmono.1 _ (List.mem_map_of_mem hc'), (hcalls c' (List.mem_cons_of_mem c hc')).2⟩

/-- On a clock that never goes back, any run of `addValue(value)` and of the
getters keeps the buckets in the order of their start times, each starting
after the one before, from the empty series on. -/
theorem addValue_keeps_buckets_sorted (hp : 0 < period) (interval bucketInterval : Int)
    (hw : 0 < bucketInterval) (calls : List (Call α)) (hmono : (calls.map Call.now).Pairwise (· ≤ ·))
    (hnow : ∀ c ∈ calls, 0 ≤ c.now) :
    ((calls.foldl (step period) (init interval bucketInterval)).buf.items.map Bucket.startTime).Pairwise (· < ·) := by
  obtain ⟨_, h⟩ := (ordered_init interval bucketInterval 0).foldl period hp hw calls
    (fun c hc => ⟨hnow c hc, hnow c hc⟩) hmono
  exact h.sorted

end Ordered

/-- Values at 5 s, 12 s and 31 s of a clock of nanoseconds, a `getMax()` at
75 s and one more value then. -/
def nanosecondCalls : List (Call Int) :=
  [.addValue 1 (5 * 1000000000), .addValue 2 (12 * 1000000000), .addValue 3 (31 * 1000000000),
    .getMax (75 * 1000000000), .addValue 4 (75 * 1000000000)]

/-- These calls on a series of 60 seconds in buckets of 10. -/
theorem addValue_keeps_buckets_sorted_nanoseconds :
    (0 : Int) < 1000000000 ∧ (0 : Int) < 10 ∧ (nanosecondCalls.map Call.now).Pairwise (· ≤ ·) ∧
      (∀ c ∈ nanosecondCalls, 0 ≤ c.now) ∧
      ((nanosecondCalls.foldl (step 1000000000) (init 60 10)).buf.items.map Bucket.startTime).Pairwise (· < ·) :=
  ⟨by decide, by decide, by decide, by decide,
    addValue_keeps_buckets_sorted 1000000000 (by decide) 60 10 (by decide) _ (by decide) (by decide)⟩

end TimeSeriesWithMinMax

end Fboss
