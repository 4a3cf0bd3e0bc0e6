import MultipathQuic.Session.Path
import MultipathQuic.Stream.StreamsMap

/-!
# Path schedulers

The four path selectors of `path_scheduler.go`. Each of them iterates over the map of the paths, in
an order that the runtime chooses; a list of the IDs stands for that order. What a selector cannot
do without a panic is `none`.

SA-ECF asks the stream scheduler for streams, one after the other, and decides for each of them
whether waiting for the best path is better than sending on the second best one. ECF decides so once,
for the data of all streams.

## Main definitions

* `PathMap.select`: the four selectors
* `candidates`, `examineStreams`: the paths and the streams that SA-ECF compares
-/

namespace MultipathQuic

/-- `scheduler`. A path without an entry in `quotas` has sent nothing. -/
structure PathScheduler where
  quotas : PathID → ℕ
  waiting : ℕ

/-- The selectors that `scheduler.pathScheduler` may be. -/
inductive PathSelector
  | roundRobin
  | lowLatency
  | ecf
  | saEcf
  deriving DecidableEq, Repr

/-- `setup`. -/
def PathSelector.setup (pathScheduler : String) : PathSelector :=
  if pathScheduler = "RoundRobin" then .roundRobin
  else if pathScheduler = "ECF" then .ecf
  else if pathScheduler = "SA-ECF" then .saEcf
  else .lowLatency

/-- What a selector leaves: the path, the flag of ECF and the streams. -/
structure Selection (E : Type) where
  path : Option PathID
  waiting : ℕ
  streamsMap : StreamsMap E

namespace PathMap

variable (paths : PathMap)

/-- The start of every selector: with one path only, that is the initial path. -/
def selectInitial (hasRetransmission : Bool) : Option (Option PathID) :=
  if hasRetransmission then some ((paths.lookup initialPathID).map fun _ => initialPathID)
  else (paths.lookup initialPathID).map fun pth =>
    if pth.sendingAllowed then some initialPathID else none

/-- The loop over the paths that comes first if the frames of an unprobed path are sent again: a path
that has sent fewer packets. -/
def selectLessUsed (quotas : PathID → ℕ) (fromPth : PathID) (order : List PathID) :
    Option PathID :=
  order.find? fun pathID =>
    decide (pathID ≠ initialPathID ∧ pathID ≠ fromPth ∧ quotas pathID < quotas fromPth)

/-- That loop, if it is reached. -/
def selectUnprobed (quotas : PathID → ℕ) (hasRetransmission hasStreamRetransmission : Bool)
    (fromPth : Option PathID) (order : List PathID) : Option (Option PathID) :=
  if hasRetransmission && hasStreamRetransmission then do
    let fromPth ← fromPth
    if (paths.path fromPth).smoothedRTT = 0 then some (selectLessUsed quotas fromPth order)
    else some none
  else some none

/-! ## Round robin -/

/-- One round of the loop of `selectPathRoundRobin`: the selected path and its quota. -/
def roundRobinStep (quotas : PathID → ℕ) (hasRetransmission : Bool) (acc : Option PathID × ℕ)
    (pathID : PathID) : Option PathID × ℕ :=
  let pth := paths.path pathID
  if hasRetransmission = false ∧ pth.sendingAllowed = false then acc
  else if pth.potentiallyFailed then acc
  else if pathID = initialPathID then acc
  else if quotas pathID < acc.2 then (some pathID, quotas pathID)
  else acc

/-- `selectPathRoundRobin`. -/
def selectPathRoundRobin (sch : PathScheduler) (hasRetransmission : Bool) (order : List PathID) :
    Option (Option PathID) :=
  if paths.ids.length ≤ 1 then paths.selectInitial hasRetransmission
  else some
    (order.foldl (paths.roundRobinStep sch.quotas hasRetransmission) (none, 2 ^ 64 - 1)).1

/-! ## Lowest latency -/

/-- The variables of the loop of `selectPathLowLatency`. -/
structure Lowest where
  selectedPath : Option PathID
  lowerRTT : ℤ
  selectedPathID : PathID

/-- One round of the loop of `selectPathLowLatency`. -/
def lowLatencyStep (quotas : PathID → ℕ) (hasRetransmission : Bool) (acc : Lowest)
    (pathID : PathID) : Lowest :=
  let pth := paths.path pathID
  let currentRTT := pth.smoothedRTT
  if hasRetransmission = false ∧ pth.sendingAllowed = false then acc
  else if pth.potentiallyFailed then acc
  else if pathID = initialPathID then acc
  else if acc.lowerRTT ≠ 0 ∧ currentRTT = 0 then acc
  -- several paths are unprobed
  else if currentRTT = 0 ∧ acc.selectedPath ≠ none ∧ quotas pathID > quotas acc.selectedPathID then
    acc
  else if currentRTT ≠ 0 ∧ acc.lowerRTT ≠ 0 ∧ acc.selectedPath ≠ none ∧ currentRTT ≥ acc.lowerRTT
  then acc
  else ⟨some pathID, currentRTT, pathID⟩

/-- `selectPathLowLatency`. -/
def selectPathLowLatency (sch : PathScheduler) (hasRetransmission hasStreamRetransmission : Bool)
    (fromPth : Option PathID) (unprobedOrder order : List PathID) : Option (Option PathID) :=
  if paths.ids.length ≤ 1 then paths.selectInitial hasRetransmission
  else do
    let lessUsed ← paths.selectUnprobed sch.quotas hasRetransmission hasStreamRetransmission fromPth
      unprobedOrder
    match lessUsed with
    | some pathID => some (some pathID)
    | none =>
      let acc := order.foldl (paths.lowLatencyStep sch.quotas hasRetransmission) ⟨none, 0, 255⟩
      some acc.selectedPath

/-! ## Earliest completion first -/

/-- The variables of the loop over the paths of ECF and of SA-ECF. -/
structure Candidates where
  bestPath : Option PathID
  secondBestPath : Option PathID
  lowerRTT : ℤ
  secondLowerRTT : ℤ
  bestPathID : PathID
  deriving DecidableEq

/-- `secondBestPath` is updated, if the path is not the best one so far. -/
def considerSecond (acc : Candidates) (pathID : PathID) : Candidates :=
  let pth := paths.path pathID
  if pth.smoothedRTT ≥ acc.lowerRTT ∧
      (acc.secondLowerRTT = 0 ∨ pth.smoothedRTT < acc.secondLowerRTT) ∧ pth.sendingAllowed then
    { acc with secondLowerRTT := pth.smoothedRTT, secondBestPath := some pathID }
  else acc

/-- One round of the loop over the paths of ECF and of SA-ECF. -/
def candidatesStep (quotas : PathID → ℕ) (acc : Candidates) (pathID : PathID) : Candidates :=
  let pth := paths.path pathID
  let currentRTT := pth.smoothedRTT
  if pth.potentiallyFailed then acc
  else if pathID = initialPathID then acc
  else if acc.lowerRTT ≠ 0 ∧ currentRTT = 0 then acc
  -- several paths are unprobed
  else if currentRTT = 0 ∧ acc.bestPath ≠ none ∧ quotas pathID > quotas acc.bestPathID then acc
  else
    let second := paths.considerSecond acc pathID
    if currentRTT ≥ acc.lowerRTT ∧ currentRTT ≠ 0 ∧ acc.lowerRTT ≠ 0 ∧ acc.bestPath ≠ none then
      second
    else { second with lowerRTT := currentRTT, bestPath := some pathID, bestPathID := pathID }

/-- The loop over the paths of ECF and of SA-ECF. -/
def candidates (quotas : PathID → ℕ) (order : List PathID) : Candidates :=
  order.foldl (paths.candidatesStep quotas) ⟨none, none, 0, 0, 255⟩

end PathMap

/-- `beta`. -/
def beta : ℕ := 4

/-- What the comparison of completion times reads from both paths: their congestion windows, their
round-trip times and the larger one of their deviations, as unsigned integers of 64 bits. -/
structure PathPair where
  cwndBest : ℕ
  cwndSecond : ℕ
  lowerRTT : ℕ
  secondLowerRTT : ℕ
  delta : ℕ

/-- The comparison of the completion times on both paths for `queueSize` bytes: whether it is better
to wait for the best path, and the new flag. -/
def PathPair.waitsForBest (p : PathPair) (queueSize waiting : ℕ) : Bool × ℕ :=
  let xBest := if queueSize > p.cwndBest then p.cwndBest else queueSize
  let lhs := mul64 p.lowerRTT (add64 xBest p.cwndBest)
  let rhs := mul64 p.cwndBest (add64 p.secondLowerRTT p.delta)
  if mul64 beta lhs < add64 (mul64 beta rhs) (mul64 waiting rhs) then
    let xSecond := if queueSize < p.cwndSecond then p.cwndSecond else queueSize
    let lhsSecond := mul64 p.secondLowerRTT xSecond
    let rhsSecond := mul64 p.cwndSecond (add64 (mul64 2 p.lowerRTT) p.delta)
    if lhsSecond > rhsSecond then (true, 1) else (false, waiting)
  else (false, 0)

/-- The values that are compared for the best and the second best path. -/
def PathMap.pathPair (paths : PathMap) (c : PathMap.Candidates) (best second : PathID) : PathPair :=
  let deviationBest := uint64 (paths.path best).meanDeviation
  let deviationSecond := uint64 (paths.path second).meanDeviation
  { cwndBest := (paths.path best).congestionWindow
    cwndSecond := (paths.path second).congestionWindow
    lowerRTT := uint64 c.lowerRTT
    secondLowerRTT := uint64 c.secondLowerRTT
    delta := if deviationBest < deviationSecond then deviationSecond else deviationBest }

namespace StreamsMap

variable {E : Type} (m : StreamsMap E)

/-- What `getQueueSize` adds up: the data of all open streams. -/
def queueSize : ℕ :=
  (iterate (fun p id => ((p.1, add64 p.2 (p.1.stream id).lenOfDataForWriting), true, none))
    (m, 0)).1.2

/-! ## The streams that SA-ECF examines -/

/-- A stream that SA-ECF has examined: its node, the bytes until it is completed, the queue size and
the flag that the test was made with, and what came out of it. -/
structure StreamTest where
  node : ℕ
  bytesUntilCompletion : ℕ
  queueSize : ℕ
  waiting : ℕ
  waits : Bool
  newWaiting : ℕ

/-- The variables of the loop over the streams of SA-ECF, and the tests that have been made. -/
structure Examined where
  visited : List ℕ
  queueSize : ℕ
  streamScheduler : StreamScheduler
  tests : List StreamTest

/-- One round of the loop over the streams of SA-ECF: `some true` sends on the second best path,
`some false` leaves the loop, and `none` goes on with the next round. -/
def examineStep (p : PathPair) (acc : Examined) : Option (Option Bool × Examined) := do
  let (strm, sch) ← acc.streamScheduler.schedule m.view
  match strm with
  | none => some (some false, { acc with streamScheduler := sch })
  | some n =>
    if (sch.node n).id ∈ acc.visited then do
      let sch ← sch.skip n
      some (none, { acc with streamScheduler := sch })
    else do
      let k ← sch.bytesUntilCompletion m.view n
      -- a stream may be about to finish
      let queueSize := if acc.queueSize > k then k else acc.queueSize
      let (waits, waiting) := p.waitsForBest queueSize (sch.node n).waiting
      let test : StreamTest := ⟨n, k, queueSize, (sch.node n).waiting, waits, waiting⟩
      some (if waits then none else some true,
        { visited := (sch.node n).id :: acc.visited
          queueSize := queueSize
          streamScheduler := sch.modify n fun node => { node with waiting := waiting }
          tests := acc.tests ++ [test] })

/-- The loop over the streams of SA-ECF, from round `i` on: whether the second best path is used. -/
def examine (p : PathPair) : ℕ → ℕ → Examined → Option (Bool × Examined)
  | 0, i, acc =>
    if acc.visited.length < acc.streamScheduler.openStreams ∧ i < acc.streamScheduler.openStreams
    then none
    else some (false, acc)
  | rounds + 1, i, acc =>
    if acc.visited.length < acc.streamScheduler.openStreams ∧ i < acc.streamScheduler.openStreams
    then do
      let (result, acc) ← m.examineStep p acc
      match result with
      | some sends => some (sends, acc)
      | none => examine p rounds (i + 1) acc
    else some (false, acc)

/-- The whole loop. -/
def examineStreams (p : PathPair) (streamScheduler : StreamScheduler) : Option (Bool × Examined) :=
  m.examine p streamScheduler.openStreams.toNat 0 ⟨[], m.queueSize, streamScheduler, []⟩

end StreamsMap

namespace PathMap

variable {E : Type} (paths : PathMap)

/-- What ECF does once the candidates are known. -/
def decideEcf (sch : PathScheduler) (m : StreamsMap E) (hasRetransmission : Bool) (c : Candidates) :
    Selection E :=
  match c.bestPath, c.secondBestPath with
  | none, second => ⟨second, sch.waiting, m⟩
  | some best, second =>
    if hasRetransmission || (paths.path best).sendingAllowed then ⟨some best, sch.waiting, m⟩
    else
      match second with
      | none => ⟨none, sch.waiting, m⟩
      | some second =>
        let (waits, waiting) := (paths.pathPair c best second).waitsForBest m.queueSize sch.waiting
        ⟨if waits then none else some second, waiting, m⟩

/-- What SA-ECF does once the candidates are known. -/
def decideSaEcf (sch : PathScheduler) (m : StreamsMap E) (streamScheduler : StreamScheduler)
    (hasRetransmission : Bool) (c : Candidates) : Option (Selection E) :=
  match c.bestPath, c.secondBestPath with
  | none, second => some ⟨second, sch.waiting, m⟩
  | some best, second =>
    if hasRetransmission || (paths.path best).sendingAllowed then
      some ⟨some best, sch.waiting, m⟩
    else
      match second with
      | none => some ⟨none, sch.waiting, m⟩
      | some second => do
        let (sends, acc) ← m.examineStreams (paths.pathPair c best second) streamScheduler
        some ⟨if sends then some second else none, sch.waiting,
          { m with streamScheduler := some acc.streamScheduler }⟩

/-- The common start of ECF and SA-ECF: the initial path or an unprobed path, if one of these is
selected. -/
def selectEarly (sch : PathScheduler) (hasRetransmission hasStreamRetransmission : Bool)
    (fromPth : Option PathID) (unprobedOrder : List PathID) :
    Option (Option (Option PathID)) :=
  if paths.ids.length ≤ 1 then (paths.selectInitial hasRetransmission).map some
  else (paths.selectUnprobed sch.quotas hasRetransmission hasStreamRetransmission fromPth
    unprobedOrder).map fun pth => pth.map some

/-- `selectPathEarliestCompletionFirst`. -/
def selectPathEarliestCompletionFirst (sch : PathScheduler) (m : StreamsMap E)
    (hasRetransmission hasStreamRetransmission : Bool) (fromPth : Option PathID)
    (unprobedOrder order : List PathID) : Option (Selection E) := do
  let early ← paths.selectEarly sch hasRetransmission hasStreamRetransmission fromPth unprobedOrder
  match early with
  | some pth => some ⟨pth, sch.waiting, m⟩
  | none => some (paths.decideEcf sch m hasRetransmission (paths.candidates sch.quotas order))

/-- `selectPathStreamAwareEarliestCompletionFirst`. -/
def selectPathStreamAwareEarliestCompletionFirst (sch : PathScheduler) (m : StreamsMap E)
    (hasRetransmission hasStreamRetransmission : Bool) (fromPth : Option PathID)
    (unprobedOrder order : List PathID) : Option (Selection E) :=
  match m.streamScheduler with
  | none => paths.selectPathEarliestCompletionFirst sch m hasRetransmission hasStreamRetransmission
      fromPth unprobedOrder order
  | some streamScheduler => do
    -- the selected stream is reset
    let streamScheduler := { streamScheduler with toSend := none }
    let m := { m with streamScheduler := some streamScheduler }
    let early ← paths.selectEarly sch hasRetransmission hasStreamRetransmission fromPth
      unprobedOrder
    match early with
    | some pth => some ⟨pth, sch.waiting, m⟩
    | none =>
      let c := paths.candidates sch.quotas order
      paths.decideSaEcf sch m streamScheduler hasRetransmission c

/-- The selector that is set up. -/
def select (sch : PathScheduler) (m : StreamsMap E) (selector : PathSelector)
    (hasRetransmission hasStreamRetransmission : Bool) (fromPth : Option PathID)
    (unprobedOrder order : List PathID) : Option (Selection E) :=
  match selector with
  | .roundRobin => (paths.selectPathRoundRobin sch hasRetransmission order).map
      fun pth => ⟨pth, sch.waiting, m⟩
  | .lowLatency => (paths.selectPathLowLatency sch hasRetransmission hasStreamRetransmission
      fromPth unprobedOrder order).map fun pth => ⟨pth, sch.waiting, m⟩
  | .ecf => paths.selectPathEarliestCompletionFirst sch m hasRetransmission
      hasStreamRetransmission fromPth unprobedOrder order
  | .saEcf => paths.selectPathStreamAwareEarliestCompletionFirst sch m hasRetransmission
      hasStreamRetransmission fromPth unprobedOrder order

/-- `selectPath`. It hands `hasRetransmission` on in the place of `hasStreamRetransmission`. -/
def selectPath (sch : PathScheduler) (m : StreamsMap E) (selector : PathSelector)
    (hasRetransmission _hasStreamRetransmission : Bool) (fromPth : Option PathID)
    (unprobedOrder order : List PathID) : Option (Selection E) :=
  paths.select sch m selector hasRetransmission hasRetransmission fromPth unprobedOrder order

end PathMap

end MultipathQuic
