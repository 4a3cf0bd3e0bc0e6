import Mathlib.Logic.Function.Basic
import MultipathQuic.Wire.StreamFrame

/-!
# The stream frame sorter

`stream_frame_sorter.go`: frames are queued by their offset until the reader gets there, and a list
of gaps says which bytes have not been received. `Push` cuts a frame to what is missing.
-/

namespace MultipathQuic

/-- `utils.ByteInterval`: the bytes from `start` on and before `stop`. -/
structure ByteInterval where
  start : ℕ
  stop : ℕ
  deriving DecidableEq, Repr

/-- The errors of `Push`. -/
inductive SorterError
  | tooManyGapsInReceivedStreamData
  | duplicateStreamData
  | emptyStreamData
  | noGapFound
  | noEndGapFound
  deriving DecidableEq, Repr

/-- The text of an error of `Push`. -/
def SorterError.text : SorterError → String
  | .tooManyGapsInReceivedStreamData => "Too many gaps in received StreamFrame data"
  | .duplicateStreamData => "Duplicate Stream Data"
  | .emptyStreamData => "Stream Data empty"
  | .noGapFound => "StreamFrameSorter BUG: no gap found"
  | .noEndGapFound => "StreamFrameSorter BUG: no end gap found"

/-- `streamFrameSorter`. -/
structure StreamFrameSorter where
  queuedFrames : ℕ → Option StreamFrame
  readPosition : ℕ
  gaps : List ByteInterval

/-- `newStreamFrameSorter`. -/
def newStreamFrameSorter : StreamFrameSorter where
  queuedFrames _ := none
  readPosition := 0
  gaps := [⟨0, maxByteCount⟩]

/-! ## The gaps -/

/-- What the search for the first gap of a frame ends with. -/
inductive GapSearch
  | duplicate
  | notFound
  | found (before : List ByteInterval) (gap : ByteInterval) (after : List ByteInterval)

/-- The first loop of `Push`: skip all gaps that are before the frame. -/
def findGap (start stop : ℕ) : List ByteInterval → GapSearch
  | [] => .notFound
  | gap :: gaps =>
    if stop ≤ gap.start then .duplicate
    else if stop > gap.start ∧ start ≤ gap.stop then .found [] gap gaps
    else
      match findGap start stop gaps with
      | .found before g after => .found (gap :: before) g after
      | r => r

/-- Where the second loop leaves the end gap: it is the gap of the first loop, or another one that
has been removed from the list, or another one that is still there. -/
inductive EndGapPlace
  | gap
  | removed
  | listed
  deriving DecidableEq, Repr

/-- The end gap, the gaps after it, and the queued frames. -/
structure EndGap where
  endGap : ByteInterval
  place : EndGapPlace
  after : List ByteInterval
  queuedFrames : ℕ → Option StreamFrame

/-- The second loop of `Push`: find the highest gap whose start lies before the end of the frame.
Gaps in between are removed, and queued frames that start at the end of a covered gap deleted.
`isGap` says whether `endGap` is still the gap of the first loop. Without a next gap the loop fails
with the gaps left in the list. -/
def findEndGap (stop : ℕ) : Bool → ByteInterval → List ByteInterval → (ℕ → Option StreamFrame) →
    Except (List ByteInterval × (ℕ → Option StreamFrame)) EndGap
  | isGap, endGap, [], queued =>
    if stop ≥ endGap.stop then .error (if isGap then [] else [endGap], queued)
    else .ok ⟨endGap, if isGap then .gap else .listed, [], queued⟩
  | isGap, endGap, nextEndGap :: after, queued =>
    if stop ≥ endGap.stop then
      if stop ≤ nextEndGap.start then
        .ok ⟨endGap, if isGap then .gap else .removed, nextEndGap :: after, queued⟩
      else
        findEndGap stop false nextEndGap after (Function.update queued endGap.stop none)
    else .ok ⟨endGap, if isGap then .gap else .listed, nextEndGap :: after, queued⟩

/-- The gaps after the gap of the first loop, once the start of the end gap may have moved. -/
def EndGap.rest (e : EndGap) (start : ℕ) : List ByteInterval :=
  match e.place with
  | .listed => ⟨start, e.endGap.stop⟩ :: e.after
  | _ => e.after

/-- How `Push` adjusts `gap` and the end gap to a frame from `start` to `stop`. -/
def adjustGaps (gap : ByteInterval) (e : EndGap) (start stop : ℕ) : List ByteInterval :=
  if start = gap.start then
    if e.place = .gap then
      -- the end gap is the gap itself
      if stop ≥ gap.stop then e.after else ⟨stop, gap.stop⟩ :: e.after
    else
      let rest := e.rest (if stop < e.endGap.stop then stop else e.endGap.start)
      if stop ≥ gap.stop then rest else gap :: rest
  else if stop = e.endGap.stop then
    ⟨gap.start, start⟩ :: e.rest e.endGap.start
  else if e.place = .gap then
    ⟨gap.start, start⟩ :: ⟨stop, gap.stop⟩ :: e.after
  else
    ⟨gap.start, start⟩ :: e.rest stop

/-! ## Push and Pop -/

namespace StreamFrameSorter

/-- `Push`, from the check for a queued frame at the same offset on. The frame is not empty. -/
def pushData (s : StreamFrameSorter) (frame : StreamFrame) :
    StreamFrameSorter × Option SorterError :=
  let start := frame.offset
  let stop := frame.offset + frame.dataLen
  match findGap start stop s.gaps with
  | .duplicate => (s, some .duplicateStreamData)
  | .notFound => (s, some .noGapFound)
  | .found before gap after =>
    let frame := if start < gap.start then frame.cutHead (gap.start - start) else frame
    let start := if start < gap.start then gap.start else start
    match findEndGap stop true gap after s.queuedFrames with
    | .error (after, queued) =>
      ({ s with gaps := before ++ gap :: after, queuedFrames := queued }, some .noEndGapFound)
    | .ok e =>
      let frame :=
        if stop > e.endGap.stop then frame.cutTail (frame.dataLen - (stop - e.endGap.stop))
        else frame
      let stop := if stop > e.endGap.stop then e.endGap.stop else stop
      let gaps := before ++ adjustGaps gap e start stop
      if gaps.length > maxStreamFrameSorterGaps then
        ({ s with gaps := gaps, queuedFrames := e.queuedFrames },
          some .tooManyGapsInReceivedStreamData)
      else
        ({ s with gaps := gaps
                  queuedFrames := Function.update e.queuedFrames frame.offset (some frame) }, none)

/-- `Push`. -/
def push (s : StreamFrameSorter) (frame : StreamFrame) :
    StreamFrameSorter × Option SorterError :=
  if frame.dataLen = 0 then
    if frame.finBit then
      ({ s with queuedFrames := Function.update s.queuedFrames frame.offset (some frame) }, none)
    else (s, some .emptyStreamData)
  else
    match s.queuedFrames frame.offset with
    | some oldFrame =>
      if frame.dataLen ≤ oldFrame.dataLen then (s, some .duplicateStreamData)
      else s.pushData (frame.cutHead oldFrame.dataLen)
    | none => s.pushData frame

/-- `Head`. -/
def head (s : StreamFrameSorter) : Option StreamFrame := s.queuedFrames s.readPosition

/-- `Pop`. -/
def pop (s : StreamFrameSorter) : StreamFrameSorter × Option StreamFrame :=
  match s.head with
  | some frame =>
    ({ s with readPosition := s.readPosition + frame.dataLen
              queuedFrames := Function.update s.queuedFrames frame.offset none }, some frame)
  | none => (s, none)

end StreamFrameSorter

end MultipathQuic
