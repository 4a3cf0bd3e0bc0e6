import Mathlib.Data.Finset.Card
import MultipathQuic.Scheduler.StreamScheduler
import MultipathQuic.Stream.Stream

/-!
# The streams of a session

`streams_map.go`. A stream that has been removed from the map may still be referred to, by the
application or by the scheduler, so that the streams themselves live in a heap and the map is the
set of its keys. A stream stands for its ID, since no two streams of a session have the same one.

The flow control manager is reached through the streams and through the `newStream` callback of the
session; it is a field of the map here.

## Main definitions

* `StreamsMap`, `newStreamsMap`: the map
* `getOrOpenStream`, `openStream`, `acceptStream`, `removeStream`: the calls
* `OpenRule`: what opening streams preserves

## Main results

* `roundRobinIterate_rule`, `garbageCollectStreams_rule`: rules for iterations
-/

namespace MultipathQuic

/-- `protocol.MaxNewStreamIDDelta`. -/
def maxNewStreamIDDelta : ℕ := 4 * 1000

/-- `streamsMap`. -/
structure StreamsMap (E : Type) where
  perspective : Perspective
  flowControlManager : FlowControlManager
  stream : ℕ → Stream E
  streams : Finset ℕ
  openStreams : List ℕ
  roundRobinIndex : ℕ
  nextStream : ℕ
  highestStreamOpenedByPeer : ℕ
  closeErr : Option E
  nextStreamToAccept : ℕ
  numOutgoingStreams : ℕ
  numIncomingStreams : ℕ
  streamScheduler : Option StreamScheduler

/-- `newStreamsMap`. -/
def newStreamsMap (E : Type) (perspective : Perspective) (params : ConnectionParameters)
    (streamScheduler : Option StreamScheduler) : StreamsMap E where
  perspective := perspective
  flowControlManager := newFlowControlManager params
  stream := newStream E
  streams := ∅
  openStreams := []
  roundRobinIndex := 0
  nextStream := if perspective = .client then 1 else 2
  highestStreamOpenedByPeer := 0
  closeErr := none
  nextStreamToAccept := if perspective = .client then 2 else 1
  numOutgoingStreams := 0
  numIncomingStreams := 0
  streamScheduler := streamScheduler

/-- The errors of the map. -/
inductive StreamsMapError
  | mapAccess
  | tooManyOpenStreams
  | openedFromClientSide (id : ℕ)
  | openedFromServerSide (id : ℕ)
  | smallerThanHighest (id highest : ℕ)
  | removeNonExisting (id : ℕ)
  deriving DecidableEq, Repr

/-- The text of an error. -/
def StreamsMapError.text : StreamsMapError → String
  | .mapAccess => "streamsMap: Error accessing the streams map"
  | .tooManyOpenStreams => "TooManyOpenStreams"
  | .openedFromClientSide id =>
    "InvalidStreamID: attempted to open stream " ++ toString id ++ " from client-side"
  | .openedFromServerSide id =>
    "InvalidStreamID: attempted to open stream " ++ toString id ++ " from server-side"
  | .smallerThanHighest id highest =>
    "InvalidStreamID: attempted to open stream " ++ toString id ++
      ", which is a lot smaller than the highest opened stream, " ++ toString highest
  | .removeNonExisting id => "attempted to remove non-existing stream: " ++ toString id

namespace StreamsMap

variable {E : Type} (m : StreamsMap E)

/-- Changes a stream. -/
def modifyStream (id : ℕ) (f : Stream E → Stream E) : StreamsMap E :=
  { m with stream := Function.update m.stream id (f (m.stream id)) }

/-! ## Opening streams -/

/-- `putStream` of a stream that `session.newStream` has just made. Streams 1 and 3 do not
contribute to the flow control of the connection. -/
def putStream (id : ℕ) : StreamsMap E :=
  let m := { m with
    flowControlManager := m.flowControlManager.newStream id (isData id) }
  if id ∈ m.streams then m
  else
    { m with
      stream := Function.update m.stream id (newStream E id)
      streams := insert id m.streams
      openStreams := m.openStreams ++ [id]
      streamScheduler := m.streamScheduler.map fun sch => sch.addNode id }

/-- Counts a stream that is opened by the peer of `perspective`. Both endpoints call the streams of
the client the incoming ones. -/
def countStream : Perspective → StreamsMap E
  | .server => { m with numIncomingStreams := add32 m.numIncomingStreams 1 }
  | .client => { m with numOutgoingStreams := add32 m.numOutgoingStreams 1 }

/-- `openRemoteStream`. -/
def openRemoteStream (id : ℕ) : Except StreamsMapError (StreamsMap E) :=
  if m.numIncomingStreams ≥ m.flowControlManager.connectionParameters.maxIncomingStreams.toNat then
    .error .tooManyOpenStreams
  else if add32 id maxNewStreamIDDelta < m.highestStreamOpenedByPeer then
    .error (.smallerThanHighest id m.highestStreamOpenedByPeer)
  else
    let m := m.countStream m.perspective
    .ok ({ m with highestStreamOpenedByPeer := max m.highestStreamOpenedByPeer id }.putStream id)

/-- The loop of `GetOrOpenStream`, with at most `fuel` rounds; it has no result if these are not
enough. An error leaves the streams that are open already as they are. -/
def openUpTo (id : ℕ) : ℕ → StreamsMap E → ℕ → Option (StreamsMap E × Option StreamsMapError)
  | 0, _, _ => none
  | fuel + 1, m, sid =>
    if sid ≤ id then
      match m.openRemoteStream sid with
      | .error err => some (m, some err)
      | .ok m => openUpTo id fuel m (add32 sid 2)
    else some (m, none)

/-- What `GetOrOpenStream` checks before it opens a stream: `some` is what it returns then. -/
def refuses (id : ℕ) : Option (Except StreamsMapError Unit) :=
  match m.perspective with
  | .server =>
    if id % 2 = 0 then
      if id ≤ m.nextStream then some (.ok ()) else some (.error (.openedFromClientSide id))
    else if id ≤ m.highestStreamOpenedByPeer then some (.ok ())
    else none
  | .client =>
    if id % 2 = 1 then
      if id ≤ m.nextStream then some (.ok ()) else some (.error (.openedFromServerSide id))
    else if id ≤ m.highestStreamOpenedByPeer then some (.ok ())
    else none

/-- The stream that `GetOrOpenStream` opens first. -/
def firstToOpen : ℕ :=
  let sid := add32 m.highestStreamOpenedByPeer 2
  if sid = 2 ∧ m.perspective = .server then 1 else sid

/-- The stream with an ID, or nil. -/
def lookup (id : ℕ) : Option ℕ := if id ∈ m.streams then some id else none

/-- `GetOrOpenStream`: the stream, `none` if it is closed already, or an error. -/
def getOrOpenStream (id : ℕ) :
    Option (StreamsMap E × Except StreamsMapError (Option ℕ)) :=
  if id ∈ m.streams then some (m, .ok (some id))
  else
    match m.refuses id with
    | some (.ok ()) => some (m, .ok none)
    | some (.error err) => some (m, .error err)
    | none => do
      let (m, err) ← openUpTo id (id + 2) m m.firstToOpen
      match err with
      | some err => some (m, .error err)
      | none => some (m, .ok (m.lookup id))

/-- `openStreamImpl`. -/
def openStreamImpl : Except StreamsMapError (StreamsMap E × ℕ) :=
  if m.numOutgoingStreams ≥ m.flowControlManager.connectionParameters.maxOutgoingStreams.toNat then
    .error .tooManyOpenStreams
  else
    let id := m.nextStream
    let m := m.countStream m.perspective.other
    .ok ({ m with nextStream := add32 m.nextStream 2 }.putStream id, id)

/-- `OpenStream`. An error of the map or the one the session was closed with is no stream. -/
def openStream : StreamsMap E × Option ℕ :=
  match m.closeErr, m.openStreamImpl with
  | none, .ok (m, id) => (m, some id)
  | _, _ => (m, none)

/-- `AcceptStream`: the stream, or the error the session was closed with. There is no result if it
waits. -/
def acceptStream : Option (StreamsMap E × Except E ℕ) :=
  match m.closeErr with
  | some err => some (m, .error err)
  | none =>
    if m.nextStreamToAccept ∈ m.streams then
      some ({ m with nextStreamToAccept := add32 m.nextStreamToAccept 2 },
        .ok m.nextStreamToAccept)
    else none

/-! ## Removing streams -/

/-- `RemoveStream`. -/
def removeStream (id : ℕ) : Except StreamsMapError (StreamsMap E) :=
  if id ∈ m.streams then
    .ok { m with
      numOutgoingStreams :=
        if id % 2 = 0 then sub32 m.numOutgoingStreams 1 else m.numOutgoingStreams
      numIncomingStreams :=
        if id % 2 = 0 then m.numIncomingStreams else sub32 m.numIncomingStreams 1
      openStreams := m.openStreams.erase id
      roundRobinIndex :=
        match m.openStreams.idxOf? id with
        | none => m.roundRobinIndex
        | some i => if i < m.roundRobinIndex then sub32 m.roundRobinIndex 1 else m.roundRobinIndex
      streams := m.streams.erase id }
  else .error (.removeNonExisting id)

/-! ## Iterating over the streams -/

/-- `streamLambda`, with the variables `α` it captures: whether to go on, or an error. -/
abbrev StreamLambda (E α : Type) : Type :=
  StreamsMap E × α → ℕ → (StreamsMap E × α) × Bool × Option StreamsMapError

variable {α : Type}

/-- `iterateFunc`. -/
def iterateFunc (fn : StreamLambda E α) : StreamLambda E α := fun p id =>
  if id ∈ p.1.streams then fn p id else (p, true, some .mapAccess)

/-- The loop of `Iterate`. -/
def iterateOver (fn : StreamLambda E α) :
    List ℕ → StreamsMap E × α → (StreamsMap E × α) × Option StreamsMapError
  | [], p => (p, none)
  | id :: ids, p =>
    match iterateFunc fn p id with
    | (p, _, some err) => (p, some err)
    | (p, true, none) => iterateOver fn ids p
    | (p, false, none) => (p, none)

/-- `Iterate`. -/
def iterate (fn : StreamLambda E α) (p : StreamsMap E × α) :
    (StreamsMap E × α) × Option StreamsMapError :=
  iterateOver fn p.1.openStreams p

/-- The first loop of `RoundRobinIterate`: whether the second one is reached, or an error. -/
def iterateFirst (fn : StreamLambda E α) :
    List ℕ → StreamsMap E × α → (StreamsMap E × α) × Bool × Option StreamsMapError
  | [], p => (p, true, none)
  | id :: ids, p =>
    match iterateFunc fn p id with
    | (p, true, none) | (p, true, some .mapAccess) => iterateFirst fn ids p
    | (p, false, none) | (p, false, some .mapAccess) => (p, false, none)
    | (p, _, some err) => (p, false, some err)

/-- The second loop of `RoundRobinIterate`, from round `i` on. An index that is out of range makes
it panic. -/
def iterateRest (fn : StreamLambda E α) (numStreams startIndex : ℕ) :
    ℕ → ℕ → StreamsMap E × α → Option ((StreamsMap E × α) × Option StreamsMapError)
  | 0, _, p => some (p, none)
  | rounds + 1, i, p => do
    let id ← p.1.openStreams[add32 i startIndex % numStreams]?
    if id = 1 ∨ id = 3 then iterateRest fn numStreams startIndex rounds (i + 1) p
    else
      match iterateFunc fn p id with
      | (p, _, some err) => some (p, some err)
      | (p, cont, none) =>
        let p := ({ p.1 with
          roundRobinIndex := add32 p.1.roundRobinIndex 1 % numStreams }, p.2)
        if cont then iterateRest fn numStreams startIndex rounds (i + 1) p else some (p, none)

/-- `RoundRobinIterate`. -/
def roundRobinIterate (fn : StreamLambda E α) (p : StreamsMap E × α) :
    Option ((StreamsMap E × α) × Option StreamsMapError) :=
  let numStreams := p.1.streams.card
  let startIndex := p.1.roundRobinIndex
  match iterateFirst fn [1, 3] p with
  | (p, _, some err) => some (p, some err)
  | (p, false, none) => some (p, none)
  | (p, true, none) => iterateRest fn numStreams startIndex numStreams 0 p

/-- The callback of `session.garbageCollectStreams`. -/
def collect : StreamLambda E Unit := fun p id =>
  if (p.1.stream id).finished then
    match p.1.removeStream id with
    | .error err => (p, false, some err)
    | .ok m =>
      (({ m with flowControlManager := m.flowControlManager.removeStream id }, ()), true, none)
  else (p, true, none)

/-- `session.garbageCollectStreams`. -/
def garbageCollectStreams : StreamsMap E := (iterate collect (m, ())).1.1

/-! ## Scheduling -/

/-- What the stream scheduler reads from the streams and from flow control. -/
def view (id : ℕ) : StreamView where
  sendWindowSize := (m.flowControlManager.sendWindowSize id).1
  finishedWriteAndSentFin := (m.stream id).finishedWriteAndSentFin
  lenOfDataForWriting := (m.stream id).lenOfDataForWriting

/-! ## Rules

What holds after opening streams, or after iterating over them, follows from what one opened stream,
or one call of the callback, preserves. -/

section Rules

variable {m} {m' : StreamsMap E} {id : ℕ}

/-- What `putStream` preserves, and what does not speak about the counters, is preserved by the
functions that open streams. -/
structure OpenRule (P : StreamsMap E → Prop) : Prop where
  put : ∀ m id, P m → P (m.putStream id)
  counters : ∀ m incoming outgoing highest next, P m → P { m with
    numIncomingStreams := incoming
    numOutgoingStreams := outgoing
    highestStreamOpenedByPeer := highest
    nextStream := next }

variable {P : StreamsMap E → Prop}

theorem OpenRule.countStream (hP : OpenRule P) (hm : P m) :
    (perspective : Perspective) → P (m.countStream perspective)
  | .server => hP.counters m _ m.numOutgoingStreams m.highestStreamOpenedByPeer m.nextStream hm
  | .client => hP.counters m m.numIncomingStreams _ m.highestStreamOpenedByPeer m.nextStream hm

theorem OpenRule.openRemoteStream (hP : OpenRule P) (hm : P m)
    (h : m.openRemoteStream id = .ok m') : P m' := by
  unfold StreamsMap.openRemoteStream at h
  split_ifs at h
  cases h
  apply hP.put
  exact hP.counters _ _ _ _ _ (hP.countStream hm m.perspective)

theorem OpenRule.openUpTo (hP : OpenRule P) {fuel sid : ℕ} {err : Option StreamsMapError}
    (hm : P m) (h : openUpTo id fuel m sid = some (m', err)) : P m' := by
  induction fuel generalizing m sid with
  | zero => cases h
  | succ fuel ih =>
    rw [StreamsMap.openUpTo] at h
    split_ifs at h
    · cases hopen : m.openRemoteStream sid with
      | error e =>
        rw [hopen] at h
        cases h
        exact hm
      | ok m₁ =>
        rw [hopen] at h
        exact ih (hP.openRemoteStream hm hopen) h
    · cases h
      exact hm

theorem OpenRule.getOrOpenStream (hP : OpenRule P) {r : Except StreamsMapError (Option ℕ)}
    (hm : P m) (h : m.getOrOpenStream id = some (m', r)) : P m' := by
  unfold StreamsMap.getOrOpenStream at h
  split_ifs at h
  · cases h
    exact hm
  · cases hrefuses : m.refuses id with
    | none =>
      rw [hrefuses] at h
      obtain ⟨⟨m₁, err⟩, hopen, h⟩ := Option.bind_eq_some_iff.mp h
      have hm₁ := hP.openUpTo hm hopen
      cases err <;> · cases h; exact hm₁
    | some refusal =>
      rw [hrefuses] at h
      cases refusal <;> · cases h; exact hm

theorem OpenRule.openStream (hP : OpenRule P) (hm : P m) : P m.openStream.1 := by
  unfold StreamsMap.openStream
  split
  · next m' id hclose hopen =>
    unfold openStreamImpl at hopen
    split_ifs at hopen
    cases hopen
    apply hP.put
    exact hP.counters _ _ _ _ _ (hP.countStream hm m.perspective.other)
  · exact hm

variable {fn : StreamLambda E α} {Q : StreamsMap E × α → Prop} {p : StreamsMap E × α}

theorem iterateFunc_rule (hfn : ∀ p id, id ∈ p.1.streams → Q p → Q (fn p id).1) (id : ℕ)
    (hp : Q p) : Q (iterateFunc fn p id).1 := by
  unfold iterateFunc
  split
  · next hmem => exact hfn p id hmem hp
  · exact hp

theorem iterateOver_rule (hfn : ∀ p id, id ∈ p.1.streams → Q p → Q (fn p id).1) (ids : List ℕ)
    (hp : Q p) : Q (iterateOver fn ids p).1 := by
  induction ids generalizing p with
  | nil => exact hp
  | cons id ids ih =>
    have hp' := iterateFunc_rule hfn id hp
    rw [iterateOver]
    generalize iterateFunc fn p id = r at hp'
    obtain ⟨p', cont, err⟩ := r
    cases err with
    | some err => exact hp'
    | none =>
      cases cont with
      | true => exact ih hp'
      | false => exact hp'

theorem iterateFirst_rule (hfn : ∀ p id, id ∈ p.1.streams → Q p → Q (fn p id).1) (ids : List ℕ)
    (hp : Q p) : Q (iterateFirst fn ids p).1 := by
  induction ids generalizing p with
  | nil => exact hp
  | cons id ids ih =>
    have hp' := iterateFunc_rule hfn id hp
    rw [iterateFirst]
    generalize iterateFunc fn p id = r at hp'
    obtain ⟨p', cont, err⟩ := r
    split <;> next heq => cases heq; first | exact ih hp' | exact hp'

theorem iterateRest_rule (hfn : ∀ p id, id ∈ p.1.streams → Q p → Q (fn p id).1)
    (hindex : ∀ p i, Q p → Q ({ p.1 with roundRobinIndex := i }, p.2)) {numStreams startIndex : ℕ}
    {rounds i : ℕ} {p' : StreamsMap E × α} {err : Option StreamsMapError} (hp : Q p)
    (h : iterateRest fn numStreams startIndex rounds i p = some (p', err)) : Q p' := by
  induction rounds generalizing i p with
  | zero =>
    cases h
    exact hp
  | succ rounds ih =>
    obtain ⟨id, -, h⟩ := Option.bind_eq_some_iff.mp h
    split_ifs at h
    · exact ih hp h
    · have hp₁ := iterateFunc_rule hfn id hp
      generalize iterateFunc fn p id = r at hp₁ h
      obtain ⟨p₁, cont, err₁⟩ := r
      cases err₁ with
      | some err₁ =>
        cases h
        exact hp₁
      | none =>
        have hp₂ := hindex p₁ (add32 p₁.1.roundRobinIndex 1 % numStreams) hp₁
        cases cont with
        | true => exact ih hp₂ h
        | false =>
          cases h
          exact hp₂

theorem roundRobinIterate_rule (hfn : ∀ p id, id ∈ p.1.streams → Q p → Q (fn p id).1)
    (hindex : ∀ p i, Q p → Q ({ p.1 with roundRobinIndex := i }, p.2)) {p' : StreamsMap E × α}
    {err : Option StreamsMapError} (hp : Q p) (h : roundRobinIterate fn p = some (p', err)) :
    Q p' := by
  unfold roundRobinIterate at h
  have hp₁ := iterateFirst_rule hfn [1, 3] hp
  generalize iterateFirst fn [1, 3] p = r at hp₁ h
  obtain ⟨p₁, cont, err₁⟩ := r
  cases err₁ with
  | some err₁ =>
    cases h
    exact hp₁
  | none =>
    cases cont with
    | true => exact iterateRest_rule hfn hindex hp₁ h
    | false =>
      cases h
      exact hp₁

/-- What removing a stream changes, the counters apart. -/
structure Removes (m : StreamsMap E) (id : ℕ) (m' : StreamsMap E) : Prop where
  mem : id ∈ m.streams
  streams : m'.streams = m.streams.erase id
  stream : m'.stream = m.stream
  flowControlManager : m'.flowControlManager = m.flowControlManager
  streamScheduler : m'.streamScheduler = m.streamScheduler
  perspective : m'.perspective = m.perspective
  nextStream : m'.nextStream = m.nextStream
  highest : m'.highestStreamOpenedByPeer = m.highestStreamOpenedByPeer

theorem removes_of_removeStream (h : m.removeStream id = .ok m') : Removes m id m' := by
  unfold removeStream at h
  split at h
  · next hmem =>
    cases h
    exact ⟨hmem, rfl, rfl, rfl, rfl, rfl, rfl, rfl⟩
  · cases h

/-- What `AcceptStream` changes. -/
theorem acceptStream_cases {r : Except E ℕ} (h : m.acceptStream = some (m', r)) :
    (∃ err, m' = m ∧ r = .error err) ∨ m.nextStreamToAccept ∈ m.streams ∧
      m' = { m with nextStreamToAccept := add32 m.nextStreamToAccept 2 } ∧
      r = .ok m.nextStreamToAccept := by
  unfold acceptStream at h
  split at h
  · next err _ =>
    cases h
    exact Or.inl ⟨err, rfl, rfl⟩
  · split_ifs at h with hmem
    cases h
    exact Or.inr ⟨hmem, rfl, rfl⟩

/-- What holds after garbage collection follows from what removing one finished stream preserves. -/
theorem garbageCollectStreams_invariant
    (hP : ∀ m id m', P m → (m.stream id).finished = true → m.removeStream id = .ok m' →
      P { m' with flowControlManager := m'.flowControlManager.removeStream id })
    (hm : P m) : P m.garbageCollectStreams := by
  refine iterateOver_rule (Q := fun p : StreamsMap E × Unit => P p.1) ?_ m.openStreams
    (p := (m, ())) hm
  rintro ⟨m, u⟩ id _ hm
  unfold collect
  split
  · next hfinished =>
    cases hremove : m.removeStream id with
    | error err => exact hm
    | ok m' => exact hP m id m' hm hfinished hremove
  · exact hm

theorem garbageCollectStreams_rule
    (hP : ∀ m id m', P m → (m.stream id).finished = true → Removes m id m' →
      P { m' with flowControlManager := m'.flowControlManager.removeStream id })
    (hm : P m) : P m.garbageCollectStreams :=
  garbageCollectStreams_invariant (fun m id m' hm hfinished hremove =>
    hP m id m' hm hfinished (removes_of_removeStream hremove)) hm

end Rules

end StreamsMap

/-- Windows of 8 bytes for a stream and 10 bytes for the connection, and a hundred streams in each
direction. -/
def smallWindows : ConnectionParameters where
  sendStreamFlowControlWindow := 8
  sendConnectionFlowControlWindow := 10
  receiveStreamFlowControlWindow := 8
  receiveConnectionFlowControlWindow := 10
  maxReceiveStreamFlowControlWindow := 8
  maxReceiveConnectionFlowControlWindow := 10
  maxOutgoingStreams := 100
  maxIncomingStreams := 100

end MultipathQuic
