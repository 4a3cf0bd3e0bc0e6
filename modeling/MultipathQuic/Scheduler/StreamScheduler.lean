import Mathlib.Logic.Function.Basic
import MultipathQuic.Protocol

/-!
# The stream scheduler

`stream_scheduler.go`: the dependency tree of the streams, and the weighted round robin that picks
the next stream to send. The nodes live in a heap; a pointer to a node is its index, and the root
has index 0. An operation returns `none` where the code panics (a slice out of range, a remainder by
zero, a nil pointer) or does not return.

A stream stands for its ID, since no two streams of a session have the same one. What a scheduling
step reads from the streams and from flow control is an input of it.

## Main definitions

* `Node`, `StreamScheduler`: the tree
* `addNode`, `setActive`, `maybeSetWeight`, `maybeSetParent`: changes of the tree
* `traverse`, `schedule`, `skip`: the next stream
* `bytesUntilCompletion`: how much there is to send before a stream is through
-/

namespace MultipathQuic

/-- The states of a node. -/
inductive NodeState
  | idle
  | active
  | closed
  deriving DecidableEq, Repr

/-- `node`. -/
structure Node where
  id : ℕ
  stream : Option ℕ
  weight : UInt8
  childrensWeight : ℕ
  state : NodeState
  activeChildren : ℕ
  quantum : ℕ
  parent : Option ℕ
  children : List ℕ
  nextChild : ℕ
  lowestQuantum : ℕ
  numerator : ℕ
  denominator : ℕ
  waiting : ℕ
  deriving DecidableEq, Repr

/-- `newNode`. -/
def newNode (id : ℕ) (stream parent : Option ℕ) : Node where
  id := id
  stream := stream
  weight := defaultStreamWeight
  childrensWeight := 0
  state := .idle
  activeChildren := 0
  quantum := 0
  parent := parent
  children := []
  nextChild := 0
  lowestQuantum := 256
  numerator := 1
  denominator := 1
  waiting := 0

/-- `streamScheduler`. `size` is the number of nodes in the heap. -/
structure StreamScheduler where
  node : ℕ → Node
  size : ℕ
  toSend : Option ℕ
  openStreams : ℤ
  nodeMap : ℕ → Option ℕ

/-- `newStreamScheduler`. -/
def newStreamScheduler : StreamScheduler where
  node := fun _ => newNode 0 none none
  size := 1
  toSend := none
  openStreams := 0
  nodeMap := fun _ => none

/-- `Priority`. -/
structure Priority where
  dependency : ℕ
  weight : UInt8
  exclusive : Bool
  deriving DecidableEq, Repr

/-- What a scheduling step reads from a stream and from flow control. -/
structure StreamView where
  sendWindowSize : ℕ
  finishedWriteAndSentFin : Bool
  lenOfDataForWriting : ℕ

/-- The errors of the scheduler. -/
inductive SchedulerError
  | weightOfUnknownStream (id : ℕ)
  | ownParent (id : ℕ)
  | parentOfCryptoStream
  | parentOfHeaderStream
  | parentToCryptoStream
  | unknownChild (childID parentID : ℕ)
  | unknownParent (childID parentID : ℕ)
  | unknownStreamActive (id : ℕ)
  deriving DecidableEq, Repr

/-- The text of an error. -/
def SchedulerError.text : SchedulerError → String
  | .weightOfUnknownStream id => "setting weight of unknown stream " ++ toString id
  | .ownParent id => "setting stream " ++ toString id ++ " as its own parent"
  | .parentOfCryptoStream => "setting parent of crypto stream"
  | .parentOfHeaderStream => "setting parent of header stream"
  | .parentToCryptoStream => "setting parent to crypto stream"
  | .unknownChild childID parentID =>
    "setting unknown stream " ++ toString childID ++ " as exclusive child of stream " ++
      toString parentID
  | .unknownParent childID parentID =>
    "setting stream " ++ toString childID ++ " as exclusive child of unknown stream " ++
      toString parentID
  | .unknownStreamActive id => "setting unknown stream " ++ toString id ++ " active"

namespace StreamScheduler

variable (s : StreamScheduler)

/-- Changes the node at `n`. -/
def modify (n : ℕ) (f : Node → Node) : StreamScheduler :=
  { s with node := Function.update s.node n (f (s.node n)) }

/-- The node is active or has active children; such nodes are in the list of their parent. -/
def attached (n : ℕ) : Prop := (s.node n).state = .active ∨ (s.node n).activeChildren > 0

instance : DecidablePred s.attached := fun _ => inferInstanceAs (Decidable (_ ∨ _))

/-! ## Weights -/

/-- The fields that `addWeight` changes in a node. -/
def appendChild (n child : ℕ) : StreamScheduler :=
  s.modify n fun node =>
    { node with
      childrensWeight := add32 node.childrensWeight ((s.node child).weight.toNat + 1)
      activeChildren := add16 node.activeChildren 1
      children := node.children ++ [child] }

/-- `addWeight`, climbing at most `fuel` nodes. -/
def addWeightUp : ℕ → StreamScheduler → ℕ → ℕ → Option StreamScheduler
  | 0, _, _, _ => none
  | fuel + 1, s, n, child =>
    let s := s.appendChild n child
    match (s.node n).parent with
    | none => some s
    | some p =>
      if (s.node n).state ≠ .active ∧ (s.node n).activeChildren = 1 then addWeightUp fuel s p n
      else some s

/-- `addWeight`. -/
def addWeight (n child : ℕ) : Option StreamScheduler := addWeightUp (s.size + 1) s n child

/-- The index that `removeWeight` computes: it stays 0 if the child is not in the list. -/
def childIndex (children : List ℕ) (child : ℕ) : ℕ := (children.idxOf? child).getD 0

/-- The fields that `removeWeight` changes in a node. -/
def dropChild (n child : ℕ) : StreamScheduler :=
  let children := (s.node n).children.eraseIdx (childIndex (s.node n).children child)
  s.modify n fun node =>
    { node with
      children := children
      nextChild := if children.length = 0 then 0 else node.nextChild % (children.length % 2 ^ 16)
      childrensWeight := sub32 node.childrensWeight (sub32 (s.node child).weight.toNat 1)
      activeChildren := sub16 node.activeChildren 1 }

/-- `removeWeight`, climbing at most `fuel` nodes. It panics on an empty list, and on one that is
left with a multiple of 2^16 children. -/
def removeWeightUp : ℕ → StreamScheduler → ℕ → ℕ → Option StreamScheduler
  | 0, _, _, _ => none
  | fuel + 1, s, n, child =>
    if (s.node n).children = [] then none
    else
      let s := s.dropChild n child
      if (s.node n).children ≠ [] ∧ (s.node n).children.length % 2 ^ 16 = 0 then none
      else
        match (s.node n).parent with
        | none => some s
        | some p => if (s.node n).activeChildren = 0 then removeWeightUp fuel s p n else some s

/-- `removeWeight`. -/
def removeWeight (n child : ℕ) : Option StreamScheduler := removeWeightUp (s.size + 1) s n child

/-- `deactivateNode`. -/
def deactivateNode (n : ℕ) : Option StreamScheduler :=
  let s := s.modify n fun node => { node with state := .closed, stream := none }
  match (s.node n).parent with
  | none => some s
  | some p => if (s.node n).activeChildren = 0 then s.removeWeight p n else some s

/-- The end of `skip` and of `traverse`: turn to the next child. A list of 2^16 children makes it
panic, and so does an empty list. -/
def advance (n : ℕ) : Option StreamScheduler :=
  let len := (s.node n).children.length % 2 ^ 16
  if len = 0 then none
  else some (s.modify n fun node => { node with nextChild := add16 node.nextChild 1 % len })

/-- `skip`, climbing at most `fuel` nodes. -/
def skipUp : ℕ → StreamScheduler → ℕ → Option StreamScheduler
  | 0, _, _ => none
  | fuel + 1, s, n =>
    let s := s.modify n fun node => { node with quantum := 0 }
    match (s.node n).parent with
    | none => some s
    | some p => do
      let s ← s.advance p
      skipUp fuel s p

/-- `skip`. -/
def skip (n : ℕ) : Option StreamScheduler := skipUp (s.size + 1) s n

/-- `bytesUntilCompletion`. -/
def bytesUntilCompletion (view : ℕ → StreamView) (n : ℕ) : Option ℕ := do
  let id ← (s.node n).stream
  let len := (view id).lenOfDataForWriting
  let left := if maxPacketSize < len then sub64 len maxPacketSize else len
  if mul64 (s.node n).lowestQuantum maxPacketSize ≥ left ∨ s.openStreams = 1 then some len
  else if (s.node n).numerator = 0 then none
  else
    let g := sub64 (s.node n).denominator (s.node n).numerator
    some (add64 (mul64 g left) (len / (s.node n).numerator))

/-! ## Streams and priorities -/

/-- Puts a new node into the heap. -/
def allocate (node : Node) : StreamScheduler :=
  { s with node := Function.update s.node s.size node, size := s.size + 1 }

/-- `addNode`. A new node is idle, so that it is not in the list of the root yet. -/
def addNode (streamID : ℕ) : StreamScheduler :=
  if streamID = 1 then s
  else if streamID = 3 then
    let s := s.modify 0 fun node => { node with stream := some streamID, state := .active }
    { s with nodeMap := Function.update s.nodeMap 3 (some 0) }
  else
    let n := s.size
    let s := s.allocate (newNode streamID (some streamID) (some 0))
    { s with nodeMap := Function.update s.nodeMap streamID (some n) }

/-- `maybeSetWeight`. -/
def maybeSetWeight (id : ℕ) (weight : UInt8) : Option (StreamScheduler × Option SchedulerError) :=
  if id = 1 ∨ id = 3 then some (s, none)
  else
    match s.nodeMap id with
    | none => some (s, some (.weightOfUnknownStream id))
    | some n =>
      if (s.node n).weight = weight then some (s, none)
      else do
        let s ←
          if s.attached n then do
            let p ← (s.node n).parent
            let diff : ℤ := weight.toNat - (s.node n).weight.toNat
            some (s.modify p fun node =>
              { node with
                childrensWeight := ((node.childrensWeight + diff) % 2 ^ 32).toNat })
          else some s
        some (s.modify n fun node => { node with weight := weight }, none)

/-- The body of the first loop of `maybeSetParent`: the new parent, which depends on the child, is
moved to the old parent of the child. -/
def moveNewParent (newParent : ℕ) (oldParent : Option ℕ) : Option StreamScheduler := do
  let s ←
    if s.attached newParent then do
      let p ← (s.node newParent).parent
      let s ← s.removeWeight p newParent
      match oldParent with
      | some o => s.addWeight o newParent
      | none => some s
    else some s
  some (s.modify newParent fun node => { node with parent := oldParent })

/-- The first loop of `maybeSetParent`, over the ancestors of the new parent. -/
def moveIfDependent (child newParent : ℕ) (oldParent : Option ℕ) :
    ℕ → StreamScheduler → ℕ → Option StreamScheduler
  | 0, _, _ => none
  | fuel + 1, s, n =>
    match (s.node n).parent with
    | none => some s
    | some _ => do
      let s ← if n = child then s.moveNewParent newParent oldParent else some s
      let next ← (s.node n).parent
      moveIfDependent child newParent oldParent fuel s next

/-- The child is removed from its previous parent. -/
def detachChild (child : ℕ) : Option StreamScheduler :=
  match (s.node child).parent with
  | none => some s
  | some p => do
    let s ← if s.attached child then s.removeWeight p child else some s
    some (s.modify child fun node => { node with parent := none })

/-- One round of the second loop of `maybeSetParent`. -/
def adopt (child newParent c : ℕ) : Option StreamScheduler := do
  let s ←
    if s.attached c then do
      let s ← s.addWeight child c
      s.removeWeight newParent c
    else some s
  some (s.modify c fun node => { node with parent := some child })

/-- The second loop of `maybeSetParent`, from round `i` on. It ranges over the array of the list of
the new parent as it was at its start, while `removeWeight` moves the elements of the list to the
front of the same array. -/
def adoptFrom (child newParent : ℕ) : ℕ → ℕ → List ℕ → StreamScheduler → Option StreamScheduler
  | 0, _, _, s => some s
  | rounds + 1, i, array, s => do
    let c ← array[i]?
    let s ← if c ≠ newParent then s.adopt child newParent c else some s
    let children := (s.node newParent).children
    adoptFrom child newParent rounds (i + 1) (children ++ array.drop children.length) s

/-- The child is added to its new parent. -/
def attachChild (child newParent : ℕ) : Option StreamScheduler :=
  let s := s.modify child fun node => { node with parent := some newParent }
  if s.attached child then s.addWeight newParent child else some s

/-- `maybeSetParent`, once both nodes are known. -/
def setParent (child newParent : ℕ) (exclusive : Bool) : Option StreamScheduler := do
  let oldParent := (s.node child).parent
  let start ← (s.node newParent).parent
  let s ← moveIfDependent child newParent oldParent (s.size + 1) s start
  let s ← s.detachChild child
  let children := (s.node newParent).children
  let s ← if exclusive then adoptFrom child newParent children.length 0 children s else some s
  s.attachChild child newParent

/-- `maybeSetParent`. -/
def maybeSetParent (childID parentID : ℕ) (exclusive : Bool) :
    Option (StreamScheduler × Option SchedulerError) :=
  if childID = parentID then some (s, some (.ownParent childID))
  else if childID = 1 then some (s, some .parentOfCryptoStream)
  else if childID = 3 then some (s, some .parentOfHeaderStream)
  else if parentID = 1 then some (s, some .parentToCryptoStream)
  else
    let parentID := if parentID = 3 then 0 else parentID
    match s.nodeMap childID with
    | none => some (s, some (.unknownChild childID parentID))
    | some child =>
      if exclusive = false ∧ ((s.node child).parent.map fun p => (s.node p).id) = some parentID then
        some (s, none)
      else
        match s.nodeMap parentID with
        | none => some (s, some (.unknownParent childID parentID))
        | some newParent => do
          let s ← s.setParent child newParent exclusive
          some (s, none)

/-- `setActive`. -/
def setActive (id : ℕ) : Option (StreamScheduler × Option SchedulerError) :=
  if id = 1 ∨ id = 3 then some (s, none)
  else
    match s.nodeMap id with
    | none => some (s, some (.unknownStreamActive id))
    | some n => do
      let s := s.modify n fun node => { node with state := .active }
      let p ← (s.node n).parent
      let s ← s.addWeight p n
      some ({ s with openStreams := s.openStreams + 1 }, none)

/-- The calls that `session.SetStreamPriority` makes on the scheduler. -/
def setStreamPriority (id : ℕ) (priority : Priority) :
    Option (StreamScheduler × Option SchedulerError) := do
  let (s, err) ← s.maybeSetWeight id priority.weight
  match err with
  | some err => some (s, some err)
  | none => s.maybeSetParent id priority.dependency priority.exclusive

/-- A stream gets its weight, and then its parent unless that was an error. -/
theorem setStreamPriority_cases {s s' : StreamScheduler} {id : ℕ} {priority : Priority}
    (h : (s.setStreamPriority id priority).map Prod.fst = some s') :
    ∃ s₁ err, s.maybeSetWeight id priority.weight = some (s₁, err) ∧
      (s' = s₁ ∨ err = none ∧
        (s₁.maybeSetParent id priority.dependency priority.exclusive).map Prod.fst = some s') := by
  obtain ⟨r, h, hr⟩ := Option.map_eq_some_iff.mp h
  obtain ⟨⟨s₁, err⟩, hweight, h⟩ := Option.bind_eq_some_iff.mp h
  refine ⟨s₁, err, hweight, ?_⟩
  cases err with
  | some err =>
    cases h
    exact Or.inl hr.symm
  | none => exact Or.inr ⟨rfl, Option.map_eq_some_iff.mpr ⟨r, h, hr⟩⟩

/-! ## Scheduling -/

variable (view : ℕ → StreamView)

/-- The stream of the node has written everything and has sent its FIN. -/
def finished (n : ℕ) : Prop :=
  ∃ id, (s.node n).stream = some id ∧ (view id).finishedWriteAndSentFin = true

/-- The node has a stream, and flow control lets it send. -/
def hasWindow (n : ℕ) : Prop := ∃ id, (s.node n).stream = some id ∧ (view id).sendWindowSize > 0

/-- The node has a stream with buffered data. -/
def hasData (n : ℕ) : Prop :=
  ∃ id, (s.node n).stream = some id ∧ (view id).lenOfDataForWriting > 0

instance (p : ℕ → Prop) [DecidablePred p] (o : Option ℕ) : Decidable (∃ id, o = some id ∧ p id) :=
  match o with
  | none => .isFalse fun ⟨_, h, _⟩ => nomatch h
  | some id => decidable_of_iff (p id) ⟨fun h => ⟨id, rfl, h⟩, fun ⟨_, h, hp⟩ => by cases h; exact hp⟩

instance : DecidablePred (s.finished view) := fun _ => inferInstanceAs (Decidable (∃ _, _ ∧ _))

instance : DecidablePred (s.hasWindow view) := fun _ => inferInstanceAs (Decidable (∃ _, _ ∧ _))

instance : DecidablePred (s.hasData view) := fun _ => inferInstanceAs (Decidable (∃ _, _ ∧ _))

/-- The lowest quantum on the way to a node, as `traverse` computes it. -/
def lowestQuantumOf (node parent : Node) : ℕ :=
  if parent.activeChildren = 1 then parent.lowestQuantum
  else
    let quantum := sub16 node.quantum 1
    if quantum < sub16 node.quantum 1 then quantum else parent.lowestQuantum

/-- **The comparison that would lower `lowestQuantum` is never true.** -/
theorem lowestQuantumOf_eq (node parent : Node) :
    lowestQuantumOf node parent = parent.lowestQuantum := by
  unfold lowestQuantumOf
  dsimp only
  rw [if_neg (Nat.lt_irrefl _), ite_self]

/-- The start of `traverse`: a new quantum, and the share of the bandwidth. The weight is incremented
as an unsigned 8-bit integer. -/
def refresh (n : ℕ) : StreamScheduler :=
  s.modify n fun node =>
    let node := if node.quantum = 0 then { node with quantum := node.weight.toNat + 1 } else node
    match node.parent with
    | none => node
    | some p =>
      { node with
        lowestQuantum := lowestQuantumOf node (s.node p)
        numerator := mul64 (node.weight + 1).toNat (s.node p).numerator
        denominator := mul64 (s.node p).childrensWeight (s.node p).denominator }

/-- Uses up one quantum of a node. -/
def spend (n : ℕ) : StreamScheduler :=
  s.modify n fun node => { node with quantum := sub16 node.quantum 1 }

/-- The loop of `traverse` over the children, with at most `rounds` rounds from round `i` on. -/
def visitChildren (visit : StreamScheduler → ℕ → Option (Option ℕ × StreamScheduler)) (n : ℕ) :
    ℕ → ℕ → StreamScheduler → Option (Option ℕ × StreamScheduler)
  | 0, i, s => if i < (s.node n).children.length then none else some (none, s)
  | rounds + 1, i, s =>
    if i < (s.node n).children.length then do
      let c ← (s.node n).children[(s.node n).nextChild]?
      let (strm, s) ← visit s c
      if strm ≠ none then some (strm, s.spend n) else visitChildren visit n rounds (i + 1) s
    else some (none, s)

/-- The end of `traverse`. -/
def turn (strm : Option ℕ) (n : ℕ) : Option StreamScheduler :=
  match (s.node n).parent with
  | none => some s
  | some p =>
    if (strm = none ∨ (s.node n).quantum = 0) ∧ (s.node p).children ≠ [] then s.advance p
    else some s

/-- `traverse`, descending at most `fuel` levels. -/
def traverse (view : ℕ → StreamView) :
    ℕ → StreamScheduler → ℕ → Option (Option ℕ × StreamScheduler)
  | 0, _, _ => none
  | fuel + 1, s, n =>
    let s := s.refresh n
    if s.finished view n then do
      let s ← { s with openStreams := s.openStreams - 1 }.deactivateNode n
      some (none, s)
    else do
      let (strm, s) ←
        -- the header stream never closes
        if (s.node n).id = 0 ∧ s.hasData view n ∧ s.hasWindow view n then some (some n, s)
        else if (s.node n).id ≠ 0 ∧ (s.node n).state = .active ∧ (s.node n).quantum > 0 ∧
            s.hasWindow view n then some (some n, s.spend n)
        else if (s.node n).activeChildren > 0 ∧ (s.node n).quantum > 0 then
          visitChildren (traverse view fuel) n (s.node n).children.length 0 s
        else some (none, s)
      let s ← s.turn strm n
      some (strm, s)

/-- `schedule`. -/
def schedule : Option (Option ℕ × StreamScheduler) := traverse view (s.size + 1) s 0

end StreamScheduler

/-- `session.SetStreamPriority`. -/
def setStreamPriority (streamScheduler : Option StreamScheduler) (id : ℕ) (priority : Priority) :
    Option (Option StreamScheduler × Option SchedulerError) :=
  match streamScheduler with
  | none => some (none, none)
  | some s => (s.setStreamPriority id priority).map fun r => (some r.1, r.2)

end MultipathQuic
