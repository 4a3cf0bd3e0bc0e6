import Mathlib.Algebra.BigOperators.Group.List.Basic
import Mathlib.Algebra.Order.Ring.Rat
import Mathlib.Data.List.Flatten
import Mathlib.Tactic.Linarith
import MultipathQuic.Astream.TileRows
import MultipathQuic.Library.Interleaving

/-!
# The books of the downloads

`download_thread` and the part of `start_playback_smart` of `dash_client.py` that starts the threads of
a segment, joins them and moves what they recorded into the histories. A thread appends the size of its
segment twice, and the sizes are moved into the history of the durations as well.
-/

namespace MultipathQuic.Astream

/-- The variables of `start_playback_smart` that the threads and the client share. -/
structure Client where
  downloadTimesT : List ℚ
  downloadSizesT : List ℤ
  tilesInSegment : List ℤ
  segmentFiles : List String
  totalSegmentSize : Option ℤ
  previousSegmentsTimes : List ℚ
  previousSegmentsSizes : List ℤ
  recentDownloadSizes : List ℤ
  previousDownloadTimes : List ℚ
  totalDownloaded : ℤ
deriving DecidableEq

def Client.initial : Client := ⟨[], [], [], [], none, [], [], [], [], 0⟩

/-- What becomes of a request: a size after some time, where a negative one is a dropped connection,
or an `IOError`. -/
inductive Response where
  | size (segmentSize : ℤ) (segmentDownloadTime : ℚ)
  | ioError
deriving DecidableEq

structure Download where
  tile : ℤ
  segmentFilename : String
  response : Response

/-- The atomic steps of a thread that other threads or the client can see. -/
inductive Action where
  | time (segmentDownloadTime : ℚ)
  | tile (tile : ℤ)
  | size (segmentSize : ℤ)
  | file (segmentFilename : String)
  | exit
deriving DecidableEq

/-- `download_thread`. A negative size raises a `ValueError`, which ends the thread alone; an `IOError`
ends the process. -/
def downloadThread (d : Download) : List Action :=
  match d.response with
  | .ioError => [.exit]
  | .size segmentSize segmentDownloadTime =>
    if segmentSize < 0 then []
    else [.time segmentDownloadTime, .tile d.tile, .size segmentSize, .file d.segmentFilename,
      .size segmentSize]

/-- One step; `none` if the process is gone. -/
def Client.perform (c : Client) : Action → Option Client
  | .time t => some { c with downloadTimesT := c.downloadTimesT ++ [t] }
  | .tile t => some { c with tilesInSegment := c.tilesInSegment ++ [t] }
  | .size n => some { c with downloadSizesT := c.downloadSizesT ++ [n] }
  | .file name => some { c with segmentFiles := c.segmentFiles ++ [name] }
  | .exit => none

/-- What follows the last `join`. `max` raises a `ValueError` for an empty list. -/
def Client.aggregate (c : Client) : Except PyError Unit × Client :=
  match c.downloadTimesT.max? with
  | none => (.error .valueError, c)
  | some segmentDownloadTime =>
    let totalSegmentSize := c.downloadSizesT.sum
    (.ok (), { c with
      totalSegmentSize := some totalSegmentSize
      previousSegmentsTimes := c.previousSegmentsTimes ++ [segmentDownloadTime]
      recentDownloadSizes := c.recentDownloadSizes ++ c.downloadSizesT
      previousDownloadTimes := c.previousDownloadTimes ++ c.downloadSizesT.map Int.cast
      previousSegmentsSizes := c.previousSegmentsSizes ++ [totalSegmentSize]
      totalDownloaded := c.totalDownloaded + totalSegmentSize
      downloadSizesT := []
      downloadTimesT := [] })

/-- The threads of one segment, run by a schedule, with the list `tiles_in_segment` of this segment.
Without a thread, `download_flag` is not set. -/
def batch (c : Client) (tilesInSegment : List ℤ) (threads : List Download)
    (schedule : List Action) : Option (Except PyError Unit × Client) :=
  let c := { c with tilesInSegment, totalSegmentSize := some 0 }
  if threads.isEmpty then some (.ok (), c)
  else (schedule.foldlM Client.perform c).map Client.aggregate

/-- The clients between two batches. -/
inductive Client.Reached : Client → Prop
  | initial : Reached .initial
  | batch {c c' : Client} {tiles : List ℤ} {threads : List Download} {schedule : List Action}
      (hc : Reached c) (hschedule : Interleaving (threads.map downloadThread) schedule)
      (h : batch c tiles threads schedule = some (.ok (), c')) : Reached c'

/-- The size and the duration of a download that succeeds. -/
def Download.downloaded (d : Download) : Option (ℤ × ℚ) :=
  match d.response with
  | .ioError => none
  | .size segmentSize segmentDownloadTime =>
    if segmentSize < 0 then none else some (segmentSize, segmentDownloadTime)

/-- Each download of a batch is counted once. -/
structure Accounted (c c' : Client) (downloads : List (ℤ × ℚ)) : Prop where
  total : c'.totalSegmentSize = some (downloads.map Prod.fst).sum
  sizes : ∃ sizes, c'.recentDownloadSizes = c.recentDownloadSizes ++ sizes ∧
    sizes.Perm (downloads.map Prod.fst)
  times : ∃ times, c'.previousDownloadTimes = c.previousDownloadTimes ++ times ∧
    times.Perm (downloads.map Prod.snd)

/-! ## Schedules -/

namespace Action

def time? : Action → Option ℚ
  | .time t => some t
  | _ => none

def size? : Action → Option ℤ
  | .size n => some n
  | _ => none

end Action

variable {c : Client} {threads : List Download} {schedule : List Action}

theorem perform_spec (c : Client) {a : Action} (ha : a ≠ .exit) :
    ∃ tiles files, c.perform a = some { c with
      downloadTimesT := c.downloadTimesT ++ a.time?.toList
      downloadSizesT := c.downloadSizesT ++ a.size?.toList
      tilesInSegment := tiles
      segmentFiles := files } := by
  cases a with
  | exit => exact absurd rfl ha
  | tile t => exact ⟨c.tilesInSegment ++ [t], c.segmentFiles,
      by simp [Client.perform, Action.time?, Action.size?]⟩
  | file name => exact ⟨c.tilesInSegment, c.segmentFiles ++ [name],
      by simp [Client.perform, Action.time?, Action.size?]⟩
  | time t | size t => exact ⟨c.tilesInSegment, c.segmentFiles,
      by simp [Client.perform, Action.time?, Action.size?]⟩

theorem filterMap_cons_toList {α β : Type*} (f : α → Option β) (a : α) (l : List α) :
    (a :: l).filterMap f = (f a).toList ++ l.filterMap f := by
  cases h : f a <;> simp [h]

/-- A schedule appends what its actions append, in its order, and leaves the histories alone. -/
theorem foldlM_perform (c : Client) (hexit : .exit ∉ schedule) :
    ∃ tiles files, schedule.foldlM Client.perform c = some { c with
      downloadTimesT := c.downloadTimesT ++ schedule.filterMap Action.time?
      downloadSizesT := c.downloadSizesT ++ schedule.filterMap Action.size?
      tilesInSegment := tiles
      segmentFiles := files } := by
  induction schedule generalizing c with
  | nil => exact ⟨c.tilesInSegment, c.segmentFiles, by simp⟩
  | cons a schedule ih =>
    obtain ⟨ha, hrest⟩ := not_or.mp (mt List.mem_cons.mpr hexit)
    obtain ⟨tiles, files, hstep⟩ := perform_spec c (Ne.symm ha)
    obtain ⟨tiles', files', hsteps⟩ := ih { c with
      downloadTimesT := c.downloadTimesT ++ a.time?.toList
      downloadSizesT := c.downloadSizesT ++ a.size?.toList
      tilesInSegment := tiles
      segmentFiles := files } hrest
    refine ⟨tiles', files', ?_⟩
    rw [List.foldlM_cons, hstep, Option.bind_eq_bind, Option.bind_some, hsteps,
      filterMap_cons_toList, filterMap_cons_toList, List.append_assoc, List.append_assoc]

/-- A thread either appends nothing or records its download. -/
theorem downloadThread_cases (d : Download) :
    (d.downloaded = none ∧ ∀ a ∈ downloadThread d, a = .exit) ∨
    ∃ size time, d.downloaded = some (size, time) ∧ downloadThread d =
      [.time time, .tile d.tile, .size size, .file d.segmentFilename, .size size] := by
  unfold downloadThread Download.downloaded
  cases d.response with
  | ioError => exact .inl ⟨rfl, by simp⟩
  | size segmentSize segmentDownloadTime =>
    by_cases hneg : segmentSize < 0
    · exact .inl ⟨if_pos hneg, by simp [hneg]⟩
    · exact .inr ⟨segmentSize, segmentDownloadTime, if_neg hneg, if_neg hneg⟩

theorem filterMap_eq_nil_of_exit {β : Type*} {f : Action → Option β} (hf : f .exit = none)
    {actions : List Action} (h : ∀ a ∈ actions, a = .exit) : actions.filterMap f = [] :=
  List.filterMap_eq_nil_iff.mpr fun a ha => h a ha ▸ hf

theorem times_threads (threads : List Download) :
    (threads.map downloadThread).flatten.filterMap Action.time? =
      (threads.filterMap Download.downloaded).map Prod.snd := by
  induction threads with
  | nil => rfl
  | cons d threads ih =>
    rw [List.map_cons, List.flatten_cons, List.filterMap_append, ih, List.filterMap_cons]
    rcases downloadThread_cases d with ⟨hnone, hexit⟩ | ⟨size, time, hsome, hthread⟩
    · rw [filterMap_eq_nil_of_exit rfl hexit, hnone, List.nil_append]
    · rw [hthread, hsome]
      rfl

/-- The threads append each size twice. -/
theorem sizes_threads (threads : List Download) :
    ((threads.map downloadThread).flatten.filterMap Action.size?).Perm
      ((threads.filterMap Download.downloaded).map Prod.fst ++
        (threads.filterMap Download.downloaded).map Prod.fst) := by
  induction threads with
  | nil => exact .refl _
  | cons d threads ih =>
    rw [List.map_cons, List.flatten_cons, List.filterMap_append, List.filterMap_cons]
    rcases downloadThread_cases d with ⟨hnone, hexit⟩ | ⟨size, time, hsome, hthread⟩
    · rw [filterMap_eq_nil_of_exit rfl hexit, hnone]
      exact ih
    · rw [hthread, hsome]
      exact ((ih.cons size).trans List.perm_middle.symm).cons size

theorem exit_notMem (hschedule : Interleaving (threads.map downloadThread) schedule)
    (hio : ∀ d ∈ threads, d.response ≠ .ioError) : .exit ∉ schedule := by
  rw [hschedule.perm_flatten.mem_iff, List.mem_flatten]
  rintro ⟨_, hthread, hexit⟩
  obtain ⟨d, hd, rfl⟩ := List.mem_map.mp hthread
  unfold downloadThread at hexit
  cases hresponse : d.response with
  | ioError => exact hio d hd hresponse
  | size segmentSize time =>
    rw [hresponse] at hexit
    dsimp only at hexit
    split_ifs at hexit
    all_goals simp at hexit

/-! ## Batches -/

/-- Nothing is recorded that a batch has not taken yet. -/
theorem Client.Reached.idle (hc : c.Reached) :
    c.downloadTimesT = [] ∧ c.downloadSizesT = [] := by
  induction hc with
  | initial => exact ⟨rfl, rfl⟩
  | @batch c c' tiles threads schedule _ _ h ih =>
    unfold Astream.batch at h
    dsimp only at h
    split_ifs at h
    · obtain rfl := (Prod.mk.inj (Option.some.inj h)).2
      exact ih
    · obtain ⟨joined, -, heq⟩ := Option.map_eq_some_iff.mp h
      unfold Client.aggregate at heq
      split at heq
      · exact absurd (Prod.mk.inj heq).1 (by simp)
      · obtain rfl := (Prod.mk.inj heq).2
        exact ⟨rfl, rfl⟩

/-- **The histories after a batch.** Every size is there twice, in `recent_download_sizes` and in
`previous_download_times`, and no duration is. -/
theorem batch_sizes (hc : c.Reached) (tiles : List ℤ)
    (hschedule : Interleaving (threads.map downloadThread) schedule)
    (hio : ∀ d ∈ threads, d.response ≠ .ioError) :
    ∃ result c' sizes, batch c tiles threads schedule = some (result, c') ∧
      sizes.Perm ((threads.filterMap Download.downloaded).map Prod.fst ++
        (threads.filterMap Download.downloaded).map Prod.fst) ∧
      c'.totalSegmentSize = some sizes.sum ∧
      c'.recentDownloadSizes = c.recentDownloadSizes ++ sizes ∧
      c'.previousDownloadTimes = c.previousDownloadTimes ++ sizes.map Int.cast := by
  obtain ⟨htimes, hsizes⟩ := hc.idle
  have hperm := hschedule.perm_flatten
  have hsum := (hperm.filterMap Action.size?).trans (sizes_threads threads)
  have hmax := times_threads threads ▸ hperm.filterMap Action.time?
  unfold batch
  dsimp only
  split_ifs with hempty
  · rw [List.isEmpty_iff.mp hempty]
    exact ⟨_, _, [], rfl, .refl _, rfl, by simp, by simp⟩
  obtain ⟨tiles', files, heq⟩ := foldlM_perform { c with
    tilesInSegment := tiles
    totalSegmentSize := some 0 } (exit_notMem hschedule hio)
  rw [heq, Option.map_some]
  unfold Client.aggregate
  dsimp only
  rw [htimes, hsizes, List.nil_append, List.nil_append]
  cases hmax? : (schedule.filterMap Action.time?).max? with
  | none =>
    -- `max` fails only if no thread has recorded a download
    rw [List.max?_eq_none_iff.mp hmax?] at hmax
    rw [List.map_eq_nil_iff.mp hmax.nil_eq.symm] at hsum ⊢
    exact ⟨_, _, [], rfl, .refl _, rfl, by simp, by simp⟩
  | some time => exact ⟨_, _, _, rfl, hsum, rfl, rfl, rfl⟩

/-- **A batch is accounted for iff it has downloaded nothing**, whatever the order of its threads. -/
theorem batch_accounted_iff (hc : c.Reached) (tiles : List ℤ)
    (hschedule : Interleaving (threads.map downloadThread) schedule)
    (hio : ∀ d ∈ threads, d.response ≠ .ioError) :
    ∃ result c', batch c tiles threads schedule = some (result, c') ∧
      (Accounted c c' (threads.filterMap Download.downloaded) ↔
        ∀ d ∈ threads, d.downloaded = none) := by
  obtain ⟨result, c', sizes, hbatch, hperm, htotal, hrecent, htimes⟩ :=
    batch_sizes hc tiles hschedule hio
  refine ⟨result, c', hbatch, ?_⟩
  rw [← List.filterMap_eq_nil_iff]
  generalize threads.filterMap Download.downloaded = downloads at hperm
  constructor
  · rintro ⟨-, ⟨sizes', hgrown, hperm'⟩, -⟩
    obtain rfl := List.append_cancel_left (hrecent.symm.trans hgrown)
    have hlength := hperm.length_eq.symm.trans hperm'.length_eq
    rw [List.length_append, List.length_map] at hlength
    exact List.length_eq_zero_iff.mp (by omega)
  · rintro rfl
    obtain rfl : sizes = [] := hperm.eq_nil
    exact ⟨htotal, ⟨[], hrecent, .refl _⟩, ⟨[], htimes, .refl _⟩⟩

/-- Two threads download at the same time. -/
def twoSegments : List Download := [⟨1, "first", .size 100 1⟩, ⟨2, "second", .size 50 2⟩]

/-- The second thread records its segment while the first one does. -/
def overlapping : List Action :=
  [.time 1, .tile 1, .time 2, .tile 2, .size 50, .size 100, .file "first", .file "second", .size 100,
    .size 50]

theorem interleaving_overlapping : Interleaving (twoSegments.map downloadThread) overlapping := by
  apply @Interleaving.step _ [] [_]
  apply @Interleaving.step _ [] [_]
  apply @Interleaving.step _ [_] []
  apply @Interleaving.step _ [_] []
  apply @Interleaving.step _ [_] []
  apply @Interleaving.step _ [] [_]
  apply @Interleaving.step _ [] [_]
  apply @Interleaving.step _ [_] []
  apply @Interleaving.step _ [] [_]
  apply @Interleaving.step _ [_] []
  exact .done (by simp)

theorem batch_accounted_overlapping :
    ∃ result c', batch .initial [] twoSegments overlapping = some (result, c') ∧
      ¬Accounted .initial c' (twoSegments.filterMap Download.downloaded) := by
  obtain ⟨result, c', hbatch, hiff⟩ :=
    batch_accounted_iff .initial [] interleaving_overlapping (by simp [twoSegments])
  refine ⟨result, c', hbatch, fun haccounted => ?_⟩
  have hnone := hiff.mp haccounted _ List.mem_cons_self
  cases hnone

/-- One segment of 100 bytes, downloaded in a second, is counted as two of them, and the durations
grow by two sizes. -/
theorem batch_counts_twice :
    let schedule : List Action := [.time 1, .tile 1, .size 100, .file "seg", .size 100]
    let c' : Client := ⟨[], [], [1], ["seg"], some 200, [1], [200], [100, 100], [100, 100], 200⟩
    Interleaving [downloadThread ⟨1, "seg", .size 100 1⟩] schedule ∧
      batch .initial [] [⟨1, "seg", .size 100 1⟩] schedule = some (.ok (), c') ∧
      ¬Accounted .initial c' [(100, 1)] :=
  ⟨.single (downloadThread ⟨1, "seg", .size 100 1⟩), by decide +kernel,
    fun h => absurd h.total (by decide)⟩

end MultipathQuic.Astream
