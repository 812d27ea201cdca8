import Rewind.Movie.Log

/-!
What polls and vertical interrupts do to a movie. A movie that runs, or runs from the next poll on,
is fed back sample by sample; behind its last sample it ends or grows. Main statement: a poll that
hands over a sample moves the cursor past it (`Log.poll_cases`).
-/

namespace Rewind.Movie

/-- Whether a movie runs, or will from the next poll on. -/
def Task.isUnderway : Task → Bool
  | startRecordingFromReset | recording | startPlaybackFromReset | playback => true
  | _ => false

namespace Log

/-! ## The same movie, and the same movie grown -/

/-- Two logs of one movie that differ at most in position. -/
structure SameReel (log log' : Log) : Prop where
  task : log'.task = log.task
  header : log'.header = log.header
  inputs : log'.inputs = log.inputs

/-- A log of the same movie with samples added at the end. -/
structure GrowsTo (log log' : Log) : Prop where
  uid : log'.header.uid = log.header.uid
  inputs : ∃ more, log'.inputs = log.inputs ++ more

theorem GrowsTo.size_le {log log' : Log} (h : log.GrowsTo log') :
    log.inputs.size ≤ log'.inputs.size := by
  obtain ⟨more, hi⟩ := h.inputs
  rw [hi, Array.size_append]
  exact Nat.le_add_right _ _

theorem SameReel.of_eq {log log' : Log} (h : log' = log) : log.SameReel log' := by
  subst h; exact ⟨rfl, rfl, rfl⟩

theorem SameReel.trans {a b c : Log} (h : a.SameReel b) (h' : b.SameReel c) : a.SameReel c :=
  ⟨h'.task.trans h.task, h'.header.trans h.header, h'.inputs.trans h.inputs⟩

theorem SameReel.growsTo {log log' : Log} (h : log.SameReel log') : log.GrowsTo log' :=
  ⟨congrArg Header.uid h.header, #[], by simp [h.inputs]⟩

theorem SameReel.isActive {log log' : Log} (h : log.SameReel log') :
    log'.isActive = log.isActive := by
  rw [Log.isActive, Log.isActive, h.task]

/-- The movie was left alone but for samples added at its end, unless it has ended. -/
structure GoesOnTo (log : Log) (added : Array Sample) (log' : Log) : Prop where
  isActive : log'.isActive = true → log.isActive = true
  inputs : log'.isActive = true → log'.inputs = log.inputs ++ added
  isRecording : log.task.isRecording = true → log'.task.isRecording = true

theorem SameReel.goesOnTo {log log' : Log} (h : log.SameReel log') : log.GoesOnTo #[] log' :=
  ⟨fun ha => h.isActive ▸ ha, fun _ => by simp [h.inputs], fun hr => h.task ▸ hr⟩

theorem GoesOnTo.trans {a b c : Log} {added more : Array Sample} (h : a.GoesOnTo added b)
    (h' : b.GoesOnTo more c) : a.GoesOnTo (added ++ more) c where
  isActive ha := h.isActive (h'.isActive ha)
  inputs ha := by rw [h'.inputs ha, h.inputs (h'.isActive ha), Array.append_assoc]
  isRecording hr := h'.isRecording (h.isRecording hr)

theorem isActive_of_isRecording {log : Log} (h : log.task.isRecording = true) :
    log.isActive = true := by
  cases ht : log.task <;> simp_all [isActive, Task.isRecording]

theorem isActive_of_isRunning {log : Log} (h : log.task.isRunning = true) :
    log.isActive = true := by
  cases ht : log.task <;> simp_all [isActive, Task.isRunning]

/-! ## Polls -/

/-- A poll may change what the movie is doing, and nothing else, before it looks at the samples. -/
theorem arrive_eq (log : Log) : log.arrive = { log with task := log.arrive.task } := by
  unfold arrive; split <;> rfl

theorem task_arrive {log : Log} (h : log.task.isUnderway = true) :
    log.arrive.task = .playback ∧ log.task.isRecording = false ∨
      log.arrive.task = .recording ∧ log.task.isRecording = true := by
  unfold arrive
  cases ht : log.task <;> rw [ht] at h <;> simp_all [Task.isUnderway, Task.isRecording]

theorem poll_of_idle {log : Log} (h : log.task = .idle) (live : Sample) :
    log.poll 0 live = (.passthrough, live, log) := by
  have ha : log.arrive = log := by unfold arrive; rw [h]
  simp [poll, ha, h, Task.isRunning]

/-- What a poll adds to the movie. -/
def recordedBy (outcome : PollOutcome) (live : Sample) : Array Sample :=
  if outcome = .recorded then #[live] else #[]

theorem size_recordedBy_le (outcome : PollOutcome) (live : Sample) :
    (recordedBy outcome live).size ≤ 1 := by
  unfold recordedBy
  split <;> simp

/-- The movie runs on with its cursor moved past the sample `seen`. -/
structure Consumes (log : Log) (seen : Sample) (log' : Log) : Prop where
  grows : log.GrowsTo log'
  isRunning : log'.task.isRunning = true
  isRecording : log'.task.isRecording = log.task.isRecording
  present : log'.header.controllerPresent 0 = log.header.controllerPresent 0
  cursor : log'.currentSample = log.currentSample + 1
  cursor_le : log'.currentSample ≤ log'.inputs.size
  take_eq : log'.inputs.take log'.currentSample = (log.inputs.take log.currentSample).push seen

/-- The sample at the cursor is played. -/
theorem consumes_played {log : Log} {s : Sample} {task : Task} (ht : task.isRunning = true)
    (hr : task.isRecording = log.task.isRecording)
    (h : log.inputs[log.currentSample]? = some s) :
    log.Consumes s { log with task, currentSample := log.currentSample + 1 } := by
  obtain ⟨hlt, rfl⟩ := Array.getElem?_eq_some_iff.1 h
  exact ⟨⟨rfl, #[], by simp⟩, ht, hr, rfl, rfl, hlt, Array.extract_succ_right (Nat.succ_pos _) hlt⟩

/-- Behind the last sample, the live one is appended. -/
theorem consumes_recorded {log : Log} (hr : log.task.isRecording = true)
    (hc : log.currentSample ≤ log.inputs.size)
    (h : log.inputs[log.currentSample]? = none) (live : Sample) :
    log.Consumes live { log.replaceInputs (log.inputs.push live) with
      task := .recording, currentSample := log.currentSample + 1 } := by
  have hs : log.currentSample = log.inputs.size :=
    Nat.le_antisymm hc (Array.getElem?_eq_none_iff.1 h)
  refine ⟨⟨rfl, #[live], by simp [replaceInputs]⟩, rfl, hr.symm, rfl, rfl,
    by simp [replaceInputs, hs], ?_⟩
  simp [replaceInputs, hs]

/-- A poll hands over a sample, which it may have appended, or playback ends. -/
theorem poll_cases {log : Log} (h : log.task.isUnderway = true)
    (hp : log.header.controllerPresent 0 = true) (hc : log.currentSample ≤ log.inputs.size)
    (live : Sample) :
    (∃ outcome seen log', log.poll 0 live = (outcome, seen, log') ∧
      (outcome = .recorded ∨ outcome = .played) ∧ log.Consumes seen log' ∧
      log'.inputs = log.inputs ++ recordedBy outcome live) ∨
    log.task.isRecording = false ∧
      log.poll 0 live = (.ended, live, { log with task := .playback }) := by
  have harrive := arrive_eq log
  have htask := task_arrive h
  generalize log.arrive.task = task at harrive htask
  have hrun : task.isRunning = true := by
    obtain ⟨rfl, -⟩ | ⟨rfl, -⟩ := htask <;> rfl
  have hrec : task.isRecording = log.task.isRecording := by
    obtain ⟨rfl, hr⟩ | ⟨rfl, hr⟩ := htask <;> exact hr.symm
  unfold poll
  simp only [harrive, hrun, hp, Bool.not_true, Bool.or_self, Bool.false_eq_true, ↓reduceIte]
  cases hi : log.inputs[log.currentSample]? with
  | some s =>
    exact .inl ⟨_, _, _, rfl, .inr rfl, consumes_played hrun hrec hi, by simp [recordedBy]⟩
  | none =>
    obtain ⟨rfl, hr⟩ | ⟨rfl, hr⟩ := htask
    · exact .inr ⟨hr, rfl⟩
    · exact .inl ⟨_, _, _, rfl, .inl rfl, consumes_recorded hr hc hi live,
        by simp [recordedBy, replaceInputs]⟩

/-- A recording feeds back a sample that is there already. -/
theorem poll_of_recording {log : Log} (h : log.task = .recording)
    (hp : log.header.controllerPresent 0 = true) (hlt : log.currentSample < log.inputs.size)
    (live : Sample) : log.poll 0 live = (.played, log.inputs[log.currentSample],
      { log with currentSample := log.currentSample + 1 }) := by
  have ha : log.arrive = log := by unfold arrive; rw [h]
  simp [poll, ha, h, hp, Task.isRunning, hlt]

/-! ## Any controller -/

/-- A controller that is not there is left alone. -/
theorem poll_of_absent {log : Log} {index : Nat}
    (h : log.header.controllerPresent index = false) (live : Sample) :
    log.poll index live = (.passthrough, live, log.arrive) := by
  have ha : log.arrive.header = log.header := by rw [arrive_eq]
  rw [poll, ha, h, Bool.not_false, Bool.or_true]
  rfl

/-- A recording takes what is held behind its last sample. -/
theorem poll_of_recorder {log : Log} (h : log.task.isUnderway = true)
    (hr : log.task.isRecording = true) (hc : log.currentSample = log.inputs.size) {index : Nat}
    (hp : log.header.controllerPresent index = true) (live : Sample) :
    log.poll index live = (.recorded, live, { log.replaceInputs (log.inputs.push live) with
      task := .recording, currentSample := log.currentSample + 1 }) := by
  obtain ⟨-, hn⟩ | ⟨ht, -⟩ := task_arrive h
  · exact absurd (hn.symm.trans hr) Bool.false_ne_true
  · have ha : log.arrive = { log with task := .recording } := by rw [arrive_eq, ht]
    simp [poll, ha, hp, hc, Task.isRunning, replaceInputs]

/-- Playback hands over the sample at the cursor, whatever is held. -/
theorem poll_of_player {log : Log} (h : log.task.isUnderway = true)
    (hr : log.task.isRecording = false) {s : Sample}
    (hs : log.inputs[log.currentSample]? = some s) {index : Nat}
    (hp : log.header.controllerPresent index = true) (live : Sample) :
    log.poll index live = (.played, s,
      { log with task := .playback, currentSample := log.currentSample + 1 }) := by
  obtain ⟨ht, -⟩ | ⟨-, hn⟩ := task_arrive h
  · have ha : log.arrive = { log with task := .playback } := by rw [arrive_eq, ht]
    rw [poll, ha]
    simp only [hp, hs, Task.isRunning]
    rfl
  · exact absurd (hr.symm.trans hn) Bool.false_ne_true

/-- Behind its last sample, playback ends. -/
theorem poll_of_ended {log : Log} (h : log.task.isUnderway = true)
    (hr : log.task.isRecording = false) (hs : log.inputs[log.currentSample]? = none) {index : Nat}
    (hp : log.header.controllerPresent index = true) (live : Sample) :
    log.poll index live = (.ended, live, { log with task := .playback }) := by
  obtain ⟨ht, -⟩ | ⟨-, hn⟩ := task_arrive h
  · have ha : log.arrive = { log with task := .playback } := by rw [arrive_eq, ht]
    rw [poll, ha]
    simp only [hp, hs, Task.isRunning]
    rfl
  · exact absurd (hr.symm.trans hn) Bool.false_ne_true

/-- A vertical interrupt changes nothing but the two counts of them. -/
theorem vi_eq (log : Log) : ∃ currentVi lengthVis,
    log.vi = { log with currentVi, header.lengthVis := lengthVis } := by
  unfold vi
  simp only
  split
  · exact ⟨log.currentVi, log.header.lengthVis, rfl⟩
  · split
    · exact ⟨_, _, rfl⟩
    · exact ⟨_, log.header.lengthVis, rfl⟩

end Log

end Rewind.Movie
